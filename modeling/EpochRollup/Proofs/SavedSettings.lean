/-
This file saves settings and reads them back. Settings whose numbers are in range come back as
they were, also where a field has no value: that it has none is written down, so the default of the
field does not take its place. Whatever is read from a document is in range, so it can be saved and
read back in turn (`Settings.codec`), from the document or from its text.
-/

import EpochRollup.Config.Written
import EpochRollup.Proofs.Json
import Mathlib.Data.List.Nodup

namespace EpochRollup

/-! ### Fields of a table -/

/-- A name that stands once has the value that stands with it. -/
theorem field?_of_mem {fields : List (String × Document)} (distinct : (fields.map Prod.fst).Nodup)
    {field : String × Document} (member : field ∈ fields) :
    field? fields field.1 = some field.2 := by
  have only (other : String × Document) (among : other ∈ fields) (same : other.1 = field.1) :
      other = field :=
    List.inj_on_of_nodup_map distinct among member same
  unfold field?
  cases found : fields.reverse.find? (·.1 = field.1) with
  | none => simpa using List.find?_eq_none.mp found field (List.mem_reverse.mpr member)
  | some other =>
    have same : other.1 = field.1 := by simpa using List.find?_some found
    rw [only other (List.mem_reverse.mp (List.mem_of_find?_eq_some found)) same, Option.map_some]

/-- In a table with every name once, each field has its own slot, whatever else there is. -/
theorem Slot.ofDocument?_table (surplus : Surplus) {others fields : List (String × Document)}
    (distinct : ((others ++ fields).map Prod.fst).Nodup) :
    Slot.ofDocument? surplus (fields.map Prod.fst) (.table (others ++ fields)) =
      some (fields.map fun field => .present field.2) := by
  simp only [Slot.ofDocument?, List.map_map, Option.some.injEq]
  apply List.map_congr_left
  intro field member
  simp only [Function.comp_apply, field?_of_mem distinct (List.mem_append_right others member)]

/-! ### Readers and writers that agree -/

namespace Document

variable {Value : Type}

/-- A reader gives valid values only, and reads back each of them from what is written of it. -/
structure Codec (read : Document → Option Value) (write : Value → Document)
    (valid : Value → Prop) : Prop where
  readsBack : ∀ {value}, valid value → read (write value) = some value
  accepts : ∀ {document value}, read document = some value → valid value

theorem natCodec (limit : Nat) : Codec (natBelow? limit) ofNat (· < limit) where
  readsBack := by
    intro value inRange
    have bounds : 0 ≤ (value : Int) ∧ (value : Int) < limit := by omega
    rw [ofNat, natBelow?, if_pos bounds, Int.toNat_natCast]
  accepts := by
    intro document value found
    unfold natBelow? at found
    split at found
    · split at found
      · have same := Option.some.inj found
        omega
      · cases found
    · split at found
      · have same := Option.some.inj found
        omega
      · cases found
    · cases found

theorem wordCodec : Codec word? ofNat (· < wordLimit) := natCodec wordLimit

theorem storedCodec : Codec stored? .integer IsStored where
  readsBack inRange := if_pos inRange
  accepts := by
    intro document value found
    unfold stored? at found
    split at found
    · split at found
      · next inRange => exact Option.some.inj found ▸ inRange
      · cases found
    · split at found
      · have same := Option.some.inj found
        unfold IsStored
        omega
      · cases found
    · cases found

theorem textCodec : Codec text? .text (fun _ => True) where
  readsBack _ := rfl
  accepts _ := trivial

theorem writingCodec : Codec writing? .text (fun _ => True) where
  readsBack _ := rfl
  accepts _ := trivial

theorem sslModeCodec :
    Codec SslMode.ofDocument? (fun mode => .text mode.name) (fun _ => True) where
  readsBack := by
    intro mode _
    cases mode <;> rfl
  accepts _ := trivial

namespace Codec

variable {read : Document → Option Value} {write : Value → Document} {valid : Value → Prop}

/-- A value that may be missing is told from a missing one, when none is written like it. -/
theorem optional (codec : Codec read write valid) (written : ∀ value, write value ≠ .null) :
    Codec (Slot.optional read) (ofOption write) (fun found => ∀ value ∈ found, valid value) where
  readsBack := by
    intro found inRange
    cases found with
    | none => rfl
    | some value =>
      have back := codec.readsBack (inRange value rfl)
      unfold ofOption Slot.optional
      split
      · next missing => exact absurd missing (written value)
      · rw [back, Option.map_some]
  accepts := by
    intro document found isRead value member
    unfold Slot.optional at isRead
    split at isRead
    · rw [← Option.some.inj isRead] at member
      cases member
    · obtain ⟨inner, innerRead, rfl⟩ := Option.map_eq_some_iff.mp isRead
      rw [← Option.some.inj member]
      exact codec.accepts innerRead

theorem required_present (codec : Codec read write valid) {value : Value}
    (passes : valid value) : (Slot.present (write value)).required read = some value :=
  codec.readsBack passes

theorem orElse_present (codec : Codec read write valid) {value : Value} (passes : valid value)
    (fallback : Value) : (Slot.present (write value)).orElse fallback read = some value :=
  codec.readsBack passes

theorem missing_present (codec : Codec (Slot.optional read) (ofOption write)
      (fun found => ∀ value ∈ found, valid value)) {found : Option Value}
    (passes : ∀ value ∈ found, valid value) :
    (Slot.present (ofOption write found)).missing read = some found :=
  codec.readsBack passes

/-- What a field with a default is read as is valid, when the default is. -/
theorem orElse_valid (codec : Codec read write valid) {fallback : Value}
    (passes : valid fallback) {slot : Slot} {value : Value}
    (found : slot.orElse fallback read = some value) : valid value := by
  cases slot with
  | present document => exact codec.accepts found
  | unnamed => exact Option.some.inj found ▸ passes
  | beyond => exact Option.some.inj found ▸ passes

end Codec

theorem optionalWordCodec :
    Codec (Slot.optional word?) (ofOption ofNat)
      (fun found => ∀ value ∈ found, value < wordLimit) :=
  wordCodec.optional fun _ => nofun

theorem portCodec :
    Codec (Slot.optional (natBelow? UInt16.size)) (ofOption ofNat)
      (fun found => ∀ value ∈ found, value < UInt16.size) :=
  (natCodec UInt16.size).optional fun _ => nofun

theorem optionalTextCodec :
    Codec (Slot.optional text?) (ofOption .text) (fun found => ∀ value ∈ found, True) :=
  textCodec.optional fun _ => nofun

end Document

/-! ### Sections in range -/

open Document

/-- The numbers of a chain section fit their words. -/
structure ChainSettings.InRange (settings : ChainSettings) : Prop where
  genesisTimestamp : IsStored settings.genesisTimestamp
  secondsPerSlot : settings.secondsPerSlot < wordLimit
  slotsPerEpoch : settings.slotsPerEpoch < wordLimit

/-- The numbers of a rollup section fit their words. -/
structure RollupSettings.InRange (settings : RollupSettings) : Prop where
  hourlyWidth : ∀ width ∈ settings.hourlyWidth, width < wordLimit
  hourlyPartitionBuckets : settings.hourlyPartitionBuckets < wordLimit
  dailyPartitionBuckets : settings.dailyPartitionBuckets < wordLimit
  hourlyRetention : ∀ retention ∈ settings.hourlyRetention, retention < wordLimit
  dailyRetention : ∀ retention ∈ settings.dailyRetention, retention < wordLimit

/-- The numbers of a server fit their words, which are not all of one size. -/
structure ServerSettings.InRange (settings : ServerSettings) : Prop where
  port : ∀ port ∈ settings.port, port < UInt16.size
  maxConnections : settings.maxConnections < UInt32.size
  statementTimeout : ∀ timeout ∈ settings.statementTimeout, timeout < wordLimit

/-- The numbers of a database section fit their words. -/
def DatabaseSettings.InRange : DatabaseSettings → Prop
  | .sqlite _ queryTimeout => ∀ timeout ∈ queryTimeout, timeout < wordLimit
  | .postgres server => server.InRange

/-- The number of a scheduler section fits its word. -/
structure SchedulerSettings.InRange (settings : SchedulerSettings) : Prop where
  intervalSeconds : settings.intervalSeconds < wordLimit

/-- The numbers of all sections fit their words. -/
structure Settings.InRange (settings : Settings) : Prop where
  chain : settings.chain.InRange
  rollup : settings.rollup.InRange
  database : settings.database.InRange
  scheduler : settings.scheduler.InRange

theorem Settings.default_inRange : Settings.default.InRange where
  chain := ⟨by decide, by decide, by decide⟩
  rollup := ⟨by simp [default, RollupSettings.default], by decide, by decide,
    by simp [default, RollupSettings.default], by simp [default, RollupSettings.default]⟩
  database := by
    intro timeout member
    rw [← Option.some.inj member]
    decide
  scheduler := ⟨by decide⟩

/-! ### Sections read back -/

theorem ChainSettings.codec (surplus : Surplus) :
    Codec (ofDocument? surplus) document InRange where
  readsBack := by
    intro settings inRange
    have slots : Slot.ofDocument? surplus
        ["genesis_timestamp", "seconds_per_slot", "slots_per_epoch"] settings.document = some
          [.present (.integer settings.genesisTimestamp),
            .present (.ofNat settings.secondsPerSlot), .present (.ofNat settings.slotsPerEpoch)] :=
      @Slot.ofDocument?_table surplus [] _ (by simp)
    simp [ofDocument?, slots, storedCodec.orElse_present inRange.genesisTimestamp,
      wordCodec.orElse_present inRange.secondsPerSlot,
      wordCodec.orElse_present inRange.slotsPerEpoch]
  accepts := by
    intro document settings found
    simp only [ofDocument?, Option.bind_eq_bind, Option.bind_eq_some_iff] at found
    obtain ⟨slots, -, found⟩ := found
    split at found
    · simp only [Option.bind_eq_some_iff, Option.pure_def, Option.some.injEq] at found
      obtain ⟨genesis, genesisRead, seconds, secondsRead, slots, slotsRead, rfl⟩ := found
      exact ⟨storedCodec.orElse_valid (by decide) genesisRead,
        wordCodec.orElse_valid (by decide) secondsRead,
        wordCodec.orElse_valid (by decide) slotsRead⟩
    · cases found

theorem RollupSettings.codec (surplus : Surplus) :
    Codec (ofDocument? surplus) document InRange where
  readsBack := by
    intro settings inRange
    have slots : Slot.ofDocument? surplus
        ["hourly_width_epochs", "hourly_partition_buckets", "daily_partition_buckets",
          "hourly_retention_epochs", "daily_retention_epochs"] settings.document = some
          [.present (.ofOption .ofNat settings.hourlyWidth),
            .present (.ofNat settings.hourlyPartitionBuckets),
            .present (.ofNat settings.dailyPartitionBuckets),
            .present (.ofOption .ofNat settings.hourlyRetention),
            .present (.ofOption .ofNat settings.dailyRetention)] :=
      @Slot.ofDocument?_table surplus [] _ (by simp)
    simp [ofDocument?, slots,
      optionalWordCodec.orElse_present inRange.hourlyWidth,
      wordCodec.orElse_present inRange.hourlyPartitionBuckets,
      wordCodec.orElse_present inRange.dailyPartitionBuckets,
      optionalWordCodec.orElse_present inRange.hourlyRetention,
      optionalWordCodec.orElse_present inRange.dailyRetention]
  accepts := by
    intro document settings found
    simp only [ofDocument?, Option.bind_eq_bind, Option.bind_eq_some_iff] at found
    obtain ⟨slots, -, found⟩ := found
    split at found
    · simp only [Option.bind_eq_some_iff, Option.pure_def, Option.some.injEq] at found
      obtain ⟨width, widthRead, hourly, hourlyRead, daily, dailyRead, hourlyKept, hourlyKeptRead,
        dailyKept, dailyKeptRead, rfl⟩ := found
      exact ⟨optionalWordCodec.orElse_valid (by simp) widthRead,
        wordCodec.orElse_valid (by decide) hourlyRead,
        wordCodec.orElse_valid (by decide) dailyRead,
        optionalWordCodec.orElse_valid (by simp) hourlyKeptRead,
        optionalWordCodec.orElse_valid (by simp) dailyKeptRead⟩
    · cases found

/-- A server is read back from its fields, whatever other fields stand before them. -/
theorem ServerSettings.ofDocument?_fields {settings : ServerSettings} (inRange : settings.InRange)
    {others : List (String × Document)}
    (distinct : ((others ++ settings.fields).map Prod.fst).Nodup) :
    ofDocument? (.table (others ++ settings.fields)) = some settings := by
  have slots : Slot.ofDocument? .refused
      ["url", "host", "port", "username", "password", "database", "ssl_mode", "max_connections",
        "statement_timeout_ms"] (.table (others ++ settings.fields)) = some
        [.present (.ofOption .text settings.url), .present (.ofOption .text settings.host),
          .present (.ofOption .ofNat settings.port),
          .present (.ofOption .text settings.username),
          .present (.ofOption .text settings.password),
          .present (.ofOption .text settings.database),
          .present (.ofOption (fun mode => .text mode.name) settings.sslMode),
          .present (.ofNat settings.maxConnections),
          .present (.ofOption .ofNat settings.statementTimeout)] :=
    Slot.ofDocument?_table .refused distinct
  have text (found : Option String) :
      (Slot.present (ofOption .text found)).missing text? = some found :=
    optionalTextCodec.missing_present fun _ _ => trivial
  have mode (found : Option SslMode) :
      (Slot.present (ofOption (fun mode => .text mode.name) found)).missing
        SslMode.ofDocument? = some found :=
    (sslModeCodec.optional fun _ => nofun).missing_present fun _ _ => trivial
  simp [ofDocument?, slots, text, mode,
    portCodec.orElse_present inRange.port,
    (natCodec UInt32.size).orElse_present inRange.maxConnections,
    optionalWordCodec.orElse_present inRange.statementTimeout]

theorem ServerSettings.inRange_of_ofDocument? {document : Document} {settings : ServerSettings}
    (found : ofDocument? document = some settings) : settings.InRange := by
  simp only [ofDocument?, Option.bind_eq_bind, Option.bind_eq_some_iff] at found
  obtain ⟨slots, -, found⟩ := found
  split at found
  · simp only [Option.bind_eq_some_iff, Option.pure_def, Option.some.injEq] at found
    obtain ⟨url, -, host, -, port, portRead, username, -, password, -, database, -, mode, -,
      connections, connectionsRead, timeout, timeoutRead, rfl⟩ := found
    exact ⟨portCodec.orElse_valid (by decide) portRead,
      (natCodec UInt32.size).orElse_valid (by decide) connectionsRead,
      optionalWordCodec.orElse_valid (by decide) timeoutRead⟩
  · cases found

theorem DatabaseSettings.inRange_of_sqlite {document : Document} {settings : DatabaseSettings}
    (found : sqliteOfDocument? document = some settings) : settings.InRange := by
  simp only [sqliteOfDocument?, Option.bind_eq_bind, Option.bind_eq_some_iff] at found
  obtain ⟨slots, -, found⟩ := found
  split at found
  · simp only [Option.bind_eq_some_iff, Option.pure_def, Option.some.injEq] at found
    obtain ⟨path, -, timeout, timeoutRead, rfl⟩ := found
    exact optionalWordCodec.orElse_valid (by decide) timeoutRead
  · cases found

theorem DatabaseSettings.codec : Codec ofDocument? document InRange where
  readsBack := by
    intro settings inRange
    cases settings with
    | sqlite path queryTimeout =>
      have distinct : ([("type", .text "sqlite"), ("path", .text path),
          ("query_timeout_secs", .ofOption .ofNat queryTimeout)].map
            (Prod.fst : String × Document → String)).Nodup := by simp
      have kind := field?_of_mem distinct List.mem_cons_self
      have slots : Slot.ofDocument? .refused ["path", "query_timeout_secs"]
          (document (.sqlite path queryTimeout)) = some
            [.present (.text path), .present (.ofOption .ofNat queryTimeout)] :=
        @Slot.ofDocument?_table .refused [("type", .text "sqlite")] _ distinct
      have back : sqliteOfDocument? (document (.sqlite path queryTimeout)) =
          some (.sqlite path queryTimeout) := by
        simp [sqliteOfDocument?, slots, textCodec.required_present trivial,
          optionalWordCodec.orElse_present inRange]
      rw [document, ofDocument?, kind]
      exact back
    | postgres server =>
      have distinct : ((("type", .text "postgres") :: server.fields).map Prod.fst).Nodup := by
        simp [ServerSettings.fields]
      have kind := field?_of_mem distinct List.mem_cons_self
      have back := @ServerSettings.ofDocument?_fields server inRange [("type", .text "postgres")]
        distinct
      rw [document, ofDocument?, kind]
      exact congrArg (Option.map postgres) back
  accepts := by
    intro document settings found
    have ofKind {kind fields : Document} (found : ofKind? kind fields = some settings) :
        settings.InRange := by
      unfold ofKind? at found
      split at found
      · exact inRange_of_sqlite found
      · exact inRange_of_sqlite found
      · obtain ⟨server, serverRead, rfl⟩ := Option.map_eq_some_iff.mp found
        exact ServerSettings.inRange_of_ofDocument? serverRead
      · obtain ⟨server, serverRead, rfl⟩ := Option.map_eq_some_iff.mp found
        exact ServerSettings.inRange_of_ofDocument? serverRead
      · cases found
    unfold ofDocument? at found
    split at found
    · obtain ⟨kind, -, found⟩ := Option.bind_eq_some_iff.mp found
      exact ofKind found
    · exact ofKind found
    · cases found

theorem SchedulerSettings.codec (surplus : Surplus) :
    Codec (ofDocument? surplus) document InRange where
  readsBack := by
    intro settings inRange
    -- The slots stay unknown: with the numeral in view, reducing the match compares it with the
    -- limit one by one.
    obtain ⟨interval, address, slots, intervalRead, addressRead⟩ : ∃ interval address,
        Slot.ofDocument? surplus ["interval_secs", "metrics_bind"] settings.document =
            some [interval, address] ∧
          interval.orElse default.intervalSeconds word? = some settings.intervalSeconds ∧
          address.orElse none (Slot.optional writing?) = some settings.metricsBind :=
      ⟨.present (.ofNat settings.intervalSeconds), .present (.ofOption .text settings.metricsBind),
        @Slot.ofDocument?_table surplus [] _ (by simp),
        wordCodec.orElse_present inRange.intervalSeconds _,
        (writingCodec.optional fun _ => nofun).orElse_present (fun _ _ => trivial) _⟩
    simp [ofDocument?, slots, intervalRead, addressRead]
  accepts := by
    intro document settings found
    simp only [ofDocument?, Option.bind_eq_bind, Option.bind_eq_some_iff] at found
    obtain ⟨slots, -, found⟩ := found
    split at found
    · simp only [Option.bind_eq_some_iff, Option.pure_def, Option.some.injEq] at found
      obtain ⟨interval, intervalRead, bind, -, rfl⟩ := found
      exact ⟨wordCodec.orElse_valid (by decide) intervalRead⟩
    · cases found

theorem Settings.codec (surplus : Surplus) : Codec (ofDocument? surplus) document InRange where
  readsBack := by
    intro settings inRange
    have slots : Slot.ofDocument? surplus ["chain", "rollup", "database", "scheduler"]
        settings.document = some
          [.present settings.chain.document, .present settings.rollup.document,
            .present settings.database.document, .present settings.scheduler.document] :=
      @Slot.ofDocument?_table surplus [] _ (by simp)
    simp [ofDocument?, slots,
      (ChainSettings.codec surplus).orElse_present inRange.chain,
      (RollupSettings.codec surplus).orElse_present inRange.rollup,
      DatabaseSettings.codec.orElse_present inRange.database,
      (SchedulerSettings.codec surplus).orElse_present inRange.scheduler]
  accepts := by
    intro document settings found
    simp only [ofDocument?, Option.bind_eq_bind, Option.bind_eq_some_iff] at found
    obtain ⟨slots, -, found⟩ := found
    split at found
    · simp only [Option.bind_eq_some_iff, Option.pure_def, Option.some.injEq] at found
      obtain ⟨chain, chainRead, rollup, rollupRead, database, databaseRead, scheduler,
        schedulerRead, rfl⟩ := found
      exact ⟨(ChainSettings.codec surplus).orElse_valid default_inRange.chain chainRead,
        (RollupSettings.codec surplus).orElse_valid default_inRange.rollup rollupRead,
        DatabaseSettings.codec.orElse_valid default_inRange.database databaseRead,
        (SchedulerSettings.codec surplus).orElse_valid default_inRange.scheduler schedulerRead⟩
    · cases found

/-! ### Sections as text -/

namespace Document

theorem plain_ofNat {value : Nat} (word : value < wordLimit) : (ofNat value).Plain :=
  .integer ⟨by omega, by omega⟩

theorem plain_ofOption {Value : Type} {write : Value → Document} {found : Option Value}
    (each : ∀ value ∈ found, (write value).Plain) : (ofOption write found).Plain := by
  cases found with
  | none => exact .null
  | some value => exact each value rfl

end Document

theorem ChainSettings.InRange.plain {settings : ChainSettings} (inRange : settings.InRange) :
    settings.document.Plain := by
  have genesis : Numeral.IsWhole settings.genesisTimestamp := by
    obtain ⟨lower, upper⟩ := inRange.genesisTimestamp
    have wider : (storedLimit : Int) ≤ wordLimit := by decide
    exact ⟨lower, by omega⟩
  apply Plain.table
  simp [Plain.integer genesis, plain_ofNat inRange.secondsPerSlot,
    plain_ofNat inRange.slotsPerEpoch]

theorem RollupSettings.InRange.plain {settings : RollupSettings} (inRange : settings.InRange) :
    settings.document.Plain := by
  apply Plain.table
  simp [plain_ofOption fun value member => plain_ofNat (inRange.hourlyWidth value member),
    plain_ofNat inRange.hourlyPartitionBuckets, plain_ofNat inRange.dailyPartitionBuckets,
    plain_ofOption fun value member => plain_ofNat (inRange.hourlyRetention value member),
    plain_ofOption fun value member => plain_ofNat (inRange.dailyRetention value member)]

theorem ServerSettings.InRange.plain {settings : ServerSettings} (inRange : settings.InRange) :
    ∀ field ∈ settings.fields, field.2.Plain := by
  have text (found : Option String) : (ofOption .text found).Plain :=
    plain_ofOption fun value _ => .text value
  have mode (found : Option SslMode) : (ofOption (fun mode => .text mode.name) found).Plain :=
    plain_ofOption fun mode _ => .text mode.name
  have port : (ofOption ofNat settings.port).Plain :=
    plain_ofOption fun port member =>
      plain_ofNat (Nat.lt_of_lt_of_le (inRange.port port member) (by decide))
  have connections : (ofNat settings.maxConnections).Plain :=
    plain_ofNat (Nat.lt_of_lt_of_le inRange.maxConnections (by decide))
  simp [fields, text, mode, port, connections,
    plain_ofOption fun value member => plain_ofNat (inRange.statementTimeout value member)]

theorem DatabaseSettings.InRange.plain {settings : DatabaseSettings} (inRange : settings.InRange) :
    settings.document.Plain := by
  cases settings with
  | sqlite path queryTimeout =>
    apply Plain.table
    simp [Plain.text, plain_ofOption fun value member => plain_ofNat (inRange value member)]
  | postgres server =>
    apply Plain.table
    intro field member
    rcases List.mem_cons.mp member with rfl | among
    · exact .text "postgres"
    · exact ServerSettings.InRange.plain inRange field among

theorem SchedulerSettings.InRange.plain {settings : SchedulerSettings}
    (inRange : settings.InRange) : settings.document.Plain := by
  apply Plain.table
  simp [plain_ofNat inRange.intervalSeconds, plain_ofOption fun value _ => Plain.text value]

theorem Settings.InRange.plain {settings : Settings} (inRange : settings.InRange) :
    settings.document.Plain := by
  apply Plain.table
  simp [inRange.chain.plain, inRange.rollup.plain, inRange.database.plain, inRange.scheduler.plain]

/-! ### Saving and loading -/

namespace Settings

/-- What is saved as text is loaded again, on one line or with an item a line. -/
theorem read?_text {settings : Settings} (inRange : settings.InRange) (surplus : Surplus) :
    (Json.read? settings.document.compact).bind (ofDocument? surplus) = some settings ∧
      (Json.read? settings.document.pretty).bind (ofDocument? surplus) = some settings := by
  have back := (codec surplus).readsBack inRange
  constructor
  · rw [Document.compact, Json.read?_write Json.Style.compact_blank inRange.plain]
    exact back
  · rw [Document.pretty, Json.read?_write Json.Style.pretty_blank inRange.plain]
    exact back

/-- Settings survive being saved and loaded. Those whose numbers fit their words come back as they
are, from their document and from its text. Those that any document holds are among them, so they
are refused for the same reason after they were saved as before, or not at all. -/
theorem survive_saving (surplus : Surplus) :
    (∀ settings : Settings, settings.InRange →
      ofDocument? surplus settings.document = some settings ∧
        (Json.read? settings.document.compact).bind (ofDocument? surplus) = some settings ∧
        (Json.read? settings.document.pretty).bind (ofDocument? surplus) = some settings) ∧
      ∀ (document : Document) (settings : Settings),
        ofDocument? surplus document = some settings →
          settings.InRange ∧
            ∃ again, ofDocument? surplus settings.document = some again ∧
              (Json.read? settings.document.compact).bind (ofDocument? surplus) = some again ∧
              again = settings ∧ again.refusal = settings.refusal := by
  constructor
  · intro settings inRange
    exact ⟨(codec surplus).readsBack inRange, read?_text inRange surplus⟩
  · intro document settings found
    have inRange := (codec surplus).accepts found
    exact ⟨inRange, settings, (codec surplus).readsBack inRange, (read?_text inRange surplus).1,
      rfl, rfl⟩

namespace Unbounded

/-- A server without a port and without a limit on its statements, where the defaults have both. -/
def server : ServerSettings where
  url := none
  host := some "/run/postgresql"
  port := none
  username := none
  password := some "a \"quoted\"\nword"
  database := some "rollups"
  sslMode := some .require
  maxConnections := 4
  statementTimeout := none

/-- Settings of a chain that began before 1970. -/
def settings : Settings :=
  ⟨⟨-86400, 12, 32⟩, ⟨none, 24, 6, some 675, none⟩, .postgres server, ⟨60, some "[::1]:9090"⟩⟩

theorem inRange : settings.InRange where
  chain := ⟨by decide, by decide, by decide⟩
  rollup := ⟨by decide, by decide, by decide, by decide, by decide⟩
  database := ⟨by decide, by decide, by decide⟩
  scheduler := ⟨by decide⟩

/-- A document that says that there is no port, and leaves out the limit. -/
def document : Document :=
  .table
    [("rollup", .table [("hourly_retention_epochs", .integer 675)]),
      ("database", .table
        [("port", .null), ("host", .text "/run/postgresql"), ("type", .text "postgres"),
          ("database", .text "rollups")])]

/-- What that document holds. -/
def held : Settings :=
  ⟨.default, ⟨none, 24, 6, some 675, none⟩,
    .postgres ⟨none, some "/run/postgresql", none, none, none, some "rollups", none, 10,
      some 600000⟩, .default⟩

theorem found : ofDocument? .refused document = some held := by decide

end Unbounded

/-- What is missing stays missing, and what was left out has its default once and for all. -/
theorem survive_saving_withoutPort :
    Unbounded.settings.InRange ∧
      (Json.read? Unbounded.settings.document.compact).bind (ofDocument? .refused) =
        some Unbounded.settings ∧
      ofDocument? .refused Unbounded.document = some Unbounded.held ∧
      ofDocument? .refused Unbounded.held.document = some Unbounded.held := by
  obtain ⟨saved, loaded⟩ := survive_saving .refused
  obtain ⟨-, again, back, -, rfl, -⟩ := loaded Unbounded.document Unbounded.held Unbounded.found
  exact ⟨Unbounded.inRange, (saved Unbounded.settings Unbounded.inRange).2.1, Unbounded.found, back⟩

end Settings

end EpochRollup
