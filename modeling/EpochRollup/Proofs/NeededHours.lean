/-
This file asks whether retention leaves the hours that are read again. The next pass folds the
day of the latest hour once more, and its window goes back a day from the end of the coverage.
Retention is measured from the start of the latest hour, so what it drops ends before both
when hours are kept for a day less one epoch at least. The settings accept shorter retention,
and then a row of the day that is still open can be dropped.
-/

import EpochRollup.Config.Settings
import EpochRollup.Proofs.HourlyRows
import EpochRollup.Proofs.SteadyRun

namespace EpochRollup

/-! ### Hours that are read again -/

/-- The hour of a row is read again: it starts on the day of the latest hour, or in a window
that was reported. -/
def Tables.ReadsAgain (tables : Tables) (layout : BucketLayout) (window : Option EpochRange)
    (row : HourlyRow) : Prop :=
  (∃ head, tables.head? = some head ∧
    ((layout.bucketAt .daily head).start : Int) ≤ row.start ∧
      row.start < (layout.bucketAt .daily head).stop) ∨
    ∃ range, window = some range ∧ (range.start : Int) ≤ row.start ∧ row.start < range.stop

section

variable {regime : Regime} {layout : BucketLayout} {retention : RetentionPolicy}
  {always before : Chronicle → Prop}

/-! ### The window that is reported -/

/-- The window begins with an hour that is at most a day before the end of the coverage. -/
theorem Tables.le_of_dayOld? {clock : ChainClock} {tables : Tables} {start : Nat}
    (found : tables.dayOld? clock = some start) : ∃ latest : EpochRange,
      tables.lastHourly?.map EmbeddedStore.boundsOfStored = some latest ∧
        latest.stop - clock.epochsPerDay ≤ start := by
  obtain ⟨latest, latestIs, startIs⟩ := Option.bind_eq_some_iff.mp found
  obtain ⟨least, leastIs, rfl⟩ := Option.map_eq_some_iff.mp startIs
  have late := of_decide_eq_true (List.mem_filter.mp (List.min?_mem leastIs)).2
  refine ⟨latest, latestIs, ?_⟩
  unfold epochOfStored
  omega

/-- The tables are steady and have the hours of others. -/
def HoursOf (layout : BucketLayout) (tables : Tables) : Chronicle → Prop :=
  Steadily layout fun log => log.now.hourly = tables.hourly

variable {tables : Tables} {head : Nat}

theorem HoursOf.head? {log : Chronicle} (held : HoursOf layout tables log)
    (headIs : tables.head? = some head) : log.now.head? = some head := by
  rw [Tables.head?, held.2]
  exact headIs

theorem Regime.stable_hoursOf (regime : Regime) : regime.Stable (HoursOf layout tables) :=
  regime.stable_steadily fun log stored held => by
    rw [Chronicle.now_record]
    exact held.2

theorem HoursOf.refresh {log : Chronicle} (held : HoursOf layout tables log)
    (rolling : List RollingRow) :
    HoursOf layout tables (log.record { log.now with rolling }) := by
  refine Steadily.record (held.1.refresh rolling) ?_
  rw [Chronicle.now_record]
  exact held.2

/-- The latest hour starts at the head, and the end of the coverage is past it. -/
theorem HoursOf.latestHour {log : Chronicle} (held : HoursOf layout tables log)
    (headIs : tables.head? = some head) {latest : EpochRange}
    (latestIs : log.now.lastHourly?.map EmbeddedStore.boundsOfStored = some latest) :
    latest.start = head ∧ head < latest.stop := by
  have hour := held.1.latest_of_head (held.head? headIs)
  have before := hour.before
  rw [hour.found, Option.map_some, Option.some.injEq] at latestIs
  subst latestIs
  refine ⟨rfl, ?_⟩
  show head < log.now.frontier.toNat
  omega

/-- A window that is reported begins less than a day before the head. -/
theorem keeps_refreshWindow_near (headIs : tables.head? = some head) :
    (refreshWindow (storedBounds layout.clock)).Keeps regime (fun _ => True)
      (HoursOf layout tables) fun report log => HoursOf layout tables log ∧
        ∀ window, report.window = some window →
          head < window.start + layout.clock.epochsPerDay := by
  have positive := layout.clock.epochsPerDay_pos
  have stable : regime.Stable (HoursOf layout tables) := regime.stable_hoursOf
  refine Procedure.keeps_bind _
    (keeps_storedBounds layout.clock .lastHourly stable fun _ _ => trivial) fun latest => ?_
  cases latest with
  | none =>
    refine Procedure.keeps_bind (fun _ => HoursOf layout tables) ?_ fun _ =>
      Procedure.keeps_pure fun log held => ⟨held, nofun⟩
    refine (Procedure.keeps_ask stable (fun _ _ => trivial) fun log answer after held given =>
      ?_).weaken (fun _ => id) (fun log held => held.1) fun _ _ => id
    rw [given.clearRolling]
    exact held.refresh []
  | some latest =>
    refine Procedure.Keeps.knowing (fun log held => (held.1.latestHour headIs held.2.symm).1)
      fun startIs => ?_
    refine Procedure.keeps_bind (fun answer log => HoursOf layout tables log ∧
      head < answer.getD latest.start + layout.clock.epochsPerDay) ?_ fun answer => ?_
    · refine (keeps_storedBounds layout.clock .dayOldHourly stable fun _ _ => trivial).weaken
        (fun _ => id) (fun log held => held.1) fun answer log held => ⟨held.1, ?_⟩
      cases answer with
      | none =>
        show head < latest.start + _
        omega
      | some start =>
        obtain ⟨other, otherIs, near⟩ := Tables.le_of_dayOld? held.2.symm
        have past := (held.1.latestHour headIs otherIs).2
        show head < start + _
        omega
    · refine Procedure.Keeps.knowing (fun log held => held.2) fun near => ?_
      refine Procedure.keeps_bind (fun _ => HoursOf layout tables) ?_ fun rows =>
        Procedure.keeps_pure fun log held => ⟨held, fun window same => ?_⟩
      · refine (Procedure.keeps_askFor stable (fun _ _ => trivial)
          fun log answer after held given => ?_).weaken (fun _ => id) (fun log held => held.1)
          fun _ _ => id
        obtain ⟨rolling, rfl⟩ := given.of_refreshes (.replace _ _)
        exact held.refresh rolling
      · cases same
        exact near

/-! ### What a pass drops -/

/-- The hours of some tables are kept as far as retention goes. -/
def KeepsHours (layout : BucketLayout) (tables : Tables) (head horizon : Nat) :
    Chronicle → Prop :=
  Steadily layout fun log => log.now.head? = some head ∧
    ∀ row ∈ tables.hourly, (head : Int) ≤ row.start + horizon → row ∈ log.now.hourly

theorem HoursOf.keepsHours {log : Chronicle} (held : HoursOf layout tables log)
    (headIs : tables.head? = some head) (horizon : Nat) :
    KeepsHours layout tables head horizon log :=
  ⟨held.1, held.head? headIs, fun _ member _ => held.2 ▸ member⟩

theorem Regime.stable_keepsHours (regime : Regime) (horizon : Nat) :
    regime.Stable (KeepsHours layout tables head horizon) :=
  regime.stable_steadily fun log stored held => by
    rw [Chronicle.now_record]
    exact held.2

/-- A reclaim of hours drops none that retention covers. -/
theorem keeps_reclaim_hourly_keepsHours :
    ((Coordinator.ofStore layout retention).reclaim .hourly).Keeps regime
      (KeepsHours layout tables head retention.hourly)
      (KeepsHours layout tables head retention.hourly)
      fun _ => KeepsHours layout tables head retention.hourly := by
  refine keeps_reclaim_hourly_steadily (regime.stable_keepsHours _)
    fun log other epoch held otherIs expired => ?_
  rw [held.2.1, Option.some.injEq] at otherIs
  subst otherIs
  rw [Chronicle.now_record]
  have apart : ((layout.partitionRangeAt .hourly epoch).stop : Int) ≤ head := by omega
  refine ⟨(Tables.Steady.latest_dropHours (held.1.latest_of_head held.2.1) apart).1.head?,
    fun row member covered => ?_⟩
  exact Tables.mem_hourly_drop.mpr ⟨held.2.2 row member covered, fun inside => by omega⟩

/-- A pass that comes back has kept the hours that retention covers, and its window begins less
than a day before the head. -/
theorem keeps_runPass_keepsHours (headIs : tables.head? = some head) :
    (Coordinator.ofStore layout retention).runPass.Keeps regime (fun _ => True)
      (HoursOf layout tables) fun report log =>
        KeepsHours layout tables head retention.hourly log ∧
          ∀ window, report.rolling.window = some window →
            head < window.start + layout.clock.epochsPerDay := by
  have fold : (layout.foldDays (storedBounds layout.clock)).Keeps regime
      (HoursOf layout tables) (HoursOf layout tables) fun _ => HoursOf layout tables :=
    keeps_foldDays_steadily regime.stable_hoursOf
      (fun log epoch held => by rw [Chronicle.now_record, Tables.hourly_ensure]; exact held.2)
      fun log epoch rows held _ _ => by rw [Chronicle.now_record]; exact held.2
  have days : ((Coordinator.ofStore layout retention).reclaim .daily).Keeps regime
      (KeepsHours layout tables head retention.hourly)
      (KeepsHours layout tables head retention.hourly)
      fun _ => KeepsHours layout tables head retention.hourly :=
    keeps_reclaim_daily_steadily (regime.stable_keepsHours _) fun log epoch held => by
      rw [Chronicle.now_record]
      exact held.2
  refine Procedure.keeps_bind _ ((keeps_refreshWindow_near headIs).inStep .rolling)
    fun rolling => ?_
  refine Procedure.Keeps.knowing (fun log held => held.2) fun near => ?_
  refine Procedure.keeps_bind (fun _ => HoursOf layout tables) ((fold.weaken (fun _ _ => trivial)
    (fun log held => held.1) fun _ _ => id).inStep .daily) fun _ => ?_
  refine Procedure.keeps_bind _ ((keeps_reclaim_hourly_keepsHours.weaken (fun _ _ => trivial)
    (fun log held => held.keepsHours headIs _) fun _ _ => id).inStep .hourlyRetention) fun _ => ?_
  refine Procedure.keeps_bind _ ((days.weaken (fun _ _ => trivial) (fun _ => id)
    fun _ _ => id).inStep .dailyRetention) fun _ => ?_
  exact Procedure.keeps_pure fun log held => ⟨held, near⟩

end

/-! ### The settings -/

/-- A layout is one of its clock. -/
theorem BucketLayout.clock_of_new {clock : ChainClock} {layout : BucketLayout}
    {hourlyWidth hourlyPartitionBuckets dailyPartitionBuckets : Nat}
    (made : BucketLayout.new clock hourlyWidth hourlyPartitionBuckets dailyPartitionBuckets =
      .ok layout) : layout.clock = clock := by
  unfold BucketLayout.new at made
  split at made
  · cases made
  · split at made
    · cases made
    · split at made
      · cases made
      · cases made
        rfl

/-- A coordinator is built from a layout of the clock and the retention that is set. -/
theorem RollupSettings.coordinator_eq_ok {settings : RollupSettings} {clock : ChainClock}
    {coordinator : Coordinator} (built : settings.coordinator clock = .ok coordinator) :
    coordinator = .ofStore coordinator.layout (settings.retention clock) ∧
      coordinator.layout.clock = clock := by
  unfold RollupSettings.coordinator at built
  split at built
  · rename_i layout made
    cases built
    refine ⟨rfl, ?_⟩
    unfold RollupSettings.layout at made
    cases found : BucketLayout.new clock
        (settings.hourlyWidth.getD (BucketLayout.defaultHourlyWidth clock))
        settings.hourlyPartitionBuckets settings.dailyPartitionBuckets with
    | error fault =>
      rw [found] at made
      cases made
    | ok layout =>
      rw [found] at made
      cases made
      exact BucketLayout.clock_of_new found
  · cases built

/-- When hours are kept for a day less one epoch at least, a pass that comes back leaves every
row of an hour that is read again. -/
theorem RollupSettings.mem_hourly_of_readsAgain {settings : RollupSettings} {clock : ChainClock}
    {coordinator : Coordinator} (built : settings.coordinator clock = .ok coordinator)
    (long : clock.epochsPerDay ≤ (settings.retention clock).hourly + 1) {regime : Regime}
    (ours : regime.layout = coordinator.layout) {begun final : Chronicle}
    (runs : Runs regime .start begun) {report : PassReport}
    (pass : coordinator.runPass.Ends regime begun (.ok report) final) {row : HourlyRow}
    (stored : row ∈ begun.now.hourly)
    (again : begun.now.ReadsAgain coordinator.layout report.rolling.window row) :
    row ∈ final.now.hourly := by
  obtain ⟨same, clockIs⟩ := coordinator_eq_ok built
  have steady := runs.steady
  rw [ours] at steady
  obtain ⟨start, hour⟩ := steady.exists_latest (List.ne_nil_of_mem stored)
  have headIs := hour.head?
  rw [same] at pass
  obtain ⟨kept, near⟩ := keeps_runPass_keepsHours headIs ⟨steady, rfl⟩ pass
  refine kept.2.2 row stored ?_
  have width : coordinator.layout.clock.epochsPerDay = clock.epochsPerDay := by rw [clockIs]
  rcases again with ⟨head, otherIs, after, -⟩ | ⟨window, windowIs, after, -⟩
  · rw [headIs, Option.some.injEq] at otherIs
    subst otherIs
    -- The day of the latest hour is no longer than a day of epochs.
    have inside : start.toNat < (coordinator.layout.bucketAt .daily start.toNat).stop :=
      EpochRange.lt_stop_aligned (coordinator.layout.width_pos .daily) _
    have short : (coordinator.layout.bucketAt .daily start.toNat).stop ≤
        (coordinator.layout.bucketAt .daily start.toNat).start +
          coordinator.layout.clock.epochsPerDay := EpochRange.stop_aligned_le _
    omega
  · have begins := near window windowIs
    omega

/-! ### Short retention -/

namespace ShortRetention

/-- A chain with three epochs to a day, each an hour and a partition of its own, whose hours are
kept for a few epochs. -/
def settings (kept : Nat) : Settings :=
  { Settings.default with
    chain := ⟨0, 9600, 3⟩
    rollup := ⟨some 1, 1, 1, some kept, none⟩ }

/-- The layout of the chain. -/
def layout : BucketLayout :=
  .ofNumbers ⟨0, 0⟩ 9600 3 1 1 1 (by decide)

/-- The clock of the chain. -/
def clock : ChainClock := layout.clock

/-- The coordinator of the settings. -/
def coordinator (kept : Nat) : Coordinator := .ofStore layout ⟨kept, none⟩

theorem built (kept : Nat) :
    (settings kept).chain.clock = .ok clock ∧
      (settings kept).rollup.coordinator clock = .ok (coordinator kept) := by
  have timed : ChainSettings.clock ⟨0, 9600, 3⟩ = .ok clock := by decide +kernel
  have made : BucketLayout.new clock 1 1 1 = .ok layout := by decide +kernel
  have layoutIs : (settings kept).rollup.layout clock = .ok layout := by
    show (BucketLayout.new clock 1 1 1).mapError .bucketLayout = _
    rw [made]
    rfl
  refine ⟨timed, ?_⟩
  unfold RollupSettings.coordinator
  rw [layoutIs]
  rfl

/-- The circumstances of a run with these settings. -/
abbrev regime (kept : Nat) : Regime := .inOrder layout fun retention => retention = ⟨kept, none⟩

/-- A validator is seen in each epoch of the first day. -/
def party (kept : Nat) : EmbeddedStore × Chronicle :=
  Act.playAll layout ⟨kept, none⟩
    [.supply [⟨0, 7, .none⟩, ⟨1, 7, .none⟩, ⟨2, 7, .none⟩], .fold] (.fresh, .start)

theorem runs_party (kept : Nat) :
    Runs (regime kept) .start (party kept).2 ∧ (party kept).2.now = (party kept).1.tables := by
  refine Act.runs_playAll rfl .none rfl ⟨?_, trivial⟩
  show ∀ row ∈ [_, _, _], _ ∧ ∀ old ∈ Tables.empty.epochs, _
  decide

/-- What the pass reports when hours are kept for so long and so many partitions are dropped. -/
def report (dropped : Nat) : PassReport where
  rolling := ⟨some ⟨0, 3⟩, 1⟩
  daily := ⟨1, 0, 1, 1, some ⟨0, 3⟩⟩
  hourlyDropped := dropped
  dailyDropped := 0

/-- The outcome of a pass, and the store after it. -/
def passing (kept : Nat) : Except Failure PassReport × EmbeddedStore × Chronicle :=
  (coordinator kept).runPass.runOn (party kept).1 (party kept).2

theorem pass_ends {kept dropped : Nat} (outcome : (passing kept).1 = .ok (report dropped)) :
    (coordinator kept).runPass.Ends (regime kept) (party kept).2 (.ok (report dropped))
      (passing kept).2.2 := by
  unfold passing at outcome ⊢
  exact Procedure.ends_runOn _ (runs_party kept).2 outcome

/-- The hour of the first epoch. -/
def first : HourlyRow := ⟨0, 1, 7, .none⟩

/-- Hours that are kept for one epoch lose the first of the day, and those kept for two do
not. -/
theorem evaluated :
    ((passing 1).1 = .ok (report 1) ∧ (party 1).2.now.head? = some 2 ∧
        first ∈ (party 1).2.now.hourly ∧ first ∉ (passing 1).2.2.now.hourly) ∧
      (passing 2).1 = .ok (report 0) ∧ (party 2).2.now.head? = some 2 ∧
        first ∈ (party 2).2.now.hourly := by
  decide +kernel

end ShortRetention

/-- Two epochs are enough when a day has three. -/
theorem mem_hourly_of_readsAgain_two :
    ShortRetention.first ∈ (ShortRetention.passing 2).2.2.now.hourly :=
  RollupSettings.mem_hourly_of_readsAgain (ShortRetention.built 2).2 (by decide) rfl
    (ShortRetention.runs_party 2).1 (ShortRetention.pass_ends ShortRetention.evaluated.2.1)
    ShortRetention.evaluated.2.2.2 (Or.inl ⟨2, ShortRetention.evaluated.2.2.1, by decide⟩)

/-- Settings that are accepted can keep hours for so short a time that a pass that comes back has
dropped a row of the day that is open, which also lies in the window that the pass reports. -/
theorem exists_open_hour_dropped :
    ∃ (settings : Settings) (clock : ChainClock) (coordinator : Coordinator)
      (begun final : Chronicle) (report : PassReport) (head : Nat) (window : EpochRange)
      (row : HourlyRow),
      settings.refusal = none ∧ settings.chain.clock = .ok clock ∧
      settings.rollup.coordinator clock = .ok coordinator ∧
      Runs (.inOrder coordinator.layout fun retention => retention = coordinator.retention)
        .start begun ∧
      coordinator.runPass.Ends (.inOrder coordinator.layout
        fun retention => retention = coordinator.retention) begun (.ok report) final ∧
      begun.now.head? = some head ∧ report.rolling.window = some window ∧
      row ∈ begun.now.hourly ∧ row ∉ final.now.hourly ∧
      (((coordinator.layout.bucketAt .daily head).start : Int) ≤ row.start ∧
        row.start < (coordinator.layout.bucketAt .daily head).stop) ∧
      ((window.start : Int) ≤ row.start ∧ row.start < window.stop) :=
  have values := ShortRetention.evaluated.1
  ⟨ShortRetention.settings 1, ShortRetention.clock, ShortRetention.coordinator 1,
    (ShortRetention.party 1).2, (ShortRetention.passing 1).2.2, ShortRetention.report 1, 2, ⟨0, 3⟩,
    ShortRetention.first, rfl, (ShortRetention.built 1).1, (ShortRetention.built 1).2,
    (ShortRetention.runs_party 1).1, ShortRetention.pass_ends values.1, values.2.1, rfl,
    values.2.2.1, values.2.2.2, by decide, by decide⟩

end EpochRollup
