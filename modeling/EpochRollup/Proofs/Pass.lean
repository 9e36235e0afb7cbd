/-
This file takes a pass apart. A bound that is read says where the tables stand at that
moment; a reclaim either has nothing to do or walks down from the head less its horizon; and
a pass keeps what its four steps keep, one after the other.
-/

import EpochRollup.Proofs.Expiry

namespace EpochRollup

/-! ### Where the tables stand -/

namespace Tables

/-- The first epoch of the latest hour. -/
def head? (tables : Tables) : Option Nat := (tables.hourly.map (·.start)).max?.map epochOfStored

/-- The first epoch of the oldest bucket of a granularity. -/
def oldest? (tables : Tables) : Granularity → Option Nat
  | .hourly => (tables.hourly.map (·.start)).min?.map epochOfStored
  | .daily => (tables.daily.map (·.start)).min?.map epochOfStored

/-- Where there are rows, there is a greatest value. -/
theorem exists_max? {Row : Type} {rows : List Row} (value : Row → Int) (nonempty : rows ≠ []) :
    ∃ most, (rows.map value).max? = some most :=
  Option.ne_none_iff_exists'.mp fun missing =>
    nonempty (List.map_eq_nil_iff.mp (List.max?_eq_none_iff.mp missing))

section Latest

variable {Row : Type} {start stop : Row → Int} {rows : List Row}

theorem latestBounds?_eq_some {bounds : Int × Int} :
    latestBounds? start stop rows = some bounds ↔
      (rows.map start).max? = some bounds.1 ∧
        ((rows.filter (start · = bounds.1)).map stop).max? = some bounds.2 := by
  obtain ⟨last, covered⟩ := bounds
  unfold latestBounds?
  simp only [Option.bind_eq_bind, Option.bind_eq_some_iff, Option.pure_def, Option.some.injEq,
    Prod.mk.injEq]
  constructor
  · rintro ⟨found, foundIs, further, furtherIs, rfl, rfl⟩
    exact ⟨foundIs, furtherIs⟩
  · rintro ⟨lastIs, coveredIs⟩
    exact ⟨last, lastIs, covered, coveredIs, rfl, rfl⟩

theorem latestBounds?_eq_none : latestBounds? start stop rows = none ↔ rows = [] := by
  constructor
  · intro missing
    by_contra nonempty
    obtain ⟨last, lastIs⟩ := exists_max? start nonempty
    obtain ⟨row, member, rfl⟩ := List.mem_map.mp (List.max?_mem lastIs)
    have inside : row ∈ rows.filter (start · = start row) :=
      List.mem_filter.mpr ⟨member, decide_eq_true rfl⟩
    obtain ⟨covered, coveredIs⟩ := exists_max? stop (List.ne_nil_of_mem inside)
    have found : latestBounds? start stop rows = some (start row, covered) :=
      latestBounds?_eq_some.mpr ⟨lastIs, coveredIs⟩
    rw [found] at missing
    cases missing
  · rintro rfl
    rfl

/-- The latest bounds are those of one row: no row starts later, or reaches further from
there. -/
theorem exists_latest_row {bounds : Int × Int}
    (found : latestBounds? start stop rows = some bounds) :
    ∃ row ∈ rows, bounds = (start row, stop row) ∧ ∀ other ∈ rows,
      start other < start row ∨ start other = start row ∧ stop other ≤ stop row := by
  obtain ⟨startIs, stopIs⟩ := latestBounds?_eq_some.mp found
  obtain ⟨row, filtered, stopRow⟩ := List.mem_map.mp (List.max?_mem stopIs)
  obtain ⟨member, startRow⟩ := List.mem_filter.mp filtered
  have startRow : start row = bounds.1 := of_decide_eq_true startRow
  refine ⟨row, member, Prod.ext startRow.symm stopRow.symm, fun other otherMember => ?_⟩
  have upTo := (List.max?_eq_some_iff.mp startIs).2 _ (List.mem_map.mpr ⟨other, otherMember, rfl⟩)
  rw [startRow, stopRow]
  refine (Int.lt_or_eq_of_le upTo).imp_right fun here => ⟨here, ?_⟩
  exact (List.max?_eq_some_iff.mp stopIs).2 _ (List.mem_map.mpr
    ⟨other, List.mem_filter.mpr ⟨otherMember, decide_eq_true here⟩, rfl⟩)

/-- So it is for the bucket that is read. -/
theorem exists_row_of_latestBounds {latest : EpochRange}
    (found : (latestBounds? start stop rows).map EmbeddedStore.boundsOfStored = some latest) :
    ∃ row ∈ rows, latest = ⟨(start row).toNat, (stop row).toNat⟩ ∧ ∀ other ∈ rows,
      start other < start row ∨ start other = start row ∧ stop other ≤ stop row := by
  obtain ⟨bounds, boundsAre, rfl⟩ := Option.map_eq_some_iff.mp found
  obtain ⟨row, member, rfl, most⟩ := exists_latest_row boundsAre
  exact ⟨row, member, rfl, most⟩

/-- Where no bucket is read, there is no row. -/
theorem eq_nil_of_no_latestBounds
    (missing : (latestBounds? start stop rows).map EmbeddedStore.boundsOfStored = none) :
    rows = [] :=
  latestBounds?_eq_none.mp (Option.map_eq_none_iff.mp missing)

end Latest

theorem lastHourly?_eq_some {tables : Tables} {bounds : Int × Int} :
    tables.lastHourly? = some bounds ↔
      (tables.hourly.map (·.start)).max? = some bounds.1 ∧
        ((tables.hourly.filter (·.start = bounds.1)).map (·.stop)).max? = some bounds.2 :=
  latestBounds?_eq_some

theorem lastHourly?_eq_none {tables : Tables} :
    tables.lastHourly? = none ↔ tables.hourly = [] :=
  latestBounds?_eq_none

theorem head?_of_lastHourly? {tables : Tables} {latest : EpochRange}
    (found : tables.lastHourly?.map EmbeddedStore.boundsOfStored = some latest) :
    tables.head? = some latest.start := by
  obtain ⟨bounds, boundsAre, rfl⟩ := Option.map_eq_some_iff.mp found
  rw [head?, (lastHourly?_eq_some.mp boundsAre).1]
  rfl

theorem head?_of_lastHourly?_none {tables : Tables}
    (missing : tables.lastHourly?.map EmbeddedStore.boundsOfStored = none) :
    tables.head? = none := by
  rw [Option.map_eq_none_iff, lastHourly?_eq_none] at missing
  rw [head?, missing]
  rfl

theorem head?_eq_none {tables : Tables} : tables.head? = none ↔ tables.hourly = [] := by
  unfold head?
  rw [Option.map_eq_none_iff, List.max?_eq_none_iff, List.map_eq_nil_iff]

theorem head?_congr {tables other : Tables} (hourly : other.hourly = tables.hourly) :
    other.head? = tables.head? := by
  unfold head?
  rw [hourly]

/-- The earliest hour that starts in the day before the end of the coverage. -/
def dayOld? (clock : ChainClock) (tables : Tables) : Option Nat :=
  (tables.lastHourly?.map EmbeddedStore.boundsOfStored).bind fun head =>
    ((tables.hourly.map (·.start)).filter
      (((head.stop - clock.epochsPerDay : Nat) : Int) ≤ ·)).min?.map epochOfStored

/-- What the tables say of a bound. -/
def bound? (clock : ChainClock) (bound : Bound) (tables : Tables) : Option bound.Value :=
  match bound with
  | .lastEpoch => (tables.epochs.map (·.epoch)).max?.map epochOfStored
  | .firstEpoch => (tables.epochs.map (·.epoch)).min?.map epochOfStored
  | .lastHourly => tables.lastHourly?.map EmbeddedStore.boundsOfStored
  | .firstHourly => tables.oldest? .hourly
  | .dayOldHourly => tables.dayOld? clock
  | .lastDaily => tables.lastDaily?.map EmbeddedStore.boundsOfStored
  | .firstDaily => tables.oldest? .daily

end Tables

/-! ### Reading bounds -/

/-- Arrivals disturb nothing that does not depend on the epochs. -/
theorem Regime.stable_besidesEpochs (regime : Regime)
    (holds : List HourlyRow → List DailyRow → List Partition → Prop) :
    regime.Stable fun log => holds log.now.hourly log.now.daily log.now.catalogue := by
  intro log rows after held _ given
  obtain ⟨stored, -, rfl⟩ := given.upsertEpochs
  rw [Chronicle.now_record]
  exact held

section Bounds

variable {regime : Regime} {always before : Chronicle → Prop} (clock : ChainClock)

/-- A call that only looks answers what it sees. -/
theorem Procedure.keeps_look {operation : String} {call : StoreCall} {view : Tables → call.Answer}
    (looks : ∀ store : EmbeddedStore, store.statement call = do
      store.checkOpen
      return view (← get))
    (stable : regime.Stable before) (failing : ∀ log, before log → always log) :
    (Procedure.ask operation call).Keeps regime always before fun answer log =>
      before log ∧ answer = view log.now := by
  refine Procedure.keeps_ask stable failing fun log answer after held given => ?_
  obtain ⟨rfl, rfl⟩ := given.look looks
  rw [Chronicle.record_now]
  exact ⟨held, rfl⟩

/-- A bound that is read is what the tables say of it. -/
theorem keeps_storedBounds (bound : Bound) (stable : regime.Stable before)
    (failing : ∀ log, before log → always log) :
    (storedBounds clock bound).Keeps regime always before fun answer log =>
      before log ∧ answer = log.now.bound? clock bound := by
  cases bound with
  | dayOldHourly =>
    have latestStable (latest : EpochRange) : regime.Stable fun log =>
        some latest = log.now.lastHourly?.map EmbeddedStore.boundsOfStored :=
      regime.stable_besidesEpochs fun hourly _ _ => some latest =
        (Tables.lastHourly? { Tables.empty with hourly }).map EmbeddedStore.boundsOfStored
    have latestRead : (storedBounds clock .lastHourly).Keeps regime always before
        fun answer log => before log ∧ answer = log.now.bound? clock .lastHourly := by
      refine Procedure.keeps_look (fun store => ?_) stable failing
      rfl
    refine Procedure.keeps_bind _ latestRead fun answer => ?_
    cases answer with
    | none =>
      refine Procedure.keeps_pure fun log held => ⟨held.1, ?_⟩
      show none = log.now.dayOld? clock
      rw [Tables.dayOld?, show log.now.lastHourly?.map _ = none from held.2.symm]
      rfl
    | some latest =>
      refine Procedure.keeps_ask (stable.and (latestStable latest))
        (fun log held => failing log held.1) fun log answer after held given => ?_
      obtain ⟨rfl, rfl⟩ := given.firstHourlyFrom
      rw [Chronicle.record_now]
      refine ⟨held.1, ?_⟩
      show _ = log.now.dayOld? clock
      rw [Tables.dayOld?, show log.now.lastHourly?.map _ = some latest from held.2.symm]
      rfl
  | _ =>
    refine Procedure.keeps_look (fun store => ?_) stable failing
    rfl

theorem Coordinator.keeps_oldest {layout : BucketLayout} {retention : RetentionPolicy}
    (granularity : Granularity) (stable : regime.Stable before)
    (failing : ∀ log, before log → always log) :
    ((ofStore layout retention).oldest granularity).Keeps regime always before fun answer log =>
      before log ∧ answer = log.now.oldest? granularity := by
  cases granularity with
  | hourly => exact keeps_storedBounds layout.clock .firstHourly stable failing
  | daily => exact keeps_storedBounds layout.clock .firstDaily stable failing

end Bounds

/-! ### The steps of a pass -/

namespace Coordinator

variable {regime : Regime} {layout : BucketLayout} {retention : RetentionPolicy}
  {always : Chronicle → Prop}

/-- A reclaim keeps what its walk keeps, unless it has nothing to do. -/
theorem keeps_reclaim (granularity : Granularity) {before after : Chronicle → Prop}
    (stable : regime.Stable before) (failing : ∀ log, before log → always log)
    (idle : ∀ log, before log →
      (∀ horizon head, retention.horizon granularity = some horizon → log.now.head? = some head →
        horizon ≤ head → log.now.oldest? granularity = none) → after log)
    (walk : ∀ horizon head oldest, retention.horizon granularity = some horizon →
      horizon ≤ head →
      (layout.reclaimExpired granularity (head - horizon) oldest).Keeps regime always
        (fun log => (before log ∧ log.now.head? = some head) ∧
          log.now.oldest? granularity = some oldest)
        fun _ => after) :
    ((ofStore layout retention).reclaim granularity).Keeps regime always before fun _ => after := by
  have headStable (value : Option Nat) : regime.Stable fun log => log.now.head? = value :=
    regime.stable_besidesEpochs fun hourly _ _ =>
      (hourly.map (·.start)).max?.map epochOfStored = value
  unfold reclaim
  split
  · rename_i forever
    exact Procedure.keeps_pure fun log held => idle log held fun horizon head horizonIs => by
      rw [show retention.horizon granularity = none from forever] at horizonIs
      cases horizonIs
  · rename_i horizon horizonIs
    have horizonIs : retention.horizon granularity = some horizon := horizonIs
    refine Procedure.keeps_bind _ (keeps_storedBounds layout.clock .lastHourly stable failing)
      fun latest => ?_
    cases latest with
    | none =>
      refine Procedure.keeps_pure fun log held => idle log held.1 fun _ head _ headIs => ?_
      rw [Tables.head?_of_lastHourly?_none held.2.symm] at headIs
      cases headIs
    | some latest =>
      dsimp only
      split
      · rename_i young
        refine Procedure.keeps_pure fun log held => idle log held.1 fun other head otherIs headIs =>
          ?_
        rw [Tables.head?_of_lastHourly? held.2.symm] at headIs
        cases headIs
        rw [horizonIs] at otherIs
        cases otherIs
        omega
      · rename_i old
        refine Procedure.keeps_bind (fun oldest log =>
          (before log ∧ log.now.head? = some latest.start) ∧
            oldest = log.now.oldest? granularity) ?_ fun oldest => ?_
        · refine (keeps_oldest granularity (stable.and (headStable (some latest.start)))
            fun log held => failing log held.1).weaken (fun _ => id) (fun log held => ?_)
            fun _ _ => id
          exact ⟨held.1, Tables.head?_of_lastHourly? held.2.symm⟩
        · cases oldest with
          | none =>
            exact Procedure.keeps_pure fun log held => idle log held.1.1 fun _ _ _ _ _ =>
              held.2.symm
          | some oldest =>
            exact (walk horizon latest.start oldest horizonIs (by omega)).weaken (fun _ => id)
              (fun log held => ⟨held.1, held.2.symm⟩) fun _ _ => id

/-- A pass keeps what its steps keep. -/
theorem keeps_runPass {begun refreshed folded reclaimed ended : Chronicle → Prop}
    (refresh : (refreshWindow (storedBounds layout.clock)).Keeps regime always begun
      fun _ => refreshed)
    (fold : (layout.foldDays (storedBounds layout.clock)).Keeps regime always refreshed
      fun _ => folded)
    (hours : ((ofStore layout retention).reclaim .hourly).Keeps regime always folded
      fun _ => reclaimed)
    (days : ((ofStore layout retention).reclaim .daily).Keeps regime always reclaimed
      fun _ => ended) :
    (ofStore layout retention).runPass.Keeps regime always begun fun _ => ended :=
  Procedure.keeps_bind _ (refresh.inStep .rolling) fun _ =>
    Procedure.keeps_bind _ (fold.inStep .daily) fun _ =>
      Procedure.keeps_bind _ (hours.inStep .hourlyRetention) fun _ =>
        Procedure.keeps_bind _ (days.inStep .dailyRetention) fun _ =>
          Procedure.keeps_pure fun _ held => held

end Coordinator

end EpochRollup
