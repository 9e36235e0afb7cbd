/-
This file gives each store call its law. A store may fail a call at any time, and then
its tables stay as they were; when it answers, the answer and the tables afterwards are
determined by the tables before, whatever faults the store has. `Given` is that relation,
and the laws below read it off for every call the engine makes.
-/

import EpochRollup.Proofs.Statement

namespace EpochRollup

/-! ### What partitions do to the tables -/

namespace Tables

/-- The tables once a partition is there. -/
def ensure (partition : Partition) (tables : Tables) : Tables :=
  if tables.hasPartition partition.name then tables
  else { tables with catalogue := tables.catalogue ++ [partition] }

/-- The tables without the rows that a partition covers. -/
def deleteCovered (tables : Tables) : Partition → Tables
  | .hourly range =>
    { tables with
      hourly := tables.hourly.filter fun row =>
        !((range.start : Int) ≤ row.start && row.start < range.stop) }
  | .daily _ days =>
    { tables with
      daily := tables.daily.filter fun row =>
        !(days.start.textKey ≤ row.day.textKey && row.day.textKey < days.stop.textKey) }

/-- The tables without a partition and the rows it covers. -/
def drop (partition : Partition) (tables : Tables) : Tables :=
  { tables.deleteCovered partition with
    catalogue := tables.catalogue.filter (·.name ≠ partition.name) }

theorem mem_catalogue_ensure {tables : Tables} {partition other : Partition} :
    other ∈ (tables.ensure partition).catalogue ↔
      other ∈ tables.catalogue ∨
        other = partition ∧ tables.hasPartition partition.name = false := by
  unfold ensure
  split
  · rename_i present
    simp [present]
  · rename_i absent
    simp [absent]

/-- Once a partition is ensured, one of its name is there. -/
theorem hasPartition_ensure (tables : Tables) (partition : Partition) :
    (tables.ensure partition).hasPartition partition.name = true := by
  unfold ensure
  split
  · assumption
  · simp [hasPartition]

@[simp] theorem epochs_ensure (tables : Tables) (partition : Partition) :
    (tables.ensure partition).epochs = tables.epochs := by unfold ensure; split <;> rfl

@[simp] theorem hourly_ensure (tables : Tables) (partition : Partition) :
    (tables.ensure partition).hourly = tables.hourly := by unfold ensure; split <;> rfl

@[simp] theorem daily_ensure (tables : Tables) (partition : Partition) :
    (tables.ensure partition).daily = tables.daily := by unfold ensure; split <;> rfl

@[simp] theorem epochs_drop (tables : Tables) (partition : Partition) :
    (tables.drop partition).epochs = tables.epochs := by cases partition <;> rfl

theorem mem_catalogue_drop {tables : Tables} {partition other : Partition} :
    other ∈ (tables.drop partition).catalogue ↔
      other ∈ tables.catalogue ∧ other.name ≠ partition.name := by
  simp [drop, List.mem_filter]

@[simp] theorem hourly_drop_daily (tables : Tables) (range : EpochRange) (days : DayRange) :
    (tables.drop (.daily range days)).hourly = tables.hourly := rfl

@[simp] theorem daily_drop_hourly (tables : Tables) (range : EpochRange) :
    (tables.drop (.hourly range)).daily = tables.daily := rfl

theorem mem_hourly_drop {tables : Tables} {range : EpochRange} {row : HourlyRow} :
    row ∈ (tables.drop (.hourly range)).hourly ↔
      row ∈ tables.hourly ∧ ¬((range.start : Int) ≤ row.start ∧ row.start < range.stop) := by
  simp [drop, deleteCovered, List.mem_filter, imp_iff_not_or]

theorem mem_daily_drop {tables : Tables} {range : EpochRange} {days : DayRange}
    {row : DailyRow} :
    row ∈ (tables.drop (.daily range days)).daily ↔
      row ∈ tables.daily ∧
        ¬(days.start.textKey ≤ row.day.textKey ∧ row.day.textKey < days.stop.textKey) := by
  simp [drop, deleteCovered, List.mem_filter, imp_iff_not_or]

end Tables

/-! ### Answers -/

/-- Some store that holds these tables answers a call with this result and holds those tables
afterwards. -/
def Given (tables : Tables) (call : StoreCall) (result : call.Answer) (after : Tables) : Prop :=
  ∃ store : EmbeddedStore, store.tables = tables ∧
    store.answer call = (.ok result, { store with tables := after })

namespace Given

open EmbeddedStore

variable {tables after : Tables}

/-- A call is answered by its statement. -/
theorem run {call : StoreCall} {result : call.Answer} (given : Given tables call result after) :
    ∃ store : EmbeddedStore, (store.statement call).run tables = .ok (result, after) := by
  obtain ⟨store, rfl, answered⟩ := given
  refine ⟨store, ?_⟩
  unfold answer at answered
  split at answered
  · rename_i value tables ran
    simp only [Prod.mk.injEq, Except.ok.injEq, EmbeddedStore.mk.injEq] at answered
    obtain ⟨rfl, rfl, -⟩ := answered
    exact ran
  · simp at answered

/-- A statement that only looks. -/
theorem of_look {Result : Type} {store : EmbeddedStore} {view : Tables → Result}
    {result : Result}
    (ok : (do
        store.checkOpen
        return view (← get) : Statement Result).run tables = .ok (result, after)) :
    after = tables ∧ result = view tables := by
  obtain ⟨_, opened, check, rest⟩ := run_bind_eq_ok.mp ok
  cases checkOpen_eq_ok check
  cases rest
  exact ⟨rfl, rfl⟩

/-- A call that only looks leaves the tables as they were and answers what it sees. -/
theorem look {call : StoreCall} {view : Tables → call.Answer} {result : call.Answer}
    (looks : ∀ store : EmbeddedStore, store.statement call = do
      store.checkOpen
      return view (← get))
    (given : Given tables call result after) : after = tables ∧ result = view tables := by
  obtain ⟨store, ok⟩ := given.run
  rw [looks] at ok
  exact of_look ok

theorem firstHourlyFrom {epoch : Nat} {result : Option Nat}
    (given : Given tables (.firstHourlyFrom epoch) result after) :
    after = tables ∧ result =
      ((tables.hourly.map (·.start)).filter ((epoch : Int) ≤ ·)).min?.map epochOfStored := by
  obtain ⟨store, ok⟩ := given.run
  obtain ⟨cutoff, lifted, lift, rest⟩ := run_bind_eq_ok.mp ok
  obtain ⟨stored, rfl⟩ := run_lift_eq_ok lift
  obtain ⟨-, rfl⟩ := storedEpoch_eq_ok_iff.mp stored
  exact of_look rest

/-- Arriving rows are written into the epoch table, which gets a row for each of their epochs. -/
theorem upsertEpochs {rows : List EpochRow} {result : Unit}
    (given : Given tables (.upsertEpochs rows) result after) :
    ∃ stored : List EpochRow, stored.map (·.epoch) = rows.map (·.epoch) ∧
      after = { tables with epochs := putRows EpochRow.before stored tables.epochs } := by
  obtain ⟨store, ok⟩ := given.run
  obtain ⟨_, opened, check, rest⟩ := run_bind_eq_ok.mp ok
  cases checkOpen_eq_ok check
  exact forM_putEpoch_eq_ok rest

/-- A statement on two epochs of a range. -/
theorem of_range {Result : Type} {store : EmbeddedStore} {range : EpochRange}
    {work : Int → Int → Statement Result} {result : Result}
    (ok : (do
        let start ← storedEpoch range.start
        let stop ← storedEpoch range.stop
        store.checkOpen
        work start stop : Statement Result).run tables = .ok (result, after)) :
    (work range.start range.stop).run tables = .ok (result, after) := by
  obtain ⟨start, first, liftStart, rest⟩ := run_bind_eq_ok.mp ok
  obtain ⟨stop, second, liftStop, rest⟩ := run_bind_eq_ok.mp rest
  obtain ⟨_, opened, check, rest⟩ := run_bind_eq_ok.mp rest
  obtain ⟨storedStart, rfl⟩ := run_lift_eq_ok liftStart
  obtain ⟨storedStop, rfl⟩ := run_lift_eq_ok liftStop
  obtain ⟨-, rfl⟩ := storedEpoch_eq_ok_iff.mp storedStart
  obtain ⟨-, rfl⟩ := storedEpoch_eq_ok_iff.mp storedStop
  cases checkOpen_eq_ok check
  exact rest

/-- An operation that does not write leaves the tables as they were. -/
theorem of_reads {call : StoreCall} {result : call.Answer}
    (given : Given tables call result after) (reads : call.writes = false) : after = tables := by
  obtain ⟨store, ok⟩ := given.run
  cases call with
  | migrate => exact checkOpen_eq_ok ok
  | health => exact checkOpen_eq_ok ok
  | upsertEpochs rows =>
    obtain rfl : rows = [] := by simpa [StoreCall.writes] using reads
    obtain ⟨_, opened, check, rest⟩ := run_bind_eq_ok.mp ok
    cases checkOpen_eq_ok check
    cases rest
    rfl
  | upsertHourly rows =>
    obtain rfl : rows = [] := by simpa [StoreCall.writes] using reads
    obtain ⟨_, opened, check, rest⟩ := run_bind_eq_ok.mp ok
    cases checkOpen_eq_ok check
    cases rest
    rfl
  | firstHourlyFrom epoch => exact given.firstHourlyFrom.1
  | hourlyRows range =>
    let work (start stop : Int) : Statement (List HourlyRow) := do
      return (← get).hourly.filter fun row => start ≤ row.start && row.start < stop
    have ran : (work range.start range.stop).run tables = .ok (result, after) := of_range ok
    cases ran
    rfl
  | foldHour bucket => cases reads
  | foldDay range day => cases reads
  | replaceRolling start head => cases reads
  | clearRolling => cases reads
  | ensurePartition partition => cases reads
  | dropPartition partition => cases reads
  | _ => exact (of_look ok).1

/-- A fold of an hour writes nothing when its epochs have no rows. Otherwise it writes a row
for each validator of the epochs, which covers the epochs up to the last one present. -/
theorem foldHour {bucket : EpochRange} {count : Nat}
    (given : Given tables (.foldHour bucket) count after) :
    (epochSamples tables.epochs bucket.start bucket.stop = [] ∧ count = 0 ∧ after = tables) ∨
      ∃ (last : Int) (rows : List HourlyRow),
        ((epochSamples tables.epochs bucket.start bucket.stop).map (·.key)).max? = some last ∧
        tables.admitsHour bucket.start = true ∧
        rows.map (·.validator) =
          Sample.validators (epochSamples tables.epochs bucket.start bucket.stop) ∧
        (∀ row ∈ rows, (row.start = bucket.start ∧ row.stop = last + 1) ∧
          Sample.stored? (epochSamples tables.epochs bucket.start bucket.stop) bucket.start last
            row.validator = some row.metrics) ∧
        count = rows.length ∧
        after = { tables with hourly := putRows HourlyRow.before rows tables.hourly } := by
  obtain ⟨store, ok⟩ := given.run
  exact foldHour_eq_ok (of_range ok)

/-- A fold of a day writes nothing when no hour starts in it. Otherwise it writes a row for
each validator of the hours, which covers what the latest of the hours covers. -/
theorem foldDay {range : EpochRange} {day : CalendarDay} {count : Nat}
    (given : Given tables (.foldDay range day) count after) :
    (hourSamples tables.hourly range.start range.stop = [] ∧ count = 0 ∧ after = tables) ∨
      ∃ (first last : Int) (rows : List DailyRow),
        ((hourSamples tables.hourly range.start range.stop).map (·.key)).min? = some first ∧
        ((hourSamples tables.hourly range.start range.stop).map (·.key)).max? = some last ∧
        tables.admitsDay day = true ∧
        rows.map (·.validator) =
          Sample.validators (hourSamples tables.hourly range.start range.stop) ∧
        (∀ row ∈ rows, (row.day = day ∧ row.start = range.start ∧
            row.stop = (coverage tables last).getD last) ∧
          Sample.stored? (hourSamples tables.hourly range.start range.stop) first last
            row.validator = some row.metrics) ∧
        count = rows.length ∧
        after = { tables with daily := putRows DailyRow.before rows tables.daily } := by
  obtain ⟨store, ok⟩ := given.run
  exact foldDay_eq_ok (of_range ok)

/-- Hours that are given are written where partitions cover them. -/
theorem upsertHourly {rows : List HourlyRow} {result : Unit}
    (given : Given tables (.upsertHourly rows) result after) :
    ∃ stored : List HourlyRow, (∀ row ∈ stored, tables.admitsHour row.start = true) ∧
      after = { tables with hourly := putRows HourlyRow.before stored tables.hourly } := by
  obtain ⟨store, ok⟩ := given.run
  obtain ⟨_, opened, check, rest⟩ := run_bind_eq_ok.mp ok
  cases checkOpen_eq_ok check
  exact forM_putHours_eq_ok rest

/-- Emptying the trailing window changes nothing else. -/
theorem clearRolling {result : Unit} (given : Given tables .clearRolling result after) :
    after = { tables with rolling := [] } := by
  obtain ⟨store, ok⟩ := given.run
  obtain ⟨_, opened, check, rest⟩ := run_bind_eq_ok.mp ok
  cases checkOpen_eq_ok check
  exact clearRolling_eq_ok rest

/-- Replacing the trailing window empties it, and then writes nothing when no hour starts
between the two epochs, and otherwise a row for each validator of these hours. -/
theorem replaceRolling {start head count : Nat}
    (given : Given tables (.replaceRolling start head) count after) :
    (windowSamples tables.hourly start head = [] ∧ count = 0 ∧
        after = { tables with rolling := [] }) ∨
      ∃ (first : Int) (rows : List RollingRow),
        ((windowSamples tables.hourly start head).map (·.key)).min? = some first ∧
        rows.map (·.validator) = Sample.validators (windowSamples tables.hourly start head) ∧
        (∀ row ∈ rows, (row.start = start ∧ coverage tables head = some row.stop) ∧
          Sample.stored? (windowSamples tables.hourly start head) first head row.validator =
            some row.metrics) ∧
        count = rows.length ∧
        after = { tables with rolling := putRows RollingRow.before rows [] } := by
  obtain ⟨store, ok⟩ := given.run
  obtain ⟨_, opened, check, rest⟩ := run_bind_eq_ok.mp ok
  obtain ⟨_, cleared, clear, rest⟩ := run_bind_eq_ok.mp rest
  obtain ⟨first, lifted, liftStart, rest⟩ := run_bind_eq_ok.mp rest
  obtain ⟨second, raised, liftHead, rest⟩ := run_bind_eq_ok.mp rest
  cases checkOpen_eq_ok check
  cases clearRolling_eq_ok clear
  obtain ⟨storedStart, rfl⟩ := run_lift_eq_ok liftStart
  obtain ⟨storedHead, rfl⟩ := run_lift_eq_ok liftHead
  obtain ⟨-, rfl⟩ := storedEpoch_eq_ok_iff.mp storedStart
  obtain ⟨-, rfl⟩ := storedEpoch_eq_ok_iff.mp storedHead
  exact insertRolling_eq_ok rest

theorem ensurePartition {partition : Partition} {created : Bool}
    (given : Given tables (.ensurePartition partition) created after) :
    created = !tables.hasPartition partition.name ∧ after = tables.ensure partition := by
  obtain ⟨store, ok⟩ := given.run
  cases partition with
  | hourly range =>
    let work (_ _ : Int) : Statement Bool := store.ensurePartition (.hourly range)
    have ran : (work range.start range.stop).run tables = .ok (created, after) := of_range ok
    exact ensurePartition_eq_ok ran
  | daily range days =>
    obtain ⟨_, opened, check, rest⟩ := run_bind_eq_ok.mp ok
    cases checkOpen_eq_ok check
    exact ensurePartition_eq_ok rest

theorem dropPartition {partition : Partition} {existed : Bool}
    (given : Given tables (.dropPartition partition) existed after) :
    existed = tables.hasPartition partition.name ∧ after = tables.drop partition := by
  obtain ⟨store, ok⟩ := given.run
  obtain ⟨_, opened, check, rest⟩ := run_bind_eq_ok.mp ok
  cases checkOpen_eq_ok check
  cases partition with
  | hourly range =>
    obtain ⟨start, first, liftStart, rest⟩ := run_bind_eq_ok.mp rest
    obtain ⟨stop, second, liftStop, rest⟩ := run_bind_eq_ok.mp rest
    obtain ⟨_, deleted, delete, rest⟩ := run_bind_eq_ok.mp rest
    obtain ⟨storedStart, rfl⟩ := run_lift_eq_ok liftStart
    obtain ⟨storedStop, rfl⟩ := run_lift_eq_ok liftStop
    obtain ⟨-, rfl⟩ := storedEpoch_eq_ok_iff.mp storedStart
    obtain ⟨-, rfl⟩ := storedEpoch_eq_ok_iff.mp storedStop
    cases deleteRows_eq_ok delete
    exact deletePartition_eq_ok rest
  | daily range days =>
    obtain ⟨_, deleted, delete, rest⟩ := run_bind_eq_ok.mp rest
    cases deleteRows_eq_ok delete
    exact deletePartition_eq_ok rest

end Given

end EpochRollup
