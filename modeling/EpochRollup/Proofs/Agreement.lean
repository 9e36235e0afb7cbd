/-
This file proves that a day and a trailing window over the same hours are the same rows. The
two statements select their hours differently, one up to an end and the other up to a head, and
they write in different orders: a day is merged for all its validators before the first row is
written, a window for one validator at a time. The first difference vanishes when the head is
the last hour of the range. The second one shows only when the statements fail: both fail on
the same hours, but where the sum of one validator overflows and the chances of another one add
up to no number, they may name different faults.
-/

import EpochRollup.Proofs.Replay
import EpochRollup.Proofs.Window

namespace EpochRollup

namespace Sample

variable {samples : List Sample} {first last validator : Int}

/-! ### Validators that cannot be folded -/

/-- A running sum of an integer column leaves the stored integers. -/
def Overflows (samples : List Sample) (validator : Int) : Prop :=
  ∃ index, storedSum? ((ofValidator samples validator).map (·.metrics.integers.get index)) = none

/-- The sum of a column of chances is not a number, so that no column can hold it. -/
def Undefined (samples : List Sample) (validator : Int) : Prop :=
  (Double.sum ((ofValidator samples validator).map (·.metrics.syncChance))).stored? = none ∨
    (Double.sum ((ofValidator samples validator).map (·.metrics.blockChance))).stored? = none

instance (samples : List Sample) (validator : Int) : Decidable (Overflows samples validator) :=
  inferInstanceAs (Decidable (∃ _, _))

instance (samples : List Sample) (validator : Int) : Decidable (Undefined samples validator) :=
  inferInstanceAs (Decidable (_ ∨ _))

theorem merge?_eq_none_iff :
    merge? samples first last validator = none ↔ Overflows samples validator := by
  have every : (Vector.ofFn fun index => storedSum? ((ofValidator samples validator).map
      (·.metrics.integers.get index))).all (·.isSome) = true ↔ ¬Overflows samples validator := by
    rw [Vector.all_eq_true]
    simp only [Vector.getElem_ofFn, Option.isSome_iff_ne_none, Overflows, not_exists]
    exact ⟨fun fits index => fits index.val index.isLt,
      fun fits index inside => fits ⟨index, inside⟩⟩
  unfold merge?
  dsimp only
  split
  case isTrue fits => exact iff_of_false nofun (every.mp fits)
  case isFalse some => exact iff_of_true rfl (by_contra fun fits => some (every.mpr fits))

theorem exists_merge (first last : Int) (fits : ¬Overflows samples validator) :
    ∃ merged, merge? samples first last validator = some merged :=
  Option.ne_none_iff_exists'.mp fun none => fits (merge?_eq_none_iff.mp none)

/-- Merged metrics have a chance that no column can hold when the sum of the chances is not a
number. -/
theorem undefined_iff {merged : Metrics}
    (found : merge? samples first last validator = some merged) :
    Undefined samples validator ↔
      ∃ column, EmbeddedStore.storedMetrics merged = .error column := by
  obtain ⟨syncChance, blockChance⟩ := chances_of_merge found
  unfold Undefined EmbeddedStore.storedMetrics
  rw [← syncChance, ← blockChance]
  cases merged.syncChance.stored? <;> cases merged.blockChance.stored? <;> simp

/-- The metrics of a validator can be stored when its sums can. -/
theorem exists_stored (first last : Int) (fits : ¬Overflows samples validator)
    (defined : ¬Undefined samples validator) :
    ∃ metrics, stored? samples first last validator = some metrics := by
  obtain ⟨merged, found⟩ := exists_merge first last fits
  rw [undefined_iff found] at defined
  unfold stored?
  rw [found]
  cases outcome : EmbeddedStore.storedMetrics merged with
  | error column => exact absurd ⟨column, outcome⟩ defined
  | ok metrics => exact ⟨metrics, by rw [Option.bind_some, outcome]; rfl⟩

end Sample

/-- The row of a day with the values of a row of the window. -/
def RollingRow.onDay (day : CalendarDay) (row : RollingRow) : DailyRow :=
  ⟨day, row.start, row.stop, row.validator, row.metrics⟩

namespace EmbeddedStore

variable {store : EmbeddedStore}

/-! ### Statements that fail -/

/-- A traversal fails where an item fails, whatever comes after it. -/
theorem run_forM_append_of_error {Item : Type} {act : Item → Statement Unit}
    {items rest : List Item} {item : Item} {tables between : Tables} {error : StoreError}
    (begun : (items.forM act).run tables = .ok ((), between))
    (failed : (act item).run between = .error error) :
    ((items ++ item :: rest).forM act).run tables = .error error := by
  rw [List.forM_eq_forM] at begun ⊢
  rw [List.forM_append, run_bind_of_ok begun, List.forM_cons, run_bind_of_error failed]

section

variable {samples : List Sample} {first last validator : Int} {validators : List Int}
  {tables : Tables}

theorem run_mergeValidator_of_overflows (overflows : Sample.Overflows samples validator) :
    (mergeValidator samples first last validator).run tables =
      .error (.database .sumOverflow) := by
  unfold mergeValidator
  rw [Sample.merge?_eq_none_iff.mpr overflows]
  rfl

/-- Merging some validators finds the metrics of all of them. -/
theorem run_mapM_merge (fits : ∀ validator ∈ validators, ¬Sample.Overflows samples validator) :
    (validators.mapM (m := Statement) fun validator => do
        return (validator, ← mergeValidator samples first last validator)).run tables =
      .ok (validators.map fun validator =>
        (validator, (Sample.merge? samples first last validator).getD .none), tables) := by
  induction validators with
  | nil => rfl
  | cons validator rest inductionHypothesis =>
    obtain ⟨merged, found⟩ := Sample.exists_merge first last
      (fits validator List.mem_cons_self)
    have tail := inductionHypothesis fun other member =>
      fits other (List.mem_cons_of_mem _ member)
    rw [List.mapM_cons, run_bind_of_ok (run_bind_of_ok (run_mergeValidator found tables)),
      run_bind_of_ok tail, List.map_cons, found]
    rfl

/-- Merging some validators fails when a sum of one of them overflows. -/
theorem run_mapM_of_overflows
    (overflows : ∃ validator ∈ validators, Sample.Overflows samples validator) :
    (validators.mapM (m := Statement) fun validator => do
        return (validator, ← mergeValidator samples first last validator)).run tables =
      .error (.database .sumOverflow) := by
  induction validators with
  | nil => simp at overflows
  | cons validator rest inductionHypothesis =>
    rw [List.mapM_cons]
    by_cases here : Sample.Overflows samples validator
    · exact run_bind_of_error (run_bind_of_error (run_mergeValidator_of_overflows here))
    · obtain ⟨merged, found⟩ := Sample.exists_merge first last here
      obtain ⟨other, member, there⟩ := overflows
      rcases List.mem_cons.mp member with rfl | later
      · exact absurd there here
      · rw [run_bind_of_ok (run_bind_of_ok (run_mergeValidator found tables))]
        exact run_bind_of_error (inductionHypothesis ⟨other, later, there⟩)

end

/-! ### Days and windows that fail -/

section

variable {samples : List Sample} {first last : Int} {tables : Tables}

/-- A row with a chance that is not a number is not written. -/
theorem Healthy.run_put_of_error (healthy : store.Healthy) {Row : Type} {kind : RowKind Row}
    {row : Row} {column : Column} (admitted : kind.admits tables row = true)
    (undefined : storedMetrics (kind.metrics row) = .error column) :
    (store.put kind row).run tables =
      .error (.database (.missingValue kind.table.name column.name)) := by
  unfold put
  rw [run_bind_of_ok (healthy.run_checkFault _ _ _ _), run_bind_of_ok rfl, admitted,
    run_bind_of_ok rfl]
  refine run_bind_of_error ?_
  unfold checkMetrics
  rw [undefined]
  rfl

/-- The rows of some validators whose sums can be stored. -/
theorem exists_rows {validators : List Int} (first last start stop : Int)
    (sound : ∀ validator ∈ validators,
      ¬Sample.Overflows samples validator ∧ ¬Sample.Undefined samples validator) :
    ∃ rows : List RollingRow, rows.map (·.validator) = validators ∧
      ∀ row ∈ rows, (row.start = start ∧ row.stop = stop) ∧
        Sample.stored? samples first last row.validator = some row.metrics := by
  refine ⟨validators.map fun validator =>
    ⟨validator, start, stop, (Sample.stored? samples first last validator).getD .none⟩, ?_, ?_⟩
  · rw [List.map_map]
    exact List.map_id _
  · intro row member
    obtain ⟨validator, validatorMember, rfl⟩ := List.mem_map.mp member
    obtain ⟨fits, defined⟩ := sound validator validatorMember
    obtain ⟨metrics, found⟩ := Sample.exists_stored first last fits defined
    exact ⟨⟨rfl, rfl⟩, by rw [found]; rfl⟩

/-- The merged metrics of some validators are kept as those of their rows of a day. -/
theorem forall₂_keeps {rows : List RollingRow} {start stop : Int} (day : CalendarDay)
    (written : ∀ row ∈ rows, (row.start = start ∧ row.stop = stop) ∧
      Sample.stored? samples first last row.validator = some row.metrics) :
    List.Forall₂ (fun pair row => Keeps .daily ⟨day, start, stop, pair.1, pair.2⟩ row)
      ((rows.map (·.validator)).map fun validator =>
        (validator, (Sample.merge? samples first last validator).getD .none))
      (rows.map (RollingRow.onDay day)) := by
  rw [List.map_map, List.forall₂_map_left_iff, List.forall₂_map_right_iff, List.forall₂_same]
  intro row member
  obtain ⟨⟨start, stop⟩, stored⟩ := written row member
  obtain ⟨merged, found, kept⟩ := Sample.exists_merge_of_stored stored
  dsimp only [Function.comp_apply]
  rw [found, ← start, ← stop]
  exact ⟨row.metrics, kept, rfl⟩

end

/-- A range of stored epochs on a store without faults, whose hours are some samples. The last
of them starts at the head. -/
structure Spans (store : EmbeddedStore) (range : EpochRange) (head : Nat)
    (samples : List Sample) : Prop where
  /-- The store is open and has no faults. -/
  healthy : store.Healthy
  /-- The range can be stored. -/
  stop : range.stop < storedLimit
  /-- The samples are the hours that start in it. -/
  hours : hourSamples store.tables.hourly range.start range.stop = samples
  /-- The last hour starts at the head. -/
  last : (samples.map (·.key)).max? = some (head : Int)

namespace Spans

variable {range : EpochRange} {head : Nat} {samples : List Sample}

theorem exists_head (spans : store.Spans range head samples) :
    ∃ hour ∈ store.tables.hourly, hour.start = head ∧
      (range.start : Int) ≤ hour.start ∧ hour.start < range.stop := by
  have member := (List.max?_eq_some_iff.mp spans.last).1
  rw [← spans.hours, hourSamples, List.map_map] at member
  obtain ⟨hour, inside, same⟩ := List.mem_map.mp member
  obtain ⟨stored, within⟩ := List.mem_filter.mp inside
  simp only [Bool.and_eq_true, decide_eq_true_eq] at within
  exact ⟨hour, stored, same, within⟩

theorem le_head (spans : store.Spans range head samples) {row : HourlyRow}
    (member : row ∈ store.tables.hourly) (after : (range.start : Int) ≤ row.start)
    (before : row.start < range.stop) : row.start ≤ head := by
  have inside : row.sample ∈ samples := by
    rw [← spans.hours]
    exact List.mem_map_of_mem (List.mem_filter.mpr ⟨member, by simp [after, before]⟩)
  exact (List.max?_eq_some_iff.mp spans.last).2 _ (List.mem_map_of_mem inside)

theorem stored (spans : store.Spans range head samples) :
    range.start < storedLimit ∧ head < storedLimit := by
  obtain ⟨hour, -, same, after, before⟩ := spans.exists_head
  have stop := spans.stop
  omega

theorem exists_first (spans : store.Spans range head samples) :
    ∃ first, (samples.map (·.key)).min? = some first := by
  cases least : (samples.map (·.key)).min? with
  | some first => exact ⟨first, rfl⟩
  | none =>
    have last := spans.last
    rw [List.min?_eq_none_iff.mp least] at last
    cases last

/-- The hours up to the head are those of the range. -/
theorem window (spans : store.Spans range head samples) :
    windowSamples store.tables.hourly range.start head = samples := by
  rw [← spans.hours]
  refine congrArg _ (List.filter_congr fun row member => ?_)
  obtain ⟨hour, -, same, -, before⟩ := spans.exists_head
  rw [Bool.eq_iff_iff]
  simp only [Bool.and_eq_true, decide_eq_true_eq]
  constructor
  · rintro ⟨after, upTo⟩
    exact ⟨after, by omega⟩
  · rintro ⟨after, inside⟩
    exact ⟨after, spans.le_head member after inside⟩

/-- The last hour has an end. -/
theorem exists_coverage (spans : store.Spans range head samples) :
    ∃ stop, coverage store.tables head = some stop := by
  obtain ⟨hour, member, same, -⟩ := spans.exists_head
  unfold coverage
  cases covered : ((store.tables.hourly.filter (·.start = (head : Int))).map (·.stop)).max? with
  | some stop => exact ⟨stop, rfl⟩
  | none =>
    have none := List.map_eq_nil_iff.mp (List.max?_eq_none_iff.mp covered)
    exact absurd (List.mem_filter.mpr ⟨member, decide_eq_true same⟩)
      (none ▸ List.not_mem_nil)

/-! ### What the two statements come to -/

variable {day : CalendarDay} {first stop : Int}

theorem run_foldDay (spans : store.Spans range head samples)
    (firstIs : (samples.map (·.key)).min? = some first)
    (covered : coverage store.tables head = some stop) :
    (store.statement (.foldDay range day)).run store.tables =
      (store.writeMerged .daily samples first head fun validator metrics =>
        ⟨day, range.start, stop, validator, metrics⟩).run store.tables := by
  rw [spans.healthy.run_statement_foldDay spans.stored.1 spans.stop,
    run_foldDay_of_some (spans.hours ▸ firstIs) (spans.hours ▸ spans.last), spans.hours, covered]
  rfl

theorem run_replaceRolling (spans : store.Spans range head samples)
    (firstIs : (samples.map (·.key)).min? = some first)
    (covered : coverage store.tables head = some stop) :
    (store.statement (.replaceRolling range.start head)).run store.tables =
      (do
        (Sample.validators samples).forM fun validator => do
          let metrics ← mergeValidator samples first head validator
          store.putRolling validator range.start (some stop) metrics
        return (Sample.validators samples).length : Statement Nat).run
          { store.tables with rolling := [] } := by
  rw [← spans.window] at firstIs ⊢
  rw [← covered]
  exact (spans.healthy.run_statement_replaceRolling spans.stored.1 spans.stored.2).trans
    (spans.healthy.run_insertRolling_of_some { store.tables with rolling := [] } firstIs)

theorem answer_foldDay_of_overflows (spans : store.Spans range head samples)
    (overflows : ∃ validator ∈ Sample.validators samples, Sample.Overflows samples validator) :
    store.answer (.foldDay range day) = (.error (.database .sumOverflow), store) := by
  obtain ⟨first, firstIs⟩ := spans.exists_first
  obtain ⟨stop, covered⟩ := spans.exists_coverage
  refine answer_of_run_error ?_
  rw [spans.run_foldDay firstIs covered]
  exact run_bind_of_error (run_mapM_of_overflows overflows)

section

variable {validators rest : List Int} {validator : Int}

/-- Where no sum overflows, a day is rejected for the first chance that is not a number. -/
theorem answer_foldDay_of_undefined (spans : store.Spans range head samples)
    (admitted : store.tables.admitsDay day = true)
    (fits : ∀ validator ∈ Sample.validators samples, ¬Sample.Overflows samples validator)
    (split : Sample.validators samples = validators ++ validator :: rest)
    (defined : ∀ other ∈ validators, ¬Sample.Undefined samples other)
    (undefined : Sample.Undefined samples validator) :
    ∃ column : Column, store.answer (.foldDay range day) =
      (.error (.database (.missingValue RollupTable.daily.name column.name)), store) := by
  obtain ⟨first, firstIs⟩ := spans.exists_first
  obtain ⟨stop, covered⟩ := spans.exists_coverage
  obtain ⟨rows, rfl, written⟩ := exists_rows first head range.start stop
    fun other member => ⟨fits other (split ▸ List.mem_append_left _ member), defined other member⟩
  obtain ⟨merged, found⟩ := Sample.exists_merge first head
    (fits validator (split ▸ List.mem_append_right _ List.mem_cons_self))
  obtain ⟨column, unstored⟩ := (Sample.undefined_iff found).mp undefined
  refine ⟨column, answer_of_run_error ?_⟩
  rw [spans.run_foldDay firstIs covered]
  refine (run_bind_of_ok (run_mapM_merge fits)).trans (run_bind_of_error ?_)
  rw [split, List.map_append, List.map_cons, found]
  have begun := spans.healthy.forM_put (fun _ _ => admitted) (forall₂_keeps day written)
  exact run_forM_append_of_error begun (spans.healthy.run_put_of_error admitted unstored)

/-- A window is rejected for its first validator that cannot be folded, with an overflow if a
sum of that validator overflows. -/
theorem answer_replaceRolling_of_unsound (spans : store.Spans range head samples)
    (split : Sample.validators samples = validators ++ validator :: rest)
    (sound : ∀ other ∈ validators,
      ¬Sample.Overflows samples other ∧ ¬Sample.Undefined samples other)
    (unsound : Sample.Overflows samples validator ∨ Sample.Undefined samples validator) :
    ∃ error, store.answer (.replaceRolling range.start head) = (.error error, store) ∧
      (error = .database .sumOverflow ↔ Sample.Overflows samples validator) := by
  obtain ⟨first, firstIs⟩ := spans.exists_first
  obtain ⟨stop, covered⟩ := spans.exists_coverage
  obtain ⟨rows, rfl, written⟩ := exists_rows first head range.start stop sound
  have covers : ∀ row ∈ rows, (row.start = range.start ∧ some stop = some row.stop) ∧
      Sample.stored? samples first head row.validator = some row.metrics := by
    intro row member
    obtain ⟨⟨start, same⟩, metrics⟩ := written row member
    exact ⟨⟨start, congrArg some same.symm⟩, metrics⟩
  by_cases overflows : Sample.Overflows samples validator
  · refine ⟨.database .sumOverflow, answer_of_run_error ?_, iff_of_true rfl overflows⟩
    rw [spans.run_replaceRolling firstIs covered, split]
    exact run_bind_of_error (run_forM_append_of_error (spans.healthy.forM_putRolling covers)
      (run_bind_of_error (run_mergeValidator_of_overflows overflows)))
  · obtain ⟨merged, found⟩ := Sample.exists_merge first head overflows
    obtain ⟨column, unstored⟩ := (Sample.undefined_iff found).mp (unsound.resolve_left overflows)
    refine ⟨.database (.missingValue RollupTable.rolling.name column.name),
      answer_of_run_error ?_, iff_of_false nofun overflows⟩
    rw [spans.run_replaceRolling firstIs covered, split]
    refine run_bind_of_error
      (run_forM_append_of_error (spans.healthy.forM_putRolling covers) ?_)
    rw [run_bind_of_ok (run_mergeValidator found _)]
    exact spans.healthy.run_put_of_error rfl unstored

end

/-- Where every validator can be folded, the day and the window have the same rows. -/
theorem answers_of_sound (spans : store.Spans range head samples)
    (admitted : store.tables.admitsDay day = true)
    (sound : ∀ validator ∈ Sample.validators samples,
      ¬Sample.Overflows samples validator ∧ ¬Sample.Undefined samples validator) :
    ∃ rows : List RollingRow, rows.map (·.validator) = Sample.validators samples ∧
      store.answer (.replaceRolling range.start head) =
        (.ok rows.length, { store with tables := { store.tables with rolling := rows } }) ∧
      store.answer (.foldDay range day) = (.ok rows.length, { store with
        tables := { store.tables with
          daily := putRows DailyRow.before (rows.map (RollingRow.onDay day))
            store.tables.daily } }) := by
  obtain ⟨first, firstIs⟩ := spans.exists_first
  obtain ⟨stop, covered⟩ := spans.exists_coverage
  obtain ⟨rows, validators, written⟩ := exists_rows first head range.start stop sound
  refine ⟨rows, validators, ?window, ?day⟩
  case window =>
    have ascending : rows.Pairwise fun left right => left.validator < right.validator :=
      List.pairwise_map.mp (validators ▸ Sample.pairwise_validators samples)
    have replaced := spans.healthy.answer_replaceRolling spans.stored.1 spans.stored.2
      (spans.window ▸ firstIs) (validators.trans (congrArg _ spans.window.symm))
      fun row member => ⟨⟨(written row member).1.1, by rw [covered, (written row member).1.2]⟩,
        spans.window ▸ (written row member).2⟩
    rw [replaced, putRows_rolling ascending]
  case day =>
    have dated : (rows.map (RollingRow.onDay day)).map (·.validator) =
        Sample.validators (hourSamples store.tables.hourly range.start range.stop) := by
      rw [spans.hours, ← validators, List.map_map]
      rfl
    have folded := spans.healthy.answer_foldDay spans.stored.1 spans.stop
      (spans.hours ▸ firstIs) (spans.hours ▸ spans.last) admitted dated ?_
    · rw [folded, List.length_map]
    · intro row member
      obtain ⟨own, ownMember, rfl⟩ := List.mem_map.mp member
      obtain ⟨⟨start, same⟩, metrics⟩ := written own ownMember
      refine ⟨⟨rfl, start, ?_⟩, spans.hours ▸ metrics⟩
      rw [covered]
      exact same

end Spans

end EmbeddedStore

/-- The first of some values that are not as they should be. -/
theorem exists_first_of_exists {Value : Type} {unsound : Value → Prop} [DecidablePred unsound]
    {values : List Value} (found : ∃ value ∈ values, unsound value) :
    ∃ before value rest, values = before ++ value :: rest ∧ unsound value ∧
      ∀ other ∈ before, ¬unsound other := by
  have some : (values.find? (unsound ·)).isSome = true := by simpa using found
  obtain ⟨value, valueIs⟩ := Option.isSome_iff_exists.mp some
  obtain ⟨holds, before, rest, split, others⟩ := List.find?_eq_some_iff_append.mp valueIs
  exact ⟨before, value, rest, split, of_decide_eq_true holds, by simpa using others⟩

/-- The first validator that cannot be folded overflows when some validator overflows before any
chance is not a number. -/
theorem Sample.overflows_iff_of_first {samples : List Sample} {before rest : List Int}
    {validator : Int} (split : validators samples = before ++ validator :: rest)
    (unsound : Overflows samples validator ∨ Undefined samples validator)
    (sound : ∀ other ∈ before, ¬(Overflows samples other ∨ Undefined samples other)) :
    Overflows samples validator ↔ ∃ later ∈ validators samples, Overflows samples later ∧
      ∀ other ∈ validators samples, other < later → ¬Undefined samples other := by
  have ascending := pairwise_validators samples
  rw [split] at ascending ⊢
  obtain ⟨-, tail, -⟩ := List.pairwise_append.mp ascending
  have past := (List.pairwise_cons.mp tail).1
  constructor
  · intro overflows
    refine ⟨validator, List.mem_append_right _ List.mem_cons_self, overflows, ?_⟩
    intro other member less undefined
    rcases List.mem_append.mp member with early | late
    · exact sound other early (Or.inr undefined)
    · rcases List.mem_cons.mp late with rfl | later
      · exact Int.lt_irrefl _ less
      · have more := past other later
        omega
  · rintro ⟨later, member, overflows, defined⟩
    rcases List.mem_append.mp member with early | late
    · exact absurd (Or.inl overflows) (sound later early)
    · rcases List.mem_cons.mp late with rfl | after
      · exact overflows
      · exact unsound.resolve_right
          (defined validator (List.mem_append_right _ List.mem_cons_self) (past later after))

/-- A day and a window over the same hours agree. Where every validator can be folded, both are
written, one row for each validator, and the rows are the same but for the date. Otherwise both
are rejected and change nothing. A day is rejected for an overflow when a sum of some validator
overflows. A window is rejected for one when, besides, the chances of the validators before it
add up to numbers; else it is rejected for the chances. -/
theorem foldDay_agrees_replaceRolling {store : EmbeddedStore} {range : EpochRange} {head : Nat}
    {samples : List Sample} (spans : store.Spans range head samples) {day : CalendarDay}
    (admitted : store.tables.admitsDay day = true) :
    ((∀ validator ∈ Sample.validators samples,
        ¬Sample.Overflows samples validator ∧ ¬Sample.Undefined samples validator) ∧
      ∃ rows : List RollingRow, rows.map (·.validator) = Sample.validators samples ∧
        store.answer (.replaceRolling range.start head) =
          (.ok rows.length, { store with tables := { store.tables with rolling := rows } }) ∧
        store.answer (.foldDay range day) = (.ok rows.length, { store with
          tables := { store.tables with
            daily := putRows DailyRow.before (rows.map (RollingRow.onDay day))
              store.tables.daily } })) ∨
    ((∃ validator ∈ Sample.validators samples,
        Sample.Overflows samples validator ∨ Sample.Undefined samples validator) ∧
      ∃ windowError dayError,
        store.answer (.replaceRolling range.start head) = (.error windowError, store) ∧
        store.answer (.foldDay range day) = (.error dayError, store) ∧
        (dayError = .database .sumOverflow ↔
          ∃ validator ∈ Sample.validators samples, Sample.Overflows samples validator) ∧
        (windowError = .database .sumOverflow ↔
          ∃ validator ∈ Sample.validators samples, Sample.Overflows samples validator ∧
            ∀ other ∈ Sample.validators samples, other < validator →
              ¬Sample.Undefined samples other)) := by
  by_cases found : ∃ validator ∈ Sample.validators samples,
      Sample.Overflows samples validator ∨ Sample.Undefined samples validator
  · obtain ⟨before, first, rest, split, unsound, sound⟩ := exists_first_of_exists found
    obtain ⟨windowError, window, windowOverflow⟩ := spans.answer_replaceRolling_of_unsound split
      (fun other member => not_or.mp (sound other member)) unsound
    rw [Sample.overflows_iff_of_first split unsound sound] at windowOverflow
    by_cases overflows : ∃ validator ∈ Sample.validators samples,
        Sample.Overflows samples validator
    · exact Or.inr ⟨found, windowError, _, window, spans.answer_foldDay_of_overflows overflows,
        iff_of_true rfl overflows, windowOverflow⟩
    · have fits : ∀ validator ∈ Sample.validators samples,
          ¬Sample.Overflows samples validator :=
        fun validator member overflow => overflows ⟨validator, member, overflow⟩
      have undefined : Sample.Undefined samples first :=
        unsound.resolve_left (fits first (split ▸ List.mem_append_right _ List.mem_cons_self))
      obtain ⟨column, rejected⟩ := spans.answer_foldDay_of_undefined admitted fits split
        (fun other member => (not_or.mp (sound other member)).2) undefined
      exact Or.inr ⟨found, windowError, _, window, rejected, iff_of_false nofun overflows,
        windowOverflow⟩
  · have sound : ∀ validator ∈ Sample.validators samples,
        ¬Sample.Overflows samples validator ∧ ¬Sample.Undefined samples validator :=
      fun validator member => not_or.mp fun unsound => found ⟨validator, member, unsound⟩
    exact Or.inl ⟨sound, spans.answers_of_sound admitted sound⟩

namespace TwoFaults

/-- An hour of a validator with a reward and a chance. -/
def hour (start validator reward : Int) (chance : Double) : HourlyRow :=
  ⟨start, start + 1, validator,
    { Metrics.none with
      integers := Metrics.none.integers.set 5 reward
      syncChance := chance }⟩

/-- A store without faults that holds some hours of a day. -/
def store (hours : List HourlyRow) : EmbeddedStore :=
  { EmbeddedStore.fresh with
    tables :=
      { Tables.empty with
        hourly := hours
        catalogue := [.daily ⟨0, 24⟩ ⟨⟨0⟩, ⟨1⟩⟩] } }

/-- Two hours of two validators whose sums can be stored. -/
def sound : List HourlyRow :=
  [hour 0 7 1 .zero, hour 0 8 2 .zero, hour 1 7 3 .zero, hour 1 8 4 .zero]

/-- Infinite chances of the first validator cancel, and a reward of the second overflows. -/
def unsound : List HourlyRow :=
  [hour 0 7 0 (.infinity false), hour 0 8 9223372036854775807 .zero,
    hour 1 7 0 (.infinity true), hour 1 8 1 .zero]

theorem spans (hours : List HourlyRow)
    (last : ((hourSamples hours 0 24).map (·.key)).max? = some 1) :
    (store hours).Spans ⟨0, 24⟩ 1 (hourSamples hours 0 24) :=
  ⟨⟨rfl, rfl⟩, by decide, rfl, last⟩

end TwoFaults

open TwoFaults in
/-- Two validators with two hours each have a row each, of the day and of the window. -/
theorem foldDay_agrees_replaceRolling_two_hours :
    ∃ rows : List RollingRow, rows.map (·.validator) = [7, 8] ∧
      (store sound).answer (.replaceRolling 0 1) = (.ok rows.length, { store sound with
        tables := { (store sound).tables with rolling := rows } }) ∧
      (store sound).answer (.foldDay ⟨0, 24⟩ ⟨0⟩) = (.ok rows.length, { store sound with
        tables := { (store sound).tables with
          daily := putRows DailyRow.before (rows.map (RollingRow.onDay ⟨0⟩)) [] } }) := by
  have admitted : (store sound).tables.admitsDay ⟨0⟩ = true := by decide
  rcases foldDay_agrees_replaceRolling (spans sound (by decide)) admitted with
    ⟨-, rows, validators, window, day⟩ | ⟨unsound, -⟩
  · exact ⟨rows, validators, window, day⟩
  · exact absurd unsound (by decide +kernel)

open TwoFaults in
/-- A day can be rejected for an overflow and the window over its hours for another fault. -/
theorem exists_overflow_of_day_only :
    ∃ (store : EmbeddedStore) (range : EpochRange) (head : Nat) (samples : List Sample)
      (day : CalendarDay),
      store.Spans range head samples ∧ store.tables.admitsDay day = true ∧
      store.answer (.foldDay range day) = (.error (.database .sumOverflow), store) ∧
      store.answer (.replaceRolling range.start head) =
        (.error (.database (.missingValue RollupTable.rolling.name Column.syncChance.name)),
          store) := by
  refine ⟨store unsound, ⟨0, 24⟩, 1, hourSamples unsound 0 24, ⟨0⟩, spans unsound (by decide),
    by decide, ?_, ?_⟩
  · decide +kernel
  · decide +kernel

end EpochRollup
