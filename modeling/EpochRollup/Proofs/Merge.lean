/-
This file proves what a fold of samples computes. The validators of a fold are the
validators of its samples, each once and in ascending order. Each column of the merged
metrics of a validator is what the merge class of the column makes of its samples
(`Sample.cell_of_merge`), and the stored metrics are read off that: every integer column
is a sum, the slashing mark a disjunction, and the two balances stand at the first and
the last key of the whole fold, whether or not the validator has a sample there.
-/

import Mathlib.Algebra.Order.Ring.Int
import Mathlib.Tactic.Tauto
import EpochRollup.Metric.Merge
import EpochRollup.Store.Embedded

namespace EpochRollup

/-! ### Validators -/

theorem mem_insertAscending (value other : Int) (values : List Int) :
    other ∈ insertAscending value values ↔ other = value ∨ other ∈ values := by
  induction values with
  | nil => simp [insertAscending]
  | cons head rest inductionHypothesis =>
    unfold insertAscending
    split
    · rw [List.mem_cons]
    · split
      · rename_i same
        rw [same, List.mem_cons]
        tauto
      · rw [List.mem_cons, inductionHypothesis, List.mem_cons]
        tauto

theorem pairwise_insertAscending (value : Int) {values : List Int}
    (ascending : values.Pairwise (· < ·)) : (insertAscending value values).Pairwise (· < ·) := by
  induction values with
  | nil => exact List.pairwise_singleton _ _
  | cons head rest inductionHypothesis =>
    obtain ⟨first, others⟩ := List.pairwise_cons.mp ascending
    unfold insertAscending
    split
    · rename_i less
      refine List.pairwise_cons.mpr ⟨?_, ascending⟩
      intro other member
      rcases List.mem_cons.mp member with rfl | tail
      · exact less
      · exact Int.lt_trans less (first other tail)
    · rename_i notLess
      split
      · exact ascending
      · rename_i different
        refine List.pairwise_cons.mpr ⟨?_, inductionHypothesis others⟩
        intro other member
        rcases (mem_insertAscending value other rest).mp member with rfl | tail
        · omega
        · exact first other tail

namespace Sample

theorem mem_validators (samples : List Sample) (validator : Int) :
    validator ∈ validators samples ↔ ∃ sample ∈ samples, sample.validator = validator := by
  induction samples with
  | nil => simp [validators]
  | cons sample rest inductionHypothesis =>
    have unfolded : validators (sample :: rest) =
        insertAscending sample.validator (validators rest) := rfl
    rw [unfolded, mem_insertAscending, inductionHypothesis]
    constructor
    · rintro (rfl | ⟨other, member, same⟩)
      · exact ⟨sample, List.mem_cons_self, rfl⟩
      · exact ⟨other, List.mem_cons_of_mem _ member, same⟩
    · rintro ⟨other, member, same⟩
      rcases List.mem_cons.mp member with rfl | tail
      · exact Or.inl same.symm
      · exact Or.inr ⟨other, tail, same⟩

theorem pairwise_validators (samples : List Sample) :
    (validators samples).Pairwise (· < ·) := by
  induction samples with
  | nil => exact List.Pairwise.nil
  | cons sample rest inductionHypothesis =>
    exact pairwise_insertAscending sample.validator inductionHypothesis

end Sample

/-! ### Sums -/

/-- A sum that stays among the stored integers is the sum. -/
theorem storedSum?_eq_some {terms : List Int} {total : Int}
    (found : storedSum? terms = some total) : total = terms.sum := by
  have general (addends : List Int) (start : Int)
      (found : addends.foldlM (fun sum term =>
        if IsStored (sum + term) then some (sum + term) else none) start = some total) :
      total = start + addends.sum := by
    induction addends generalizing start with
    | nil =>
      simp only [List.foldlM_nil, Option.pure_def, Option.some.injEq] at found
      simp [found]
    | cons term rest inductionHypothesis =>
      rw [List.foldlM_cons] at found
      by_cases stays : IsStored (start + term)
      · rw [if_pos stays] at found
        rw [List.sum_cons, ← Int.add_assoc]
        exact inductionHypothesis _ found
      · rw [if_neg stays] at found
        cases found
  rw [general terms 0 found, Int.zero_add]

/-! ### Columns by their merge classes -/

/-- The double of a cell, when it holds one. -/
def Cell.double? : Cell → Option Double
  | .double value => some value
  | _ => none

theorem Cell.ofInteger?_injective : Function.Injective Cell.ofInteger? := by
  rintro (_ | value) (_ | other) same <;> cases same <;> rfl

/-- A balance read in one sample, which may be missing. -/
theorem Cell.getD_map_ofInteger? (found : Option Sample) (balance : Metrics → Option Int) :
    (found.map fun sample => ofInteger? (balance sample.metrics)).getD .null =
      ofInteger? (found.bind fun sample => balance sample.metrics) := by
  cases found <;> rfl

/-- The sum of the values of an additive column. Doubles are added with compensation. -/
def Column.total (column : Column) (cells : List Cell) : Cell :=
  if column.isDouble then
    .double (Double.sum (cells.filterMap Cell.double?))
  else
    .integer (cells.filterMap Cell.integer?).sum

/-- What the merge class of a column makes of the samples of a fold, for one validator: the sum of
its values, their disjunction, or the value at the first or the last key of the fold. -/
def Sample.mergedCell (samples : List Sample) (firstKey lastKey validator : Int)
    (column : Column) : Cell :=
  match column.mergeClass with
  | .additive => column.total ((ofValidator samples validator).map (·.metrics.cell column))
  | .booleanOr =>
    .boolean ((ofValidator samples validator).any (·.metrics.cell column = .boolean true))
  | .boundaryStart =>
    ((at? samples firstKey validator).map (·.metrics.cell column)).getD .null
  | .boundaryEnd =>
    ((at? samples lastKey validator).map (·.metrics.cell column)).getD .null

section MergedCell

variable {samples : List Sample} {firstKey lastKey validator : Int} {merged : Metrics}

theorem Sample.mergedCell_integer (index : Fin integerColumnCount) :
    mergedCell samples firstKey lastKey validator (.integer index) =
      .integer ((ofValidator samples validator).map (·.metrics.integers.get index)).sum := by
  simp [mergedCell, Column.mergeClass, Column.total, Column.isDouble, Metrics.cell, Cell.integer?,
    List.filterMap_map, Function.comp_def]

theorem Sample.mergedCell_double {column : Column} {chance : Metrics → Double}
    (isDouble : column.isDouble = true)
    (cell : ∀ metrics : Metrics, metrics.cell column = .double (chance metrics)) :
    mergedCell samples firstKey lastKey validator column =
      .double (Double.sum ((ofValidator samples validator).map (chance ·.metrics))) := by
  have additive : column.mergeClass = .additive := by
    cases column <;> first | rfl | cases isDouble
  simp [mergedCell, additive, Column.total, isDouble, cell, Cell.double?, List.filterMap_map,
    Function.comp_def]

theorem Sample.mergedCell_slashed :
    mergedCell samples firstKey lastKey validator .slashed =
      .boolean ((ofValidator samples validator).any (·.metrics.slashed)) := by
  simp [mergedCell, Column.mergeClass, Metrics.cell]

theorem Sample.mergedCell_balanceStart :
    mergedCell samples firstKey lastKey validator .balanceStart =
      .ofInteger? ((at? samples firstKey validator).bind (·.metrics.balanceStart)) :=
  Cell.getD_map_ofInteger? _ Metrics.balanceStart

theorem Sample.mergedCell_balanceEnd :
    mergedCell samples firstKey lastKey validator .balanceEnd =
      .ofInteger? ((at? samples lastKey validator).bind (·.metrics.balanceEnd)) :=
  Cell.getD_map_ofInteger? _ Metrics.balanceEnd

/-- A merge that has a result folds each column by its merge class. -/
theorem Sample.cell_of_merge (found : merge? samples firstKey lastKey validator = some merged)
    (column : Column) :
    merged.cell column = mergedCell samples firstKey lastKey validator column := by
  unfold merge? at found
  simp only at found
  split at found
  · rename_i every
    rw [Vector.all_eq_true] at every
    cases found
    cases column with
    | integer index =>
      have here := every index.val index.isLt
      rw [Vector.getElem_ofFn] at here
      obtain ⟨total, totalIs⟩ := Option.isSome_iff_exists.mp here
      rw [mergedCell_integer, ← storedSum?_eq_some totalIs]
      refine congrArg Cell.integer ?_
      show ((Vector.ofFn _).map _)[index.val] = total
      rw [Vector.getElem_map, Vector.getElem_ofFn, totalIs]
      rfl
    | syncChance => exact (mergedCell_double rfl fun _ => rfl).symm
    | blockChance => exact (mergedCell_double rfl fun _ => rfl).symm
    | slashed => exact mergedCell_slashed.symm
    | balanceStart => exact mergedCell_balanceStart.symm
    | balanceEnd => exact mergedCell_balanceEnd.symm
  · cases found

/-- What a merge that has a result computes, read off the merge classes of the columns. -/
theorem Sample.merge?_eq_some (found : merge? samples firstKey lastKey validator = some merged) :
    (∀ index, merged.integers.get index =
        ((ofValidator samples validator).map (·.metrics.integers.get index)).sum) ∧
      merged.slashed = (ofValidator samples validator).any (·.metrics.slashed) ∧
      merged.balanceStart = (at? samples firstKey validator).bind (·.metrics.balanceStart) ∧
      merged.balanceEnd = (at? samples lastKey validator).bind (·.metrics.balanceEnd) := by
  have cell := cell_of_merge found
  refine ⟨fun index => ?_, ?_, ?_, ?_⟩
  · exact Cell.integer.inj ((cell (.integer index)).trans (mergedCell_integer index))
  · exact Cell.boolean.inj ((cell .slashed).trans mergedCell_slashed)
  · exact Cell.ofInteger?_injective ((cell .balanceStart).trans mergedCell_balanceStart)
  · exact Cell.ofInteger?_injective ((cell .balanceEnd).trans mergedCell_balanceEnd)

/-- The chances of a merge are compensated sums. -/
theorem Sample.chances_of_merge (found : merge? samples firstKey lastKey validator = some merged) :
    merged.syncChance =
        Double.sum ((ofValidator samples validator).map (·.metrics.syncChance)) ∧
      merged.blockChance =
        Double.sum ((ofValidator samples validator).map (·.metrics.blockChance)) := by
  have cell := cell_of_merge found
  constructor
  · exact Cell.double.inj ((cell .syncChance).trans (mergedCell_double rfl fun _ => rfl))
  · exact Cell.double.inj ((cell .blockChance).trans (mergedCell_double rfl fun _ => rfl))

end MergedCell

/-! ### The stored metrics of one validator -/

/-- The metrics a table holds for one validator of a fold, unless a sum leaves the stored
integers or a double has no stored value. -/
def Sample.stored? (samples : List Sample) (firstKey lastKey validator : Int) : Option Metrics :=
  (merge? samples firstKey lastKey validator).bind fun merged =>
    (EmbeddedStore.storedMetrics merged).toOption

/-- Storing metrics changes the two double columns only. -/
theorem EmbeddedStore.storedMetrics_eq_ok {metrics stored : Metrics}
    (ok : storedMetrics metrics = .ok stored) :
    stored.integers = metrics.integers ∧ stored.slashed = metrics.slashed ∧
      stored.balanceStart = metrics.balanceStart ∧ stored.balanceEnd = metrics.balanceEnd := by
  unfold storedMetrics at ok
  split at ok
  · cases ok
  · cases ok
  · cases ok
    exact ⟨rfl, rfl, rfl, rfl⟩

/-- These two have the numbers that a column can hold. -/
theorem EmbeddedStore.chances_of_storedMetrics {metrics stored : Metrics}
    (ok : storedMetrics metrics = .ok stored) :
    metrics.syncChance.stored? = some stored.syncChance ∧
      metrics.blockChance.stored? = some stored.blockChance := by
  unfold storedMetrics at ok
  split at ok
  · cases ok
  · cases ok
  · rename_i syncChance blockChance
    cases ok
    exact ⟨syncChance, blockChance⟩

/-- The stored metrics are those of a merge that has a result. -/
theorem Sample.exists_merge_of_stored {samples : List Sample} {firstKey lastKey validator : Int}
    {metrics : Metrics} (found : stored? samples firstKey lastKey validator = some metrics) :
    ∃ merged, merge? samples firstKey lastKey validator = some merged ∧
      EmbeddedStore.storedMetrics merged = .ok metrics := by
  obtain ⟨merged, mergedIs, storedIs⟩ := Option.bind_eq_some_iff.mp found
  refine ⟨merged, mergedIs, ?_⟩
  cases outcome : EmbeddedStore.storedMetrics merged with
  | error column => simp [outcome, Except.toOption] at storedIs
  | ok stored => simpa [outcome, Except.toOption] using storedIs

/-- What the stored metrics of a validator are. -/
theorem Sample.stored?_eq_some {samples : List Sample} {firstKey lastKey validator : Int}
    {metrics : Metrics} (found : stored? samples firstKey lastKey validator = some metrics) :
    (∀ index, metrics.integers.get index =
        ((ofValidator samples validator).map (·.metrics.integers.get index)).sum) ∧
      metrics.slashed = (ofValidator samples validator).any (·.metrics.slashed) ∧
      metrics.balanceStart = (at? samples firstKey validator).bind (·.metrics.balanceStart) ∧
      metrics.balanceEnd = (at? samples lastKey validator).bind (·.metrics.balanceEnd) := by
  obtain ⟨merged, mergedIs, ok⟩ := exists_merge_of_stored found
  obtain ⟨integers, slashed, balanceStart, balanceEnd⟩ := EmbeddedStore.storedMetrics_eq_ok ok
  rw [integers, slashed, balanceStart, balanceEnd]
  exact merge?_eq_some mergedIs

/-- The chances are compensated sums, as far as a column can hold them. -/
theorem Sample.chances_of_stored {samples : List Sample} {firstKey lastKey validator : Int}
    {metrics : Metrics} (found : stored? samples firstKey lastKey validator = some metrics) :
    (Double.sum ((ofValidator samples validator).map (·.metrics.syncChance))).stored? =
        some metrics.syncChance ∧
      (Double.sum ((ofValidator samples validator).map (·.metrics.blockChance))).stored? =
        some metrics.blockChance := by
  obtain ⟨merged, mergedIs, ok⟩ := exists_merge_of_stored found
  obtain ⟨syncChance, blockChance⟩ := chances_of_merge mergedIs
  rw [← syncChance, ← blockChance]
  exact EmbeddedStore.chances_of_storedMetrics ok

end EpochRollup
