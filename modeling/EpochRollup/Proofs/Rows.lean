/-
This file proves the laws of keyed rows. The tables of the embedded store hold their
rows in the strict order of a key, and every write goes through `putRow`. Two facts
carry everything that is said about tables later: writing a row keeps the order, and
the rows afterwards are the written one and the old ones with another key. Rows in
strict order are determined by which rows they are, so two tables with the same rows
are the same table.
-/

import Mathlib.Data.Prod.Lex
import EpochRollup.Store.Table

namespace EpochRollup

section Keyed

variable {Row Key : Type} [LinearOrder Key]

/-- Rows stand in the strict order of their keys. -/
def Keyed (key : Row → Key) (rows : List Row) : Prop :=
  rows.Pairwise fun left right => key left < key right

/-- A Boolean order of rows is the order of a key. -/
def OrderedBy (before : Row → Row → Bool) (key : Row → Key) : Prop :=
  ∀ left right, before left right = true ↔ key left < key right

variable {before : Row → Row → Bool} {key : Row → Key}

theorem Keyed.filter {rows : List Row} (keyed : Keyed key rows) (kept : Row → Bool) :
    Keyed key (rows.filter kept) :=
  List.Pairwise.filter kept keyed

/-- Two rows of a keyed table with one key are one row. -/
theorem Keyed.eq_of_key_eq {rows : List Row} (keyed : Keyed key rows) {left right : Row}
    (leftMember : left ∈ rows) (rightMember : right ∈ rows) (same : key left = key right) :
    left = right := by
  induction rows with
  | nil => cases leftMember
  | cons head rest inductionHypothesis =>
    obtain ⟨first, others⟩ := List.pairwise_cons.mp keyed
    rcases List.mem_cons.mp leftMember with rfl | leftRest
    · rcases List.mem_cons.mp rightMember with rfl | rightRest
      · rfl
      · exact absurd same (ne_of_lt (first right rightRest))
    · rcases List.mem_cons.mp rightMember with rfl | rightRest
      · exact absurd same.symm (ne_of_lt (first left leftRest))
      · exact inductionHypothesis others leftRest rightRest

/-- Keyed tables with the same rows are equal. -/
theorem Keyed.ext {left right : List Row} (leftKeyed : Keyed key left)
    (rightKeyed : Keyed key right) (same : ∀ row, row ∈ left ↔ row ∈ right) : left = right := by
  have nodup {rows : List Row} (keyed : Keyed key rows) : rows.Nodup :=
    List.Pairwise.imp (fun less equal => absurd less (by rw [equal]; exact lt_irrefl _)) keyed
  have permuted : left.Perm right :=
    (List.perm_ext_iff_of_nodup (nodup leftKeyed) (nodup rightKeyed)).mpr same
  refine permuted.eq_of_pairwise ?_ leftKeyed rightKeyed
  intro first second _ _ forward backward
  exact absurd (lt_trans forward backward) (lt_irrefl _)

/-- Exactly one row is kept when the rows to keep have the key of a row that is there. -/
theorem Keyed.filter_eq_singleton {rows : List Row} (keyed : Keyed key rows) {row : Row}
    (member : row ∈ rows) {kept : Row → Bool} (here : kept row = true)
    (only : ∀ other ∈ rows, kept other = true → key other = key row) :
    rows.filter kept = [row] := by
  refine (keyed.filter kept).ext (List.pairwise_singleton _ _) fun other => ?_
  rw [List.mem_filter, List.mem_singleton]
  constructor
  · rintro ⟨otherMember, otherKept⟩
    exact keyed.eq_of_key_eq otherMember member (only other otherMember otherKept)
  · rintro rfl
    exact ⟨member, here⟩

/-! ### Writing one row -/

section Cons

variable (ordered : OrderedBy before key) {row head : Row} (rest : List Row)

include ordered

/-- A row that stands before the first one is put in front of it. -/
theorem putRow_cons_of_lt (less : key row < key head) :
    putRow before row (head :: rest) = row :: head :: rest := by
  rw [putRow, if_pos ((ordered row head).mpr less)]

/-- A row with the key of the first one takes its place. -/
theorem putRow_cons_of_eq (same : key row = key head) :
    putRow before row (head :: rest) = row :: rest := by
  rw [putRow, if_neg fun less => ne_of_lt ((ordered row head).mp less) same,
    if_neg fun greater => ne_of_gt ((ordered head row).mp greater) same]

/-- A row that stands after the first one is put among the others. -/
theorem putRow_cons_of_gt (greater : key head < key row) :
    putRow before row (head :: rest) = head :: putRow before row rest := by
  rw [putRow, if_neg fun less => lt_asymm greater ((ordered row head).mp less),
    if_pos ((ordered head row).mpr greater)]

end Cons

/-- After a write the table holds the written row and the old rows with another key. -/
theorem mem_putRow (ordered : OrderedBy before key) {rows : List Row} (keyed : Keyed key rows)
    (row other : Row) :
    other ∈ putRow before row rows ↔ other = row ∨ other ∈ rows ∧ key other ≠ key row := by
  induction rows with
  | nil => simp [putRow]
  | cons head rest inductionHypothesis =>
    obtain ⟨first, others⟩ := List.pairwise_cons.mp keyed
    have apart (member : other ∈ rest) (upTo : key row ≤ key head) : key other ≠ key row :=
      ne_of_gt (lt_of_le_of_lt upTo (first other member))
    rcases lt_trichotomy (key row) (key head) with less | same | greater
    · have different (member : other ∈ head :: rest) : key other ≠ key row := by
        rcases List.mem_cons.mp member with rfl | tail
        · exact ne_of_gt less
        · exact apart tail (le_of_lt less)
      rw [putRow_cons_of_lt ordered rest less, List.mem_cons]
      exact or_congr_right ⟨fun member => ⟨member, different member⟩, And.left⟩
    · have replaced : other ∈ head :: rest ∧ key other ≠ key row ↔ other ∈ rest := by
        refine ⟨fun ⟨member, different⟩ => ?_, fun tail =>
          ⟨List.mem_cons_of_mem _ tail, apart tail (le_of_eq same)⟩⟩
        refine (List.mem_cons.mp member).resolve_left fun here => different ?_
        rw [here, same]
      rw [putRow_cons_of_eq ordered rest same, List.mem_cons, replaced]
    · rw [putRow_cons_of_gt ordered rest greater, List.mem_cons, inductionHypothesis others,
        List.mem_cons]
      constructor
      · rintro (rfl | rfl | ⟨tail, different⟩)
        · exact Or.inr ⟨Or.inl rfl, ne_of_lt greater⟩
        · exact Or.inl rfl
        · exact Or.inr ⟨Or.inr tail, different⟩
      · rintro (rfl | ⟨rfl | tail, different⟩)
        · exact Or.inr (Or.inl rfl)
        · exact Or.inl rfl
        · exact Or.inr (Or.inr ⟨tail, different⟩)

/-- A key that is there stays there. -/
theorem exists_key_putRow (ordered : OrderedBy before key) {rows : List Row} {other : Row}
    (member : other ∈ rows) (row : Row) :
    ∃ kept ∈ EpochRollup.putRow before row rows, key kept = key other := by
  induction rows with
  | nil => cases member
  | cons head rest inductionHypothesis =>
    rcases lt_trichotomy (key row) (key head) with less | same | greater
    · rw [putRow_cons_of_lt ordered rest less]
      exact ⟨other, List.mem_cons_of_mem _ member, rfl⟩
    · rw [putRow_cons_of_eq ordered rest same]
      rcases List.mem_cons.mp member with rfl | tail
      · exact ⟨row, List.mem_cons_self, same⟩
      · exact ⟨other, List.mem_cons_of_mem _ tail, rfl⟩
    · rw [putRow_cons_of_gt ordered rest greater]
      rcases List.mem_cons.mp member with rfl | tail
      · exact ⟨other, List.mem_cons_self, rfl⟩
      · obtain ⟨kept, keptMember, found⟩ := inductionHypothesis tail
        exact ⟨kept, List.mem_cons_of_mem _ keptMember, found⟩

/-- A row of a written table was written or was there before. -/
theorem mem_of_mem_putRow {rows : List Row} {row other : Row}
    (member : other ∈ EpochRollup.putRow before row rows) : other = row ∨ other ∈ rows := by
  induction rows with
  | nil => exact Or.inl (List.mem_singleton.mp member)
  | cons head rest inductionHypothesis =>
    unfold EpochRollup.putRow at member
    split at member
    · exact List.mem_cons.mp member
    · split at member
      · rcases List.mem_cons.mp member with rfl | later
        · exact Or.inr List.mem_cons_self
        · exact (inductionHypothesis later).imp id (List.mem_cons_of_mem _)
      · exact (List.mem_cons.mp member).imp id (List.mem_cons_of_mem _)

/-- A write keeps the order. -/
theorem Keyed.putRow (ordered : OrderedBy before key) {rows : List Row} (keyed : Keyed key rows)
    (row : Row) : Keyed key (putRow before row rows) := by
  induction rows with
  | nil => exact List.pairwise_singleton _ _
  | cons head rest inductionHypothesis =>
    obtain ⟨first, others⟩ := List.pairwise_cons.mp keyed
    rcases lt_trichotomy (key row) (key head) with less | same | greater
    · rw [putRow_cons_of_lt ordered rest less]
      refine List.pairwise_cons.mpr ⟨fun other member => ?_, keyed⟩
      rcases List.mem_cons.mp member with rfl | tail
      · exact less
      · exact lt_trans less (first other tail)
    · rw [putRow_cons_of_eq ordered rest same]
      refine List.pairwise_cons.mpr ⟨fun other tail => ?_, others⟩
      rw [same]
      exact first other tail
    · rw [putRow_cons_of_gt ordered rest greater]
      refine List.pairwise_cons.mpr ⟨fun other member => ?_, inductionHypothesis others⟩
      rcases (mem_putRow ordered others row other).mp member with rfl | ⟨tail, -⟩
      · exact greater
      · exact first other tail

/-- A row that stands after every old row is written behind them. -/
theorem putRow_append (ordered : OrderedBy before key) {old : List Row} {row : Row}
    (after : ∀ other ∈ old, key other < key row) (added : List Row) :
    putRow before row (old ++ added) = old ++ putRow before row added := by
  induction old with
  | nil => rfl
  | cons head rest inductionHypothesis =>
    rw [List.cons_append, putRow_cons_of_gt ordered _ (after head List.mem_cons_self),
      inductionHypothesis fun other member => after other (List.mem_cons_of_mem _ member)]
    rfl

/-! ### Writing several rows -/

/-- Writes rows one after the other. -/
def putRows (before : Row → Row → Bool) (written rows : List Row) : List Row :=
  written.foldl (fun table row => putRow before row table) rows

theorem Keyed.putRows (ordered : OrderedBy before key) {rows : List Row} (keyed : Keyed key rows)
    (written : List Row) : Keyed key (putRows before written rows) := by
  induction written generalizing rows with
  | nil => exact keyed
  | cons row rest inductionHypothesis => exact inductionHypothesis (keyed.putRow ordered row)

theorem exists_key_putRows (ordered : OrderedBy before key) {rows : List Row} {other : Row}
    (member : other ∈ rows) (written : List Row) :
    ∃ kept ∈ putRows before written rows, key kept = key other := by
  induction written generalizing rows other with
  | nil => exact ⟨other, member, rfl⟩
  | cons row rest inductionHypothesis =>
    obtain ⟨put, putMember, putSame⟩ := exists_key_putRow ordered member row
    obtain ⟨kept, keptMember, same⟩ := inductionHypothesis putMember
    exact ⟨kept, keptMember, same.trans putSame⟩

/-- Rows that stand after every old row are written behind them. -/
theorem putRows_append (ordered : OrderedBy before key) {old written : List Row}
    (after : ∀ row ∈ written, ∀ other ∈ old, key other < key row) (added : List Row) :
    putRows before written (old ++ added) = old ++ putRows before written added := by
  induction written generalizing added with
  | nil => rfl
  | cons row rest inductionHypothesis =>
    rw [putRows, List.foldl_cons, putRow_append ordered (after row List.mem_cons_self), ← putRows,
      inductionHypothesis fun later member => after later (List.mem_cons_of_mem _ member)]
    rfl

/-- A row of a written table was written or was there before. -/
theorem mem_of_mem_putRows {rows written : List Row} {other : Row}
    (member : other ∈ putRows before written rows) : other ∈ written ∨ other ∈ rows := by
  induction written generalizing rows with
  | nil => exact Or.inr member
  | cons row rest inductionHypothesis =>
    rcases inductionHypothesis member with later | put
    · exact Or.inl (List.mem_cons_of_mem _ later)
    · rcases mem_of_mem_putRow put with rfl | old
      · exact Or.inl List.mem_cons_self
      · exact Or.inr old

/-- After the rows of a keyed table are written, the table holds them and the old rows with
other keys. -/
theorem mem_putRows (ordered : OrderedBy before key) {rows : List Row} (keyed : Keyed key rows)
    {written : List Row} (distinct : Keyed key written) (other : Row) :
    other ∈ putRows before written rows ↔
      other ∈ written ∨ other ∈ rows ∧ ∀ row ∈ written, key other ≠ key row := by
  induction written generalizing rows with
  | nil => simp [putRows]
  | cons row rest inductionHypothesis =>
    obtain ⟨first, others⟩ := List.pairwise_cons.mp distinct
    rw [putRows, List.foldl_cons, ← putRows,
      inductionHypothesis (keyed.putRow ordered row) others, mem_putRow ordered keyed,
      List.mem_cons, List.forall_mem_cons]
    constructor
    · rintro (later | ⟨rfl | ⟨old, different⟩, apart⟩)
      · exact Or.inl (Or.inr later)
      · exact Or.inl (Or.inl rfl)
      · exact Or.inr ⟨old, different, apart⟩
    · rintro ((rfl | later) | ⟨old, different, apart⟩)
      · exact Or.inr ⟨Or.inl rfl, fun later member => ne_of_lt (first later member)⟩
      · exact Or.inl later
      · exact Or.inr ⟨Or.inr ⟨old, different⟩, apart⟩

/-- Writing rows that are there changes nothing. -/
theorem Keyed.putRows_of_subset (ordered : OrderedBy before key) {rows written : List Row}
    (keyed : Keyed key rows) (there : ∀ row ∈ written, row ∈ rows) :
    EpochRollup.putRows before written rows = rows := by
  induction written with
  | nil => rfl
  | cons row rest inductionHypothesis =>
    have put : EpochRollup.putRow before row rows = rows := by
      refine (keyed.putRow ordered row).ext keyed fun other => ?_
      rw [mem_putRow ordered keyed]
      constructor
      · rintro (rfl | ⟨member, -⟩)
        · exact there _ List.mem_cons_self
        · exact member
      · intro member
        by_cases same : key other = key row
        · exact Or.inl (keyed.eq_of_key_eq member (there row List.mem_cons_self) same)
        · exact Or.inr ⟨member, same⟩
    show EpochRollup.putRows before rest (EpochRollup.putRow before row rows) = rows
    rw [put]
    exact inductionHypothesis fun other member => there other (List.mem_cons_of_mem _ member)

end Keyed

/-! ### The keys of the tables -/

/-- An epoch row is known by its epoch and validator. -/
def EpochRow.key (row : EpochRow) : Int ×ₗ Int := toLex (row.epoch, row.validator)

/-- An hourly row is known by its bucket and validator. -/
def HourlyRow.key (row : HourlyRow) : Int ×ₗ Int := toLex (row.start, row.validator)

/-- A daily row is known by its written day and validator. -/
def DailyRow.key (row : DailyRow) : Nat ×ₗ Int := toLex (row.day.textKey, row.validator)

theorem EpochRow.orderedBy_key : OrderedBy EpochRow.before EpochRow.key := by
  intro left right
  simp [EpochRow.before, EpochRow.key, Prod.Lex.toLex_lt_toLex]

theorem HourlyRow.orderedBy_key : OrderedBy HourlyRow.before HourlyRow.key := by
  intro left right
  simp [HourlyRow.before, HourlyRow.key, Prod.Lex.toLex_lt_toLex]

theorem DailyRow.orderedBy_key : OrderedBy DailyRow.before DailyRow.key := by
  intro left right
  simp [DailyRow.before, DailyRow.key, Prod.Lex.toLex_lt_toLex]

theorem HourlyRow.key_eq_iff (left right : HourlyRow) :
    left.key = right.key ↔ left.start = right.start ∧ left.validator = right.validator := by
  simp [HourlyRow.key]

theorem DailyRow.key_eq_iff (left right : DailyRow) :
    left.key = right.key ↔
      left.day.textKey = right.day.textKey ∧ left.validator = right.validator := by
  simp [DailyRow.key]

end EpochRollup
