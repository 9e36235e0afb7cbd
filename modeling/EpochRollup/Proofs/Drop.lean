/-
This file says what a drop takes from the tables. Rows go by the range of the partition that is
dropped and its catalogue entry goes by its name, whether or not there is such an entry. So a
drop takes rows of another partition exactly where the two share a stored row
(`Tables.Catalogued.takesOwn_drop_iff`), and then also when it reports that nothing was there.
Partitions of one layout share no row.
-/

import EpochRollup.Proofs.Covered

namespace EpochRollup

namespace Tables

variable {tables : Tables} {partition : Partition} {row : PartitionedRow}

/-- What a drop leaves: rows go by the range of the partition and its entry by its name. -/
structure Dropped (partition : Partition) (tables : Tables) (existed : Bool) (after : Tables) :
    Prop where
  /-- The answer is whether there was an entry of the name. -/
  existed_iff : existed = true ↔ ∃ entry ∈ tables.catalogue, entry.name = partition.name
  /-- Entries of other names stay in their order. -/
  catalogue : after.catalogue = tables.catalogue.filter (·.name ≠ partition.name)
  /-- Rows the partition does not cover stay, with or without an entry. -/
  holds_iff : ∀ row, after.Holds row ↔ tables.Holds row ∧ ¬partition.Covers row
  /-- The epoch table is as it was. -/
  epochs : after.epochs = tables.epochs
  /-- The rolling table is as it was. -/
  rolling : after.rolling = tables.rolling

/-- A drop takes nothing that belongs elsewhere: without an entry of its name it changes nothing,
and with one the rows it removes have no partition left. -/
structure TakesOwn (tables : Tables) (existed : Bool) (after : Tables) : Prop where
  /-- Nothing was there, and nothing changes. -/
  absent : existed = false → after = tables
  /-- Something was there, and the rows that go have no other partition. -/
  removed : existed = true → ∀ row, tables.Holds row → ¬after.Holds row → ¬after.Covered row

/-- A stored row of a partition is also covered by a catalogued partition of another name. -/
def Shares (tables : Tables) (partition : Partition) : Prop :=
  ∃ row, tables.Holds row ∧ partition.Covers row ∧
    ∃ other ∈ tables.catalogue, other.name ≠ partition.name ∧ other.Covers row

theorem dropped_drop (tables : Tables) (partition : Partition) :
    Dropped partition tables (tables.hasPartition partition.name) (tables.drop partition) where
  existed_iff := hasPartition_iff
  catalogue := rfl
  holds_iff := fun _ => holds_drop_iff_not_covers
  epochs := epochs_drop tables partition
  rolling := by cases partition <;> rfl

/-- A drop changes nothing when there is neither an entry nor a row to take. -/
theorem drop_eq_self (absent : tables.hasPartition partition.name = false)
    (free : ∀ row, tables.Holds row → ¬partition.Covers row) : tables.drop partition = tables := by
  have entries : tables.catalogue.filter (·.name ≠ partition.name) = tables.catalogue := by
    refine List.filter_eq_self.mpr fun entry member => decide_eq_true fun same => ?_
    exact Bool.eq_false_iff.mp absent (hasPartition_iff.mpr ⟨entry, member, same⟩)
  cases partition with
  | hourly range =>
    have rows : tables.hourly.filter (fun row : HourlyRow =>
        !((range.start : Int) ≤ row.start && row.start < range.stop)) = tables.hourly := by
      refine List.filter_eq_self.mpr fun row member => ?_
      simpa [Partition.Covers, imp_iff_not_or] using free (.hourly row) member
    show Tables.mk _ (tables.hourly.filter _) _ _ (tables.catalogue.filter _) = tables
    rw [rows, entries]
    rfl
  | daily range days =>
    have rows : tables.daily.filter (fun row : DailyRow =>
        !(days.start.textKey ≤ row.day.textKey && row.day.textKey < days.stop.textKey)) =
          tables.daily := by
      refine List.filter_eq_self.mpr fun row member => ?_
      simpa [Partition.Covers, imp_iff_not_or] using free (.daily row) member
    show Tables.mk _ _ (tables.daily.filter _) _ (tables.catalogue.filter _) = tables
    rw [rows, entries]
    rfl

namespace Catalogued

variable {ensures : Partition → Prop}

/-- A drop takes nothing that belongs elsewhere exactly when its partition shares no row. -/
theorem takesOwn_drop_iff (catalogued : tables.Catalogued ensures) (partition : Partition) :
    tables.TakesOwn (tables.hasPartition partition.name) (tables.drop partition) ↔
      ¬tables.Shares partition := by
  constructor
  · rintro own ⟨row, held, covers, other, member, different, also⟩
    have gone : ¬(tables.drop partition).Holds row :=
      fun kept => (holds_drop_iff_not_covers.mp kept).2 covers
    cases existed : tables.hasPartition partition.name with
    | false =>
      rw [own.absent existed] at gone
      exact gone held
    | true =>
      exact own.removed existed row held gone
        ⟨other, mem_catalogue_drop.mpr ⟨member, different⟩, also⟩
  · refine fun unshared => ⟨fun absent => drop_eq_self absent fun row held covers => ?_,
      fun _ row held gone => ?_⟩
    · -- The row has a partition, and no entry has the name of the one that is dropped.
      obtain ⟨other, member, also⟩ := catalogued.rows row held
      refine unshared ⟨row, held, covers, other, member, fun same => ?_, also⟩
      exact Bool.eq_false_iff.mp absent (hasPartition_iff.mpr ⟨other, member, same⟩)
    · rintro ⟨other, member, also⟩
      obtain ⟨member, different⟩ := mem_catalogue_drop.mp member
      refine gone (holds_drop_iff_not_covers.mpr ⟨held, fun covers => ?_⟩)
      exact unshared ⟨row, held, covers, other, member, different, also⟩

/-- Partitions of one layout share no row. -/
theorem not_shares {layout : BucketLayout} (catalogued : tables.Catalogued layout.Gives)
    (years : layout.clock.FromYearZero) (gives : layout.Gives partition) :
    ¬tables.Shares partition := by
  rintro ⟨row, -, covers, other, member, different, also⟩
  have given := catalogued.ensured other member
  rw [given.eq_of_covers years gives also covers] at different
  exact different rfl

end Catalogued

end Tables

/-- What a drop takes. A store that was created and has answered any calls since drops the rows
that a partition covers and the entry of its name, and answers whether there was such an entry.
It leaves all that belongs to other partitions exactly when no catalogued partition of another
name covers a row that it drops, as is so when every partition comes from one layout. -/
theorem EmbeddedStore.Served.dropPartition_takesOwn_iff {ensures : Partition → Prop}
    {store after : EmbeddedStore} {partition : Partition} {existed : Bool}
    (served : Served ensures store)
    (answered : store.answer (.dropPartition partition) = (.ok existed, after)) :
    Tables.Dropped partition store.tables existed after.tables ∧
      (store.tables.TakesOwn existed after.tables ↔ ¬store.tables.Shares partition) ∧
      ∀ layout : BucketLayout, layout.clock.FromYearZero → layout.Gives partition →
        (∀ other, ensures other → layout.Gives other) →
          store.tables.TakesOwn existed after.tables := by
  have catalogued := served.catalogued
  have given := given_of_answer (congrArg Prod.fst answered)
  rw [answered] at given
  obtain ⟨rfl, dropped⟩ := given.dropPartition
  rw [dropped]
  refine ⟨Tables.dropped_drop store.tables partition, catalogued.takesOwn_drop_iff partition,
    fun layout years gives allowed => ?_⟩
  have given : store.tables.Catalogued layout.Gives :=
    ⟨catalogued.rows, catalogued.names,
      fun other member => allowed other (catalogued.ensured other member)⟩
  exact (given.takesOwn_drop_iff partition).mpr (given.not_shares years gives)

namespace SharedRows

/-- The partition of a layout with wide partitions, over ten epochs. -/
def wide : Partition := .hourly ⟨0, 10⟩

/-- The partition of a layout with narrow partitions, over five epochs. -/
def narrow : Partition := .hourly ⟨0, 5⟩

/-- A store whose hours are in the wide partition. -/
def store : EmbeddedStore :=
  [.ensurePartition wide, .upsertHourly [⟨0, 1, 7, .none⟩, ⟨5, 6, 7, .none⟩]].foldl
    (fun store call => (store.answer call).2) .fresh

/-- The store with both partitions. -/
def both : EmbeddedStore := (store.answer (.ensurePartition narrow)).2

theorem served : EmbeddedStore.Served (fun _ => True) store :=
  EmbeddedStore.Served.fresh.calls ⟨trivial, trivial⟩

/-- The row that both partitions cover. -/
def row : HourlyRow := ⟨0, 1, 7, .none⟩

/-- The drop of the narrow partition takes the row, where it was never there and where it was. -/
theorem evaluated :
    (row ∈ store.tables.hourly ∧ (store.answer (.dropPartition narrow)).1 = .ok false ∧
      row ∉ (store.answer (.dropPartition narrow)).2.tables.hourly) ∧
    row ∈ both.tables.hourly ∧ wide ∈ both.tables.catalogue ∧ wide.name ≠ narrow.name ∧
      (both.answer (.dropPartition narrow)).1 = .ok true := by
  decide +kernel

end SharedRows

open SharedRows in
/-- A partition that is there is dropped with a row of another one. -/
theorem EmbeddedStore.Served.dropPartition_takesOwn_iff_shared :
    EmbeddedStore.Served (fun _ => True) both ∧
      (both.answer (.dropPartition narrow)).1 = .ok true ∧
      ¬both.tables.TakesOwn true (both.answer (.dropPartition narrow)).2.tables := by
  obtain ⟨-, held, member, different, existed⟩ := evaluated
  have servedBoth : EmbeddedStore.Served (fun _ => True) both := served.call _ trivial
  obtain ⟨-, own, -⟩ := servedBoth.dropPartition_takesOwn_iff (Prod.ext existed rfl)
  refine ⟨servedBoth, existed, fun takes => own.mp takes ?_⟩
  exact ⟨.hourly row, held, by decide, wide, member, different, by decide⟩

open SharedRows in
/-- A drop that reports that nothing was there has taken a row. -/
theorem exists_row_dropped_without_partition :
    ∃ store after : EmbeddedStore, ∃ partition row, EmbeddedStore.Served (fun _ => True) store ∧
      store.answer (.dropPartition partition) = (.ok false, after) ∧
      store.tables.Holds row ∧ ¬after.tables.Holds row := by
  obtain ⟨held, absent, gone⟩ := evaluated.1
  exact ⟨store, _, narrow, .hourly row, served, Prod.ext absent rfl, held, gone⟩

end EpochRollup
