/-
This file proves that folding hours step by step gives the hours of all epochs folded at
once, when epochs arrive in order. The invariant is `Folded`: the hours ever stored are the
hours of the epochs below a frontier, which is the end of the coverage of the latest hour,
and the hours stored now are those of them whose partition is still there. A fold of one
bucket keeps it when every earlier epoch is below the frontier already; that is what the
resume point of a fold and the order of arrivals are good for.
-/

import EpochRollup.Proofs.Hours
import EpochRollup.Proofs.Pass

namespace EpochRollup

/-! ### The frontier -/

/-- The end of the coverage of the latest hour, or epoch 0. -/
def Tables.frontier (tables : Tables) : Int := (tables.lastHourly?.map (·.2)).getD 0

theorem Tables.frontier_of_some {tables : Tables} {bounds : Int × Int}
    (found : tables.lastHourly? = some bounds) : tables.frontier = bounds.2 := by
  rw [frontier, found]
  rfl

theorem Tables.frontier_of_empty {tables : Tables} (empty : tables.hourly = []) :
    tables.frontier = 0 := by
  rw [frontier, lastHourly?_eq_none.mpr empty]
  rfl

/-- Only the hours tell the frontier. -/
theorem Tables.frontier_congr {tables after : Tables} (hourly : after.hourly = tables.hourly) :
    after.frontier = tables.frontier := by
  unfold frontier lastHourly?
  rw [hourly]

@[simp] theorem Tables.frontier_ensure (tables : Tables) (partition : Partition) :
    (tables.ensure partition).frontier = tables.frontier :=
  frontier_congr (hourly_ensure tables partition)

/-- A drop that ends by the start of the latest hour does not touch it. -/
theorem Tables.lastHourly?_drop {tables : Tables} {range : EpochRange} {bounds : Int × Int}
    (found : tables.lastHourly? = some bounds) (apart : (range.stop : Int) ≤ bounds.1) :
    (tables.drop (.hourly range)).lastHourly? = some bounds := by
  obtain ⟨start, stop⟩ := lastHourly?_eq_some.mp found
  refine lastHourly?_eq_some.mpr ⟨?_, ?_⟩
  · obtain ⟨member, most⟩ := List.max?_eq_some_iff.mp start
    obtain ⟨row, rowMember, rowStart⟩ := List.mem_map.mp member
    refine List.max?_eq_some_iff.mpr ⟨List.mem_map.mpr ⟨row, ?_, rowStart⟩, ?_⟩
    · exact mem_hourly_drop.mpr ⟨rowMember, fun inside => by omega⟩
    · intro other otherMember
      obtain ⟨otherRow, otherRowMember, rfl⟩ := List.mem_map.mp otherMember
      exact most _ (List.mem_map.mpr ⟨otherRow, (mem_hourly_drop.mp otherRowMember).1, rfl⟩)
  · have same : (tables.drop (.hourly range)).hourly.filter (·.start = bounds.1) =
        tables.hourly.filter (·.start = bounds.1) := by
      show (tables.hourly.filter _).filter _ = _
      rw [List.filter_filter]
      refine List.filter_congr fun row _ => ?_
      by_cases here : row.start = bounds.1
      · simp [here, apart]
      · simp [here]
    rw [same]
    exact stop

/-! ### The invariant -/

/-- The hours are those of the epochs below the frontier, as far as their partitions are there. -/
structure Folded (layout : BucketLayout) (log : Chronicle) : Prop where
  /-- The tables are sound. -/
  sound : log.now.Sound layout
  /-- There are no epochs before genesis. -/
  positive : ∀ source ∈ log.now.epochs, 0 ≤ source.epoch
  /-- The hours stored are those of the fold whose partition is there. -/
  member : ∀ row : HourlyRow, row ∈ log.now.hourly ↔
    row.FoldOf layout.hourlyWidth (epochsBelow log.now.epochs log.now.frontier) ∧
      layout.partitionAt .hourly row.start.toNat ∈ log.now.catalogue
  /-- The hours ever stored are those of the fold. -/
  archive : ∀ row : HourlyRow, row ∈ log.hours ↔
    row.FoldOf layout.hourlyWidth (epochsBelow log.now.epochs log.now.frontier)
  /-- Every epoch below the frontier has its hour. -/
  complete : ∀ source ∈ log.now.epochs, source.epoch < log.now.frontier →
    ∃ row : HourlyRow,
      row.FoldOf layout.hourlyWidth (epochsBelow log.now.epochs log.now.frontier) ∧
      row.validator = source.validator ∧ row.start ≤ source.epoch ∧
      source.epoch < row.start + layout.hourlyWidth
  /-- The epoch before the frontier is present. -/
  reached : log.now.hourly ≠ [] → ∃ source ∈ log.now.epochs, source.epoch = log.now.frontier - 1
  /-- The partition of an epoch below the frontier was there at some time. -/
  recorded : ∀ source ∈ log.now.epochs, source.epoch < log.now.frontier →
    log.Ever fun tables => layout.partitionAt .hourly source.epoch.toNat ∈ tables.catalogue

namespace Folded

variable {layout : BucketLayout} {log : Chronicle}

theorem start : Folded layout .start where
  sound := Tables.Sound.empty
  positive := fun _ member => absurd member List.not_mem_nil
  member := by
    intro row
    refine iff_of_false List.not_mem_nil fun fold => ?_
    obtain ⟨source, member, -⟩ := fold.1.exists_last
    exact List.not_mem_nil (mem_epochsBelow.mp member).1
  archive := by
    intro row
    refine iff_of_false List.not_mem_nil fun fold => ?_
    obtain ⟨source, member, -⟩ := fold.exists_last
    exact List.not_mem_nil (mem_epochsBelow.mp member).1
  complete := fun _ member => absurd member List.not_mem_nil
  reached := fun nonempty => absurd rfl nonempty
  recorded := fun _ member => absurd member List.not_mem_nil

/-- Where the latest hour stands. -/
theorem latest (folded : Folded layout log) (nonempty : log.now.hourly ≠ []) :
    ∃ start : Int, log.now.lastHourly? = some (start, log.now.frontier) ∧
      IsHourStart layout.hourlyWidth start ∧ start < log.now.frontier ∧
      log.now.frontier ≤ start + layout.hourlyWidth ∧
      layout.partitionAt .hourly start.toNat ∈ log.now.catalogue := by
  cases found : log.now.lastHourly? with
  | none => exact absurd (Tables.lastHourly?_eq_none.mp found) nonempty
  | some bounds =>
    obtain ⟨start, stop⟩ := bounds
    have frontier : log.now.frontier = stop := Tables.frontier_of_some found
    obtain ⟨row, member, same, -⟩ := Tables.exists_latest_row found
    obtain ⟨rfl, rfl⟩ := Prod.mk.inj same
    obtain ⟨fold, listed⟩ := (folded.member row).mp member
    obtain ⟨source, -, inside, last⟩ := fold.exists_last
    refine ⟨row.start, by rw [frontier], fold.starts, ?_, ?_, listed⟩
    · omega
    · omega

theorem frontier_nonneg (folded : Folded layout log) : 0 ≤ log.now.frontier := by
  by_cases empty : log.now.hourly = []
  · exact Int.le_of_eq (Tables.frontier_of_empty empty).symm
  · obtain ⟨start, -, starts, before, -⟩ := folded.latest empty
    have positive := starts.nonneg
    omega

/-- Below the frontier there is an epoch only when there is an hour. -/
theorem nonempty_of_lt (folded : Folded layout log) {source : EpochRow}
    (member : source ∈ log.now.epochs) (below : source.epoch < log.now.frontier) :
    log.now.hourly ≠ [] := by
  intro empty
  rw [Tables.frontier_of_empty empty] at below
  have positive := folded.positive source member
  omega

/-- No hour of the fold starts after the latest one. -/
theorem start_le (folded : Folded layout log) {row : HourlyRow}
    (fold : row.FoldOf layout.hourlyWidth (epochsBelow log.now.epochs log.now.frontier)) :
    ∃ start : Int, log.now.lastHourly? = some (start, log.now.frontier) ∧
      IsHourStart layout.hourlyWidth start ∧ row.start ≤ start ∧ start < log.now.frontier ∧
      layout.partitionAt .hourly start.toNat ∈ log.now.catalogue := by
  obtain ⟨source, member, inside, -⟩ := fold.exists_last
  obtain ⟨present, below⟩ := mem_epochsBelow.mp member
  obtain ⟨start, found, starts, before, near, listed⟩ :=
    folded.latest (folded.nonempty_of_lt present below)
  exact ⟨start, found, starts, fold.starts.le_of_lt starts (by omega), before, listed⟩

/-! ### Steps that write no hours -/

/-- While the epochs and the frontier stay and no hour is written, all that is left to show is
which hours and partitions are there. -/
theorem of_subset (folded : Folded layout log) {after : Tables}
    (epochs : after.epochs = log.now.epochs) (frontier : after.frontier = log.now.frontier)
    (sound : after.Sound layout) (subset : after.hourly ⊆ log.now.hourly)
    (member : ∀ row : HourlyRow, row ∈ after.hourly ↔
      row.FoldOf layout.hourlyWidth (epochsBelow log.now.epochs log.now.frontier) ∧
        layout.partitionAt .hourly row.start.toNat ∈ after.catalogue) :
    Folded layout (log.record after) := by
  refine
    { sound := ?sound, positive := ?positive, member := ?member, archive := ?archive
      complete := ?complete, reached := ?reached, recorded := ?recorded } <;>
    simp only [Chronicle.now_record, epochs, frontier]
  case sound => exact sound
  case positive => exact folded.positive
  case member => exact member
  case archive =>
    intro row
    rw [Chronicle.mem_hours_record_of_subset folded.sound.hourlyKeyed sound.hourlyKeyed]
    · exact folded.archive row
    · exact fun row member => Chronicle.hourly_subset_hours folded.sound.hourlyKeyed (subset member)
  case complete => exact folded.complete
  case reached =>
    intro nonempty
    refine folded.reached fun empty => nonempty ?_
    rw [← List.subset_nil, ← empty]
    exact subset
  case recorded =>
    intro source member below
    exact Chronicle.ever_record.mpr (Or.inr (folded.recorded source member below))

theorem of_sameHours (folded : Folded layout log) {after : Tables}
    (same : log.now.SameHours after) (epochs : after.epochs = log.now.epochs)
    (sound : after.Sound layout) : Folded layout (log.record after) := by
  refine folded.of_subset epochs (Tables.frontier_congr same.1) sound
    (fun row member => same.1 ▸ member) fun row => ?_
  rw [same.1, folded.member row]
  exact and_congr_right fun _ => (same.2 _).symm

/-! ### Partitions that come and go -/

/-- A partition may be made for any bucket that is not behind the latest hour. -/
theorem ensure (folded : Folded layout log) {start : Nat}
    (starts : IsHourStart layout.hourlyWidth start)
    (near : log.now.frontier ≤ start + layout.hourlyWidth) :
    Folded layout (log.record (log.now.ensure (layout.partitionAt .hourly start))) := by
  have hourly : (log.now.ensure (layout.partitionAt .hourly start)).hourly = log.now.hourly :=
    Tables.hourly_ensure _ _
  refine folded.of_subset (Tables.epochs_ensure _ _) (Tables.frontier_ensure _ _)
    (folded.sound.ensure .hourly start) (fun row member => hourly ▸ member) fun row => ?_
  rw [hourly, folded.member row]
  refine and_congr_right fun fold => ⟨fun listed => ?_, fun listed => ?_⟩
  · exact Tables.catalogue_subset_ensure _ _ listed
  · rcases Tables.mem_catalogue_ensure.mp listed with old | ⟨same, missing⟩
    · exact old
    · -- The latest hour lies between the row and the bucket, so the partition was there.
      obtain ⟨latest, -, latestStarts, after, reached, latestListed⟩ := folded.start_le fold
      have before : latest ≤ start := latestStarts.le_of_lt starts (by omega)
      have inside := layout.partitionAt_eq_iff.mp same
      have within : start < (layout.partitionRangeAt .hourly start).stop :=
        EpochRange.lt_stop_aligned (layout.partitionSpan_pos .hourly) start
      have between : layout.partitionAt .hourly latest.toNat =
          layout.partitionAt .hourly start :=
        layout.partitionAt_eq_iff.mpr ⟨by omega, by omega⟩
      rw [between] at latestListed
      have present : log.now.hasPartition (layout.partitionAt .hourly start).name = true :=
        Tables.hasPartition_hourly_iff.mpr latestListed
      rw [present] at missing
      cases missing

/-- A partition that ends by the start of the latest hour may be dropped. -/
theorem drop (folded : Folded layout log) {epoch : Nat} {bounds : Int × Int}
    (found : log.now.lastHourly? = some bounds)
    (apart : ((layout.partitionRangeAt .hourly epoch).stop : Int) ≤ bounds.1) :
    Folded layout (log.record (log.now.drop (layout.partitionAt .hourly epoch))) := by
  have kept : (log.now.drop (layout.partitionAt .hourly epoch)).lastHourly? = some bounds :=
    Tables.lastHourly?_drop found apart
  have frontier : (log.now.drop (layout.partitionAt .hourly epoch)).frontier =
      log.now.frontier := by
    rw [Tables.frontier_of_some kept, Tables.frontier_of_some found]
  refine folded.of_subset (Tables.epochs_drop _ _) frontier (folded.sound.drop _)
    (fun row member => (Tables.mem_hourly_drop.mp member).1) fun row => ?_
  have read : row ∈ (log.now.drop (layout.partitionAt .hourly epoch)).hourly ↔ _ :=
    Tables.mem_hourly_drop
  rw [read, folded.member row, Tables.mem_catalogue_drop, and_assoc]
  refine and_congr_right fun fold => and_congr_right fun _ => not_congr ?_
  have positive := fold.starts.nonneg
  have names : (layout.partitionAt .hourly row.start.toNat).name =
      (layout.partitionAt .hourly epoch).name ↔
      layout.partitionAt .hourly row.start.toNat = layout.partitionAt .hourly epoch :=
    ⟨fun same => congrArg Partition.hourly (Partition.hourly_name_inj.mp same),
      fun same => congrArg Partition.name same⟩
  rw [names, layout.partitionAt_eq_iff]
  omega

end Folded

/-! ### The fold of one bucket -/

/-- The epochs of a bucket have its partition. -/
theorem IsHourStart.partitionAt_eq {layout : BucketLayout} {start : Nat}
    (starts : IsHourStart layout.hourlyWidth start) {epoch : Int} (after : (start : Int) ≤ epoch)
    (before : epoch < start + layout.hourlyWidth) :
    layout.partitionAt .hourly epoch.toNat = layout.partitionAt .hourly start := by
  obtain ⟨index, startIs⟩ := starts
  have bucket : layout.bucketAt .hourly start = ⟨start, start + layout.hourlyWidth⟩ := by
    show EpochRange.mk (start / layout.hourlyWidth * layout.hourlyWidth)
      (start / layout.hourlyWidth * layout.hourlyWidth + layout.hourlyWidth) = _
    rw [Int.ofNat_inj.mp startIs, Nat.mul_div_cancel _ layout.hourlyWidth_pos]
  refine layout.partitionAt_eq_of_mem_bucket ?_ ?_ <;> rw [bucket] <;> dsimp only <;> omega

/-- A bucket is folded that is not behind the latest hour, and all earlier epochs are below the
frontier. -/
structure FoldsBucket (layout : BucketLayout) (log : Chronicle) (start : Nat) : Prop where
  /-- What holds before. -/
  folded : Folded layout log
  /-- The bucket is one of the layout. -/
  starts : IsHourStart layout.hourlyWidth start
  /-- Its partition is there. -/
  listed : layout.partitionAt .hourly start ∈ log.now.catalogue
  /-- Nothing before it is missing. -/
  earlier : ∀ source ∈ log.now.epochs, source.epoch < start →
    source.epoch < log.now.frontier
  /-- It is not behind the latest hour. -/
  near : log.now.frontier ≤ start + layout.hourlyWidth

/-- The tables once the rows of a bucket are written. -/
def Tables.withHours (tables : Tables) (rows : List HourlyRow) : Tables :=
  { tables with hourly := putRows HourlyRow.before rows tables.hourly }

/-- The rows that a fold of a bucket writes. -/
structure BucketRows (layout : BucketLayout) (epochs : List EpochRow) (start : Nat) (last : Int)
    (rows : List HourlyRow) : Prop where
  /-- The last epoch of the bucket. -/
  lastIs : ((epochSamples epochs start (start + layout.hourlyWidth)).map (·.key)).max? = some last
  /-- One row for each validator. -/
  validators : rows.map (·.validator) =
    Sample.validators (epochSamples epochs start (start + layout.hourlyWidth))
  /-- The metrics of the fold. -/
  written : ∀ row ∈ rows, (row.start = start ∧ row.stop = last + 1) ∧
    Sample.stored? (epochSamples epochs start (start + layout.hourlyWidth)) start last
      row.validator = some row.metrics

namespace BucketRows

variable {layout : BucketLayout} {epochs : List EpochRow} {start : Nat} {last : Int}
  {rows : List HourlyRow}

theorem exists_last (wrote : BucketRows layout epochs start last rows) :
    ∃ source ∈ epochs, ((start : Int) ≤ source.epoch ∧
      source.epoch < start + layout.hourlyWidth) ∧ source.epoch = last :=
  mem_map_key_epochSamples.mp (List.max?_mem wrote.lastIs)

theorem le_last (wrote : BucketRows layout epochs start last rows) {source : EpochRow}
    (member : source ∈ epochs) (after : (start : Int) ≤ source.epoch)
    (before : source.epoch < start + layout.hourlyWidth) : source.epoch ≤ last :=
  (List.max?_eq_some_iff.mp wrote.lastIs).2 _
    (mem_map_key_epochSamples.mpr ⟨source, member, ⟨after, before⟩, rfl⟩)

theorem exists_row (wrote : BucketRows layout epochs start last rows) {source : EpochRow}
    (member : source ∈ epochs) (after : (start : Int) ≤ source.epoch)
    (before : source.epoch < start + layout.hourlyWidth) :
    ∃ row ∈ rows, row.validator = source.validator := by
  have seen := mem_validators_epochSamples.mpr ⟨source, member, ⟨after, before⟩, rfl⟩
  rw [← wrote.validators] at seen
  exact List.mem_map.mp seen

/-- A row of the bucket that was folded before has the key of one that is written. -/
theorem exists_key (wrote : BucketRows layout epochs start last rows) {row : HourlyRow}
    {frontier : Int} (fold : row.FoldOf layout.hourlyWidth (epochsBelow epochs frontier))
    (here : row.start = start) : ∃ other ∈ rows, row.key = other.key := by
  obtain ⟨source, member, inside, validator⟩ := mem_validators_epochSamples.mp fold.seen
  rw [here] at inside
  obtain ⟨other, otherMember, otherValidator⟩ :=
    wrote.exists_row (mem_epochsBelow.mp member).1 inside.1 inside.2
  exact ⟨other, otherMember, (HourlyRow.key_eq_iff row other).mpr
    ⟨here.trans (wrote.written other otherMember).1.1.symm,
      validator.symm.trans otherValidator.symm⟩⟩

theorem keyed (wrote : BucketRows layout epochs start last rows) : Keyed HourlyRow.key rows := by
  have ascending := Sample.pairwise_validators
    (epochSamples epochs start (start + layout.hourlyWidth))
  rw [← wrote.validators, List.pairwise_map] at ascending
  refine List.Pairwise.imp_of_mem ?_ ascending
  intro first second firstMember secondMember less
  rw [HourlyRow.key, HourlyRow.key, Prod.Lex.toLex_lt_toLex]
  refine Or.inr ⟨?_, less⟩
  rw [(wrote.written first firstMember).1.1, (wrote.written second secondMember).1.1]

/-- Below the epoch after the last one, the whole bucket is present. -/
theorem samples (wrote : BucketRows layout epochs start last rows) :
    epochSamples (epochsBelow epochs (last + 1)) start (start + layout.hourlyWidth) =
      epochSamples epochs start (start + layout.hourlyWidth) :=
  epochSamples_below_of_lt fun _ member after before =>
    Int.lt_add_one_of_le (wrote.le_last member after before)

/-- The rows written are the rows of the bucket. -/
theorem mem_iff (wrote : BucketRows layout epochs start last rows)
    (starts : IsHourStart layout.hourlyWidth start) {row : HourlyRow} (here : row.start = start) :
    row ∈ rows ↔ row.FoldOf layout.hourlyWidth (epochsBelow epochs (last + 1)) := by
  have fold {row : HourlyRow} (member : row ∈ rows) :
      row.FoldOf layout.hourlyWidth (epochsBelow epochs (last + 1)) := by
    obtain ⟨⟨rowStart, rowStop⟩, metrics⟩ := wrote.written row member
    have stop : row.stop - 1 = last := by omega
    refine ⟨rowStart ▸ starts, ?_, ?_, ?_⟩ <;> rw [rowStart, wrote.samples]
    · rw [stop, wrote.lastIs]
    · rw [← wrote.validators]
      exact List.mem_map.mpr ⟨row, member, rfl⟩
    · rw [stop, metrics]
  refine ⟨fold, fun whole => ?_⟩
  have seen := whole.seen
  rw [here, wrote.samples, ← wrote.validators] at seen
  obtain ⟨other, member, validator⟩ := List.mem_map.mp seen
  have same := whole.eq_of_same (fold member)
    (here.trans (wrote.written other member).1.1.symm) validator.symm
  rw [same]
  exact member

end BucketRows

namespace FoldsBucket

variable {layout : BucketLayout} {log : Chronicle} {start : Nat} {last : Int}
  {rows : List HourlyRow}

/-- The frontier does not move back. -/
theorem frontier_le (folds : FoldsBucket layout log start)
    (wrote : BucketRows layout log.now.epochs start last rows) :
    log.now.frontier ≤ last + 1 := by
  obtain ⟨source, -, inside, same⟩ := wrote.exists_last
  by_cases empty : log.now.hourly = []
  · have zero := Tables.frontier_of_empty empty
    omega
  · obtain ⟨reached, member, reachedIs⟩ := folds.folded.reached empty
    have near := folds.near
    rcases Int.lt_or_le reached.epoch start with before | after
    · omega
    · have le := wrote.le_last member after (by omega)
      omega

/-- Other buckets have the same epochs below the old and the new frontier. -/
theorem foldOf_iff (folds : FoldsBucket layout log start)
    (wrote : BucketRows layout log.now.epochs start last rows) {row : HourlyRow}
    (elsewhere : row.start ≠ start) :
    row.FoldOf layout.hourlyWidth (epochsBelow log.now.epochs (last + 1)) ↔
      row.FoldOf layout.hourlyWidth (epochsBelow log.now.epochs log.now.frontier) := by
  have moved := folds.frontier_le wrote
  by_cases starts : IsHourStart layout.hourlyWidth row.start
  · refine HourlyRow.FoldOf.congr (epochSamples_below_congr fun source member after before =>
      ⟨fun below => ?_, fun below => Int.lt_of_lt_of_le below moved⟩)
    rcases Int.lt_or_le row.start start with earlier | later
    · refine folds.earlier source member ?_
      by_contra late
      have ordered := folds.starts.le_of_lt starts (by omega)
      omega
    · obtain ⟨lastSource, -, inside, same⟩ := wrote.exists_last
      have ordered := starts.le_of_lt folds.starts
      omega
  · exact iff_of_false (fun fold => starts fold.starts) fun fold => starts fold.starts

/-- Afterwards the hours are those of the epochs below the new frontier. -/
theorem mem_putRows_iff (folds : FoldsBucket layout log start)
    (wrote : BucketRows layout log.now.epochs start last rows) (row : HourlyRow) :
    row ∈ (log.now.withHours rows).hourly ↔
      row.FoldOf layout.hourlyWidth (epochsBelow log.now.epochs (last + 1)) ∧
        layout.partitionAt .hourly row.start.toNat ∈ log.now.catalogue := by
  unfold Tables.withHours
  dsimp only
  rw [mem_putRows HourlyRow.orderedBy_key folds.folded.sound.hourlyKeyed wrote.keyed]
  by_cases here : row.start = start
  · rw [wrote.mem_iff folds.starts here, here, Int.toNat_natCast]
    refine ⟨?_, fun both => Or.inl both.1⟩
    rintro (fold | ⟨old, apart⟩)
    · exact ⟨fold, folds.listed⟩
    · obtain ⟨other, otherMember, same⟩ :=
        wrote.exists_key ((folds.folded.member row).mp old).1 here
      exact absurd same (apart other otherMember)
  · rw [folds.foldOf_iff wrote here, ← folds.folded.member row]
    constructor
    · rintro (new | ⟨old, -⟩)
      · exact absurd (wrote.written row new).1.1 here
      · exact old
    · intro old
      refine Or.inr ⟨old, fun other member same => here ?_⟩
      rw [((HourlyRow.key_eq_iff row other).mp same).1, (wrote.written other member).1.1]

/-- The bucket is the latest hour afterwards. -/
theorem lastHourly?_putRows (folds : FoldsBucket layout log start)
    (wrote : BucketRows layout log.now.epochs start last rows) :
    (log.now.withHours rows).lastHourly? = some ((start : Int), last + 1) := by
  obtain ⟨source, member, inside, -⟩ := wrote.exists_last
  obtain ⟨row, rowMember, -⟩ := wrote.exists_row member inside.1 inside.2
  obtain ⟨⟨rowStart, rowStop⟩, -⟩ := wrote.written row rowMember
  have stored : row ∈ (log.now.withHours rows).hourly :=
    (mem_putRows HourlyRow.orderedBy_key folds.folded.sound.hourlyKeyed wrote.keyed row).mpr
      (Or.inl rowMember)
  refine Tables.lastHourly?_eq_some.mpr ⟨List.max?_eq_some_iff.mpr ⟨?_, ?_⟩,
    List.max?_eq_some_iff.mpr ⟨?_, ?_⟩⟩
  · exact List.mem_map.mpr ⟨row, stored, rowStart⟩
  · intro other otherMember
    obtain ⟨otherRow, otherStored, rfl⟩ := List.mem_map.mp otherMember
    obtain ⟨fold, -⟩ := (folds.mem_putRows_iff wrote otherRow).mp otherStored
    obtain ⟨lastSource, lastMember, lastInside, -⟩ := fold.exists_last
    obtain ⟨-, below⟩ := mem_epochsBelow.mp lastMember
    obtain ⟨_, -, within, same⟩ := wrote.exists_last
    exact fold.starts.le_of_lt folds.starts (by omega)
  · exact List.mem_map.mpr ⟨row, List.mem_filter.mpr ⟨stored, decide_eq_true rowStart⟩, rowStop⟩
  · intro other otherMember
    obtain ⟨otherRow, otherFiltered, rfl⟩ := List.mem_map.mp otherMember
    obtain ⟨otherStored, otherStart⟩ := List.mem_filter.mp otherFiltered
    have otherStart : otherRow.start = start := of_decide_eq_true otherStart
    have fold := ((folds.mem_putRows_iff wrote otherRow).mp otherStored).1
    rw [← wrote.mem_iff folds.starts otherStart] at fold
    exact Int.le_of_eq (wrote.written otherRow fold).1.2

/-- The frontier afterwards is behind the last epoch of the bucket. -/
theorem frontier_putRows (folds : FoldsBucket layout log start)
    (wrote : BucketRows layout log.now.epochs start last rows) :
    (log.now.withHours rows).frontier = last + 1 :=
  Tables.frontier_of_some (folds.lastHourly?_putRows wrote)

/-- The hours that were ever stored are then those of the epochs below the new frontier, too. -/
theorem mem_hours_putRows_iff (folds : FoldsBucket layout log start)
    (wrote : BucketRows layout log.now.epochs start last rows)
    (keyed : Keyed HourlyRow.key (log.now.withHours rows).hourly) (row : HourlyRow) :
    row ∈ (log.record (log.now.withHours rows)).hours ↔
      row.FoldOf layout.hourlyWidth (epochsBelow log.now.epochs (last + 1)) := by
  have stored := folds.mem_putRows_iff wrote
  have nowKeyed := folds.folded.sound.hourlyKeyed
  have written {row : HourlyRow} (member : row ∈ rows) : row ∈ (log.now.withHours rows).hourly :=
    (mem_putRows HourlyRow.orderedBy_key nowKeyed wrote.keyed row).mpr (Or.inl member)
  rw [Chronicle.mem_hours_record nowKeyed keyed]
  by_cases here : row.start = start
  · rw [← wrote.mem_iff folds.starts here]
    constructor
    · rintro (new | ⟨old, apart⟩)
      · exact (wrote.mem_iff folds.starts here).mpr ((stored row).mp new).1
      · obtain ⟨other, otherMember, same⟩ :=
          wrote.exists_key ((folds.folded.archive row).mp old) here
        exact absurd same (apart other (written otherMember))
    · exact fun member => Or.inl (written member)
  · rw [folds.foldOf_iff wrote here, ← folds.folded.archive row]
    constructor
    · rintro (new | ⟨old, -⟩)
      · rw [folds.folded.archive row, ← folds.foldOf_iff wrote here]
        exact ((stored row).mp new).1
      · exact old
    · intro old
      by_cases again : ∃ other ∈ (log.now.withHours rows).hourly, row.key = other.key
      · obtain ⟨other, member, same⟩ := again
        obtain ⟨starts, validators⟩ := (HourlyRow.key_eq_iff row other).mp same
        have fold := (folds.foldOf_iff wrote here).mpr ((folds.folded.archive row).mp old)
        rw [fold.eq_of_same ((stored other).mp member).1 starts validators]
        exact Or.inl member
      · exact Or.inr ⟨old, fun other member same => again ⟨other, member, same⟩⟩

/-- The invariant holds after the rows of a bucket are written. -/
theorem folded_putRows (folds : FoldsBucket layout log start)
    (wrote : BucketRows layout log.now.epochs start last rows)
    (sound : (log.now.withHours rows).Sound layout) :
    Folded layout (log.record (log.now.withHours rows)) := by
  have frontier := folds.frontier_putRows wrote
  have epochs : (log.now.withHours rows).epochs = log.now.epochs := rfl
  obtain ⟨lastSource, lastMember, within, lastIs⟩ := wrote.exists_last
  refine
    { sound := ?sound, positive := ?positive, member := ?member, archive := ?archive
      complete := ?complete, reached := ?reached, recorded := ?recorded } <;>
    simp only [Chronicle.now_record, frontier, epochs]
  case sound => exact sound
  case positive => exact folds.folded.positive
  case member => exact folds.mem_putRows_iff wrote
  case archive => exact folds.mem_hours_putRows_iff wrote sound.hourlyKeyed
  case complete =>
    intro source member below
    rcases Int.lt_or_le source.epoch start with before | after
    · obtain ⟨row, fold, validator, inside⟩ := folds.folded.complete source member
        (folds.earlier source member before)
      refine ⟨row, (folds.foldOf_iff wrote ?_).mpr fold, validator, inside⟩
      omega
    · obtain ⟨row, rowMember, validator⟩ := wrote.exists_row member after (by omega)
      have rowStart := (wrote.written row rowMember).1.1
      refine ⟨row, (wrote.mem_iff folds.starts rowStart).mp rowMember, validator, ?_⟩
      omega
  case reached => exact fun _ => ⟨lastSource, lastMember, by omega⟩
  case recorded =>
    intro source member below
    rcases Int.lt_or_le source.epoch start with before | after
    · exact Chronicle.ever_record.mpr (Or.inr
        (folds.folded.recorded source member (folds.earlier source member before)))
    · refine Chronicle.ever_record.mpr (Or.inl ?_)
      rw [folds.starts.partitionAt_eq after (by omega)]
      exact folds.listed

/-- A fold of a bucket writes its rows, unless the bucket has no epochs. -/
theorem given_cases {bucket : EpochRange} (bucketStart : bucket.start = start)
    (bucketStop : bucket.stop = start + layout.hourlyWidth) {count : Nat} {after : Tables}
    (given : Given log.now (.foldHour bucket) count after) :
    (after = log.now ∧ ∀ source ∈ log.now.epochs, (start : Int) ≤ source.epoch →
        ¬source.epoch < start + layout.hourlyWidth) ∨
      ∃ last rows, BucketRows layout log.now.epochs start last rows ∧
        after = log.now.withHours rows := by
  have law := given.foldHour
  rw [bucketStart, bucketStop, Int.natCast_add] at law
  rcases law with ⟨empty, -, same⟩ | ⟨last, rows, lastIs, -, validators, written, -, same⟩
  · refine Or.inl ⟨same, fun source member inside before => ?_⟩
    have sample := mem_epochSamples.mpr ⟨source, member, ⟨inside, before⟩, rfl⟩
    rw [empty] at sample
    cases sample
  · exact Or.inr ⟨last, rows, ⟨lastIs, validators, written⟩, same⟩

end FoldsBucket

/-! ### Arrivals in order -/

/-- Rows arrive only for epochs after all that are stored and after a limit. -/
def Regime.Orderly (regime : Regime) (limit : Int) : Prop :=
  ∀ tables rows, regime.supplies tables rows → ∀ row ∈ rows,
    0 ≤ row.epoch ∧ limit < row.epoch ∧ ∀ old ∈ tables.epochs, old.epoch < row.epoch

/-- Rows that arrive in order are appended. -/
theorem Regime.Orderly.appended {regime : Regime} {limit : Int} (orderly : regime.Orderly limit)
    {tables after : Tables} {rows : List EpochRow} (allowed : regime.supplies tables rows)
    (given : Given tables (.upsertEpochs rows) () after) :
    ∃ added, after = { tables with epochs := tables.epochs ++ added } ∧
      ∀ row ∈ added, 0 ≤ row.epoch ∧ limit < row.epoch ∧
        ∀ old ∈ tables.epochs, old.epoch < row.epoch := by
  obtain ⟨stored, same, rfl⟩ := given.upsertEpochs
  have arrived {row : EpochRow} (member : row ∈ stored) : 0 ≤ row.epoch ∧ limit < row.epoch ∧
      ∀ old ∈ tables.epochs, old.epoch < row.epoch := by
    have epoch : row.epoch ∈ stored.map (·.epoch) := List.mem_map.mpr ⟨row, member, rfl⟩
    rw [same] at epoch
    obtain ⟨arriving, arrivingMember, epochIs⟩ := List.mem_map.mp epoch
    rw [← epochIs]
    exact orderly tables rows allowed arriving arrivingMember
  refine ⟨putRows EpochRow.before stored [], ?_, fun row member => ?_⟩
  · have split : putRows EpochRow.before stored (tables.epochs ++ []) =
        tables.epochs ++ putRows EpochRow.before stored [] := by
      refine putRows_append EpochRow.orderedBy_key (fun row member other old => ?_) []
      rw [EpochRow.key, EpochRow.key, Prod.Lex.toLex_lt_toLex]
      exact Or.inl ((arrived member).2.2 other old)
    rw [List.append_nil] at split
    rw [split]
  · rcases mem_of_mem_putRows member with new | old
    · exact arrived new
    · cases old

/-- Every epoch up to a limit is below the frontier. -/
def Caught (limit : Int) (log : Chronicle) : Prop :=
  ∀ source ∈ log.now.epochs, source.epoch ≤ limit → source.epoch < log.now.frontier

/-- An epoch after all that are stored is not below the frontier. -/
theorem Folded.frontier_le_of_behind {layout : BucketLayout} {log : Chronicle}
    (folded : Folded layout log) {epoch : Int} (positive : 0 ≤ epoch)
    (behind : ∀ old ∈ log.now.epochs, old.epoch < epoch) : log.now.frontier ≤ epoch := by
  by_cases empty : log.now.hourly = []
  · rw [Tables.frontier_of_empty empty]
    exact positive
  · obtain ⟨source, member, same⟩ := folded.reached empty
    have less := behind source member
    omega

/-- Rows that arrive behind everything stored do not disturb the hours. -/
theorem Folded.append {layout : BucketLayout} {log : Chronicle} (folded : Folded layout log)
    {added : List EpochRow}
    (behind : ∀ row ∈ added, 0 ≤ row.epoch ∧ ∀ old ∈ log.now.epochs, old.epoch < row.epoch) :
    Folded layout (log.record { log.now with epochs := log.now.epochs ++ added }) := by
  have frontier : ({ log.now with epochs := log.now.epochs ++ added } : Tables).frontier =
      log.now.frontier := rfl
  have past (row : EpochRow) (member : row ∈ added) : log.now.frontier ≤ row.epoch :=
    folded.frontier_le_of_behind (behind row member).1 (behind row member).2
  have below := epochsBelow_append past log.now.epochs
  have old {source : EpochRow} (member : source ∈ log.now.epochs ++ added)
      (less : source.epoch < log.now.frontier) : source ∈ log.now.epochs := by
    rcases List.mem_append.mp member with old | new
    · exact old
    · exact absurd less (Int.not_lt.mpr (past source new))
  have sound : ({ log.now with epochs := log.now.epochs ++ added } : Tables).Sound layout :=
    folded.sound.of_same rfl rfl rfl
  refine
    { sound := ?sound, positive := ?positive, member := ?member, archive := ?archive
      complete := ?complete, reached := ?reached, recorded := ?recorded } <;>
    simp only [Chronicle.now_record, frontier, below]
  case sound => exact sound
  case positive =>
    intro source member
    rcases List.mem_append.mp member with old | new
    · exact folded.positive source old
    · exact (behind source new).1
  case member => exact folded.member
  case archive =>
    intro row
    rw [Chronicle.mem_hours_record_of_subset folded.sound.hourlyKeyed sound.hourlyKeyed
      (Chronicle.hourly_subset_hours folded.sound.hourlyKeyed)]
    exact folded.archive row
  case complete => exact fun source member less => folded.complete source (old member less) less
  case reached =>
    intro nonempty
    obtain ⟨source, member, same⟩ := folded.reached nonempty
    exact ⟨source, List.mem_append_left _ member, same⟩
  case recorded =>
    intro source member less
    exact Chronicle.ever_record.mpr (Or.inr (folded.recorded source (old member less) less))

/-! ### What a fold carries along -/

/-- The hours are folded and something else is true. -/
def FoldedWith (layout : BucketLayout) (extra : Chronicle → Prop) (log : Chronicle) : Prop :=
  Folded layout log ∧ extra log

/-- Something that arrivals, a new partition and the rows of a bucket leave true. -/
structure Regime.Carries (regime : Regime) (layout : BucketLayout) (extra : Chronicle → Prop) :
    Prop where
  /-- Epochs arrive in order. -/
  orderly : regime.Orderly (-1)
  /-- Arrivals leave it true. -/
  stable : regime.Stable (FoldedWith layout extra)
  /-- The partition of a bucket that is not behind the latest hour leaves it true. -/
  ensures : ∀ (log : Chronicle) (start : Nat), FoldedWith layout extra log →
    IsHourStart layout.hourlyWidth start → log.now.frontier ≤ start + layout.hourlyWidth →
      extra (log.record (log.now.ensure (layout.partitionAt .hourly start)))
  /-- The rows of a bucket leave it true. -/
  writes : ∀ log start last rows, FoldsBucket layout log start →
    BucketRows layout log.now.epochs start last rows →
    (log.now.withHours rows).Sound layout → extra log →
      extra (log.record (log.now.withHours rows))

/-- A fold carries along that every epoch up to a limit is below the frontier. -/
theorem Regime.Orderly.carries {regime : Regime} {limit : Int} (orderly : regime.Orderly limit)
    (layout : BucketLayout) : regime.Carries layout (Caught limit) where
  orderly := fun tables rows allowed row member => by
    obtain ⟨positive, -, after⟩ := orderly tables rows allowed row member
    exact ⟨positive, by omega, after⟩
  stable := by
    intro log rows after held allowed given
    obtain ⟨added, rfl, arrived⟩ := orderly.appended allowed given
    refine ⟨held.1.append fun row member => ⟨(arrived row member).1, (arrived row member).2.2⟩, ?_⟩
    intro source member within
    rw [Chronicle.now_record] at member ⊢
    rcases List.mem_append.mp member with old | new
    · exact held.2 source old within
    · have beyond := (arrived source new).2.1
      omega
  ensures := by
    intro log start held _ _
    unfold Caught
    rw [Chronicle.now_record, Tables.epochs_ensure, Tables.frontier_ensure]
    exact held.2
  writes := by
    intro log start last rows folds wrote _ held source member within
    rw [Chronicle.now_record] at member ⊢
    rw [folds.frontier_putRows wrote]
    exact Int.lt_of_lt_of_le (held source member within) (folds.frontier_le wrote)

end EpochRollup
