/-
This file says which stored epochs have their ranges. A bucket is no wider than a day, so that
every stored epoch has its buckets: the sums stay words, and the differences are not cut off.
A partition holds as many buckets as are configured, and nothing relates that number to the
words. Where it leaves them is told exactly: the width alone may be no word, and the partition
after one of at least half the words ends past the last of them.
-/

import EpochRollup.Config.Settings
import EpochRollup.Proofs.Run
import EpochRollup.Proofs.Tiling

namespace EpochRollup

namespace ChainClock

theorem epochsPerDay_le (clock : ChainClock) : clock.epochsPerDay ≤ secondsPerDay :=
  Nat.div_le_self _ _

end ChainClock

namespace BucketLayout

variable (layout : BucketLayout)

theorem width_le (granularity : Granularity) : layout.width granularity ≤ secondsPerDay := by
  cases granularity
  · exact Nat.le_trans layout.hourlyWidth_le layout.clock.epochsPerDay_le
  · exact layout.clock.epochsPerDay_le

/-- The flooring of a word aborts in the sum that ends the range, or not at all. -/
theorem alignedRange_eq_ite {shift width epoch : Nat} (positive : 0 < width)
    (word : epoch + shift < wordLimit) :
    alignedRange shift width epoch =
      if (EpochRange.aligned shift width epoch).stop + shift < wordLimit then
        .ok (EpochRange.aligned shift width epoch)
      else .error .add := by
  split
  case isTrue ended => exact (alignedRange_eq_ok_iff_stop positive).mpr ⟨ended, rfl⟩
  case isFalse past =>
    have long : ¬(epoch + shift) / width * width + width < wordLimit := by
      rwa [EpochRange.stop_aligned_add positive, Nat.add_mul, Nat.one_mul] at past
    unfold alignedRange
    rw [Word.add_eq_ok_iff.mpr ⟨word, rfl⟩]
    simp [Word.add, long, bind, Except.bind]

/-- A number that is hardly past half the words has a range that ends past the last word exactly
when it is in the second range of a width of at least half the words. -/
theorem floor_add_lt_wordLimit_iff {number width : Nat} (positive : 0 < width)
    (word : width < wordLimit) (half : number < storedLimit + secondsPerDay) :
    (number / width + 1) * width < wordLimit ↔ ¬(storedLimit ≤ width ∧ width ≤ number) := by
  have limits : wordLimit = 2 * storedLimit := by decide
  have day : 3 * secondsPerDay ≤ storedLimit := by decide
  rw [Nat.add_mul, Nat.one_mul]
  rcases Nat.lt_or_ge number width with first | later
  · rw [Nat.div_eq_of_lt first]
    omega
  · rcases Nat.lt_or_ge (number / width) 2 with second | third
    · have one : number / width = 1 :=
        Nat.le_antisymm (Nat.le_of_lt_succ second) (Nat.div_pos later positive)
      rw [one]
      omega
    · have twice : 2 * width ≤ number / width * width := Nat.mul_le_mul_right _ third
      have floored : number / width * width ≤ number := Nat.div_mul_le_self number width
      omega

/-- Which stored epochs have their ranges. No end is cut off by the shift, and all epochs have
their buckets. A partition needs a width that is a word; where it has one, only the second
partition of a width of at least half the words is missing. -/
theorem ranges_of_stored_epoch (granularity : Granularity) {epoch : Nat}
    (stored : epoch < storedLimit) :
    (∃ bucket, layout.bucket granularity epoch = .ok bucket ∧
        bucket.stop + layout.shift granularity =
          ((epoch + layout.shift granularity) / layout.width granularity + 1) *
            layout.width granularity) ∧
      (layout.partitionWidth granularity =
        if layout.partitionSpan granularity < wordLimit then
          .ok (layout.partitionSpan granularity)
        else .error .multiply) ∧
      (layout.partitionRange granularity epoch =
        if wordLimit ≤ layout.partitionSpan granularity then .error .multiply
        else if storedLimit ≤ layout.partitionSpan granularity ∧
            layout.partitionSpan granularity ≤ epoch + layout.shift granularity then
          .error .add
        else .ok (layout.partitionRangeAt granularity epoch)) ∧
      (layout.partitionRangeAt granularity epoch).stop + layout.shift granularity =
        ((epoch + layout.shift granularity) / layout.partitionSpan granularity + 1) *
          layout.partitionSpan granularity := by
  have limits : wordLimit = 2 * storedLimit := by decide
  have day : 3 * secondsPerDay ≤ storedLimit := by decide
  have shift := layout.shift_lt_width granularity
  have width := layout.width_le granularity
  have half : epoch + layout.shift granularity < storedLimit + secondsPerDay := by omega
  have positive := layout.partitionSpan_pos granularity
  refine ⟨⟨layout.bucketAt granularity epoch, alignedRange_of_lt (by omega),
    EpochRange.stop_aligned_add (layout.width_pos granularity) epoch⟩, rfl, ?_,
    EpochRange.stop_aligned_add positive epoch⟩
  unfold partitionRange partitionWidth Word.multiply
  change (if layout.partitionSpan granularity < wordLimit then Except.ok _
    else Except.error Abort.multiply) >>= _ = _
  split
  case isFalse long => rw [if_pos (Nat.le_of_not_lt long)]; rfl
  case isTrue word =>
    rw [if_neg (Nat.not_le_of_lt word)]
    change alignedRange _ (layout.partitionSpan granularity) epoch = _
    rw [alignedRange_eq_ite positive (by omega), EpochRange.stop_aligned_add positive]
    simp only [floor_add_lt_wordLimit_iff positive word half, ite_not]
    rfl

end BucketLayout

namespace LongPartitions

/-- Settings with as many hours to a partition as a word can say, and 2 ^ 56 days. -/
def settings : Settings :=
  { Settings.default with
    chain := ⟨1704110400, 675, 1⟩
    rollup := ⟨none, 18446744073709551615, 72057594037927936, none, none⟩ }

/-- A chain that begins at noon, with 128 epochs to a day. -/
def layout : BucketLayout :=
  .ofNumbers ⟨1704110400, 0⟩ 675 1 5 18446744073709551615 72057594037927936 (by decide)

/-- The clock of the chain. -/
def clock : ChainClock := layout.clock

/-- The last stored epoch. -/
def last : Nat := storedLimit - 1

/-- A store to which a validator is supplied in one epoch. -/
def party : EmbeddedStore × Chronicle :=
  Act.playAll layout (settings.rollup.retention clock) [.supply [⟨0, 7, .none⟩]] (.fresh, .start)

/-- What a fold of the hours of the store comes to. -/
def folding : Except Failure FoldReport :=
  ((Coordinator.ofStore layout (settings.rollup.retention clock)).foldHourly.runOn
    party.1 party.2).1

theorem folding_eq : folding = .error (.abort .multiply) := by decide +kernel

theorem accepted :
    settings.refusal = none ∧ settings.chain.clock = .ok clock ∧
      settings.rollup.layout clock = .ok layout := by
  decide +kernel

end LongPartitions

open LongPartitions in
/-- The last stored epoch has a day, but its partition would be the second one. -/
theorem ranges_of_last_stored_epoch :
    layout.bucket .daily last = .ok ⟨last - 63, last + 65⟩ ∧
      layout.partitionRange .daily last = .error .add := by
  obtain ⟨⟨bucket, bucketIs, -⟩, -, partition, -⟩ :=
    layout.ranges_of_stored_epoch .daily (show last < storedLimit by decide)
  constructor
  · rw [bucketIs, layout.bucket_eq_ok bucketIs]
    rfl
  · rw [partition]
    rfl

open LongPartitions in
/-- Settings that are accepted can have a width that is no word, which aborts the fold of a
store with one epoch, and a width that is a word and a stored epoch without a partition. -/
theorem exists_stored_epoch_overflow :
    ∃ (settings : Settings) (clock : ChainClock) (layout : BucketLayout) (epoch : Nat),
      settings.refusal = none ∧ settings.chain.clock = .ok clock ∧
      settings.rollup.layout clock = .ok layout ∧ epoch < storedLimit ∧
      layout.partitionWidth .hourly = .error .multiply ∧
      ((Coordinator.ofStore layout (settings.rollup.retention clock)).foldHourly.runOn
        party.1 party.2).1 = .error (.abort .multiply) ∧
      layout.partitionWidth .daily = .ok storedLimit ∧
      layout.partitionRange .daily epoch = .error .add :=
  ⟨settings, clock, layout, last, accepted.1, accepted.2.1, accepted.2.2, by decide, by decide,
    folding_eq, by decide, by decide⟩

end EpochRollup
