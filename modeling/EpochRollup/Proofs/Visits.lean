/-
This file follows the candidate of a fold. The loop takes the bucket of its candidate and goes on
at the end of that bucket, while the candidate lies before the end of the head's bucket. `Visits`
lists the buckets it takes, with one rule for a turn and one for the end of the loop. There is
such a list for every candidate and every end, so the loop comes to an end, and it holds the
buckets from the first candidate to the head, each once (`Visits.mem_iff`, `Visits.pairwise`).

The loop of the engine counts its turns in advance. Its turns are those of the candidate
(`foldBuckets_turn`).
-/

import Mathlib.Data.Finset.Image
import Mathlib.Order.Interval.Finset.Nat
import EpochRollup.Pass.Fold
import EpochRollup.Proofs.DueDays

namespace EpochRollup

namespace BucketLayout

variable {layout : BucketLayout} {granularity : Granularity} {stop candidate head : Nat}
  {visited : List EpochRange}

/-! ### The buckets of a loop -/

/-- The buckets of the candidates of a loop that goes on while its candidate lies before an
end. -/
inductive Visits (layout : BucketLayout) (granularity : Granularity) (stop : Nat) :
    Nat → List EpochRange → Prop where
  /-- The end is reached. -/
  | past {candidate : Nat} (reached : stop ≤ candidate) :
    Visits layout granularity stop candidate []
  /-- The bucket of the candidate is visited, and the loop goes on where it ends. -/
  | next {candidate : Nat} {visited : List EpochRange} (before : candidate < stop)
    (rest : Visits layout granularity stop (layout.bucketAt granularity candidate).stop visited) :
    Visits layout granularity stop candidate (layout.bucketAt granularity candidate :: visited)

/-- Every loop comes to an end, however many buckets lie before it. -/
theorem exists_visits (layout : BucketLayout) (granularity : Granularity) (stop candidate : Nat) :
    ∃ visited, layout.Visits granularity stop candidate visited := by
  induction remaining : stop - candidate using Nat.strongRecOn generalizing candidate with
  | ind remaining inductionHypothesis =>
    rcases Nat.lt_or_ge candidate stop with before | reached
    · have later := layout.lt_stop_bucketAt granularity candidate
      obtain ⟨visited, rest⟩ := inductionHypothesis
        (stop - (layout.bucketAt granularity candidate).stop) (by omega) _ rfl
      exact ⟨_, .next before rest⟩
    · exact ⟨[], .past reached⟩

/-- A bucket reaches beyond an epoch when it is no later than the bucket of that epoch. -/
theorem lt_stop_bucketAt_iff :
    candidate < (layout.bucketAt granularity head).stop ↔
      layout.bucketIndex granularity candidate ≤ layout.bucketIndex granularity head := by
  have positive := layout.width_pos granularity
  have whole : (layout.bucketAt granularity head).stop + layout.shift granularity =
      (layout.bucketIndex granularity head + 1) * layout.width granularity :=
    EpochRange.stop_aligned_add positive head
  rw [← Nat.lt_succ_iff, bucketIndex, Nat.div_lt_iff_lt_mul positive, Nat.succ_eq_add_one, ← whole]
  omega

namespace Visits

/-- Buckets are visited from the one of the candidate on. -/
theorem le_start (visits : layout.Visits granularity stop candidate visited) :
    ∀ bucket ∈ visited, (layout.bucketAt granularity candidate).start ≤ bucket.start := by
  induction visits with
  | past reached => exact fun _ member => absurd member List.not_mem_nil
  | @next candidate visited before rest inductionHypothesis =>
    intro bucket member
    rcases List.mem_cons.mp member with rfl | later
    · exact Nat.le_refl _
    · have after := inductionHypothesis bucket later
      rw [layout.start_bucketAt_stop] at after
      exact Nat.le_trans (Nat.le_trans (layout.start_bucketAt_le granularity candidate)
        (Nat.le_of_lt (layout.lt_stop_bucketAt granularity candidate))) after

/-- They are visited in order. -/
theorem pairwise (visits : layout.Visits granularity stop candidate visited) :
    visited.Pairwise fun first second => first.start < second.start := by
  induction visits with
  | past reached => exact .nil
  | @next candidate visited before rest inductionHypothesis =>
    refine List.pairwise_cons.mpr ⟨fun bucket member => ?_, inductionHypothesis⟩
    have after := rest.le_start bucket member
    rw [layout.start_bucketAt_stop] at after
    have start := layout.start_bucketAt_le granularity candidate
    have stop := layout.lt_stop_bucketAt granularity candidate
    omega

/-- Up to the bucket of a head, the visited buckets are those of the epochs from the bucket of
the candidate to the head. -/
theorem mem_iff
    (visits : layout.Visits granularity (layout.bucketAt granularity head).stop candidate visited)
    {bucket : EpochRange} :
    bucket ∈ visited ↔ ∃ epoch, (layout.bucketAt granularity candidate).start ≤ epoch ∧
      epoch ≤ head ∧ layout.bucketAt granularity epoch = bucket := by
  have positive := layout.width_pos granularity
  induction visits with
  | @past candidate reached =>
    refine iff_of_false List.not_mem_nil fun ⟨epoch, after, upTo, _⟩ => ?_
    have apart : (layout.bucketAt granularity head).stop ≤
        (layout.bucketAt granularity candidate).start :=
      EpochRange.stop_aligned_le_start_aligned positive reached
    have inside := layout.lt_stop_bucketAt granularity head
    omega
  | @next candidate visited before rest inductionHypothesis =>
    refine List.mem_cons.trans ((or_congr_right inductionHypothesis).trans ?_)
    rw [layout.start_bucketAt_stop]
    constructor
    · rintro (rfl | ⟨epoch, after, upTo, same⟩)
      · exact ⟨_, Nat.le_refl _, layout.start_bucketAt_le_of_bucketIndex
          (lt_stop_bucketAt_iff.mp before), layout.bucketAt_start granularity candidate⟩
      · have start := layout.start_bucketAt_le granularity candidate
        have stop := layout.lt_stop_bucketAt granularity candidate
        exact ⟨epoch, by omega, upTo, same⟩
    · rintro ⟨epoch, after, upTo, rfl⟩
      rcases Nat.lt_or_ge epoch (layout.bucketAt granularity candidate).stop with inside | past
      · exact Or.inl (EpochRange.aligned_eq_of_mem positive after inside)
      · exact Or.inr ⟨epoch, past, upTo, rfl⟩

/-- The bucket of the head is visited last. -/
theorem getLast?_eq
    (visits : layout.Visits granularity (layout.bucketAt granularity head).stop candidate visited)
    (nonempty : visited ≠ []) :
    visited.getLast? = some (layout.bucketAt granularity head) := by
  induction visits with
  | past reached => exact absurd rfl nonempty
  | @next candidate visited before rest inductionHypothesis =>
    rw [List.getLast?_cons]
    cases rest with
    | past reached =>
      -- The bucket of the candidate is not before that of the head, and not after it.
      have upTo := lt_stop_bucketAt_iff.mp before
      have past := mt lt_stop_bucketAt_iff.mpr (Nat.not_lt.mpr reached)
      rw [layout.bucketIndex_stop] at past
      have same : layout.bucketIndex granularity candidate =
          layout.bucketIndex granularity head := by omega
      unfold bucketIndex at same
      unfold bucketAt EpochRange.aligned
      rw [same]
      rfl
    | next before rest => rw [inductionHypothesis (List.cons_ne_nil _ _), Option.getD_some]

/-- Each bucket is visited once. -/
theorem length_eq
    (visits : layout.Visits granularity (layout.bucketAt granularity head).stop candidate visited) :
    visited.length = ((Finset.Icc (layout.bucketAt granularity candidate).start head).image
      (layout.bucketAt granularity)).card := by
  have distinct : visited.Nodup :=
    visits.pairwise.imp fun {_ _} less same => absurd less (by rw [same]; exact lt_irrefl _)
  have same : visited.toFinset = (Finset.Icc (layout.bucketAt granularity candidate).start
      head).image (layout.bucketAt granularity) := by
    ext bucket
    rw [List.mem_toFinset, visits.mem_iff, Finset.mem_image]
    simp only [Finset.mem_Icc, and_assoc]
  rw [← same, List.toFinset_card_of_nodup distinct]

end Visits

/-! ### The counted loop -/

/-- Before the end there is one bucket more from a candidate on than from the end of its
bucket. -/
theorem bucketsBetween_of_lt (before : candidate < (layout.bucketAt granularity head).stop) :
    layout.bucketsBetween granularity candidate head =
      layout.bucketsBetween granularity (layout.bucketAt granularity candidate).stop head + 1 := by
  have upTo := lt_stop_bucketAt_iff.mp before
  unfold bucketsBetween
  rw [layout.bucketIndex_stop]
  omega

/-- Behind the end there are none. -/
theorem bucketsBetween_of_le (reached : (layout.bucketAt granularity head).stop ≤ candidate) :
    layout.bucketsBetween granularity candidate head = 0 := by
  have past := mt lt_stop_bucketAt_iff.mpr (Nat.not_lt.mpr reached)
  unfold bucketsBetween
  omega

/-- A turn of the counted loop is a turn of a loop that goes on while its candidate lies before
the end of the head's bucket. -/
theorem foldBuckets_turn (layout : BucketLayout) (granularity : Granularity)
    (latest : Option EpochRange) (head candidate : Nat) (report : FoldReport) :
    layout.foldBuckets granularity latest (layout.bucketsBetween granularity candidate head)
        candidate report =
      if candidate < (layout.bucketAt granularity head).stop then do
        let bucket ← .compute (layout.bucket granularity candidate)
        let closesAt ← .compute (layout.closesAt granularity bucket)
        if isClosed latest bucket closesAt then
          layout.foldBuckets granularity latest (layout.bucketsBetween granularity bucket.stop head)
            bucket.stop { report with bucketsSkipped := report.bucketsSkipped + 1 }
        else
          let (rows, created) ← layout.aggregate granularity bucket
          let rowsWritten ← .compute (Word.add report.rowsWritten rows)
          layout.foldBuckets granularity latest (layout.bucketsBetween granularity bucket.stop head)
            bucket.stop
            { report with
              bucketsFolded := report.bucketsFolded + 1
              rowsWritten
              partitionsCreated := report.partitionsCreated + created.toNat
              lastBucket := some bucket }
      else
        return report := by
  split
  · rename_i before
    rw [bucketsBetween_of_lt before, foldBuckets]
    cases found : layout.bucket granularity candidate with
    | error cause => rfl
    | ok bucket =>
      obtain rfl := layout.bucket_eq_ok found
      rfl
  · rename_i reached
    rw [bucketsBetween_of_le (Nat.not_lt.mp reached), foldBuckets]

end BucketLayout

end EpochRollup
