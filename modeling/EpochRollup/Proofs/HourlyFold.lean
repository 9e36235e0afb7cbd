/-
This file proves that folding hours step by step gives the hours of all epochs folded at
once. Epochs arrive in order, between the statements of folds and passes, any of which may
fail. The loop of a fold goes up from the latest hour with one promise: every epoch before
the next bucket, up to the head that was read, is below the frontier. When it comes back
the next bucket is behind the head, and so is the frontier.
-/

import EpochRollup.Proofs.Folded
import EpochRollup.Proofs.Walk

namespace EpochRollup

variable {regime : Regime} {layout : BucketLayout} {extra : Chronicle → Prop}

namespace BucketLayout

theorem start_bucketAt_hourly (layout : BucketLayout) (epoch : Nat) :
    (layout.bucketAt .hourly epoch).start = epoch / layout.hourlyWidth * layout.hourlyWidth := rfl

theorem stop_bucketAt_hourly (layout : BucketLayout) (epoch : Nat) :
    (layout.bucketAt .hourly epoch).stop =
      (layout.bucketAt .hourly epoch).start + layout.hourlyWidth := rfl

theorem isHourStart_bucketAt (layout : BucketLayout) (epoch : Nat) :
    IsHourStart layout.hourlyWidth (layout.bucketAt .hourly epoch).start :=
  ⟨epoch / layout.hourlyWidth, rfl⟩

theorem start_bucketAt_of_isHourStart {epoch : Nat}
    (starts : IsHourStart layout.hourlyWidth epoch) :
    (layout.bucketAt .hourly epoch).start = epoch := by
  obtain ⟨index, epochIs⟩ := starts
  rw [start_bucketAt_hourly, Int.ofNat_inj.mp epochIs, Nat.mul_div_cancel _ layout.hourlyWidth_pos]

end BucketLayout

/-! ### The loop -/

/-- Where a fold of hours stands before the bucket of a start: every earlier epoch up to the head
is below the frontier. -/
structure Progress (layout : BucketLayout) (extra : Chronicle → Prop) (head : Nat)
    (latest : Option EpochRange) (start : Nat) (log : Chronicle) : Prop where
  /-- The invariant. -/
  folded : FoldedWith layout extra log
  /-- Nothing before the bucket is missing. -/
  earlier : ∀ source ∈ log.now.epochs, source.epoch < start → source.epoch ≤ head →
    source.epoch < log.now.frontier
  /-- The bucket is not behind the latest hour. -/
  near : log.now.frontier ≤ start + layout.hourlyWidth
  /-- The head is present, so later arrivals are behind it. -/
  present : ∃ source ∈ log.now.epochs, source.epoch = head
  /-- The latest hour that was read is below the frontier. -/
  covered : ∀ range, latest = some range → (range.stop : Int) ≤ log.now.frontier

variable {head start : Nat} {latest : Option EpochRange}

theorem Regime.Carries.stable_progress (carries : regime.Carries layout extra) :
    regime.Stable (Progress layout extra head latest start) := by
  intro log rows after held allowed given
  have folded := carries.stable log rows after held.folded allowed given
  obtain ⟨added, rfl, arrived⟩ := carries.orderly.appended allowed given
  obtain ⟨source, member, same⟩ := held.present
  refine ⟨folded, ?_, ?_, ?_, ?_⟩ <;> rw [Chronicle.now_record]
  · intro other otherMember before upToHead
    rcases List.mem_append.mp otherMember with old | new
    · exact held.earlier other old before upToHead
    · have behind := (arrived other new).2.2 source member
      omega
  · exact held.near
  · exact ⟨source, List.mem_append_left _ member, same⟩
  · exact held.covered

namespace Progress

/-- A bucket that is closed may be left as it is. -/
theorem skip {log : Chronicle} (progress : Progress layout extra head latest start log)
    (closed : (start + layout.hourlyWidth : Int) ≤ log.now.frontier) :
    Progress layout extra head latest (start + layout.hourlyWidth) log where
  folded := progress.folded
  earlier := by
    intro source member before _
    rw [Int.natCast_add] at before
    omega
  near := by
    have near := progress.near
    rw [Int.natCast_add]
    omega
  present := progress.present
  covered := progress.covered

theorem ensure {log : Chronicle} (progress : Progress layout extra head latest start log)
    (carries : regime.Carries layout extra) (starts : IsHourStart layout.hourlyWidth start) :
    Progress layout extra head latest start
      (log.record (log.now.ensure (layout.partitionAt .hourly start))) := by
  refine ⟨⟨progress.folded.1.ensure starts progress.near,
    carries.ensures log start progress.folded starts progress.near⟩, ?_, ?_, ?_, ?_⟩
  · rw [Chronicle.now_record, Tables.epochs_ensure, Tables.frontier_ensure]
    exact progress.earlier
  · rw [Chronicle.now_record, Tables.frontier_ensure]
    exact progress.near
  · rw [Chronicle.now_record, Tables.epochs_ensure]
    exact progress.present
  · rw [Chronicle.now_record, Tables.frontier_ensure]
    exact progress.covered

/-- A bucket that is not past the head can be folded once its partition is there. -/
theorem foldsBucket {log : Chronicle}
    (progress : Progress layout extra head latest start log)
    (starts : IsHourStart layout.hourlyWidth start)
    (listed : layout.partitionAt .hourly start ∈ log.now.catalogue) (upToHead : start ≤ head) :
    FoldsBucket layout log start where
  folded := progress.folded.1
  starts := starts
  listed := listed
  earlier := fun source member before => progress.earlier source member before (by omega)
  near := progress.near

/-- A bucket without epochs may be left as it is. -/
theorem pass {log : Chronicle} (progress : Progress layout extra head latest start log)
    (empty : ∀ source ∈ log.now.epochs, (start : Int) ≤ source.epoch →
      ¬source.epoch < start + layout.hourlyWidth) :
    Progress layout extra head latest (start + layout.hourlyWidth) log where
  folded := progress.folded
  earlier := by
    intro source member before upTo
    rw [Int.natCast_add] at before
    rcases Int.lt_or_le source.epoch start with earlier | inside
    · exact progress.earlier source member earlier upTo
    · exact absurd before (empty source member inside)
  near := by
    have near := progress.near
    rw [Int.natCast_add]
    omega
  present := progress.present
  covered := progress.covered

/-- After the rows of a bucket are written, nothing before the next one is missing. -/
theorem write {log : Chronicle} (carries : regime.Carries layout extra)
    (progress : Progress layout extra head latest start log)
    (folds : FoldsBucket layout log start) {last : Int} {rows : List HourlyRow}
    (wrote : BucketRows layout log.now.epochs start last rows)
    (sound : (log.now.withHours rows).Sound layout) :
    Progress layout extra head latest (start + layout.hourlyWidth)
      (log.record (log.now.withHours rows)) := by
  have frontier := folds.frontier_putRows wrote
  have moved := folds.frontier_le wrote
  obtain ⟨_, -, within, same⟩ := wrote.exists_last
  refine ⟨⟨folds.folded_putRows wrote sound,
    carries.writes log _ last rows folds wrote sound progress.folded.2⟩, ?_, ?_, ?_, ?_⟩
  · rw [Chronicle.now_record, frontier]
    intro source member before _
    rw [Int.natCast_add] at before
    rcases Int.lt_or_le source.epoch start with earlier | inside
    · omega
    · exact Int.lt_add_one_of_le (wrote.le_last member inside before)
  · rw [Chronicle.now_record, frontier, Int.natCast_add]
    omega
  · rw [Chronicle.now_record]
    exact progress.present
  · rw [Chronicle.now_record, frontier]
    exact fun range same => Int.le_trans (progress.covered range same) moved

/-- After the fold of a bucket that is not past the head, nothing before the next one is
missing. -/
theorem fold {log : Chronicle} {candidate : Nat} (carries : regime.Carries layout extra)
    (progress : Progress layout extra head latest (layout.bucketAt .hourly candidate).start log)
    (listed : layout.partitionAt .hourly (layout.bucketAt .hourly candidate).start ∈
      log.now.catalogue)
    (upToHead : (layout.bucketAt .hourly candidate).start ≤ head) {count : Nat} {after : Tables}
    (given : Given log.now (.foldHour (layout.bucketAt .hourly candidate)) count after) :
    Progress layout extra head latest (layout.bucketAt .hourly candidate).stop
      (log.record after) := by
  have folds := progress.foldsBucket (layout.isHourStart_bucketAt candidate) listed upToHead
  have sound := folds.folded.sound.foldHour candidate given
  rw [layout.stop_bucketAt_hourly candidate]
  rcases FoldsBucket.given_cases rfl (layout.stop_bucketAt_hourly candidate) given with
    ⟨rfl, empty⟩ | ⟨last, rows, wrote, rfl⟩
  · rw [Chronicle.record_now]
    exact progress.pass empty
  · exact progress.write carries folds wrote sound

/-- Past the head nothing is missing up to it. -/
theorem caught {log : Chronicle} (progress : Progress layout extra head latest start log)
    (past : head < start) : FoldedWith layout extra log ∧ Caught head log :=
  ⟨progress.folded, fun source member upToHead =>
    progress.earlier source member (by omega) upToHead⟩

/-- A fold of hours walks with it. -/
theorem foldWalk (carries : regime.Carries layout extra) :
    FoldWalk regime layout .hourly latest head (FoldedWith layout extra)
      (Progress layout extra head latest) where
  stable := fun _ => carries.stable_progress
  failing := fun _ _ progress => progress.folded
  skip := by
    intro epoch closesAt log closing closed progress
    cases closing
    obtain ⟨range, rangeIs, -, reached⟩ := isClosed_iff.mp closed
    have covered := progress.covered range rangeIs
    rw [layout.stop_bucketAt_hourly] at reached ⊢
    exact progress.skip (by omega)
  ensure := by
    intro epoch log _ progress
    have kept := progress.ensure carries (layout.isHourStart_bucketAt epoch)
    rwa [layout.partitionAt_start] at kept
  fold := by
    intro epoch log answer after folds present progress given
    refine progress.fold carries ?_ folds.upToHead given
    rw [layout.partitionAt_start]
    exact Tables.hasPartition_hourly_iff.mp present

end Progress

/-! ### A whole fold -/

theorem keeps_foldThrough_hourly (carries : regime.Carries layout extra) (resume : Nat) :
    (layout.foldThrough .hourly latest resume head).Keeps regime (FoldedWith layout extra)
      (Progress layout extra head latest (layout.bucketAt .hourly resume).start)
      fun _ log => FoldedWith layout extra log ∧ Caught head log :=
  ((Progress.foldWalk carries).keeps_foldThrough resume).weaken (fun _ => id) (fun _ => id)
    fun _ _ ⟨_, past, progress⟩ => progress.caught past

/-- An epoch that a fold has to reach: none at all, or no later than some epoch that is
present. -/
def Present (reach : Int) (log : Chronicle) : Prop :=
  reach < 0 ∨ ∃ source ∈ log.now.epochs, reach ≤ source.epoch

/-- What is known once the head is read. -/
structure HeadRead (layout : BucketLayout) (extra : Chronicle → Prop) (head : Nat)
    (log : Chronicle) : Prop where
  /-- The invariant. -/
  folded : FoldedWith layout extra log
  /-- The head is present. -/
  present : ∃ source ∈ log.now.epochs, source.epoch = head
  /-- No hour covers more. -/
  ahead : log.now.frontier ≤ head + 1

theorem Regime.Carries.stable_present (carries : regime.Carries layout extra) (reach : Int) :
    regime.Stable (Present reach) := by
  intro log rows after held allowed given
  obtain ⟨added, rfl, -⟩ := carries.orderly.appended allowed given
  unfold Present
  rw [Chronicle.now_record]
  rcases held with negative | ⟨source, member, le⟩
  · exact Or.inl negative
  · exact Or.inr ⟨source, List.mem_append_left _ member, le⟩

theorem Regime.Carries.stable_headRead (carries : regime.Carries layout extra) :
    regime.Stable (HeadRead layout extra head) := by
  intro log rows after held allowed given
  have folded := carries.stable log rows after held.folded allowed given
  obtain ⟨added, rfl, -⟩ := carries.orderly.appended allowed given
  obtain ⟨source, member, same⟩ := held.present
  refine ⟨folded, ?_, ?_⟩ <;> rw [Chronicle.now_record]
  · exact ⟨source, List.mem_append_left _ member, same⟩
  · exact held.ahead

/-- The head that is read is the last epoch. -/
theorem FoldedWith.headRead {log : Chronicle} (folded : FoldedWith layout extra log) {reach : Int}
    (present : Present reach log)
    (headIs : (log.now.epochs.map (·.epoch)).max?.map epochOfStored = some head) :
    HeadRead layout extra head log ∧ reach ≤ head := by
  obtain ⟨last, lastIs, rfl⟩ := Option.map_eq_some_iff.mp headIs
  obtain ⟨member, most⟩ := List.max?_eq_some_iff.mp lastIs
  obtain ⟨source, sourceMember, rfl⟩ := List.mem_map.mp member
  have positive := folded.1.positive source sourceMember
  have natural : ((epochOfStored source.epoch : Nat) : Int) = source.epoch :=
    Int.toNat_of_nonneg positive
  rw [natural]
  refine ⟨⟨folded, ⟨source, sourceMember, natural.symm⟩, ?_⟩, ?_⟩
  · rw [natural]
    by_cases empty : log.now.hourly = []
    · rw [Tables.frontier_of_empty empty]
      omega
    · obtain ⟨reached, reachedMember, same⟩ := folded.1.reached empty
      have le := most _ (List.mem_map.mpr ⟨reached, reachedMember, rfl⟩)
      omega
  · rcases present with negative | ⟨other, otherMember, le⟩
    · omega
    · exact Int.le_trans le (most _ (List.mem_map.mpr ⟨other, otherMember, rfl⟩))

/-- A fold may resume at the latest hour. -/
theorem HeadRead.resume {log : Chronicle} (read : HeadRead layout extra head log)
    {range : EpochRange}
    (latestIs : log.now.lastHourly?.map EmbeddedStore.boundsOfStored = some range) :
    Progress layout extra head (some range) (layout.bucketAt .hourly range.start).start log := by
  obtain ⟨bounds, found, rfl⟩ := Option.map_eq_some_iff.mp latestIs
  have nonempty : log.now.hourly ≠ [] := by
    intro empty
    rw [Tables.lastHourly?_eq_none.mpr empty] at found
    cases found
  obtain ⟨first, firstFound, starts, before, near, -⟩ := read.folded.1.latest nonempty
  cases found.symm.trans firstFound
  have natural : ((first.toNat : Nat) : Int) = first := Int.toNat_of_nonneg starts.nonneg
  have same : (layout.bucketAt .hourly first.toNat).start = first.toNat :=
    BucketLayout.start_bucketAt_of_isHourStart (by rw [natural]; exact starts)
  show Progress layout extra head _ (layout.bucketAt .hourly first.toNat).start log
  rw [same]
  refine ⟨read.folded, fun source _ less _ => ?_, ?_, read.present, fun range rangeIs => ?_⟩
  · omega
  · omega
  · cases rangeIs
    have positive := read.folded.1.frontier_nonneg
    exact Int.le_of_eq (Int.toNat_of_nonneg positive)

/-- A first fold begins at the first epoch. -/
theorem HeadRead.begin {log : Chronicle} (read : HeadRead layout extra head log)
    (empty : log.now.hourly = []) :
    let first := ((log.now.epochs.map (·.epoch)).min?.map epochOfStored).getD head
    Progress layout extra head none (layout.bucketAt .hourly first).start log := by
  obtain ⟨source, member, sourceIs⟩ := read.present
  obtain ⟨least, leastIs⟩ := Option.ne_none_iff_exists'.mp (fun missing =>
    List.ne_nil_of_mem member (List.map_eq_nil_iff.mp (List.min?_eq_none_iff.mp missing)) :
    (log.now.epochs.map (·.epoch)).min? ≠ none)
  obtain ⟨leastMember, all⟩ := List.min?_eq_some_iff.mp leastIs
  obtain ⟨leastRow, leastRowMember, rfl⟩ := List.mem_map.mp leastMember
  rw [leastIs]
  show Progress layout extra head none
    (layout.bucketAt .hourly leastRow.epoch.toNat).start log
  have before : (layout.bucketAt .hourly leastRow.epoch.toNat).start ≤ leastRow.epoch.toNat :=
    EpochRange.start_aligned_le layout.hourlyWidth_pos _
  have zero := Tables.frontier_of_empty empty
  refine ⟨read.folded, fun other otherMember less _ => ?_, by omega, read.present,
    fun range rangeIs => by cases rangeIs⟩
  have le := all _ (List.mem_map.mpr ⟨other, otherMember, rfl⟩)
  omega

/-- A fold keeps the invariant, and one that comes back has brought everything below the
frontier that was present when it began. -/
theorem keeps_foldHours (carries : regime.Carries layout extra) (reach : Int) :
    (layout.foldHours (storedBounds layout.clock)).Keeps regime (FoldedWith layout extra)
      (fun log => FoldedWith layout extra log ∧ Present reach log)
      fun _ log => FoldedWith layout extra log ∧ Caught reach log := by
  have emptyStable : regime.Stable fun log => log.now.hourly = [] :=
    regime.stable_besidesEpochs fun hourly _ _ => hourly = []
  refine Procedure.keeps_bind _ (keeps_storedBounds layout.clock .lastEpoch
    ((carries.stable).and (carries.stable_present reach)) fun log held => held.1)
    fun answer => ?_
  cases answer with
  | none =>
    refine Procedure.keeps_pure fun log held => ⟨held.1.1, fun source member _ => ?_⟩
    have none := Option.map_eq_none_iff.mp held.2.symm
    rw [List.max?_eq_none_iff, List.map_eq_nil_iff] at none
    rw [none] at member
    cases member
  | some head =>
    -- From here on only the head counts, and it is not before what has to be reached.
    refine Procedure.Keeps.knowing
      (fun log held => (held.1.1.headRead held.1.2 held.2.symm).2) fun reachable => ?_
    have reached (log : Chronicle) (done : FoldedWith layout extra log ∧ Caught head log) :
        FoldedWith layout extra log ∧ Caught reach log :=
      ⟨done.1, fun source member within => done.2 source member (by omega)⟩
    refine Procedure.Keeps.weaken (Procedure.keeps_bind _
      (keeps_storedBounds layout.clock .lastHourly carries.stable_headRead
        fun log read => read.folded) fun answer => ?_) (fun _ => id)
      (fun log held => (held.1.1.headRead held.1.2 held.2.symm).1) fun _ _ => id
    cases answer with
    | some latest =>
      exact (keeps_foldThrough_hourly carries _).weaken (fun _ => id)
        (fun log held => held.1.resume held.2.symm) fun _ => reached
    | none =>
      refine Procedure.keeps_bind _ ((keeps_storedBounds layout.clock .firstEpoch
        (carries.stable_headRead.and emptyStable) fun log held => held.1.folded).weaken
        (fun _ => id) (fun log held => ⟨held.1, ?_⟩) fun _ _ => id) fun first => ?_
      · exact Tables.eq_nil_of_no_latestBounds held.2.symm
      · refine (keeps_foldThrough_hourly carries _).weaken (fun _ => id) (fun log held => ?_)
          fun _ => reached
        rw [show first = (log.now.epochs.map (·.epoch)).min?.map epochOfStored from held.2]
        exact held.1.1.begin held.1.2

end EpochRollup
