/-
This file gives the rule by which the loop of a fold is reasoned about. A fold walks over
consecutive buckets up to the one of the head. What holds before the bucket of a start holds
before the next one when the bucket is skipped and when it is folded, and folding it is a
partition that is ensured and a statement that is answered. `FoldWalk` asks for these three
steps, and the loop follows by induction on the buckets that remain.
-/

import EpochRollup.Proofs.Pass

namespace EpochRollup

variable {regime : Regime} {layout : BucketLayout} {granularity : Granularity}
  {latest : Option EpochRange} {head : Nat} {always : Chronicle → Prop}
  {standing : Nat → Chronicle → Prop}

/-- A bucket is closed when the latest one that was read starts with it and has reached the end
of what can belong to it. -/
theorem isClosed_iff {bucket : EpochRange} {closesAt : Nat} :
    isClosed latest bucket closesAt = true ↔
      ∃ range, latest = some range ∧ range.start = bucket.start ∧ closesAt ≤ range.stop := by
  unfold isClosed
  rw [Option.any_eq_true]
  simp only [Bool.and_eq_true, decide_eq_true_eq]

/-- The loop of a fold neither skips a bucket nor goes past the head. -/
structure FoldsAt (layout : BucketLayout) (granularity : Granularity) (latest : Option EpochRange)
    (head epoch : Nat) : Prop where
  /-- The bucket is no later than the one of the head. -/
  upToHead : (layout.bucketAt granularity epoch).start ≤ head
  /-- The bucket is not the closed latest one. -/
  isOpen : ∀ closesAt, layout.closesAt granularity (layout.bucketAt granularity epoch) =
    .ok closesAt → isClosed latest (layout.bucketAt granularity epoch) closesAt = false
  /-- The loop knows when it closes. -/
  closes : ∃ closesAt, layout.closesAt granularity (layout.bucketAt granularity epoch) =
    .ok closesAt

/-- What stands before the bucket of a start, while a fold walks up to a head. -/
structure FoldWalk (regime : Regime) (layout : BucketLayout) (granularity : Granularity)
    (latest : Option EpochRange) (head : Nat) (always : Chronicle → Prop)
    (standing : Nat → Chronicle → Prop) : Prop where
  /-- Arrivals do not disturb it. -/
  stable : ∀ start, regime.Stable (standing start)
  /-- It may be left at any time. -/
  failing : ∀ start log, standing start log → always log
  /-- A closed bucket is skipped. -/
  skip : ∀ epoch closesAt log,
    layout.closesAt granularity (layout.bucketAt granularity epoch) = .ok closesAt →
    isClosed latest (layout.bucketAt granularity epoch) closesAt = true →
    standing (layout.bucketAt granularity epoch).start log →
      standing (layout.bucketAt granularity epoch).stop log
  /-- The partition of a bucket is ensured. -/
  ensure : ∀ epoch log, FoldsAt layout granularity latest head epoch →
    standing (layout.bucketAt granularity epoch).start log →
      standing (layout.bucketAt granularity epoch).start
        (log.record (log.now.ensure (layout.partitionAt granularity epoch)))
  /-- The bucket is folded. -/
  fold : ∀ epoch log (answer : (layout.foldCall granularity epoch).Answer) after,
    FoldsAt layout granularity latest head epoch →
    log.now.hasPartition (layout.partitionAt granularity epoch).name = true →
    standing (layout.bucketAt granularity epoch).start log →
    Given log.now (layout.foldCall granularity epoch) answer after →
      standing (layout.bucketAt granularity epoch).stop (log.record after)

theorem BucketLayout.start_bucketAt_le_of_bucketIndex (layout : BucketLayout) {epoch other : Nat}
    (upTo : layout.bucketIndex granularity epoch ≤ layout.bucketIndex granularity other) :
    (layout.bucketAt granularity epoch).start ≤ other := by
  have ordered := Nat.mul_le_mul_right (layout.width granularity) upTo
  have floored : (other + layout.shift granularity) / layout.width granularity *
      layout.width granularity ≤ other + layout.shift granularity := Nat.div_mul_le_self _ _
  unfold bucketIndex at ordered
  show (epoch + layout.shift granularity) / layout.width granularity *
    layout.width granularity - layout.shift granularity ≤ other
  omega

namespace FoldWalk

theorem keeps_aggregate
    (walk : FoldWalk regime layout granularity latest head always standing) {epoch : Nat}
    (folds : FoldsAt layout granularity latest head epoch) :
    (layout.aggregate granularity (layout.bucketAt granularity epoch)).Keeps regime always
      (standing (layout.bucketAt granularity epoch).start)
      fun _ => standing (layout.bucketAt granularity epoch).stop := by
  have listedStable (name : String) :
      regime.Stable fun log => log.now.hasPartition name = true :=
    regime.stable_besidesEpochs fun _ _ catalogue => catalogue.any (·.name = name) = true
  refine Procedure.keeps_bind (fun _ log =>
    standing (layout.bucketAt granularity epoch).start log ∧
      log.now.hasPartition (layout.partitionAt granularity epoch).name = true)
    ?_ fun pair => ?_
  · refine Procedure.keeps_compute_bind (walk.failing _) fun partition found => ?_
    obtain rfl := layout.partitionFor_eq_ok found
    rw [layout.partitionAt_start]
    refine Procedure.keeps_bind _ (Procedure.keeps_askFor (walk.stable _) (walk.failing _)
      fun log answer after held given => ?_) fun created => Procedure.keeps_pure fun _ => id
    rw [given.ensurePartition.2, Chronicle.now_record]
    exact ⟨walk.ensure epoch log folds held, Tables.hasPartition_ensure _ _⟩
  · refine Procedure.keeps_bind (fun _ => standing (layout.bucketAt granularity epoch).stop) ?_
      fun rows => Procedure.keeps_pure fun _ => id
    have answered (log : Chronicle) (answer : (layout.foldCall granularity epoch).Answer)
        (after : Tables)
        (held : standing (layout.bucketAt granularity epoch).start log ∧
          log.now.hasPartition (layout.partitionAt granularity epoch).name = true)
        (given : Given log.now (layout.foldCall granularity epoch) answer after) :
        standing (layout.bucketAt granularity epoch).stop (log.record after) :=
      walk.fold epoch log answer after folds held.2 held.1 given
    have stable := (walk.stable (layout.bucketAt granularity epoch).start).and (listedStable
      (layout.partitionAt granularity epoch).name)
    cases granularity with
    | hourly =>
      exact Procedure.keeps_askFor stable (fun log held => walk.failing _ log held.1) answered
    | daily =>
      exact Procedure.keeps_askFor stable (fun log held => walk.failing _ log held.1) answered

/-- The loop leads past the head, if it does not begin there. -/
theorem keeps_foldBuckets
    (walk : FoldWalk regime layout granularity latest head always standing)
    (remaining candidate : Nat) (report : FoldReport)
    (counted : layout.bucketIndex granularity candidate + remaining =
      max (layout.bucketIndex granularity head + 1) (layout.bucketIndex granularity candidate)) :
    (layout.foldBuckets granularity latest remaining candidate report).Keeps regime always
      (standing (layout.bucketAt granularity candidate).start)
      fun _ log => ∃ start, head < start ∧ standing start log := by
  have positive := layout.width_pos granularity
  induction remaining generalizing candidate report with
  | zero =>
    exact Procedure.keeps_pure fun log held =>
      ⟨_, layout.lt_start_of_bucketIndex (by omega), held⟩
  | succ remaining inductionHypothesis =>
    refine Procedure.keeps_compute_bind (walk.failing _) fun bucket found => ?_
    obtain rfl := layout.bucket_eq_ok found
    refine Procedure.keeps_compute_bind (walk.failing _) fun closesAt closing => ?_
    have rest := inductionHypothesis (layout.bucketAt granularity candidate).stop
    have next : (layout.bucketAt granularity
        (layout.bucketAt granularity candidate).stop).start =
          (layout.bucketAt granularity candidate).stop :=
      EpochRange.start_aligned_stop positive candidate
    rw [next, layout.bucketIndex_stop] at rest
    split
    · rename_i closed
      exact (rest _ (by omega)).weaken (fun _ => id)
        (fun log held => walk.skip candidate closesAt log closing closed held) fun _ _ => id
    · rename_i notClosed
      have folds : FoldsAt layout granularity latest head candidate :=
        { upToHead := layout.start_bucketAt_le_of_bucketIndex (by omega)
          isOpen := fun other otherIs => by
            rw [closing, Except.ok.injEq] at otherIs
            rw [← otherIs]
            exact Bool.eq_false_iff.mpr notClosed
          closes := ⟨closesAt, closing⟩ }
      refine Procedure.keeps_bind _ (walk.keeps_aggregate folds) fun pair => ?_
      exact Procedure.keeps_compute_bind (walk.failing _) fun rowsWritten _ => rest _ (by omega)

theorem keeps_foldThrough
    (walk : FoldWalk regime layout granularity latest head always standing) (resume : Nat) :
    (layout.foldThrough granularity latest resume head).Keeps regime always
      (standing (layout.bucketAt granularity resume).start)
      fun _ log => ∃ start, head < start ∧ standing start log := by
  refine Procedure.keeps_compute_bind (walk.failing _) fun _ _ => ?_
  refine walk.keeps_foldBuckets _ resume .idle ?_
  unfold BucketLayout.bucketsBetween
  omega

end FoldWalk

/-- A fold of days reads the latest hour and the latest day and walks from that day, or from the
one of the hour. -/
theorem keeps_foldDays_of_walk {ended : Chronicle → Prop}
    {standing : Option EpochRange → Nat → Nat → Chronicle → Prop} (stable : regime.Stable always)
    (walk : ∀ latest head, FoldWalk regime layout .daily latest head always (standing latest head))
    (idle : ∀ log, always log → log.now.head? = none → ended log)
    (resume : ∀ latest head log, always log → log.now.head? = some head →
      latest = log.now.lastDaily?.map EmbeddedStore.boundsOfStored →
        standing latest head (layout.bucketAt .daily ((latest.map (·.start)).getD head)).start log)
    (past : ∀ latest head start log, head < start → standing latest head start log → ended log) :
    (layout.foldDays (storedBounds layout.clock)).Keeps regime always always fun _ => ended := by
  refine Procedure.keeps_bind _
    (keeps_storedBounds layout.clock .lastHourly stable fun _ held => held) fun answer => ?_
  cases answer with
  | none =>
    exact Procedure.keeps_pure fun log held =>
      idle log held.1 (Tables.head?_of_lastHourly?_none held.2.symm)
  | some latestHour =>
    have headStable : regime.Stable fun log => log.now.head? = some latestHour.start :=
      regime.stable_besidesEpochs fun hourly _ _ =>
        (hourly.map HourlyRow.start).max?.map epochOfStored = some latestHour.start
    refine Procedure.keeps_bind _
      ((keeps_storedBounds layout.clock .lastDaily (stable.and headStable)
        fun log held => held.1).weaken (fun _ => id)
        (fun log held => ⟨held.1, Tables.head?_of_lastHourly? held.2.symm⟩) fun _ _ => id)
      fun latest => ?_
    exact ((walk latest latestHour.start).keeps_foldThrough _).weaken (fun _ => id)
      (fun log held => resume latest latestHour.start log held.1.1 held.1.2 held.2)
      fun _ log ⟨start, reached, held⟩ => past latest latestHour.start start log reached held

end EpochRollup
