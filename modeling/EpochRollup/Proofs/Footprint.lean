/-
This file says which calls each engine operation can make. The refresh of the window touches
the trailing window only, a fold touches the partitions and rows of its granularity only,
and so does a reclaim, and every bucket and partition in a call is one of the layout. This
holds whatever the answers are, so it needs no run: what is kept by every call of an
operation is kept by the operation.
-/

import EpochRollup.Proofs.Layout
import EpochRollup.Proofs.Name
import EpochRollup.Proofs.Run

namespace EpochRollup

/-! ### The calls of a dialogue -/

namespace Dialogue

variable {Call : Type} {Answer : Call → Type} {Result Next : Type} {allowed : Call → Prop}

/-- Every call that a dialogue can make is allowed. -/
def Asks (allowed : Call → Prop) : Dialogue Call Answer Result → Prop
  | .done _ => True
  | .ask call resume => allowed call ∧ ∀ answer, (resume answer).Asks allowed

theorem Asks.bind {dialogue : Dialogue Call Answer Result}
    {next : Result → Dialogue Call Answer Next} (first : dialogue.Asks allowed)
    (rest : ∀ result, (next result).Asks allowed) : (dialogue.bind next).Asks allowed := by
  induction dialogue with
  | done result => exact rest result
  | ask call resume inductionHypothesis =>
    exact ⟨first.1, fun answer => inductionHypothesis answer (first.2 answer)⟩

theorem Asks.mono {wider : Call → Prop} {dialogue : Dialogue Call Answer Result}
    (asks : dialogue.Asks allowed) (included : ∀ call, allowed call → wider call) :
    dialogue.Asks wider := by
  induction dialogue with
  | done result => trivial
  | ask call resume inductionHypothesis =>
    exact ⟨included call asks.1, fun answer => inductionHypothesis answer (asks.2 answer)⟩

end Dialogue

namespace Procedure

variable {Result : Type} {allowed : StoreCall → Prop}

/-- Every call that a procedure can make is allowed. -/
def Asks (allowed : StoreCall → Prop) (procedure : Procedure Result) : Prop :=
  procedure.run.Asks allowed

theorem Asks.mono {wider : StoreCall → Prop} {procedure : Procedure Result}
    (asks : procedure.Asks allowed) (included : ∀ call, allowed call → wider call) :
    procedure.Asks wider := Dialogue.Asks.mono asks included

theorem asks_pure (result : Result) : (pure result : Procedure Result).Asks allowed := trivial

theorem asks_bind {First : Type} {procedure : Procedure First} {next : First → Procedure Result}
    (first : procedure.Asks allowed) (rest : ∀ result, (next result).Asks allowed) :
    (procedure >>= next).Asks allowed :=
  Dialogue.Asks.bind first fun outcome => match outcome with
    | .ok result => rest result
    | .error _ => trivial

theorem asks_ask {operation : String} {call : StoreCall} (permitted : allowed call) :
    (ask operation call).Asks allowed := ⟨permitted, fun _ => trivial⟩

theorem asks_askFor {operation : String} {range : EpochRange} {call : StoreCall}
    (permitted : allowed call) : (askFor operation range call).Asks allowed :=
  ⟨permitted, fun _ => trivial⟩

theorem asks_compute_bind {First : Type} {computed : Except Abort First}
    {next : First → Procedure Result}
    (rest : ∀ result, computed = .ok result → (next result).Asks allowed) :
    (compute computed >>= next).Asks allowed := by
  cases computed with
  | error cause => trivial
  | ok result => exact rest result rfl

theorem Asks.inStep {procedure : Procedure Result} (asks : procedure.Asks allowed)
    (step : PassStep) : (procedure.inStep step).Asks allowed :=
  Dialogue.Asks.bind asks fun outcome => match outcome with
    | .ok _ => trivial
    | .error _ => trivial

/-- What arrivals do not disturb and every call of a procedure keeps, the procedure keeps. -/
theorem Asks.keeps {regime : Regime} {procedure : Procedure Result} {holds : Chronicle → Prop}
    (asks : procedure.Asks allowed) (stable : regime.Stable holds)
    (kept : ∀ call, allowed call → ∀ log answer after, holds log →
      Given log.now call answer after → holds (log.record after)) :
    procedure.Keeps regime holds holds fun _ => holds := by
  have general (dialogue : Dialogue StoreCall StoreCall.Reply (Except Failure Result))
      (asks : dialogue.Asks allowed) (log final : Chronicle) (outcome : Except Failure Result)
      (held : holds log) (performed : Performs regime dialogue log outcome final) :
      holds final := by
    induction performed with
    | done result log => exact held
    | answered supplied given rest inductionHypothesis =>
      exact inductionHypothesis (asks.2 _)
        (kept _ asks.1 _ _ _ (stable.supplied supplied held) given)
    | failed error supplied rest inductionHypothesis =>
      exact inductionHypothesis (asks.2 _) (stable.supplied supplied held)
  intro log outcome final held ends
  have kept := general procedure.run asks log final outcome held ends
  cases outcome <;> exact kept

end Procedure

/-! ### The calls of the engine -/

/-- Calls that read a bound of the tables. -/
inductive StoreCall.Looks : StoreCall → Prop where
  /-- The lowest epoch. -/
  | firstEpoch : Looks .firstEpoch
  /-- The highest epoch. -/
  | lastEpoch : Looks .lastEpoch
  /-- The latest hour. -/
  | lastHourlyBounds : Looks .lastHourlyBounds
  /-- The oldest hour. -/
  | firstHourlyEpoch : Looks .firstHourlyEpoch
  /-- The oldest hour from an epoch on. -/
  | firstHourlyFrom (epoch : Nat) : Looks (.firstHourlyFrom epoch)
  /-- The latest day. -/
  | lastDailyBounds : Looks .lastDailyBounds
  /-- The oldest day. -/
  | firstDailyEpoch : Looks .firstDailyEpoch

/-- Reading a bound changes nothing. -/
theorem Given.of_looks {call : StoreCall} (looks : call.Looks) {tables after : Tables}
    {answer : call.Answer} (given : Given tables call answer after) : after = tables := by
  refine given.of_reads ?_
  cases looks <;> rfl

/-- Calls of a refresh of the window. -/
inductive StoreCall.Refreshes : StoreCall → Prop where
  /-- A bound is read. -/
  | look {call : StoreCall} (looks : call.Looks) : call.Refreshes
  /-- The window is emptied. -/
  | clear : Refreshes .clearRolling
  /-- The window is replaced. -/
  | replace (start head : Nat) : Refreshes (.replaceRolling start head)

/-- A refresh changes the trailing window only. -/
theorem Given.of_refreshes {call : StoreCall} (refreshes : call.Refreshes)
    {tables after : Tables} {answer : call.Answer} (given : Given tables call answer after) :
    ∃ rolling, after = { tables with rolling } := by
  cases refreshes with
  | look looks => exact ⟨tables.rolling, given.of_looks looks⟩
  | clear => exact ⟨[], given.clearRolling⟩
  | replace start head =>
    rcases given.replaceRolling with ⟨-, -, rfl⟩ | ⟨first, rows, -, -, -, -, rfl⟩
    · exact ⟨[], rfl⟩
    · exact ⟨_, rfl⟩

namespace BucketLayout

variable (layout : BucketLayout)

/-- The fold of the bucket of an epoch. -/
def foldCall (granularity : Granularity) (epoch : Nat) : StoreCall :=
  match granularity with
  | .hourly => .foldHour (layout.bucketAt .hourly epoch)
  | .daily =>
    .foldDay (layout.bucketAt .daily epoch)
      (layout.clock.dayOf (layout.bucketAt .daily epoch).start)

/-- Calls of a fold. -/
inductive Folds (granularity : Granularity) : StoreCall → Prop where
  /-- A bound is read. -/
  | look {call : StoreCall} (looks : call.Looks) : Folds granularity call
  /-- A partition is ensured. -/
  | ensure (epoch : Nat) :
    Folds granularity (.ensurePartition (layout.partitionAt granularity epoch))
  /-- A bucket is folded. -/
  | fold (epoch : Nat) : Folds granularity (layout.foldCall granularity epoch)

/-- Drops of partitions that end past one epoch and by another. -/
inductive Expires (granularity : Granularity) (past boundary : Nat) : StoreCall → Prop where
  /-- A partition is dropped. -/
  | drop (epoch : Nat) (after : past < (layout.partitionRangeAt granularity epoch).stop)
    (expired : (layout.partitionRangeAt granularity epoch).stop ≤ boundary) :
    Expires granularity past boundary (.dropPartition (layout.partitionAt granularity epoch))

/-- Calls of a reclaim. -/
inductive Reclaims (granularity : Granularity) : StoreCall → Prop where
  /-- A bound is read. -/
  | look {call : StoreCall} (looks : call.Looks) : Reclaims granularity call
  /-- A partition is dropped. -/
  | drop (epoch : Nat) :
    Reclaims granularity (.dropPartition (layout.partitionAt granularity epoch))

/-- Calls of the engine. -/
inductive Issues : StoreCall → Prop where
  /-- A call of a refresh. -/
  | refresh {call : StoreCall} (refreshes : call.Refreshes) : Issues call
  /-- A call of a fold. -/
  | fold {call : StoreCall} {granularity : Granularity} (folds : layout.Folds granularity call) :
    Issues call
  /-- A call of a reclaim. -/
  | reclaim {call : StoreCall} {granularity : Granularity}
    (reclaims : layout.Reclaims granularity call) : Issues call

end BucketLayout

/-! ### The calls of each operation -/

theorem asks_storedBounds (clock : ChainClock) (bound : Bound) :
    (storedBounds clock bound).Asks StoreCall.Looks := by
  cases bound with
  | lastEpoch => exact Procedure.asks_ask .lastEpoch
  | firstEpoch => exact Procedure.asks_ask .firstEpoch
  | lastHourly => exact Procedure.asks_ask .lastHourlyBounds
  | firstHourly => exact Procedure.asks_ask .firstHourlyEpoch
  | dayOldHourly =>
    refine Procedure.asks_bind (Procedure.asks_ask .lastHourlyBounds) fun head => ?_
    cases head with
    | none => exact Procedure.asks_pure _
    | some head => exact Procedure.asks_ask (.firstHourlyFrom _)
  | lastDaily => exact Procedure.asks_ask .lastDailyBounds
  | firstDaily => exact Procedure.asks_ask .firstDailyEpoch

theorem asks_refreshWindow (clock : ChainClock) :
    (refreshWindow (storedBounds clock)).Asks StoreCall.Refreshes := by
  have bound (bound : Bound) : (storedBounds clock bound).Asks StoreCall.Refreshes :=
    (asks_storedBounds clock bound).mono fun _ looks => .look looks
  refine Procedure.asks_bind (bound .lastHourly) fun head => ?_
  cases head with
  | none => exact Procedure.asks_bind (Procedure.asks_ask .clear) fun _ => Procedure.asks_pure _
  | some head =>
    exact Procedure.asks_bind (bound .dayOldHourly) fun _ =>
      Procedure.asks_bind (Procedure.asks_askFor (.replace _ _)) fun _ => Procedure.asks_pure _

namespace BucketLayout

variable {layout : BucketLayout} {granularity : Granularity}

theorem asks_aggregate (epoch : Nat) :
    (layout.aggregate granularity (layout.bucketAt granularity epoch)).Asks
      (layout.Folds granularity) := by
  refine Procedure.asks_bind ?_ fun pair => Procedure.asks_bind ?_ fun _ => Procedure.asks_pure _
  · refine Procedure.asks_compute_bind fun partition found => ?_
    rw [layout.partitionFor_eq_ok found]
    exact Procedure.asks_bind (Procedure.asks_askFor (.ensure _)) fun _ => Procedure.asks_pure _
  · cases granularity with
    | hourly => exact Procedure.asks_askFor (Folds.fold epoch)
    | daily => exact Procedure.asks_askFor (Folds.fold epoch)

theorem asks_foldBuckets (latest : Option EpochRange) (remaining candidate : Nat)
    (report : FoldReport) :
    (layout.foldBuckets granularity latest remaining candidate report).Asks
      (layout.Folds granularity) := by
  induction remaining generalizing candidate report with
  | zero => exact Procedure.asks_pure _
  | succ remaining inductionHypothesis =>
    refine Procedure.asks_compute_bind fun bucket found => Procedure.asks_compute_bind fun _ _ => ?_
    rw [layout.bucket_eq_ok found]
    split
    · exact inductionHypothesis _ _
    · exact Procedure.asks_bind (asks_aggregate candidate) fun _ =>
        Procedure.asks_compute_bind fun _ _ => inductionHypothesis _ _

theorem asks_foldThrough (latest : Option EpochRange) (resume head : Nat) :
    (layout.foldThrough granularity latest resume head).Asks (layout.Folds granularity) :=
  Procedure.asks_compute_bind fun _ _ => asks_foldBuckets _ _ _ _

theorem asks_foldHours :
    (layout.foldHours (storedBounds layout.clock)).Asks (layout.Folds .hourly) := by
  have bound (bound : Bound) : (storedBounds layout.clock bound).Asks (layout.Folds .hourly) :=
    (asks_storedBounds layout.clock bound).mono fun _ looks => .look looks
  refine Procedure.asks_bind (bound .lastEpoch) fun head => ?_
  cases head with
  | none => exact Procedure.asks_pure _
  | some head =>
    refine Procedure.asks_bind (bound .lastHourly) fun latest => ?_
    cases latest with
    | none =>
      exact Procedure.asks_bind (bound .firstEpoch) fun _ => asks_foldThrough _ _ _
    | some latest => exact asks_foldThrough _ _ _

theorem asks_foldDays :
    (layout.foldDays (storedBounds layout.clock)).Asks (layout.Folds .daily) := by
  have bound (bound : Bound) : (storedBounds layout.clock bound).Asks (layout.Folds .daily) :=
    (asks_storedBounds layout.clock bound).mono fun _ looks => .look looks
  refine Procedure.asks_bind (bound .lastHourly) fun head => ?_
  cases head with
  | none => exact Procedure.asks_pure _
  | some head =>
    exact Procedure.asks_bind (bound .lastDaily) fun _ => asks_foldThrough _ _ _

/-! ### Counting buckets -/

/-- The bucket after a bucket is the next one. -/
theorem bucketIndex_stop (layout : BucketLayout) (granularity : Granularity) (epoch : Nat) :
    layout.bucketIndex granularity (layout.bucketAt granularity epoch).stop =
      layout.bucketIndex granularity epoch + 1 :=
  EpochRange.quotient_stop (layout.width_pos granularity) epoch

/-- An epoch is before the buckets that are counted after its own. -/
theorem lt_start_of_bucketIndex (layout : BucketLayout) {epoch other : Nat}
    (less : layout.bucketIndex granularity epoch < layout.bucketIndex granularity other) :
    epoch < (layout.bucketAt granularity other).start := by
  have positive := layout.width_pos granularity
  have less : epoch + layout.shift granularity <
      (other + layout.shift granularity) / layout.width granularity *
        layout.width granularity := (Nat.div_lt_iff_lt_mul positive).mp less
  show epoch < (other + layout.shift granularity) / layout.width granularity *
    layout.width granularity - layout.shift granularity
  omega

/-! ### The walk over expired partitions -/

/-- The candidate at which the walk down from a boundary ends: the first one on the way that is
below the oldest bucket or below one width. -/
def lowestCandidate (width boundary oldest : Nat) : Nat :=
  if boundary < max oldest width then boundary
  else max oldest width + (boundary - max oldest width) % width - width

theorem lowestCandidate_of_end {width boundary oldest : Nat}
    (ends : boundary < oldest ∨ boundary < width) :
    lowestCandidate width boundary oldest = boundary := if_pos (by omega)

theorem lowestCandidate_of_step {width boundary oldest : Nat} (positive : 0 < width)
    (goesOn : ¬(boundary < oldest ∨ boundary < width)) :
    lowestCandidate width boundary oldest = lowestCandidate width (boundary - width) oldest := by
  unfold lowestCandidate
  rw [if_neg (by omega)]
  split
  · rename_i last
    rw [Nat.mod_eq_of_lt (by omega)]
    omega
  · rename_i more
    have moved : boundary - max oldest width = boundary - width - max oldest width + width := by
      omega
    rw [moved, Nat.add_mod_right]

theorem lowestCandidate_le {width : Nat} (positive : 0 < width) (boundary oldest : Nat) :
    lowestCandidate width boundary oldest ≤ boundary := by
  unfold lowestCandidate
  split
  · exact Nat.le_refl _
  · have small := Nat.mod_lt (boundary - max oldest width) positive
    omega

/-- The walk drops only partitions that reach past its lowest candidate and end by the
boundary. -/
theorem asks_reclaimFrom (boundary oldest candidate : Nat) (met : List EpochRange)
    (dropped : Nat) :
    (layout.reclaimFrom granularity boundary oldest candidate met dropped).Asks
      (layout.Expires granularity
        (lowestCandidate (layout.width granularity) candidate oldest) boundary) := by
  have positive := layout.width_pos granularity
  induction candidate using Nat.strongRecOn generalizing met dropped with
  | ind candidate inductionHypothesis =>
    rw [reclaimFrom]
    refine Procedure.asks_bind ?_ fun pair => ?_
    · refine Procedure.asks_compute_bind fun partition found => ?_
      obtain rfl := layout.partitionFor_eq_ok found
      have inside : candidate < (layout.partitionRangeAt granularity candidate).stop :=
        EpochRange.lt_stop_aligned (layout.partitionSpan_pos granularity) candidate
      have lowest := lowestCandidate_le positive candidate oldest
      rw [range_partitionAt]
      split
      · rename_i expired
        refine Procedure.asks_bind (Procedure.asks_askFor
          (.drop candidate (Nat.lt_of_le_of_lt lowest inside) expired.1)) fun existed => ?_
        split <;> exact Procedure.asks_pure _
      · exact Procedure.asks_pure _
    · dsimp only
      split
      · exact Procedure.asks_pure _
      · rename_i goesOn
        rw [lowestCandidate_of_step positive goesOn]
        exact inductionHypothesis _ (by omega) _ _

end BucketLayout

namespace Coordinator

variable {layout : BucketLayout} {retention : RetentionPolicy}

theorem asks_reclaim (granularity : Granularity) :
    ((ofStore layout retention).reclaim granularity).Asks (layout.Reclaims granularity) := by
  have bound (bound : Bound) :
      (storedBounds layout.clock bound).Asks (layout.Reclaims granularity) :=
    (asks_storedBounds layout.clock bound).mono fun _ looks => .look looks
  unfold reclaim
  split
  · exact Procedure.asks_pure _
  · refine Procedure.asks_bind (bound .lastHourly) fun head => ?_
    cases head with
    | none => exact Procedure.asks_pure _
    | some head =>
      dsimp only
      split
      · exact Procedure.asks_pure _
      · refine Procedure.asks_bind ?_ fun oldest => ?_
        · cases granularity with
          | hourly => exact bound .firstHourly
          | daily => exact bound .firstDaily
        · cases oldest with
          | none => exact Procedure.asks_pure _
          | some oldest =>
            refine (BucketLayout.asks_reclaimFrom _ _ _ _ _).mono fun call expires => ?_
            cases expires with
            | drop epoch => exact .drop epoch

theorem asks_foldHourly : (ofStore layout retention).foldHourly.Asks layout.Issues :=
  BucketLayout.asks_foldHours.mono fun _ folds => .fold folds

theorem asks_runPass : (ofStore layout retention).runPass.Asks layout.Issues := by
  refine Procedure.asks_bind ?_ fun _ => Procedure.asks_bind ?_ fun _ =>
    Procedure.asks_bind ?_ fun _ => Procedure.asks_bind ?_ fun _ => Procedure.asks_pure _
  · exact ((asks_refreshWindow layout.clock).mono fun _ refreshes => .refresh refreshes).inStep _
  · exact (BucketLayout.asks_foldDays.mono fun _ folds => .fold folds).inStep _
  · exact ((asks_reclaim .hourly).mono fun _ reclaims => .reclaim reclaims).inStep _
  · exact ((asks_reclaim .daily).mono fun _ reclaims => .reclaim reclaims).inStep _

end Coordinator

/-! ### What the calls leave alone -/

/-- Two states of the tables have the same hours and the same hourly partitions. -/
def Tables.SameHours (tables other : Tables) : Prop :=
  other.hourly = tables.hourly ∧
    ∀ range, .hourly range ∈ other.catalogue ↔ .hourly range ∈ tables.catalogue

namespace Tables.SameHours

variable {tables other third : Tables}

theorem refl (tables : Tables) : tables.SameHours tables := ⟨rfl, fun _ => Iff.rfl⟩

theorem symm (same : tables.SameHours other) : other.SameHours tables :=
  ⟨same.1.symm, fun range => (same.2 range).symm⟩

theorem trans (first : tables.SameHours other) (second : other.SameHours third) :
    tables.SameHours third :=
  ⟨second.1.trans first.1, fun range => (second.2 range).trans (first.2 range)⟩

end Tables.SameHours

/-- Two states of the tables have the same days and the same daily partitions. -/
def Tables.SameDays (tables other : Tables) : Prop :=
  other.daily = tables.daily ∧
    ∀ range days, .daily range days ∈ other.catalogue ↔ .daily range days ∈ tables.catalogue

namespace Tables

/-- Partitions of the other granularity stay in the catalogue when a partition is ensured. -/
theorem mem_catalogue_ensure_of_ne {tables : Tables} {layout : BucketLayout}
    {granularity : Granularity} {epoch : Nat} {partition : Partition}
    (apart : partition.granularity ≠ granularity) :
    partition ∈ (tables.ensure (layout.partitionAt granularity epoch)).catalogue ↔
      partition ∈ tables.catalogue := by
  rw [mem_catalogue_ensure]
  refine or_iff_left fun new => apart ?_
  rw [new.1, layout.granularity_partitionAt]

/-- Partitions of the other granularity stay in the catalogue when a partition is dropped. -/
theorem mem_catalogue_drop_of_ne {tables : Tables} {layout : BucketLayout}
    {granularity : Granularity} {epoch : Nat} {partition : Partition}
    (apart : partition.granularity ≠ granularity) :
    partition ∈ (tables.drop (layout.partitionAt granularity epoch)).catalogue ↔
      partition ∈ tables.catalogue := by
  rw [mem_catalogue_drop]
  refine and_iff_left fun same => apart ?_
  rw [Partition.granularity_eq_of_name same, layout.granularity_partitionAt]

theorem sameHours_ensure (tables : Tables) (layout : BucketLayout) (epoch : Nat) :
    tables.SameHours (tables.ensure (layout.partitionAt .daily epoch)) :=
  ⟨hourly_ensure _ _, fun _ => mem_catalogue_ensure_of_ne nofun⟩

theorem sameDays_ensure (tables : Tables) (layout : BucketLayout) (epoch : Nat) :
    tables.SameDays (tables.ensure (layout.partitionAt .hourly epoch)) :=
  ⟨daily_ensure _ _, fun _ _ => mem_catalogue_ensure_of_ne nofun⟩

theorem sameHours_drop (tables : Tables) (layout : BucketLayout) (epoch : Nat) :
    tables.SameHours (tables.drop (layout.partitionAt .daily epoch)) :=
  ⟨rfl, fun _ => mem_catalogue_drop_of_ne nofun⟩

theorem sameDays_drop (tables : Tables) (layout : BucketLayout) (epoch : Nat) :
    tables.SameDays (tables.drop (layout.partitionAt .hourly epoch)) :=
  ⟨rfl, fun _ _ => mem_catalogue_drop_of_ne nofun⟩

end Tables

namespace Given

variable {layout : BucketLayout} {tables after : Tables} {call : StoreCall} {answer : call.Answer}

theorem epochs_of_issues (issues : layout.Issues call) (given : Given tables call answer after) :
    after.epochs = tables.epochs := by
  cases issues with
  | refresh refreshes =>
    obtain ⟨rolling, rfl⟩ := given.of_refreshes refreshes
    rfl
  | @fold granularity folds =>
    cases folds with
    | look looks => rw [given.of_looks looks]
    | ensure epoch => rw [given.ensurePartition.2, Tables.epochs_ensure]
    | fold epoch =>
      cases granularity with
      | hourly =>
        rcases given.foldHour with ⟨-, -, rfl⟩ | ⟨last, rows, -, -, -, -, -, rfl⟩ <;> rfl
      | daily =>
        rcases given.foldDay with ⟨-, -, rfl⟩ | ⟨first, last, rows, -, -, -, -, -, -, rfl⟩ <;> rfl
  | reclaim reclaims =>
    cases reclaims with
    | look looks => rw [given.of_looks looks]
    | drop epoch => rw [given.dropPartition.2, Tables.epochs_drop]

theorem sameHours_of_refreshes (refreshes : call.Refreshes)
    (given : Given tables call answer after) : tables.SameHours after := by
  obtain ⟨rolling, rfl⟩ := given.of_refreshes refreshes
  exact ⟨rfl, fun _ => Iff.rfl⟩

theorem sameHours_of_folds (folds : layout.Folds .daily call)
    (given : Given tables call answer after) : tables.SameHours after := by
  cases folds with
  | look looks =>
    rw [given.of_looks looks]
    exact ⟨rfl, fun _ => Iff.rfl⟩
  | ensure epoch =>
    rw [given.ensurePartition.2]
    exact tables.sameHours_ensure layout epoch
  | fold epoch =>
    rcases given.foldDay with ⟨-, -, rfl⟩ | ⟨first, last, rows, -, -, -, -, -, -, rfl⟩ <;>
      exact ⟨rfl, fun _ => Iff.rfl⟩

theorem sameHours_of_reclaims (reclaims : layout.Reclaims .daily call)
    (given : Given tables call answer after) : tables.SameHours after := by
  cases reclaims with
  | look looks =>
    rw [given.of_looks looks]
    exact ⟨rfl, fun _ => Iff.rfl⟩
  | drop epoch =>
    rw [given.dropPartition.2]
    exact tables.sameHours_drop layout epoch

theorem sameDays_of_refreshes (refreshes : call.Refreshes)
    (given : Given tables call answer after) : tables.SameDays after := by
  obtain ⟨rolling, rfl⟩ := given.of_refreshes refreshes
  exact ⟨rfl, fun _ _ => Iff.rfl⟩

end Given

/-- What arrivals do not disturb and every call of the engine keeps, runs keep. -/
theorem Runs.invariant {regime : Regime} {holds : Chronicle → Prop} (stable : regime.Stable holds)
    (kept : ∀ call, regime.layout.Issues call → ∀ log answer after, holds log →
      Given log.now call answer after → holds (log.record after))
    {log final : Chronicle} (runs : Runs regime log final) (held : holds log) : holds final :=
  runs.keeps stable (fun _ _ => Coordinator.asks_foldHourly.keeps stable kept)
    (fun _ _ => Coordinator.asks_runPass.keeps stable kept) held

end EpochRollup
