/-
This file says how the engine meets a call that fails. `Breaks` is a dialogue whose calls are
answered up to one that fails; what is then left of the dialogue is part of the statement. Every
engine operation halts: whatever call it is, nothing is left but an error, so no later call is
made. A step of a pass puts its name on that error.

What procedures keep is stated for runs, where any call may fail. Calls that are answered, and
calls that are answered up to one, are such runs, so no rule about tables is needed here.
-/

import EpochRollup.Proofs.Pass

namespace EpochRollup

/-! ### Answered and failed calls -/

section

variable {Result Next : Type} {call : StoreCall} {error : StoreError} {left : Tables}

/-- Every call of a dialogue is answered, and it comes to its result. -/
inductive Answered : Dialogue StoreCall StoreCall.Reply Result → Tables → Result → Tables →
    Prop where
  /-- The result is there. -/
  | done (result : Result) (tables : Tables) : Answered (.done result) tables result tables
  /-- A call is answered. -/
  | ask {call : StoreCall} {resume : call.Reply → Dialogue StoreCall StoreCall.Reply Result}
      {tables between after : Tables} {answer : call.Answer} {result : Result}
      (given : Given tables call answer between)
      (rest : Answered (resume (.ok answer)) between result after) :
      Answered (.ask call resume) tables result after

/-- The calls of a dialogue are answered up to one that fails, and then something is left of
the dialogue. -/
inductive Breaks (call : StoreCall) (error : StoreError) (left : Tables)
    (rest : Dialogue StoreCall StoreCall.Reply Result) :
    Dialogue StoreCall StoreCall.Reply Result → Tables → Prop where
  /-- The call fails. -/
  | here {resume : call.Reply → Dialogue StoreCall StoreCall.Reply Result}
      (next : resume (.error error) = rest) : Breaks call error left rest (.ask call resume) left
  /-- Another call is answered first. -/
  | later {other : StoreCall}
      {resume : other.Reply → Dialogue StoreCall StoreCall.Reply Result}
      {tables between : Tables} {answer : other.Answer} (given : Given tables other answer between)
      (breaks : Breaks call error left rest (resume (.ok answer)) between) :
      Breaks call error left rest (.ask other resume) tables

/-- A failed call belongs to a dialogue or to what follows it. -/
theorem Breaks.of_bind {dialogue : Dialogue StoreCall StoreCall.Reply Result}
    {next : Result → Dialogue StoreCall StoreCall.Reply Next}
    {rest : Dialogue StoreCall StoreCall.Reply Next} {tables : Tables}
    (breaks : Breaks call error left rest (dialogue.bind next) tables) :
    (∃ inner, Breaks call error left inner dialogue tables ∧ rest = inner.bind next) ∨
      ∃ result between, Answered dialogue tables result between ∧
        Breaks call error left rest (next result) between := by
  induction dialogue generalizing tables with
  | done result => exact Or.inr ⟨result, tables, .done result tables, breaks⟩
  | ask other resume inductionHypothesis =>
    cases breaks with
    | here next => exact Or.inl ⟨_, .here rfl, next.symm⟩
    | later given breaks =>
      rcases inductionHypothesis _ breaks with ⟨inner, within, same⟩ | ⟨result, between, answered,
        after⟩
      · exact Or.inl ⟨inner, .later given within, same⟩
      · exact Or.inr ⟨result, between, .ask given answered, after⟩

theorem Answered.of_bind {dialogue : Dialogue StoreCall StoreCall.Reply Result}
    {next : Result → Dialogue StoreCall StoreCall.Reply Next} {result : Next}
    {tables after : Tables} (answered : Answered (dialogue.bind next) tables result after) :
    ∃ first between, Answered dialogue tables first between ∧
      Answered (next first) between result after := by
  induction dialogue generalizing tables with
  | done first => exact ⟨first, tables, .done first tables, answered⟩
  | ask call resume inductionHypothesis =>
    cases answered with
    | ask given rest =>
      obtain ⟨first, between, begun, ended⟩ := inductionHypothesis _ rest
      exact ⟨first, between, .ask given begun, ended⟩

/-- Calls that are answered are a run. -/
theorem Answered.performs {regime : Regime}
    {dialogue : Dialogue StoreCall StoreCall.Reply Result} {result : Result} {log : Chronicle}
    {tables after : Tables} (answered : Answered dialogue tables result after)
    (now : log.now = tables) :
    ∃ final, Performs regime dialogue log result final ∧ final.now = after := by
  induction answered generalizing log with
  | done result tables => exact ⟨log, .done result log, now⟩
  | ask given _ inductionHypothesis =>
    subst now
    obtain ⟨final, performs, same⟩ := inductionHypothesis (log.now_record _)
    exact ⟨final, .answered .none given performs, same⟩

/-- So are calls that are answered up to one, when nothing is asked after it. -/
theorem Breaks.performs {regime : Regime} {result : Result} {log : Chronicle} {tables : Tables}
    {dialogue : Dialogue StoreCall StoreCall.Reply Result}
    (breaks : Breaks call error left (.done result) dialogue tables) (now : log.now = tables) :
    ∃ final, Performs regime dialogue log result final ∧ final.now = left := by
  induction breaks generalizing log with
  | here next =>
    refine ⟨log, .failed error .none ?_, now⟩
    rw [next]
    exact .done result log
  | later given _ inductionHypothesis =>
    subst now
    obtain ⟨final, performs, same⟩ := inductionHypothesis (log.now_record _)
    exact ⟨final, .answered .none given performs, same⟩

end

/-! ### Calls that a store fails -/

/-- The first call of a dialogue that a store fails, with its error and the store then. -/
def Dialogue.firstFailure {Result : Type} :
    Dialogue StoreCall StoreCall.Reply Result → EmbeddedStore →
      Option (StoreCall × StoreError × EmbeddedStore)
  | .done _, _ => none
  | .ask call resume, store =>
    match store.answer call with
    | (.ok answer, after) => (resume (.ok answer)).firstFailure after
    | (.error error, left) => some (call, error, left)

/-- The calls before it are answered, and the store goes on with what is left of the dialogue. -/
theorem Breaks.of_firstFailure {Result : Type} {call : StoreCall} {error : StoreError}
    {store left : EmbeddedStore} {dialogue : Dialogue StoreCall StoreCall.Reply Result}
    (failed : dialogue.firstFailure store = some (call, error, left)) :
    ∃ rest, Breaks call error left.tables rest dialogue store.tables ∧
      rest.run EmbeddedStore.answer left = dialogue.run EmbeddedStore.answer store := by
  induction dialogue generalizing store with
  | done result => cases failed
  | ask other resume inductionHypothesis =>
    have unfolded : (Dialogue.ask other resume).run EmbeddedStore.answer store =
        (resume (store.answer other).1).run EmbeddedStore.answer (store.answer other).2 := rfl
    rw [unfolded]
    rw [Dialogue.firstFailure] at failed
    rcases store.answer_cases other with ⟨answer, replied, given⟩ | ⟨cause, refused⟩
    · have reply : store.answer other = (.ok answer, (store.answer other).2) :=
        Prod.ext replied rfl
      rw [reply] at failed ⊢
      obtain ⟨rest, breaks, same⟩ := inductionHypothesis _ failed
      exact ⟨rest, .later given breaks, same⟩
    · rw [refused] at failed ⊢
      cases failed
      exact ⟨_, .here rfl, rfl⟩

/-! ### Operations that halt -/

/-- Where a call fails, a dialogue ends at once and reports an error. -/
def Dialogue.Halts {Result : Type} :
    Dialogue StoreCall StoreCall.Reply (Except Failure Result) → Prop
  | .done _ => True
  | .ask _ resume => (∀ error, ∃ cause, resume (.error error) = .done (.error (.error cause))) ∧
      ∀ answer, (resume (.ok answer)).Halts

theorem Breaks.eq_error {Result : Type} {call : StoreCall} {error : StoreError}
    {left tables : Tables} {rest dialogue : Dialogue StoreCall StoreCall.Reply
      (Except Failure Result)} (breaks : Breaks call error left rest dialogue tables)
    (halts : dialogue.Halts) : ∃ cause, rest = .done (.error (.error cause)) := by
  induction breaks with
  | here next =>
    obtain ⟨cause, same⟩ := halts.1 error
    exact ⟨cause, next.symm.trans same⟩
  | later given _ inductionHypothesis => exact inductionHypothesis (halts.2 _)

namespace Procedure

variable {First Result : Type}

/-- A procedure whose dialogue halts. -/
def Halts (procedure : Procedure Result) : Prop := procedure.run.Halts

theorem halts_pure (result : Result) : (pure result : Procedure Result).Halts := trivial

theorem halts_bind {procedure : Procedure First} {next : First → Procedure Result}
    (first : procedure.Halts) (rest : ∀ result, (next result).Halts) :
    (procedure >>= next).Halts := by
  have general (dialogue : Dialogue StoreCall StoreCall.Reply (Except Failure First))
      (halts : dialogue.Halts) :
      (Dialogue.bind dialogue (ExceptT.bindCont next)).Halts := by
    induction dialogue with
    | done outcome =>
      cases outcome with
      | ok result => exact rest result
      | error failure => trivial
    | ask call resume inductionHypothesis =>
      refine ⟨fun error => ?_, fun answer => inductionHypothesis _ (halts.2 answer)⟩
      obtain ⟨cause, same⟩ := halts.1 error
      refine ⟨cause, ?_⟩
      show (resume (.error error)).bind _ = _
      rw [same]
      rfl
  exact general procedure.run first

theorem halts_settle {call : StoreCall} {blame : StoreError → RollupError} :
    Halts (ExceptT.mk do return settle blame (← Dialogue.call call)) :=
  ⟨fun error => ⟨blame error, rfl⟩, fun _ => trivial⟩

theorem halts_ask {operation : String} {call : StoreCall} : (ask operation call).Halts :=
  halts_settle

theorem halts_askFor {operation : String} {range : EpochRange} {call : StoreCall} :
    (askFor operation range call).Halts := halts_settle

theorem halts_compute (computed : Except Abort Result) : (compute computed).Halts := by
  cases computed <;> trivial

theorem halts_inStep {procedure : Procedure Result} (halts : procedure.Halts) (step : PassStep) :
    (procedure.inStep step).Halts := by
  unfold Halts at halts
  show Dialogue.Halts (procedure.run.bind _)
  generalize procedure.run = dialogue at halts ⊢
  induction dialogue with
  | done outcome => cases outcome <;> trivial
  | ask call resume inductionHypothesis =>
    refine ⟨fun error => ?_, fun answer => inductionHypothesis _ (halts.2 answer)⟩
    obtain ⟨cause, same⟩ := halts.1 error
    refine ⟨.step step cause, ?_⟩
    show (resume (.error error)).bind _ = _
    rw [same]
    rfl

end Procedure

open Procedure

theorem halts_storedBounds (clock : ChainClock) (bound : Bound) :
    (storedBounds clock bound).Halts := by
  cases bound with
  | dayOldHourly =>
    refine halts_bind halts_ask fun head => ?_
    cases head with
    | none => exact halts_pure _
    | some head => exact halts_ask
  | _ => exact halts_ask

theorem halts_refreshWindow (clock : ChainClock) : (refreshWindow (storedBounds clock)).Halts := by
  refine halts_bind (halts_storedBounds clock _) fun head => ?_
  cases head with
  | none => exact halts_bind halts_ask fun _ => halts_pure _
  | some head =>
    exact halts_bind (halts_storedBounds clock _) fun _ =>
      halts_bind halts_askFor fun _ => halts_pure _

namespace BucketLayout

variable {layout : BucketLayout} {granularity : Granularity}

theorem halts_ensurePartitionFor {epoch : Nat} :
    (layout.ensurePartitionFor granularity epoch).Halts :=
  halts_bind (halts_compute _) fun _ => halts_bind halts_askFor fun _ => halts_pure _

theorem halts_aggregate (bucket : EpochRange) : (layout.aggregate granularity bucket).Halts := by
  refine halts_bind halts_ensurePartitionFor fun _ => ?_
  cases granularity <;> exact halts_bind halts_askFor fun _ => halts_pure _

theorem halts_foldBuckets (latest : Option EpochRange) (remaining candidate : Nat)
    (report : FoldReport) :
    (layout.foldBuckets granularity latest remaining candidate report).Halts := by
  induction remaining generalizing candidate report with
  | zero => exact halts_pure _
  | succ remaining inductionHypothesis =>
    refine halts_bind (halts_compute _) fun bucket => halts_bind (halts_compute _) fun _ => ?_
    split
    · exact inductionHypothesis _ _
    · exact halts_bind (halts_aggregate bucket) fun _ =>
        halts_bind (halts_compute _) fun _ => inductionHypothesis _ _

theorem halts_foldDays : (layout.foldDays (storedBounds layout.clock)).Halts := by
  refine halts_bind (halts_storedBounds _ _) fun head => ?_
  cases head with
  | none => exact halts_pure _
  | some head =>
    exact halts_bind (halts_storedBounds _ _) fun _ =>
      halts_bind (halts_compute _) fun _ => halts_foldBuckets _ _ _ _

theorem halts_reclaimAt (boundary candidate : Nat) (met : List EpochRange) (dropped : Nat) :
    (layout.reclaimAt granularity boundary candidate met dropped).Halts := by
  refine halts_bind (halts_compute _) fun partition => ?_
  split
  · refine halts_bind halts_askFor fun existed => ?_
    cases existed <;> exact halts_pure _
  · exact halts_pure _

theorem halts_reclaimFrom (boundary oldest candidate : Nat) (met : List EpochRange)
    (dropped : Nat) :
    (layout.reclaimFrom granularity boundary oldest candidate met dropped).Halts := by
  induction candidate using Nat.strongRecOn generalizing met dropped with
  | ind candidate inductionHypothesis =>
    rw [reclaimFrom]
    refine halts_bind (halts_reclaimAt _ _ _ _) fun pair => ?_
    dsimp only
    split
    · exact halts_pure _
    · have positive := layout.width_pos granularity
      exact inductionHypothesis _ (by omega) _ _

end BucketLayout

theorem Coordinator.halts_reclaim {layout : BucketLayout} {retention : RetentionPolicy}
    (granularity : Granularity) : ((ofStore layout retention).reclaim granularity).Halts := by
  have bound (bound : Bound) : (storedBounds layout.clock bound).Halts :=
    halts_storedBounds layout.clock bound
  unfold reclaim
  split
  · exact halts_pure _
  · refine halts_bind (bound .lastHourly) fun head => ?_
    cases head with
    | none => exact halts_pure _
    | some head =>
      dsimp only
      split
      · exact halts_pure _
      · have oldest : ((ofStore layout retention).oldest granularity).Halts := by
          cases granularity with
          | hourly => exact bound .firstHourly
          | daily => exact bound .firstDaily
        refine halts_bind oldest fun oldest => ?_
        cases oldest with
        | none => exact halts_pure _
        | some oldest => exact BucketLayout.halts_reclaimFrom _ _ _ _ _

theorem Coordinator.halts_runPass {layout : BucketLayout} {retention : RetentionPolicy} :
    (ofStore layout retention).runPass.Halts :=
  halts_bind (halts_inStep (halts_refreshWindow _) _) fun _ =>
    halts_bind (halts_inStep BucketLayout.halts_foldDays _) fun _ =>
      halts_bind (halts_inStep (halts_reclaim _) _) fun _ =>
        halts_bind (halts_inStep (halts_reclaim _) _) fun _ => halts_pure _

/-! ### The step of a failed call -/

section

variable {call : StoreCall} {error : StoreError} {left : Tables}

/-- A call fails in a procedure, which reports this error then. -/
def Procedure.FailsAt {Result : Type} (procedure : Procedure Result) (tables : Tables)
    (call : StoreCall) (error : StoreError) (left : Tables) (cause : RollupError) : Prop :=
  Breaks call error left (.done (.error (.error cause))) procedure.run tables

/-- A procedure comes back with a result. -/
def Procedure.Returns {Result : Type} (procedure : Procedure Result) (tables : Tables)
    (result : Result) (after : Tables) : Prop :=
  Answered procedure.run tables (.ok result) after

/-- A failed call belongs to a step, which is named in the error and the last thing that is done,
or to what follows the step. -/
theorem Procedure.breaks_inStep_bind {First Result : Type} {first : Procedure First}
    {next : First → Procedure Result} {step : PassStep} {tables : Tables}
    {rest : Dialogue StoreCall StoreCall.Reply (Except Failure Result)} (halts : first.Halts)
    (breaks : Breaks call error left rest (first.inStep step >>= next).run tables) :
    (∃ cause, first.FailsAt tables call error left cause ∧
        rest = .done (.error (.error (.step step cause)))) ∨
      ∃ result between, first.Returns tables result between ∧
        Breaks call error left rest (next result).run between := by
  rcases Breaks.of_bind breaks with ⟨inner, within, same⟩ | ⟨outcome, between, answered, after⟩
  · rcases Breaks.of_bind within with ⟨deeper, inside, sameInner⟩ | ⟨_, _, _, after⟩
    · obtain ⟨cause, ended⟩ := inside.eq_error halts
      rw [ended] at inside sameInner
      rw [sameInner] at same
      exact Or.inl ⟨cause, inside, same⟩
    · -- Nothing is asked after the step has its outcome.
      split at after <;> cases after
  · obtain ⟨inner, middle, performed, ended⟩ := answered.of_bind
    cases inner with
    | ok result =>
      cases ended
      exact Or.inr ⟨result, _, performed, after⟩
    | error failure =>
      cases ended
      cases after

end

/-! ### Taking procedures apart -/

namespace Procedure

section

variable {First Result : Type} {procedure : Procedure First} {next : First → Procedure Result}
  {call asked : StoreCall} {error : StoreError} {cause : RollupError} {tables after left : Tables}
  {result : Result} {operation : String} {range : EpochRange}

theorem returns_bind (returns : (procedure >>= next).Returns tables result after) :
    ∃ first between, procedure.Returns tables first between ∧
      (next first).Returns between result after := by
  obtain ⟨outcome, between, begun, ended⟩ := Answered.of_bind returns
  cases outcome with
  | ok first => exact ⟨first, between, begun, ended⟩
  | error failure => cases ended

theorem returns_inStep {step : PassStep} {first : First}
    (returns : (procedure.inStep step).Returns tables first after) :
    procedure.Returns tables first after := by
  obtain ⟨outcome, between, begun, ended⟩ := Answered.of_bind returns
  cases outcome with
  | ok result =>
    cases ended
    exact begun
  | error failure => cases ended

theorem returns_pure {value : Result}
    (returns : (pure value : Procedure Result).Returns tables result after) :
    result = value ∧ after = tables := by
  cases returns
  exact ⟨rfl, rfl⟩

theorem returns_compute_bind {computed : Except Abort First}
    (returns : (compute computed >>= next).Returns tables result after) :
    ∃ first, computed = .ok first ∧ (next first).Returns tables result after := by
  cases computed with
  | ok first => exact ⟨first, rfl, returns⟩
  | error abort => cases returns

theorem returns_settle {blame : StoreError → RollupError} {answer : asked.Answer}
    (returns : Returns (ExceptT.mk do return settle blame (← Dialogue.call asked)) tables answer
      after) : Given tables asked answer after := by
  cases returns with
  | ask given rest =>
    cases rest
    exact given

theorem failsAt_bind (halts : procedure.Halts)
    (fails : (procedure >>= next).FailsAt tables call error left cause) :
    (∃ inner, procedure.FailsAt tables call error left inner) ∨
      ∃ first between, procedure.Returns tables first between ∧
        (next first).FailsAt between call error left cause := by
  rcases Breaks.of_bind fails with ⟨inner, within, -⟩ | ⟨outcome, between, begun, ended⟩
  · obtain ⟨inner, rfl⟩ := within.eq_error halts
    exact Or.inl ⟨inner, within⟩
  · cases outcome with
    | ok first => exact Or.inr ⟨first, between, begun, ended⟩
    | error failure => cases ended

theorem failsAt_compute_bind {computed : Except Abort First}
    (fails : (compute computed >>= next).FailsAt tables call error left cause) :
    ∃ first, computed = .ok first ∧ (next first).FailsAt tables call error left cause := by
  cases computed with
  | ok first => exact ⟨first, rfl, fails⟩
  | error abort => cases fails

theorem failsAt_settle {blame : StoreError → RollupError}
    (fails : FailsAt (ExceptT.mk do return settle blame (← Dialogue.call asked)) tables call error
      left cause) : call = asked ∧ left = tables := by
  cases fails with
  | here next => exact ⟨rfl, rfl⟩
  | later given breaks => cases breaks

end

end Procedure

/-- An operation that comes back while no rows arrive has had all its calls answered. -/
theorem Procedure.Ends.returns {Result : Type} {procedure : Procedure Result} {regime : Regime}
    {log final : Chronicle} {result : Result}
    (ends : procedure.Ends regime.quiet log (.ok result) final) (halts : procedure.Halts) :
    procedure.Returns log.now result final.now := by
  unfold Returns
  unfold Ends at ends
  unfold Halts at halts
  generalize outcomeIs : Except.ok result = outcome at ends ⊢
  generalize procedure.run = dialogue at ends halts ⊢
  induction ends with
  | done outcome log => exact .done outcome log.now
  | @answered call resume log before final answer after outcome supplied given rest
      inductionHypothesis =>
    have still : before = log := by
      cases supplied with
      | none => rfl
      | more earlier allowed => exact allowed.elim
    have rest := inductionHypothesis outcomeIs (halts.2 answer)
    rw [still] at given
    rw [Chronicle.now_record] at rest
    exact .ask given rest
  | failed error supplied rest =>
    obtain ⟨cause, same⟩ := halts.1 error
    rw [same] at rest
    cases rest
    cases outcomeIs

/-! ### What is kept up to a failed call -/

namespace Procedure

variable {Result : Type} {regime : Regime} {procedure : Procedure Result}
  {always : Chronicle → Prop} {after : Result → Chronicle → Prop} {tables left : Tables}

/-- What a procedure keeps holds where a failed call leaves it. -/
theorem Keeps.of_failsAt
    (keeps : procedure.Keeps regime always (fun log => log.now = tables) after)
    {call : StoreCall} {error : StoreError} {cause : RollupError}
    (fails : procedure.FailsAt tables call error left cause) :
    ∃ final : Chronicle, final.now = left ∧ always final := by
  have now : (⟨tables, []⟩ : Chronicle).now = tables := rfl
  obtain ⟨final, performs, same⟩ := fails.performs now
  exact ⟨final, same, keeps now performs⟩

/-- And where it comes back. -/
theorem Keeps.of_returns_of {before : Chronicle → Prop}
    (keeps : procedure.Keeps regime always before after)
    (begun : ∀ log : Chronicle, log.now = tables → before log) {result : Result}
    (returns : procedure.Returns tables result left) :
    ∃ final : Chronicle, final.now = left ∧ after result final := by
  have now : (⟨tables, []⟩ : Chronicle).now = tables := rfl
  obtain ⟨final, performs, same⟩ := returns.performs now
  exact ⟨final, same, keeps (begun _ now) performs⟩

theorem Keeps.of_returns
    (keeps : procedure.Keeps regime always (fun log => log.now = tables) after)
    {result : Result} (returns : procedure.Returns tables result left) :
    ∃ final : Chronicle, final.now = left ∧ after result final :=
  keeps.of_returns_of (fun _ => id) returns

end Procedure

end EpochRollup
