/-
This file holds computations that ask for what they need. A dialogue either has its
result or makes one call and goes on with the answer, whatever it is. The party that
answers is no part of it: the same dialogue runs against a table store held in
memory, against a server that answers from a script, and against any party that a
statement quantifies over. Between two calls the answering party may change in any
way, so a dialogue says exactly where other work can come in and where a call can
fail.
-/

namespace EpochRollup

/-- A computation that makes calls. -/
inductive Dialogue (Call : Type) (Answer : Call → Type) (Result : Type) where
  /-- The result is there. -/
  | done (result : Result)
  /-- A call is made, and the dialogue goes on with its answer. -/
  | ask (call : Call) (resume : Answer call → Dialogue Call Answer Result)

namespace Dialogue

variable {Call : Type} {Answer : Call → Type} {Result Next : Type}

/-- A dialogue that goes on with the result of another. -/
def bind : Dialogue Call Answer Result → (Result → Dialogue Call Answer Next) →
    Dialogue Call Answer Next
  | .done result, next => next result
  | .ask call resume, next => .ask call fun answer => (resume answer).bind next

instance : Monad (Dialogue Call Answer) where
  pure := .done
  bind := bind

/-- One call, whose answer is the result. -/
def call (question : Call) : Dialogue Call Answer (Answer question) := .ask question .done

/-- The result of a dialogue and what becomes of the party that answers it. -/
def run {Party : Type} (answer : (question : Call) → Party → Answer question × Party) :
    Dialogue Call Answer Result → Party → Result × Party
  | .done result, party => (result, party)
  | .ask question resume, party =>
    let (reply, after) := answer question party
    (resume reply).run answer after

/-- A dialogue with each call replaced by a dialogue that finds its answer. -/
def through {Inner : Type} {InnerAnswer : Inner → Type}
    (rephrase : (question : Call) → Dialogue Inner InnerAnswer (Answer question)) :
    Dialogue Call Answer Result → Dialogue Inner InnerAnswer Result
  | .done result => .done result
  | .ask question resume =>
    (rephrase question).bind fun answer => (resume answer).through rephrase

/-! ### Laws -/

theorem bind_done (dialogue : Dialogue Call Answer Result) : dialogue.bind .done = dialogue := by
  induction dialogue with
  | done result => rfl
  | ask call resume inductionHypothesis =>
    exact congrArg (Dialogue.ask call) (funext inductionHypothesis)

theorem bind_assoc {Last : Type} (dialogue : Dialogue Call Answer Result)
    (next : Result → Dialogue Call Answer Next) (last : Next → Dialogue Call Answer Last) :
    (dialogue.bind next).bind last = dialogue.bind fun result => (next result).bind last := by
  induction dialogue with
  | done result => rfl
  | ask call resume inductionHypothesis =>
    exact congrArg (Dialogue.ask call) (funext inductionHypothesis)

instance : LawfulMonad (Dialogue Call Answer) :=
  LawfulMonad.mk' _ bind_done (fun _ _ => rfl) bind_assoc

/-- Running a dialogue and what follows it is running one after the other. -/
theorem run_bind {Party : Type} (answer : (question : Call) → Party → Answer question × Party)
    (dialogue : Dialogue Call Answer Result) (next : Result → Dialogue Call Answer Next)
    (party : Party) :
    (dialogue.bind next).run answer party =
      (next (dialogue.run answer party).1).run answer (dialogue.run answer party).2 := by
  induction dialogue generalizing party with
  | done result => rfl
  | ask call resume inductionHypothesis =>
    exact inductionHypothesis (answer call party).1 (answer call party).2

end Dialogue

end EpochRollup
