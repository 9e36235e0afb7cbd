/-
This file holds procedures, the operations of the engine. A procedure talks to a
store, one call at a time, and ends with a result or a failure. What it has done in
the store before it fails stays done.
-/

import EpochRollup.Pass.Error
import EpochRollup.Store.Call

namespace EpochRollup

/-- An operation of the engine over any store. -/
abbrev Procedure := ExceptT Failure (Dialogue StoreCall StoreCall.Reply)

namespace Procedure

/-- What a procedure does with the reply to a store call. -/
def settle {Answer : Type} (blame : StoreError → RollupError) :
    Except StoreError Answer → Except Failure Answer
  | .ok answer => .ok answer
  | .error cause => .error (.error (blame cause))

/-- One store call, whose failure is blamed on a named operation. -/
def ask (operation : String) (call : StoreCall) : Procedure call.Answer :=
  ExceptT.mk do return settle (RollupError.store operation) (← Dialogue.call call)

/-- One store call, whose failure is blamed on a named operation on a range of epochs. -/
def askFor (operation : String) (range : EpochRange) (call : StoreCall) :
    Procedure call.Answer :=
  ExceptT.mk do return settle (RollupError.bucket operation range) (← Dialogue.call call)

/-- A computation on words inside a procedure. -/
def compute {Result : Type} : Except Abort Result → Procedure Result
  | .ok result => pure result
  | .error cause => throw (.abort cause)

/-- A procedure that is a step of a pass. -/
def inStep {Result : Type} (step : PassStep) (procedure : Procedure Result) : Procedure Result :=
  ExceptT.mk do
    match ← procedure.run with
    | .ok result => return .ok result
    | .error failure => return .error (failure.inStep step)

/-- The outcome of a procedure and the store after it, for a party that answers store
calls. -/
def runWith {Result Party : Type}
    (answer : (call : StoreCall) → Party → call.Reply × Party) (procedure : Procedure Result)
    (party : Party) : Except Failure Result × Party :=
  Dialogue.run answer procedure.run party

end Procedure

end EpochRollup
