/-
This file runs ticks. A tick folds new epochs into hours and then runs a pass. A fold
that fails is counted and the pass still runs: its steps only read hours that are
stored already. An abort ends the tick at once.
-/

import EpochRollup.Monitor.Counter

namespace EpochRollup

/-- What became of a tick that was not aborted. -/
structure TickOutcome where
  /-- What it added to the counters. -/
  tally : Tally
  /-- The report or the error of its pass. -/
  result : Except RollupError PassReport

namespace Coordinator

variable (coordinator : Coordinator)

/-- Runs the pass of a tick whose fold added to the counters. -/
def tickPass (folded : Tally) :
    Dialogue StoreCall StoreCall.Reply (Except Abort TickOutcome) := do
  match ← coordinator.runPass.run with
  | .ok report => return .ok ⟨folded ++ report.tally, .ok report⟩
  | .error (.error error) => return .ok ⟨folded ++ passFailureTally error.step?, .error error⟩
  | .error (.abort cause) => return .error cause

/-- Runs one tick. -/
def tick : Dialogue StoreCall StoreCall.Reply (Except Abort TickOutcome) := do
  match ← coordinator.foldHourly.run with
  | .ok report => coordinator.tickPass report.tally
  | .error (.error _) => coordinator.tickPass foldFailureTally
  | .error (.abort cause) => return .error cause

end Coordinator

end EpochRollup
