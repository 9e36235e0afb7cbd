/-
This file refreshes the rolling table, the fold of the hours of the last day. It is
computed from scratch and replaced as a whole.
-/

import EpochRollup.Pass.Bounds

namespace EpochRollup

/-- What a refresh did. -/
structure WindowReport where
  /-- The window covered, or none when there are no hours. -/
  window : Option EpochRange
  /-- Rows in the new snapshot. -/
  rowsWritten : Nat
deriving DecidableEq, Repr

/-- Replaces the rolling table by the fold of the hours between the oldest one of the last
day and the hourly head, or empties it when there are no hours. -/
def refreshWindow (bounds : BoundsService) : Procedure WindowReport := do
  match ← bounds .lastHourly with
  | none =>
    Procedure.ask "clear_rolling" .clearRolling
    return ⟨none, 0⟩
  | some head =>
    let start := (← bounds .dayOldHourly).getD head.start
    let window : EpochRange := ⟨start, head.stop⟩
    let rows ← Procedure.askFor "replace_rolling" window (.replaceRolling start head.start)
    return ⟨some window, rows⟩

end EpochRollup
