/-
This file holds half-open ranges of epochs, the shape of every bucket, partition
and window of the engine. A range is a pair of words and may be written with its
ends in any order; then it is empty.
-/

namespace EpochRollup

/-- Half-open epoch range: `start` belongs to it and `stop` does not. -/
structure EpochRange where
  /-- First epoch of the range. -/
  start : Nat
  /-- First epoch past the range. -/
  stop : Nat
deriving DecidableEq, Repr

namespace EpochRange

/-- Number of epochs in a range. -/
def length (range : EpochRange) : Nat := range.stop - range.start

/-- A range with no epochs. -/
def isEmpty (range : EpochRange) : Bool := range.stop ≤ range.start

/-- An epoch lies in a range. -/
def contains (range : EpochRange) (epoch : Nat) : Bool :=
  range.start ≤ epoch && epoch < range.stop

/-- A range in interval notation. -/
def text (range : EpochRange) : String :=
  "[" ++ toString range.start ++ ", " ++ toString range.stop ++ ")"

theorem contains_iff (range : EpochRange) (epoch : Nat) :
    range.contains epoch = true ↔ range.start ≤ epoch ∧ epoch < range.stop := by
  simp [contains]

end EpochRange

end EpochRollup
