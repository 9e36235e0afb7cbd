/-
This file fixes the machine words the engine computes with. Epochs, widths and
counters are natural numbers below `2 ^ 64`; stored epochs are signed and stay
below `2 ^ 63`. Values are plain `Nat` and `Int`, so that the arithmetic on them
is the ordinary one, and an operation whose exact result leaves the word is not
wrapped: it aborts the computation and names the operation that left the range.
-/

namespace EpochRollup

/-- One past the largest unsigned word. -/
def wordLimit : Nat := UInt64.size

/-- One past the largest stored integer. -/
def storedLimit : Nat := 0x8000000000000000

/-- A stored integer is a signed word. -/
def IsStored (value : Int) : Prop := -(storedLimit : Int) ≤ value ∧ value < storedLimit

instance (value : Int) : Decidable (IsStored value) :=
  inferInstanceAs (Decidable (_ ∧ _))

/-- Why a computation was aborted without an answer. An abort is not an error that a
caller handles: it ends the whole operation that ran into it. -/
inductive Abort where
  /-- A sum left the word. -/
  | add
  /-- A product left the word. -/
  | multiply
  /-- A local time has no counterpart in UTC between the years -9999 and 9999. -/
  | localTime
deriving DecidableEq, Repr

/-- The text of an abort. -/
def Abort.message : Abort → String
  | .add => "attempt to add with overflow"
  | .multiply => "attempt to multiply with overflow"
  | .localTime => "local datetime out of valid range"

namespace Word

/-- The sum of two words, when it is a word. -/
def add (left right : Nat) : Except Abort Nat :=
  if left + right < wordLimit then .ok (left + right) else .error .add

/-- The product of two words, when it is a word. -/
def multiply (left right : Nat) : Except Abort Nat :=
  if left * right < wordLimit then .ok (left * right) else .error .multiply

theorem add_eq_ok_iff {left right total : Nat} :
    add left right = .ok total ↔ left + right < wordLimit ∧ total = left + right := by
  unfold add
  split
  · simp_all [eq_comm]
  · simp_all only [Nat.not_lt, reduceCtorEq, false_iff, not_and]
    omega

theorem multiply_eq_ok_iff {left right total : Nat} :
    multiply left right = .ok total ↔ left * right < wordLimit ∧ total = left * right := by
  unfold multiply
  split
  · simp_all [eq_comm]
  · simp_all only [Nat.not_lt, reduceCtorEq, false_iff, not_and]
    omega

end Word

end EpochRollup
