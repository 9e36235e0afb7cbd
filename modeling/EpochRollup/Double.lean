/-
This file holds the double-precision numbers of the two chance columns. A number is
its bits, so that two numbers are equal exactly when they are written alike, and the
arithmetic is the hardware's.

A stored column has no place for a number that is not one, and zero has one sign
there (`Double.stored?`). A stored sum is compensated: beside the running sum it
carries the rounding errors made so far and adds them at the end.
-/

namespace EpochRollup

/-- A double-precision number, told apart by its bits. -/
structure Double where
  /-- Sign, exponent and fraction. -/
  bits : UInt64
deriving DecidableEq, Repr

namespace Double

/-- The number as the hardware computes with it. -/
def toFloat (number : Double) : Float := Float.ofBits number.bits

/-- The bits of a computed number. -/
def ofFloat (value : Float) : Double := ⟨value.toBits⟩

/-- Positive zero. -/
def zero : Double := ⟨0⟩

/-- What the sign bit weighs: the first bit above those of the magnitude. -/
def signWeight : Nat := 0x8000000000000000

/-- The bits of the magnitude: all but the sign. -/
def magnitude (number : Double) : Nat := number.bits.toNat % signWeight

/-- The bits of the magnitude of an infinity. A larger magnitude is not a number. -/
def infinityMagnitude : Nat := 0x7ff0000000000000

/-- The bits are those of no number. -/
def isNaN (number : Double) : Bool := infinityMagnitude < number.magnitude

/-- The bits are those of a number that is neither infinite nor undefined. -/
def isFinite (number : Double) : Bool := number.magnitude < infinityMagnitude

/-- The number a stored column holds: none for what is not a number, and zero without a
sign. -/
def stored? (number : Double) : Option Double :=
  if number.isNaN then none else if number.magnitude = 0 then some zero else some number

/-- The number of a sign and a magnitude. -/
def ofMagnitude (isNegative : Bool) (magnitude : Nat) : Double :=
  ⟨UInt64.ofNat (if isNegative then signWeight + magnitude else magnitude)⟩

/-- An infinity. -/
def infinity (isNegative : Bool) : Double := ofMagnitude isNegative infinityMagnitude

/-- What is written for a value that is not a number. -/
def undefined (isNegative : Bool) : Double := ofMagnitude isNegative 0x7ff8000000000000

/-! ### Rounding -/

/-- The integer nearest to a quotient; of two that are equally near, the even one. -/
def nearestInteger (dividend divisor : Nat) : Nat :=
  let quotient := dividend / divisor
  let doubled := 2 * (dividend % divisor)
  if divisor < doubled ∨ (doubled = divisor ∧ quotient % 2 = 1) then quotient + 1 else quotient

/-- The exponent of the greatest power of two that a quotient of positive numbers reaches. -/
def quotientExponent (dividend divisor : Nat) : Int :=
  let exponent : Int := dividend.log2 - divisor.log2
  let isReached : Bool :=
    if 0 ≤ exponent then decide (divisor <<< exponent.toNat ≤ dividend)
    else decide (divisor ≤ dividend <<< (-exponent).toNat)
  if isReached then exponent else exponent - 1

/-- The magnitude nearest to a quotient of positive numbers. Its last bit is the 53rd one, but
none below the smallest of all, from which the bits are counted. Magnitudes are in the order
of their numbers, so a rounding that carries into the next power of two comes out right, and
so does one that carries into infinity. -/
def nearestMagnitude (dividend divisor : Nat) : Nat :=
  let last := (quotientExponent dividend divisor + 1022).toNat
  if last > 2045 then
    infinityMagnitude
  else if 1074 ≤ last then
    (last <<< 52) + nearestInteger dividend (divisor <<< (last - 1074))
  else
    (last <<< 52) + nearestInteger (dividend <<< (1074 - last)) divisor

/-- The number nearest to some digits times a power of ten. Powers that make it infinite or zero
whatever the digits are set apart, because they are too large to be computed. -/
def ofDecimal (isNegative : Bool) (digits : Nat) (power : Int) : Double :=
  ofMagnitude isNegative <|
    if digits = 0 ∨ power < -(400 + digits.log2) then 0
    else if 400 < power then infinityMagnitude
    else nearestMagnitude (digits * Nat.pow 10 power.toNat) (Nat.pow 10 (-power).toNat)

/-- The bits in sixteen hexadecimal digits. -/
def hex (number : Double) : String :=
  let digits := Nat.toDigits 16 number.bits.toNat
  String.ofList (List.replicate (16 - digits.length) '0' ++ digits)

/-! ### Compensated sums -/

/-- A running sum and the rounding error it has left behind. -/
structure Compensated where
  /-- The running sum. -/
  sum : Float
  /-- The rounding errors made so far. -/
  lost : Float

/-- One more term. The error of the addition is recovered from the larger operand. -/
def Compensated.add (running : Compensated) (term : Float) : Compensated :=
  let total := running.sum + term
  let error :=
    if running.sum.abs > term.abs then
      (running.sum - total) + term
    else
      (term - total) + running.sum
  ⟨total, running.lost + error⟩

/-- The sum of a column in the order of its rows. The recovered errors are left out when
they are infinite or undefined. -/
def sum (terms : List Double) : Double :=
  let running : Compensated := terms.foldl (fun running term => running.add term.toFloat) ⟨0, 0⟩
  if (ofFloat running.lost).isFinite then
    ofFloat (running.sum + running.lost)
  else
    ofFloat running.sum

end Double

end EpochRollup
