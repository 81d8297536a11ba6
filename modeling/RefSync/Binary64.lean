/-
Doubles as exact values. A finite one is a sign, a significand and a power of
two, so rounding, comparison and printing are statements about natural numbers.
Nothing here uses the machine's floating point arithmetic.
-/

namespace RefSync

/-- A double: every finite one is `± significand * 2 ^ exponent`. -/
inductive Binary64 where
  | nan
  | infinite (negative : Bool)
  | finite (negative : Bool) (significand : Nat) (exponent : Int)
deriving DecidableEq, Repr

namespace Binary64

def minExponent : Int := -1074
def maxExponent : Int := 971

def zero (negative : Bool) : Binary64 :=
  .finite negative 0 minExponent

/-- A positive fraction `numerator / denominator * base ^ power` as one fraction. -/
def scale (base numerator denominator : Nat) (power : Int) : Nat × Nat :=
  if 0 ≤ power then (numerator * Nat.pow base power.toNat, denominator)
  else (numerator, denominator * Nat.pow base (-power).toNat)

/-- The integer nearest to a fraction; a half goes to the even neighbour. -/
def divideToEven (numerator denominator : Nat) : Nat :=
  let quotient := numerator / denominator
  let twice := 2 * (numerator % denominator)
  if twice < denominator then quotient
  else if denominator < twice then quotient + 1
  else if quotient % 2 = 0 then quotient else quotient + 1

/-- The exponent whose significands hold the leading 53 bits of a fraction. -/
def exponentFor (numerator denominator : Nat) : Int :=
  let guess : Int := (numerator.log2 : Int) - denominator.log2 - 52
  let (top, bottom) := scale 2 numerator denominator (-guess)
  max minExponent (if top / bottom < Nat.pow 2 52 then guess - 1 else guess)

/-- The double nearest to a positive fraction. -/
def ofFraction (negative : Bool) (numerator denominator : Nat) : Binary64 :=
  let exponent := exponentFor numerator denominator
  let (top, bottom) := scale 2 numerator denominator (-exponent)
  let significand := divideToEven top bottom
  let (significand, exponent) :=
    if significand = Nat.pow 2 53 then (Nat.pow 2 52, exponent + 1) else (significand, exponent)
  if maxExponent < exponent then .infinite negative else .finite negative significand exponent

/-- `digits * 10 ^ power` without zeros at the end of the digits. -/
def trimZeros (digits : Nat) (power : Int) : Nat × Int :=
  if digits ≠ 0 ∧ digits % 10 = 0 then trimZeros (digits / 10) (power + 1) else (digits, power)
termination_by digits
decreasing_by omega

/-- The double nearest to `± digits * 10 ^ power`, whichever way that is written.
Powers far outside the range are settled without computing them. -/
def ofDecimal (negative : Bool) (digits : Nat) (power : Int) : Binary64 :=
  let (digits, power) := trimZeros digits power
  if digits = 0 then zero negative
  else
    let places := ((Nat.toDigits 10 digits).length : Int) + power
    if 400 < places then .infinite negative
    else if places < -400 then zero negative
    else
      let (top, bottom) := scale 10 digits 1 power
      ofFraction negative top bottom

/-- The exact value of a finite double. -/
def toRat? : Binary64 → Option Rat
  | .nan | .infinite _ => none
  | .finite negative significand exponent =>
      let (top, bottom) := scale 2 significand 1 exponent
      some (mkRat (if negative then -(top : Int) else top) bottom)

/-- The whole number that a finite double is, if it is one. -/
def toInt? : Binary64 → Option Int
  | .nan | .infinite _ => none
  | .finite negative significand exponent =>
      let (top, bottom) := scale 2 significand 1 exponent
      if top % bottom = 0 then
        let magnitude : Int := (top / bottom : Nat)
        some (if negative then -magnitude else magnitude)
      else none

def isZero : Binary64 → Bool
  | .finite _ significand _ => significand == 0
  | _ => false

/-- Numeric equality: both zeros are one number. A NaN equals itself, as every
NaN of a document is the one NaN that reading produces. -/
def same : Binary64 → Binary64 → Bool
  | .finite n a e, .finite m b f =>
      (a == 0 && b == 0)
        || (n == m && a * Nat.pow 2 (e - min e f).toNat == b * Nat.pow 2 (f - min e f).toNat)
  | x, y => x == y

end Binary64
end RefSync
