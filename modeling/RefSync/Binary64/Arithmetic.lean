/-
Products and powers of doubles, each the double nearest to the exact value; a half goes
to the even neighbour.
-/

import RefSync.Binary64

namespace RefSync.Binary64

def isNegative : Binary64 → Bool
  | .nan => false
  | .infinite negative | .finite negative _ _ => negative

/-- A product has the sign of its factors. Zero times an infinity is no number. -/
def times : Binary64 → Binary64 → Binary64
  | .finite negative left low, .finite other right high =>
      let (top, bottom) := scale 2 (left * right) 1 (low + high)
      if top = 0 then zero (negative != other) else ofFraction (negative != other) top bottom
  | .nan, _ | _, .nan => .nan
  | left, right =>
      if left.isZero || right.isZero then .nan
      else .infinite (left.isNegative != right.isNegative)

/-- The power of a positive double, unless it is beyond the finite ones. The exact power
is rounded once. -/
def power? (base : Binary64) (count : Nat) : Option Binary64 :=
  match base with
  | .finite _ significand exponent =>
      let (top, bottom) := scale 2 (Nat.pow significand count) 1 (exponent * count)
      match ofFraction false top bottom with
      | .infinite _ => none
      | power => some power
  | _ => none

end RefSync.Binary64
