/-
Lengths of time in seconds, and how the pauses between attempts grow: each is longer by
one factor than the one before. A length is exact, or it is a double; then its multiples
are rounded, and a factor beyond the doubles gives no pause at all.
-/

import RefSync.Binary64.Arithmetic
import RefSync.Binary64.Fixed

namespace RefSync

inductive Duration where
  | exact (seconds : Rat)
  | rounded (seconds : Binary64)
deriving DecidableEq, Repr

namespace Duration

/-- The factor from one pause to the next. -/
def growth : Rat := 8 / 5

/-- The double nearest to the factor. -/
def roundedGrowth : Binary64 := .ofFraction false 8 5

/-- The pause after a number of failures before the last one. -/
def grown? (first : Duration) (failures : Nat) : Option Duration :=
  match first with
  | .exact seconds => some (.exact (seconds * growth ^ failures))
  | .rounded seconds =>
      (roundedGrowth.power? failures).map fun factor => .rounded (seconds.times factor)

def fixedText (places : Nat) : Duration → String
  | .exact seconds => RefSync.fixedText places seconds
  | .rounded seconds => seconds.fixedText places

/-- Whole milliseconds, at most `limit`. There are none below zero. -/
def milliseconds (limit : Nat) : Duration → Nat
  | .exact seconds => min limit (seconds * 1000).floor.toNat
  | .rounded .nan => 0
  | .rounded (.infinite negative) => if negative then 0 else limit
  | .rounded seconds => min limit ((seconds.toRat?.getD 0) * 1000).floor.toNat

end Duration
end RefSync
