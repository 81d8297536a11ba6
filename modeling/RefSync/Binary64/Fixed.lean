/-
Numbers with a fixed count of decimal places, rounded to the nearest; a half goes to
the even neighbour.
-/

import RefSync.Binary64

namespace RefSync

/-- A rational with a count of places, at least one. -/
def fixedText (places : Nat) (value : Rat) : String :=
  let units := Binary64.divideToEven (value.num.natAbs * Nat.pow 10 places) value.den
  let digits := Nat.toDigits 10 units
  let padded := List.replicate (places + 1 - digits.length) '0' ++ digits
  let whole := padded.take (padded.length - places)
  (if value.num < 0 then "-" else "") ++ String.ofList whole ++ "."
    ++ String.ofList (padded.drop (padded.length - places))

/-- A double with a count of places. The sign of a zero is kept. -/
def Binary64.fixedText (places : Nat) : Binary64 → String
  | .nan => "nan"
  | .infinite negative => if negative then "-inf" else "inf"
  | .finite negative significand exponent =>
      (if negative then "-" else "")
        ++ RefSync.fixedText places ((Binary64.finite false significand exponent).toRat?.getD 0)

end RefSync
