/-
Shortest decimal text of a double. Among the decimals that read back as the
double the fewest digits win, and of those the nearest one. Each grid of one to
seventeen digits offers only the two neighbours of the value. Should no grid have
a hit, the exact expansion closes the search, so the result always reads back.
-/

import RefSync.Binary64

namespace RefSync.Binary64

/-- `p` with `10 ^ (p - 1) ≤ numerator / denominator < 10 ^ p`. -/
def decimalPoint (numerator denominator : Nat) : Int :=
  if denominator ≤ numerator then (Nat.toDigits 10 (numerator / denominator)).length
  else 1 - ((Nat.toDigits 10 ((denominator - 1) / numerator)).length : Int)

/-- A decimal `digits * 10 ^ power` of a grid with its distance to the value in
units of the grid's common denominator. -/
structure Candidate where
  digits : Nat
  distance : Nat

/-- The neighbours of `top / bottom` on the integers, those that read back. -/
def candidates (accepts : Nat → Bool) (top bottom : Nat) : List Candidate :=
  let lower := top / bottom
  let rest := top % bottom
  ([⟨lower, rest⟩, ⟨lower + 1, bottom - rest⟩] : List Candidate).filter (accepts ·.digits)

/-- Of two hits the nearer, of two equally near the even one. -/
def nearest : List Candidate → Option Nat
  | [] => none
  | [only] => some only.digits
  | first :: second :: _ =>
      if first.distance < second.distance then some first.digits
      else if second.distance < first.distance then some second.digits
      else some (if first.digits % 2 = 0 then first.digits else second.digits)

def search (significand : Nat) (exponent : Int) (numerator denominator : Nat)
    (point : Int) : List Nat → Nat × Int
  | [] =>
      -- `m / 2 ^ k` is `m * 5 ^ k / 10 ^ k`
      if 0 ≤ exponent then (numerator, 0)
      else (significand * Nat.pow 5 (-exponent).toNat, exponent)
  | count :: counts =>
      let power := point - count
      let (top, bottom) := scale 10 numerator denominator (-power)
      let reads (digits : Nat) :=
        ofDecimal false digits power == .finite false significand exponent
      match nearest (candidates reads top bottom) with
      | some digits => (digits, power)
      | none => search significand exponent numerator denominator point counts

/-- The shortest `digits * 10 ^ power` of a positive finite double. -/
def shortest (significand : Nat) (exponent : Int) : Nat × Int :=
  let (numerator, denominator) := scale 2 significand 1 exponent
  let point := decimalPoint numerator denominator
  let (digits, power) :=
    search significand exponent numerator denominator point ((List.range 17).map (· + 1))
  trimZeros digits power

/-- How a number is laid out: positional for points from `least` to `most`. -/
structure Layout where
  least : Int
  most : Int
  mark : String
  minExponentDigits : Nat
  nan : String
  infinity : String

/-- The layout of a JSON document: positional from `0.0001` up to sixteen digits
before the point, always with a point or an exponent, the exponent signed and of
at least two digits. -/
def documentLayout : Layout :=
  { least := -3, most := 16, mark := "e", minExponentDigits := 2, nan := "NaN",
    infinity := "Infinity" }

def zeros (count : Nat) : String :=
  String.ofList (List.replicate count '0')

/-- `digits * 10 ^ power` in a layout. -/
def Layout.decimal (layout : Layout) (digits : Nat) (power : Int) : String :=
  let chars := Nat.toDigits 10 digits
  let point : Int := chars.length + power
  if layout.least ≤ point ∧ point ≤ layout.most then
    if point ≤ 0 then "0." ++ zeros (-point).toNat ++ String.ofList chars
    else if point < chars.length then
      String.ofList (chars.take point.toNat) ++ "." ++ String.ofList (chars.drop point.toNat)
    else String.ofList chars ++ zeros (point.toNat - chars.length) ++ ".0"
  else
    let exponent := point - 1
    let lead := String.ofList (chars.take 1)
    let fraction := if chars.length ≤ 1 then "" else "." ++ String.ofList (chars.drop 1)
    let magnitude := toString exponent.natAbs
    lead ++ fraction ++ layout.mark ++ (if exponent < 0 then "-" else "+")
      ++ zeros (layout.minExponentDigits - magnitude.length) ++ magnitude

def Layout.text (layout : Layout) : Binary64 → String
  | .nan => layout.nan
  | .infinite negative => (if negative then "-" else "") ++ layout.infinity
  | .finite negative significand exponent =>
      (if negative then "-" else "")
        ++ (if significand = 0 then "0.0"
            else
              let (digits, power) := shortest significand exponent
              layout.decimal digits power)

end RefSync.Binary64
