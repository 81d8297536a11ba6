/-
Numbers written as text, as settings and table keys hold them. Spaces may surround a
number, and single underscores may stand between its digits. An integer may have zeros
in front, with any underscores among them, and an all-zero fraction.
-/

import RefSync.Binary64
import RefSync.Text.Blank

namespace RefSync

inductive NumberFault where
  | malformed
  | tooLong
deriving DecidableEq, Repr

private def digitValue (digit : Char) : Nat :=
  digit.toNat - '0'.toNat

private def decimalValue (digits : List Char) : Nat :=
  digits.foldl (fun value digit => value * 10 + digitValue digit) 0

/-- One sign and what follows it. -/
private def splitSign : List Char → Bool × List Char
  | '-' :: rest => (true, rest)
  | '+' :: rest => (false, rest)
  | chars => (false, chars)

/-- Single underscores inside a text are dropped. -/
private def withoutUnderscores? (chars : List Char) : Option (List Char) :=
  let doubled := (chars.zip (chars.drop 1)).any fun (left, right) => left == '_' && right == '_'
  if chars.head? == some '_' || chars.getLast? == some '_' || doubled then none
  else some (chars.filter (· != '_'))

/-! ### Integers -/

/-- The characters of an integer, its sign among them, that are read at most. -/
def integerLimit : Nat := 4300

/-- An integer in its one plain form: a minus sign if it is negative, and digits
without a zero in front. A minus sign may stand before zero. -/
def plainInteger (chars : List Char) : Except NumberFault Int :=
  let (negative, unsigned) := match chars with
    | '-' :: rest => (true, rest)
    | chars => (false, chars)
  let digits := unsigned.takeWhile Char.isDigit
  if unsigned == ['0'] then .ok 0
  else if digits.isEmpty || digits.head? == some '0' then .error .malformed
  else if integerLimit < digits.length + (if negative then 1 else 0) then .error .tooLong
  else if digits.length < unsigned.length then .error .malformed
  else .ok (if negative then -(decimalValue digits : Int) else decimalValue digits)

/-- Digits without a zero in front are the plain form of the number that they are. -/
theorem plainInteger_digits {digits : List Char} (all : ∀ char ∈ digits, char.isDigit = true)
    (filled : digits ≠ []) (bare : digits = ['0'] ∨ digits.head? ≠ some '0')
    (short : digits.length ≤ integerLimit) :
    plainInteger digits = .ok (Nat.ofDigitChars 10 digits 0 : Nat) := by
  have value : decimalValue digits = Nat.ofDigitChars 10 digits 0 := by
    rw [decimalValue, Nat.ofDigitChars_eq_foldl]
    congr 1
    funext value digit
    rw [Nat.mul_comm]
    rfl
  have taken : digits.takeWhile Char.isDigit = digits := by
    have whole : (digits ++ []).takeWhile Char.isDigit = digits ++ [].takeWhile Char.isDigit :=
      List.takeWhile_append_of_pos all
    rwa [List.append_nil, List.takeWhile_nil, List.append_nil] at whole
  unfold plainInteger
  split
  rename_i negative unsigned given
  split at given
  · exact absurd (all '-' List.mem_cons_self) (by decide)
  · cases given
    dsimp only
    rw [taken]
    rcases bare with rfl | front
    · rfl
    · have notZero : ¬(digits == ['0']) = true := by
        rw [beq_iff_eq]
        rintro rfl
        exact front rfl
      have plain : ¬(digits.isEmpty || digits.head? == some '0') = true := by
        rw [Bool.or_eq_true, List.isEmpty_iff, beq_iff_eq, not_or]
        exact ⟨filled, front⟩
      have fits : ¬integerLimit < digits.length + if false = true then 1 else 0 := Nat.not_lt.mpr short
      rw [if_neg notZero, if_neg plain, if_neg fits, if_neg (Nat.lt_irrefl _), if_neg (by decide), value]

/-- What is left after a zero in front, given the last character that was passed: the
first other digit and all after it, or a zero if there is none. A minus sign counts as
a digit here, and a point leaves the character before it. -/
private def afterZero (passed : Char) : List Char → Option (List Char)
  | [] => some [passed]
  | char :: rest =>
      if char == '0' || char == '_' then afterZero char rest
      else if char == '.' then some (passed :: char :: rest)
      else if char.isDigit || char == '-' then some (char :: rest)
      else none

private def withoutZeros? : List Char → Option (List Char)
  | '0' :: rest => afterZero '0' rest
  | char :: rest => if char.isDigit then some (char :: rest) else none
  | [] => none

/-- The sign is not for the zeros: it stays in front of what they leave. -/
private def withoutSignedZeros? : List Char → Option (List Char)
  | '-' :: rest => (withoutZeros? rest).map ('-' :: ·)
  | '+' :: rest => withoutZeros? rest
  | chars => withoutZeros? chars

/-- A fraction of zeros, at least one, is dropped. -/
private def withoutFraction? (chars : List Char) : Option (List Char) :=
  match chars.dropWhile (· != '.') with
  | [] => some chars
  | _ :: zeros =>
      if !zeros.isEmpty && zeros.all (· == '0') then some (chars.takeWhile (· != '.')) else none

/-- An integer text without everything that says nothing. -/
private def bareInteger? (chars : List Char) : Option (List Char) := do
  let bare ← withoutFraction? (← withoutSignedZeros? (trimSpaces chars))
  return (withoutUnderscores? bare).getD bare

/-- An integer, in its plain form or in one that leads to it. -/
def integerText (text : String) : Except NumberFault Int :=
  match plainInteger text.toList with
  | .error .malformed =>
      match bareInteger? text.toList with
      | some bare => plainInteger bare
      | none => .error .malformed
  | result => result

/-! ### Doubles -/

/-- A double without underscores: digits with a point anywhere, and an exponent. -/
private def plainReal? (chars : List Char) : Option Binary64 :=
  let (negative, chars) := splitSign chars
  let word := String.ofList (chars.map Char.toLower)
  if word == "inf" || word == "infinity" then some (.infinite negative)
  else if word == "nan" then some .nan
  else
    let whole := chars.takeWhile Char.isDigit
    let rest := chars.dropWhile Char.isDigit
    let (places, rest) := match rest with
      | '.' :: rest => (rest.takeWhile Char.isDigit, rest.dropWhile Char.isDigit)
      | rest => ([], rest)
    let digits := decimalValue (whole ++ places)
    if (whole ++ places).isEmpty then none
    else
      match rest with
      | [] => some (.ofDecimal negative digits (-(places.length : Int)))
      | mark :: power =>
          let (down, power) := splitSign power
          if (mark == 'e' || mark == 'E') && !power.isEmpty && power.all Char.isDigit then
            let size : Int := decimalValue power
            some (.ofDecimal negative digits ((if down then -size else size) - places.length))
          else none

def realText? (text : String) : Option Binary64 :=
  (plainReal? (trimSpaces text.toList)).or
    ((withoutUnderscores? text.toList).bind plainReal?)

/-- The words for yes and no, in any case. -/
def booleanText? (text : String) : Option Bool :=
  let word := String.ofList (text.toList.map Char.toLower)
  if ["1", "true", "t", "yes", "y", "on"].contains word then some true
  else if ["0", "false", "f", "no", "n", "off"].contains word then some false
  else none

end RefSync
