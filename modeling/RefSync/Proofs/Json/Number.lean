/-
Numbers in documents. A whole number is read back as it was written, and the shortest
decimal of a double is read back as that double, in whichever layout it stands.
-/

import RefSync.Json.Printer
import RefSync.Json.Reader
import RefSync.Proofs.Binary64.Shortest

namespace RefSync.Json

open Reader

/-- What can follow a value in a written document. -/
def Delimits (rest : List Char) : Prop :=
  rest.head? = some ',' ∨ rest.head? = some '\n'

/-- Digits that are all of a whole number: no zero is in front of others. -/
structure IsWhole (digits : List Char) : Prop where
  all : ∀ char ∈ digits, char.isDigit = true
  filled : digits ≠ []
  bare : digits = ['0'] ∨ digits.head? ≠ some '0'

/-! ### Runs of digits -/

theorem takeWhile_digits {digits rest : List Char} (all : ∀ char ∈ digits, char.isDigit = true)
    (ends : ∀ char, rest.head? = some char → char.isDigit = false) :
    (digits ++ rest).takeWhile Char.isDigit = digits
      ∧ (digits ++ rest).dropWhile Char.isDigit = rest := by
  rw [List.takeWhile_append_of_pos all, List.dropWhile_append_of_pos all]
  cases rest with
  | nil => exact ⟨List.append_nil digits, rfl⟩
  | cons char others =>
      have other : ¬char.isDigit = true := by
        rw [ends char rfl]
        decide
      rw [List.takeWhile_cons_of_neg other, List.dropWhile_cons_of_neg other, List.append_nil]
      exact ⟨rfl, rfl⟩

theorem digitsValue_eq (digits : List Char) : digitsValue digits = Nat.ofDigitChars 10 digits 0 := by
  rw [digitsValue, Nat.ofDigitChars_eq_foldl]
  congr 1
  funext value digit
  rw [Nat.mul_comm]

theorem digitsValue_toDigits (number : Nat) : digitsValue (Nat.toDigits 10 number) = number := by
  rw [digitsValue_eq, Nat.ofDigitChars_ten_toDigits]

theorem digitsValue_zeros_append (count : Nat) (digits : List Char) :
    digitsValue (List.replicate count '0' ++ digits) = digitsValue digits := by
  rw [digitsValue_eq, digitsValue_eq, Nat.ofDigitChars_append, Nat.ofDigitChars_replicate_zero,
    Nat.mul_zero]

theorem digitsValue_append_zeros (digits : List Char) (count : Nat) :
    digitsValue (digits ++ List.replicate count '0') = digitsValue digits * 10 ^ count := by
  rw [digitsValue_eq, digitsValue_eq, Nat.ofDigitChars_append, Nat.ofDigitChars_replicate_zero,
    Nat.mul_comm]

theorem isDigit_toDigits (number : Nat) : ∀ char ∈ Nat.toDigits 10 number, char.isDigit = true :=
  fun _ member => Nat.isDigit_of_mem_toDigits (by decide) (by decide) member

theorem isDigit_zeros (count : Nat) : ∀ char ∈ List.replicate count '0', char.isDigit = true := by
  intro char member
  rw [(List.mem_replicate.mp member).2]
  decide

/-- No zero is in front of the digits of a number that is not zero. -/
theorem head_toDigits {number : Nat} (positive : 0 < number) :
    (Nat.toDigits 10 number).head? ≠ .some '0' := by
  induction number using Nat.strong_induction_on with
  | _ number ih =>
      rcases Nat.lt_or_ge number 10 with one | many
      · rw [Nat.toDigits_of_lt_base one]
        have each : ∀ digit < 10, 0 < digit → [Nat.digitChar digit].head? ≠ .some '0' := by decide
        exact each number one positive
      · rw [Nat.toDigits_of_base_le (by decide) many, List.head?_append]
        have front := ih (number / 10) (by omega) (by omega)
        cases found : (Nat.toDigits 10 (number / 10)).head? with
        | none => exact absurd (List.head?_eq_none_iff.mp found) Nat.toDigits_ne_nil
        | some char =>
            rw [found] at front
            exact front

theorem isWhole_toDigits (number : Nat) : IsWhole (Nat.toDigits 10 number) := by
  refine ⟨isDigit_toDigits number, Nat.toDigits_ne_nil, ?_⟩
  rcases Nat.eq_zero_or_pos number with rfl | positive
  · exact Or.inl (Nat.toDigits_zero 10)
  · exact Or.inr (head_toDigits positive)

/-! ### Numbers without a sign -/

theorem Delimits.begins {rest : List Char} (ends : Delimits rest) :
    ∃ others, rest = ',' :: others ∨ rest = '\n' :: others := by
  cases rest with
  | nil => exact ends.elim nofun nofun
  | cons char others =>
      exact ⟨others, ends.imp (fun comma => congrArg (· :: others) (Option.some.inj comma))
        fun line => congrArg (· :: others) (Option.some.inj line)⟩

theorem not_digit_of_delimits {rest : List Char} (ends : Delimits rest) (char : Char)
    (first : rest.head? = some char) : char.isDigit = false := by
  rcases ends with delimiter | delimiter <;>
    rw [← Option.some.inj (delimiter.symm.trans first)] <;> decide

/-- The digits in front of a text that are taken for a whole number. -/
def leading (text : List Char) : List Char :=
  match text with
  | '0' :: _ => ['0']
  | _ => text.takeWhile Char.isDigit

theorem unsigned_eq (negative : Bool) (text : List Char) :
    unsigned? negative text
      = if (leading text).isEmpty then none
        else
          match (fraction (text.drop (leading text).length)).1,
              exponent (fraction (text.drop (leading text).length)).2 with
          | [], none =>
              some (.int (if negative then -(digitsValue (leading text) : Int)
                else digitsValue (leading text)), (fraction (text.drop (leading text).length)).2)
          | places, power =>
              some (.real (.ofDecimal negative (digitsValue (leading text ++ places))
                ((power.getD (0, (fraction (text.drop (leading text).length)).2)).1
                  - places.length)),
                (power.getD (0, (fraction (text.drop (leading text).length)).2)).2) :=
  rfl

theorem leading_append {whole rest : List Char} (isWhole : IsWhole whole)
    (ends : ∀ char, rest.head? = some char → char.isDigit = false) :
    leading (whole ++ rest) = whole := by
  have taken := (takeWhile_digits isWhole.all ends).1
  rcases isWhole.bare with zero | front
  · rw [zero]
    rfl
  · unfold leading
    split
    · rename_i others spelled
      cases whole with
      | nil => exact absurd rfl isWhole.filled
      | cons first more =>
          rw [List.cons_append] at spelled
          rw [(List.cons.inj spelled).1] at front
          exact absurd rfl front
    · exact taken

private theorem unsigned_of_whole (negative : Bool) {whole rest : List Char}
    (isWhole : IsWhole whole)
    (ends : ∀ char, rest.head? = some char → char.isDigit = false) :
    unsigned? negative (whole ++ rest)
      = match (fraction rest).1, exponent (fraction rest).2 with
        | [], none =>
            some (.int (if negative then -(digitsValue whole : Int) else digitsValue whole),
              (fraction rest).2)
        | places, power =>
            some (.real (.ofDecimal negative (digitsValue (whole ++ places))
              ((power.getD (0, (fraction rest).2)).1 - places.length)),
              (power.getD (0, (fraction rest).2)).2) := by
  have filled : whole.isEmpty = false := by
    cases whole with
    | nil => exact absurd rfl isWhole.filled
    | cons _ _ => rfl
  rw [unsigned_eq, leading_append isWhole ends, filled, List.drop_left]
  simp only [Bool.false_eq_true, if_false]

private theorem fraction_of_delimits {rest : List Char} (ends : Delimits rest) :
    fraction rest = ([], rest) := by
  obtain ⟨others, rfl | rfl⟩ := ends.begins <;> rfl

private theorem exponent_of_delimits {rest : List Char} (ends : Delimits rest) :
    exponent rest = none := by
  obtain ⟨others, rfl | rfl⟩ := ends.begins <;> rfl

private theorem fraction_of_places {places rest : List Char}
    (all : ∀ char ∈ places, char.isDigit = true) (filled : places ≠ [])
    (ends : ∀ char, rest.head? = some char → char.isDigit = false) :
    fraction ('.' :: (places ++ rest)) = (places, rest) := by
  obtain ⟨taken, dropped⟩ := takeWhile_digits all ends
  rw [fraction, taken, dropped]
  cases places with
  | nil => exact absurd rfl filled
  | cons _ _ => rfl

theorem unsigned_integer (negative : Bool) {whole rest : List Char} (isWhole : IsWhole whole)
    (ends : Delimits rest) :
    unsigned? negative (whole ++ rest)
      = some (.int (if negative then -(digitsValue whole : Int) else digitsValue whole), rest) := by
  rw [unsigned_of_whole negative isWhole (not_digit_of_delimits ends), fraction_of_delimits ends,
    exponent_of_delimits ends]

theorem unsigned_places (negative : Bool) {whole places rest : List Char} (isWhole : IsWhole whole)
    (all : ∀ char ∈ places, char.isDigit = true) (filled : places ≠ []) (ends : Delimits rest) :
    unsigned? negative (whole ++ '.' :: (places ++ rest))
      = some (.real (.ofDecimal negative (digitsValue (whole ++ places)) (-(places.length : Int))),
          rest) := by
  have point (char : Char) (first : ('.' :: (places ++ rest)).head? = some char) :
      char.isDigit = false := by
    cases first
    decide
  rw [unsigned_of_whole negative isWhole point,
    fraction_of_places all filled (not_digit_of_delimits ends), exponent_of_delimits ends]
  cases places with
  | nil => exact absurd rfl filled
  | cons first others =>
      dsimp only [Option.getD_none]
      rw [zero_sub]

/-- How an exponent is written: its sign and its digits. -/
def exponentChars (power : Int) (digits : List Char) : List Char :=
  'e' :: (if power < 0 then '-' else '+') :: digits

private theorem exponent_of_chars {power : Int} {digits rest : List Char}
    (all : ∀ char ∈ digits, char.isDigit = true) (filled : digits ≠ [])
    (value : digitsValue digits = power.natAbs) (ends : Delimits rest) :
    exponent (exponentChars power digits ++ rest) = some (power, rest) := by
  obtain ⟨taken, dropped⟩ := takeWhile_digits all (not_digit_of_delimits ends)
  have notEmpty : digits.isEmpty = false := by
    cases digits with
    | nil => exact absurd rfl filled
    | cons _ _ => rfl
  unfold exponentChars
  split
  · rename_i down
    simp only [List.cons_append, exponent, BEq.rfl, Bool.true_or, if_true, taken, dropped, notEmpty,
      Bool.false_eq_true, if_false, value]
    rw [Int.ofNat_natAbs_of_nonpos (by omega), Int.neg_neg]
  · rename_i up
    simp only [List.cons_append, exponent, BEq.rfl, Bool.true_or, if_true, taken, dropped, notEmpty,
      Bool.false_eq_true, if_false, value]
    rw [Int.natAbs_of_nonneg (by omega)]

theorem unsigned_exponent (negative : Bool) {whole places digits rest : List Char} {power : Int}
    (isWhole : IsWhole whole) (all : ∀ char ∈ places, char.isDigit = true)
    (digitsAll : ∀ char ∈ digits, char.isDigit = true) (digitsFilled : digits ≠ [])
    (value : digitsValue digits = power.natAbs) (ends : Delimits rest) :
    unsigned? negative (whole ++ ((if places.isEmpty then [] else '.' :: places)
        ++ (exponentChars power digits ++ rest)))
      = some (.real (.ofDecimal negative (digitsValue (whole ++ places)) (power - places.length)),
          rest) := by
  have found := exponent_of_chars digitsAll digitsFilled value ends
  have mark (char : Char) (first : (exponentChars power digits ++ rest).head? = some char) :
      char.isDigit = false := by
    cases first
    decide
  cases places with
  | nil =>
      have bare : fraction (exponentChars power digits ++ rest)
          = ([], exponentChars power digits ++ rest) := rfl
      rw [List.isEmpty_nil, if_pos rfl, List.nil_append, unsigned_of_whole negative isWhole mark,
        bare]
      dsimp only
      rw [found]
      rfl
  | cons first others =>
      have point (char : Char) (start : ('.' :: (first :: others)
          ++ (exponentChars power digits ++ rest)).head? = some char) : char.isDigit = false := by
        cases start
        decide
      rw [List.isEmpty_cons, if_neg (by decide), unsigned_of_whole negative isWhole point,
        List.cons_append,
        fraction_of_places all (List.cons_ne_nil first others) mark]
      dsimp only
      rw [found]
      rfl

/-! ### The layouts of a double -/

section

variable (negative : Bool) {number : Nat} (positive : 0 < number) {power : Int}
  {rest : List Char} (ends : Delimits rest)

private theorem length_digits (number : Nat) : 0 < (Nat.toDigits 10 number).length :=
  Nat.length_toDigits_pos

private theorem digitsValue_take_drop (number count : Nat) :
    digitsValue ((Nat.toDigits 10 number).take count ++ (Nat.toDigits 10 number).drop count)
      = number := by
  rw [List.take_append_drop, digitsValue_toDigits]

include positive

private theorem isWhole_take {count : Nat} (some : 0 < count) :
    IsWhole ((Nat.toDigits 10 number).take count) := by
  refine ⟨fun char member => isDigit_toDigits number char (List.mem_of_mem_take member), ?_, ?_⟩
  · intro empty
    rcases List.take_eq_nil_iff.mp empty with none | nothing
    · omega
    · exact Nat.toDigits_ne_nil nothing
  · right
    rw [List.head?_take, if_neg (by omega)]
    exact head_toDigits positive

private theorem isWhole_append_zeros (count : Nat) :
    IsWhole (Nat.toDigits 10 number ++ List.replicate count '0') := by
  refine ⟨?_, ?_, ?_⟩
  · intro char member
    rcases List.mem_append.mp member with digit | zero
    · exact isDigit_toDigits number char digit
    · exact isDigit_zeros count char zero
  · intro empty
    exact Nat.toDigits_ne_nil (List.append_eq_nil_iff.mp empty).1
  · right
    rw [List.head?_append]
    have front := head_toDigits positive
    cases found : (Nat.toDigits 10 number).head? with
    | none => exact absurd (List.head?_eq_none_iff.mp found) Nat.toDigits_ne_nil
    | some char =>
        rw [found] at front
        exact front

include ends

omit positive in
/-- All digits are after the point. -/
private theorem unsigned_fraction (low : ((Nat.toDigits 10 number).length : Int) + power ≤ 0) :
    unsigned? negative (['0', '.']
        ++ List.replicate (-(((Nat.toDigits 10 number).length : Int) + power)).toNat '0'
        ++ Nat.toDigits 10 number ++ rest)
      = some (.real (.ofDecimal negative number power), rest) := by
  let places := List.replicate (-(((Nat.toDigits 10 number).length : Int) + power)).toNat '0'
    ++ Nat.toDigits 10 number
  have all : ∀ char ∈ places, char.isDigit = true := by
    intro char member
    rcases List.mem_append.mp member with zero | digit
    · exact isDigit_zeros _ char zero
    · exact isDigit_toDigits number char digit
  have filled : places ≠ [] := fun empty =>
    Nat.toDigits_ne_nil (List.append_eq_nil_iff.mp empty).2
  have zero : IsWhole ['0'] := ⟨isDigit_zeros 1, List.cons_ne_nil '0' [], Or.inl rfl⟩
  have reads := unsigned_places negative zero all filled ends
  have value : digitsValue (['0'] ++ places) = number := by
    have more := digitsValue_zeros_append
      ((-(((Nat.toDigits 10 number).length : Int) + power)).toNat + 1) (Nat.toDigits 10 number)
    rw [List.replicate_succ, digitsValue_toDigits] at more
    exact more
  have moved : -(places.length : Int) = power := by
    rw [List.length_append, List.length_replicate]
    omega
  rw [value, moved] at reads
  rw [← reads]
  simp only [List.cons_append, List.nil_append, List.append_assoc, places]

/-- The point is among the digits. -/
private theorem unsigned_inside (above : 0 < ((Nat.toDigits 10 number).length : Int) + power)
    (inside : ((Nat.toDigits 10 number).length : Int) + power < (Nat.toDigits 10 number).length) :
    unsigned? negative
        ((Nat.toDigits 10 number).take (((Nat.toDigits 10 number).length : Int) + power).toNat
          ++ ['.']
          ++ (Nat.toDigits 10 number).drop (((Nat.toDigits 10 number).length : Int) + power).toNat
          ++ rest)
      = some (.real (.ofDecimal negative number power), rest) := by
  let point := (((Nat.toDigits 10 number).length : Int) + power).toNat
  have all : ∀ char ∈ (Nat.toDigits 10 number).drop point, char.isDigit = true :=
    fun char member => isDigit_toDigits number char (List.mem_of_mem_drop member)
  have filled : (Nat.toDigits 10 number).drop point ≠ [] := by
    intro empty
    have short := List.drop_eq_nil_iff.mp empty
    omega
  have reads := unsigned_places negative (isWhole_take positive (by omega : 0 < point)) all filled
    ends
  have moved : -(((Nat.toDigits 10 number).drop point).length : Int) = power := by
    rw [List.length_drop]
    omega
  rw [digitsValue_take_drop, moved] at reads
  rw [← reads]
  simp only [List.cons_append, List.nil_append, List.append_assoc, point]

/-- All digits are before the point. -/
private theorem unsigned_before (above : 0 ≤ power) :
    unsigned? negative (Nat.toDigits 10 number ++ List.replicate power.toNat '0' ++ ['.', '0']
        ++ rest)
      = some (.real (.ofDecimal negative number power), rest) := by
  have zero : ∀ char ∈ ['0'], char.isDigit = true := isDigit_zeros 1
  have reads := unsigned_places negative (isWhole_append_zeros positive power.toNat) zero
    (List.cons_ne_nil '0' []) ends
  have value : digitsValue (Nat.toDigits 10 number ++ List.replicate power.toNat '0' ++ ['0'])
      = number * 10 ^ (power.toNat + 1) := by
    have more := digitsValue_append_zeros (Nat.toDigits 10 number) (power.toNat + 1)
    rw [List.replicate_succ', ← List.append_assoc, digitsValue_toDigits] at more
    exact more
  have moved : -((['0'] : List Char).length : Int) = power - (power.toNat + 1 : Nat) := by
    rw [List.length_singleton]
    omega
  rw [value, moved, Binary64.ofDecimal_mul_ten] at reads
  rw [← reads]
  simp only [List.cons_append, List.nil_append, List.append_assoc]

/-- One digit is before the point, and an exponent says where it belongs. -/
private theorem unsigned_scientific (padding : Nat) :
    unsigned? negative ((Nat.toDigits 10 number).take 1
        ++ ((if ((Nat.toDigits 10 number).drop 1).isEmpty then []
            else '.' :: (Nat.toDigits 10 number).drop 1)
          ++ (exponentChars (((Nat.toDigits 10 number).length : Int) + power - 1)
            (List.replicate padding '0' ++ Nat.toDigits 10
              (((Nat.toDigits 10 number).length : Int) + power - 1).natAbs) ++ rest)))
      = some (.real (.ofDecimal negative number power), rest) := by
  have length := length_digits number
  let shown := List.replicate padding '0' ++ Nat.toDigits 10
    (((Nat.toDigits 10 number).length : Int) + power - 1).natAbs
  have all : ∀ char ∈ (Nat.toDigits 10 number).drop 1, char.isDigit = true :=
    fun char member => isDigit_toDigits number char (List.mem_of_mem_drop member)
  have shownAll : ∀ char ∈ shown, char.isDigit = true := by
    intro char member
    rcases List.mem_append.mp member with zero | digit
    · exact isDigit_zeros padding char zero
    · exact isDigit_toDigits _ char digit
  have filled : shown ≠ [] := fun empty =>
    Nat.toDigits_ne_nil (List.append_eq_nil_iff.mp empty).2
  have value : digitsValue shown
      = (((Nat.toDigits 10 number).length : Int) + power - 1).natAbs := by
    rw [digitsValue_zeros_append, digitsValue_toDigits]
  have reads := unsigned_exponent negative (isWhole_take positive Nat.one_pos) all shownAll filled
    value ends
  have moved : ((Nat.toDigits 10 number).length : Int) + power - 1
      - ((Nat.toDigits 10 number).drop 1).length = power := by
    rw [List.length_drop]
    omega
  rw [digitsValue_take_drop, moved] at reads
  exact reads

/-- However a decimal is laid out, it is read back. -/
theorem unsigned_decimal :
    unsigned? negative ((Binary64.documentLayout.decimal number power).toList ++ rest)
      = some (.real (.ofDecimal negative number power), rest) := by
  have length := length_digits number
  unfold Binary64.Layout.decimal
  dsimp only
  split
  · split
    · rename_i low
      rw [← unsigned_fraction negative ends low]
      simp only [String.toList_append, String.toList_ofList, Binary64.zeros]
      rfl
    · rename_i above
      split
      · rename_i inside
        rw [← unsigned_inside negative positive ends (not_le.mp above) inside]
        simp only [String.toList_append, String.toList_ofList]
        rfl
      · rename_i beyond
        rw [← unsigned_before negative positive ends (by omega : 0 ≤ power)]
        have count : (((Nat.toDigits 10 number).length : Int) + power).toNat
            - (Nat.toDigits 10 number).length = power.toNat := by omega
        simp only [String.toList_append, String.toList_ofList, Binary64.zeros, count]
        rfl
  · rw [← unsigned_scientific negative positive ends (2 - (toString
      (((Nat.toDigits 10 number).length : Int) + power - 1).natAbs).length)]
    have magnitude (size : Nat) : (toString size).toList = Nat.toDigits 10 size := Nat.toList_repr
    have point : (((Nat.toDigits 10 number).drop 1).isEmpty = true)
        ↔ (Nat.toDigits 10 number).length ≤ 1 := by
      rw [List.isEmpty_iff, List.drop_eq_nil_iff]
    have mark : Binary64.documentLayout.mark.toList = ['e'] := rfl
    have width : Binary64.documentLayout.minExponentDigits = 2 := rfl
    have texts : "".toList = [] ∧ ".".toList = ['.'] ∧ "-".toList = ['-'] ∧ "+".toList = ['+'] :=
      ⟨rfl, rfl, rfl, rfl⟩
    simp only [String.toList_append, String.toList_ofList, Binary64.zeros, magnitude, point, mark,
      width, texts, exponentChars, apply_ite String.toList, List.append_assoc, List.cons_append,
      List.nil_append]
    split <;> split <;> rfl

end

/-! ### Numbers with a sign -/

theorem digit_of_unsigned {negative : Bool} {text rest : List Char} {value : Json}
    (found : unsigned? negative text = some (value, rest)) :
    ∃ char others, text = char :: others ∧ char.isDigit = true := by
  rw [unsigned_eq] at found
  split at found
  · cases found
  · rename_i filled
    cases text with
    | nil => exact absurd rfl filled
    | cons char others =>
        refine ⟨char, others, rfl, ?_⟩
        by_contra other
        apply filled
        unfold leading
        split
        · rename_i rest' spelled
          rw [(List.cons.inj spelled).1] at other
          exact absurd rfl other
        · rw [List.takeWhile_cons_of_neg other]
          rfl

theorem scalar_of_unsigned {text rest : List Char} {value : Json}
    (found : unsigned? false text = some (value, rest)) : scalar text = .ok (value, rest) := by
  obtain ⟨char, others, rfl, digit⟩ := digit_of_unsigned found
  have other {letter : Char} (word : letter.isDigit = false) : char ≠ letter := by
    intro same
    rw [same, word] at digit
    cases digit
  unfold scalar
  dsimp only
  split
  · rename_i given left word
    split at word
    · rename_i spelled; exact absurd (List.cons.inj spelled).1 (other (by decide))
    · rename_i spelled; exact absurd (List.cons.inj spelled).1 (other (by decide))
    · rename_i spelled; exact absurd (List.cons.inj spelled).1 (other (by decide))
    · rename_i spelled; exact absurd (List.cons.inj spelled).1 (other (by decide))
    · rename_i spelled; exact absurd (List.cons.inj spelled).1 (other (by decide))
    · rename_i spelled; exact absurd (List.cons.inj spelled).1 (other (by decide))
    · rename_i spelled; exact absurd (List.cons.inj spelled).1 (other (by decide))
    · rw [found] at word
      cases word
      rfl
  · rename_i word
    split at word
    · cases word
    · cases word
    · cases word
    · cases word
    · cases word
    · cases word
    · rename_i spelled; exact absurd (List.cons.inj spelled).1 (other (by decide))
    · rw [found] at word
      cases word

theorem scalar_of_minus {text rest : List Char} {value : Json}
    (found : unsigned? true text = some (value, rest)) :
    scalar ('-' :: text) = .ok (value, rest) := by
  obtain ⟨char, others, rfl, digit⟩ := digit_of_unsigned found
  have notWord : char ≠ 'I' := by
    intro same
    rw [same] at digit
    cases digit
  unfold scalar
  dsimp only
  split
  · rename_i given left word
    split at word
    · rename_i spelled; cases (List.cons.inj spelled).1
    · rename_i spelled; cases (List.cons.inj spelled).1
    · rename_i spelled; cases (List.cons.inj spelled).1
    · rename_i spelled; cases (List.cons.inj spelled).1
    · rename_i spelled; cases (List.cons.inj spelled).1
    · rename_i spelled
      exact absurd (List.cons.inj (List.cons.inj spelled).2).1 notWord
    · rename_i spelled
      cases spelled
      rw [found] at word
      cases word
      rfl
    · rename_i negative
      exact absurd rfl (negative _)
  · rename_i word
    split at word
    · cases word
    · cases word
    · cases word
    · cases word
    · cases word
    · cases word
    · rename_i spelled
      cases spelled
      rw [found] at word
      cases word
    · rename_i negative
      exact absurd rfl (negative _)

theorem scalar_int (value : Int) {rest : List Char} (ends : Delimits rest) :
    scalar ((toString value).toList ++ rest) = .ok (.int value, rest) := by
  have texts (number : Nat) : (toString number).toList = Nat.toDigits 10 number := Nat.toList_repr
  cases value with
  | ofNat number =>
      have reads := unsigned_integer false (isWhole_toDigits number) ends
      rw [digitsValue_toDigits] at reads
      have text : (toString (Int.ofNat number)).toList = Nat.toDigits 10 number := texts number
      rw [text]
      exact scalar_of_unsigned reads
  | negSucc number =>
      have reads := unsigned_integer true (isWhole_toDigits (number + 1)) ends
      rw [digitsValue_toDigits] at reads
      have text : (toString (Int.negSucc number)).toList
          = '-' :: Nat.toDigits 10 (number + 1) := by
        have spelled : toString (Int.negSucc number) = "-" ++ toString (number + 1) := rfl
        rw [spelled, String.toList_append, texts]
        rfl
      rw [text, List.cons_append]
      exact scalar_of_minus reads

/-- Every double in its one form is read back. -/
theorem scalar_real {value : Binary64} (canonical : value.IsCanonical) {rest : List Char}
    (ends : Delimits rest) :
    scalar ((Binary64.documentLayout.text value).toList ++ rest) = .ok (.real value, rest) := by
  cases value with
  | nan => rfl
  | infinite negative =>
      cases negative with
      | true => rfl
      | false => rfl
  | finite negative significand exponent =>
      have unsigned : unsigned? negative ((if significand = 0 then "0.0"
          else
            Binary64.documentLayout.decimal (Binary64.shortest significand exponent).1
              (Binary64.shortest significand exponent).2).toList ++ rest)
          = some (.real (.finite negative significand exponent), rest) := by
        by_cases none : significand = 0
        · have zero : IsWhole ['0'] := ⟨isDigit_zeros 1, List.cons_ne_nil '0' [], Or.inl rfl⟩
          have digit : ∀ char ∈ ['0'], char.isDigit = true := isDigit_zeros 1
          have reads := unsigned_places negative zero digit (List.cons_ne_nil '0' []) ends
          have least : exponent = Binary64.minExponent := by
            rcases canonical.2.2.2 with large | least
            · omega
            · exact least
          rw [if_pos none, none, least]
          refine reads.trans ?_
          rw [Binary64.ofDecimal, Binary64.trimZeros]
          rfl
        · rw [if_neg none]
          have positive : 0 < significand := by omega
          let decimal := Binary64.shortest significand exponent
          have reads : unsigned? negative
              ((Binary64.documentLayout.decimal decimal.1 decimal.2).toList ++ rest)
                = some (.real (.ofDecimal negative decimal.1 decimal.2), rest) :=
            unsigned_decimal negative (Binary64.shortest_positive negative canonical positive) ends
          rw [Binary64.shortest_reads negative canonical positive] at reads
          exact reads
      unfold Binary64.Layout.text
      dsimp only
      cases negative with
      | true =>
          rw [if_pos rfl, String.toList_append, List.append_assoc]
          exact scalar_of_minus unsigned
      | false =>
          rw [if_neg (by decide), String.empty_append]
          exact scalar_of_unsigned unsigned

end RefSync.Json
