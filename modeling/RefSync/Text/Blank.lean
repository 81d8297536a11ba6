/-
Blank characters and trimmed text. Spaces may surround a number written as text; a
workspace name counts as empty when it has only blanks, which are a few more. Both
classes are larger than the blanks of a JSON document, which `Json.Reader` has.
-/

namespace RefSync

/-- Every Unicode space, and the control characters that move to another place. -/
def isSpace (char : Char) : Bool :=
  let code := char.toNat
  (9 ≤ code && code ≤ 13) || code == 32 || code == 0x85 || code == 0xa0
    || code == 0x1680 || (0x2000 ≤ code && code ≤ 0x200a) || code == 0x2028 || code == 0x2029
    || code == 0x202f || code == 0x205f || code == 0x3000

/-- Spaces and the four control characters that separate records. -/
def isBlank (char : Char) : Bool :=
  isSpace char || (28 ≤ char.toNat && char.toNat ≤ 31)

/-- Characters without the spaces at both ends. -/
def trimSpaces (chars : List Char) : List Char :=
  ((chars.dropWhile isSpace).reverse.dropWhile isSpace).reverse

/-- Text that is empty or consists of blanks. -/
def isBlankText (text : String) : Bool :=
  text.toList.all isBlank

theorem isBlank_of_isWhitespace {char : Char} (blank : char.isWhitespace = true) :
    isBlank char = true := by
  simp only [Char.isWhitespace, Bool.or_eq_true, decide_eq_true_eq] at blank
  rcases blank with ((blank | blank) | blank) | blank <;> subst blank <;> decide

end RefSync
