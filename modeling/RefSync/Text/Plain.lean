/-
Text without the sequences that control a terminal: an escape, an opening bracket,
parameters, and one letter.
-/

namespace RefSync

def isParameter (char : Char) : Bool :=
  char.isDigit || char == ';' || char == '?'

/-- The length of the control sequence that a text starts with, or 0. -/
def controlLength : List Char → Nat
  | '\x1b' :: '[' :: rest =>
      let parameters := rest.takeWhile isParameter
      match rest.drop parameters.length with
      | final :: _ => if final.isAlpha then parameters.length + 3 else 0
      | [] => 0
  | _ => 0

/-- Leaves characters out, and then every control sequence. What meets by that is left
alone. -/
def plainFrom : Nat → List Char → List Char
  | _, [] => []
  | skipped + 1, _ :: rest => plainFrom skipped rest
  | 0, char :: rest =>
      match controlLength (char :: rest) with
      | 0 => char :: plainFrom 0 rest
      | length + 1 => plainFrom length rest

def plainText (text : String) : String :=
  String.ofList (plainFrom 0 text.toList)

end RefSync
