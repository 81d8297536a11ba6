/-
Reading JSON text. A failure names what was expected and the offset where, counted
in characters. Object keys keep the position of their first occurrence and the
value of their last. Besides the standard's numbers, `NaN`, `Infinity` and
`-Infinity` are read.
-/

import RefSync.Json.Value

namespace RefSync.Json

inductive Expectation where
  | noByteOrderMark
  | value
  | propertyName
  | colon
  | comma
  | closingQuote
  | printableCharacter
  | escape
  | unicodeEscape
  | endOfText
deriving DecidableEq, Repr

def Expectation.message : Expectation → String
  | .noByteOrderMark => "Unexpected UTF-8 BOM (decode using utf-8-sig)"
  | .value => "Expecting value"
  | .propertyName => "Expecting property name enclosed in double quotes"
  | .colon => "Expecting ':' delimiter"
  | .comma => "Expecting ',' delimiter"
  | .closingQuote => "Unterminated string starting at"
  | .printableCharacter => "Invalid control character at"
  | .escape => "Invalid \\escape"
  | .unicodeEscape => "Invalid \\uXXXX escape"
  | .endOfText => "Extra data"

/-- A failure inside a text: what was expected and how many characters were left. -/
structure Stop where
  expected : Expectation
  left : Nat
deriving DecidableEq, Repr

/-- A failure with its place: offset, line and column. -/
structure SyntaxFault where
  expected : Expectation
  offset : Nat
  line : Nat
  column : Nat
deriving DecidableEq, Repr

def SyntaxFault.message (fault : SyntaxFault) : String :=
  fault.expected.message ++ ": line " ++ toString fault.line ++ " column "
    ++ toString fault.column ++ " (char " ++ toString fault.offset ++ ")"

/-- Lines count from 1, as do the columns after the last line end. -/
def SyntaxFault.at (text : List Char) (expected : Expectation) (offset : Nat) : SyntaxFault :=
  let before := text.take offset
  { expected, offset
    line := before.count '\n' + 1
    column := (before.reverse.takeWhile (· != '\n')).length + 1 }

namespace Reader

def isSpace (char : Char) : Bool :=
  char == ' ' || char == '\t' || char == '\n' || char == '\r'

def skipSpace (text : List Char) : List Char :=
  text.dropWhile isSpace

def stop {α : Type} (expected : Expectation) (text : List Char) : Except Stop (α × List Char) :=
  .error ⟨expected, text.length⟩

def hexValue? (char : Char) : Option Nat :=
  if '0' ≤ char ∧ char ≤ '9' then some (char.toNat - '0'.toNat)
  else if 'a' ≤ char ∧ char ≤ 'f' then some (char.toNat - 'a'.toNat + 10)
  else if 'A' ≤ char ∧ char ≤ 'F' then some (char.toNat - 'A'.toNat + 10)
  else none

/-- Four hexadecimal digits with at least one character after them. -/
def codeUnit? : List Char → Option (Nat × List Char)
  | a :: b :: c :: d :: next :: rest => do
      let a ← hexValue? a
      let b ← hexValue? b
      let c ← hexValue? c
      let d ← hexValue? d
      some (((a * 16 + b) * 16 + c) * 16 + d, next :: rest)
  | _ => none

def isHighSurrogate (code : Nat) : Bool :=
  0xd800 ≤ code && code < 0xdc00

def isLowSurrogate (code : Nat) : Bool :=
  0xdc00 ≤ code && code < 0xe000

def simpleEscape? : Char → Option Char
  | '"' => some '"'
  | '\\' => some '\\'
  | '/' => some '/'
  | 'b' => some '\x08'
  | 'f' => some '\x0c'
  | 'n' => some '\n'
  | 'r' => some '\r'
  | 't' => some '\t'
  | _ => none

/-- A code unit that is not part of a pair; a lone surrogate becomes U+FFFD. -/
def unitChar (code : Nat) : Char :=
  if isHighSurrogate code || isLowSurrogate code then '\ufffd' else Char.ofNat code

/-- The characters of a string up to its closing quote. `opened` is the number of
characters left at the opening quote. -/
def string (opened : Nat) : Nat → List Char → Except Stop (List Char × List Char)
  | 0, _ => .error ⟨.closingQuote, opened⟩
  | _ + 1, [] => .error ⟨.closingQuote, opened⟩
  | fuel + 1, char :: rest =>
      if char == '"' then .ok ([], rest)
      else if char == '\\' then
        match rest with
        | [] => .error ⟨.closingQuote, opened⟩
        | 'u' :: digits =>
            match codeUnit? digits with
            | none => stop .unicodeEscape rest
            | some (code, after) =>
                let single := do
                  let (chars, left) ← string opened fuel after
                  .ok (unitChar code :: chars, left)
                match after with
                | '\\' :: 'u' :: digits₂ =>
                    match codeUnit? digits₂ with
                    | some (second, after₂) =>
                        if isHighSurrogate code && isLowSurrogate second then do
                          let (chars, left) ← string opened fuel after₂
                          let joined := 0x10000 + (code - 0xd800) * 0x400 + (second - 0xdc00)
                          .ok (Char.ofNat joined :: chars, left)
                        else single
                    | none => single
                | _ => single
        | letter :: after =>
            match simpleEscape? letter with
            | none => stop .escape (char :: rest)
            | some char => do
                let (chars, left) ← string opened fuel after
                .ok (char :: chars, left)
      else if char.toNat < 32 then stop .printableCharacter (char :: rest)
      else do
        let (chars, left) ← string opened fuel rest
        .ok (char :: chars, left)

def digitsValue (digits : List Char) : Nat :=
  digits.foldl (fun value digit => value * 10 + (digit.toNat - '0'.toNat)) 0

/-- The digits after a point, if the text starts with a point and a digit. -/
def fraction : List Char → List Char × List Char
  | '.' :: rest =>
      if (rest.takeWhile Char.isDigit).isEmpty then ([], '.' :: rest)
      else (rest.takeWhile Char.isDigit, rest.dropWhile Char.isDigit)
  | text => ([], text)

/-- The exponent, if the text starts with a complete one. -/
def exponent (text : List Char) : Option (Int × List Char) :=
  match text with
  | mark :: rest =>
      if mark == 'e' || mark == 'E' then
        let (negative, rest) :=
          match rest with
          | '-' :: rest => (true, rest)
          | '+' :: rest => (false, rest)
          | rest => (false, rest)
        let digits := rest.takeWhile Char.isDigit
        if digits.isEmpty then none
        else
          let value : Int := digitsValue digits
          some (if negative then -value else value, rest.dropWhile Char.isDigit)
      else none
  | [] => none

/-- The longest number at the start of an unsigned text. -/
def unsigned? (negative : Bool) (text : List Char) : Option (Json × List Char) :=
  let whole := match text with
    | '0' :: _ => ['0']
    | _ => text.takeWhile Char.isDigit
  if whole.isEmpty then none
  else
    let rest := text.drop whole.length
    let (places, rest) := fraction rest
    match places, exponent rest with
    | [], none =>
        let value : Int := digitsValue whole
        some (.int (if negative then -value else value), rest)
    | places, power =>
        let (power, rest) := power.getD (0, rest)
        some (.real (.ofDecimal negative (digitsValue (whole ++ places)) (power - places.length)),
          rest)

/-- A word, a number, or nothing that starts a value. -/
def scalar (text : List Char) : Except Stop (Json × List Char) :=
  let found : Option (Json × List Char) :=
    match text with
    | 'n' :: 'u' :: 'l' :: 'l' :: rest => some (.null, rest)
    | 't' :: 'r' :: 'u' :: 'e' :: rest => some (.bool true, rest)
    | 'f' :: 'a' :: 'l' :: 's' :: 'e' :: rest => some (.bool false, rest)
    | 'N' :: 'a' :: 'N' :: rest => some (.real .nan, rest)
    | 'I' :: 'n' :: 'f' :: 'i' :: 'n' :: 'i' :: 't' :: 'y' :: rest =>
        some (.real (.infinite false), rest)
    | '-' :: 'I' :: 'n' :: 'f' :: 'i' :: 'n' :: 'i' :: 't' :: 'y' :: rest =>
        some (.real (.infinite true), rest)
    | '-' :: rest => unsigned? true rest
    | text => unsigned? false text
  match found with
  | some (value, rest) => .ok (value, rest)
  | none => stop .value text

mutual
/-- The value at the start of a text. Fuel bounds the nesting and the items. -/
def value : Nat → List Char → Except Stop (Json × List Char)
  | 0, text => stop .value text
  | fuel + 1, text =>
      match text with
      | '"' :: rest => do
          let (chars, rest) ← string text.length text.length rest
          .ok (.str (String.ofList chars), rest)
      | '[' :: rest =>
          match skipSpace rest with
          | ']' :: rest => .ok (.arr [], rest)
          | rest => do
              let (items, rest) ← items fuel rest
              .ok (.arr items, rest)
      | '\x7b' :: rest =>
          match skipSpace rest with
          | '\x7d' :: rest => .ok (.obj [], rest)
          | rest => do
              let (members, rest) ← members fuel [] rest
              .ok (.obj members, rest)
      | text => scalar text

/-- The items of an array from one of them to the closing bracket. -/
def items : Nat → List Char → Except Stop (List Json × List Char)
  | 0, text => stop .value text
  | fuel + 1, text => do
      let (item, rest) ← value fuel text
      match skipSpace rest with
      | ']' :: rest => .ok ([item], rest)
      | ',' :: rest => do
          let (items, rest) ← items fuel (skipSpace rest)
          .ok (item :: items, rest)
      | rest => stop .comma rest

/-- The members of an object from one of them to the closing brace, added to the
members before them. -/
def members : Nat → Document → List Char → Except Stop (Document × List Char)
  | 0, _, text => stop .propertyName text
  | fuel + 1, before, text =>
      match text with
      | '"' :: rest => do
          let (key, rest) ← string text.length text.length rest
          match skipSpace rest with
          | ':' :: rest => do
              let (value, rest) ← value fuel (skipSpace rest)
              let before := before.set (String.ofList key) value
              match skipSpace rest with
              | '\x7d' :: rest => .ok (before, rest)
              | ',' :: rest => members fuel before (skipSpace rest)
              | rest => stop .comma rest
          | rest => stop .colon rest
      | text => stop .propertyName text
end

/-- One value with nothing but space around it. -/
def whole (text : List Char) : Except Stop Json :=
  match text with
  | '\ufeff' :: _ => .error ⟨.noByteOrderMark, text.length⟩
  | text => do
      let (value, rest) ← value (2 * text.length + 2) (skipSpace text)
      match skipSpace rest with
      | [] => .ok value
      | rest => .error ⟨.endOfText, rest.length⟩

end Reader

def readChars (text : List Char) : Except SyntaxFault Json :=
  match Reader.whole text with
  | .ok value => .ok value
  | .error stop => .error (.at text stop.expected (text.length - stop.left))

def read (text : String) : Except SyntaxFault Json :=
  readChars text.toList

end RefSync.Json
