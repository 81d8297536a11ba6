/-
The written form of a document: two spaces per level, one member or item a line,
empty containers closed at once, and one line end after it all. Only quotes,
backslashes and characters below U+0020 are escaped.
-/

import RefSync.Json.Value
import RefSync.Binary64.Shortest

namespace RefSync.Json

def hexDigits (width code : Nat) : List Char :=
  let digits := Nat.toDigits 16 code
  List.replicate (width - digits.length) '0' ++ digits

/-- A character inside a string. -/
def escapeChar (char : Char) : List Char :=
  match char with
  | '"' => ['\\', '"']
  | '\\' => ['\\', '\\']
  | '\n' => ['\\', 'n']
  | '\r' => ['\\', 'r']
  | '\t' => ['\\', 't']
  | '\x08' => ['\\', 'b']
  | '\x0c' => ['\\', 'f']
  | char => if char.toNat < 32 then '\\' :: 'u' :: hexDigits 4 char.toNat else [char]

def quote (text : String) : List Char :=
  '"' :: (text.toList.flatMap escapeChar ++ ['"'])

/-- A line end and the indentation of a level. -/
def newline (level : Nat) : List Char :=
  '\n' :: List.replicate (2 * level) ' '

def scalarText : Json → List Char
  | .null => "null".toList
  | .bool true => "true".toList
  | .bool false => "false".toList
  | .int value => (toString value).toList
  | .real value => (Binary64.documentLayout.text value).toList
  | .str value => quote value
  | _ => []

mutual
/-- The text of a value whose line is at a level of indentation. -/
def render (level : Nat) : Json → List Char
  | .arr [] => ['[', ']']
  | .arr (item :: items) =>
      '[' :: (newline (level + 1) ++ item.render (level + 1) ++ renderItems (level + 1) items
        ++ newline level ++ [']'])
  | .obj [] => ['\x7b', '\x7d']
  | .obj ((key, value) :: members) =>
      '\x7b' :: (newline (level + 1) ++ quote key ++ [':', ' '] ++ value.render (level + 1)
        ++ renderMembers (level + 1) members ++ newline level ++ ['\x7d'])
  | value => scalarText value

/-- The items after the first. -/
def renderItems (level : Nat) : List Json → List Char
  | [] => []
  | item :: items => ',' :: (newline level ++ item.render level ++ renderItems level items)

/-- The members after the first. -/
def renderMembers (level : Nat) : List (String × Json) → List Char
  | [] => []
  | (key, value) :: members =>
      ',' :: (newline level ++ quote key ++ [':', ' '] ++ value.render level
        ++ renderMembers level members)
end

/-- The file contents of a document. -/
def contents (value : Json) : List Char :=
  value.render 0 ++ ['\n']

def print (value : Json) : String :=
  String.ofList value.contents

end RefSync.Json
