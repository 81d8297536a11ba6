/-
The command language of the compiler's commands: words with what is to be put into them,
redirections, and commands. Text is a list of bytes, each written as the character of
its number, since commands print, count and compare bytes.
-/

import RefSync.Text.Utf8

namespace RefSync.Compiler.Shell

/-- Text of commands, a character for each byte. -/
abbrev Bytes := List Char

def Bytes.ofString (text : String) : Bytes :=
  (Utf8.encode text).map fun byte => Char.ofNat byte.toNat

def Bytes.numbers (bytes : Bytes) : List UInt8 :=
  bytes.map fun char => char.toNat.toUInt8

/-- The text that bytes are; what is no text is replaced. -/
def Bytes.shown (bytes : Bytes) : String :=
  Utf8.decodeLossy bytes.numbers

/-- Whether bytes are in front of others, or the same. -/
def Bytes.precedes (left right : Bytes) : Bool :=
  decide (String.ofList left ≤ String.ofList right)

/-- What is done about a parameter that has no value. -/
inductive Fallback where
  | use
  | assign
  | refuse
  | replace
deriving DecidableEq, Repr

mutual

/-- A piece of a word. A quoted one is neither split nor taken for a pattern. -/
inductive Piece where
  | text (bytes : Bytes) (quoted : Bool)
  | parameter (name : String) (form : Form) (quoted : Bool)
  | output (command : Command) (quoted : Bool)
  | arithmetic (expression : List Piece) (quoted : Bool)
  | meaningless

/-- What is taken of a parameter. -/
inductive Form where
  | value
  | length
  | fallback (kind : Fallback) (whenEmpty : Bool) (word : List Piece)
  | without (atEnd longest : Bool) (pattern : List Piece)

/-- Where a stream of a command leads. -/
inductive Target where
  | read (file : List Piece)
  | write (file : List Piece)
  | append (file : List Piece)
  | update (file : List Piece)
  | stream (name : List Piece)
  | text (document : Nat)

inductive Redirection where
  | into (stream : Nat) (target : Target)

/-- A line number is kept where a message may need it. -/
inductive Command where
  | nothing
  | simple (line : Nat) (assignments : List (String × List Piece)) (words : List (List Piece))
      (redirections : List Redirection)
  | pipeline (stages : List Command)
  | negation (command : Command)
  | both (first second : Command)
  | either (first second : Command)
  | sequence (first second : Command)
  | background (command : Command)
  | subshell (line : Nat) (body : Command)
  | redirected (line : Nat) (body : Command) (redirections : List Redirection)
  | branch (condition whenTrue whenFalse : Command)
  | loop (goal : Bool) (condition body : Command)
  | each (line : Nat) (name : String) (words : List (List Piece)) (body : Command)
  | choice (line : Nat) (subject : List Piece) (cases : List (List (List Piece) × Command))
  | definition (name : String) (body : Command)

end

instance : Inhabited Command := ⟨.nothing⟩

def isNameStart (char : Char) : Bool :=
  char.isAlpha || char == '_'

def isNameChar (char : Char) : Bool :=
  char.isAlphanum || char == '_'

def isName (text : Bytes) : Bool :=
  match text with
  | first :: rest => isNameStart first && rest.all isNameChar
  | [] => false

end RefSync.Compiler.Shell
