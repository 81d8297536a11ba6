/-
Conditions as `test` and `[` read them: comparisons of texts and numbers, questions
about files, and their combinations. Which word is an operator depends on how many words
follow it.
-/

import RefSync.Compiler.Shell.Numeral
import RefSync.FileTree

namespace RefSync.Compiler.Shell.Condition

inductive Fault where
  | missingBracket
  | unexpectedOperator (word : Bytes)
  | argumentExpected (word : Bytes)
  | parenthesisExpected
  | illegalNumber (text : Bytes)
deriving Repr

def Fault.message : Fault → Bytes
  | .missingBracket => "missing ]".toList
  | .unexpectedOperator word => labelled word "unexpected operator"
  | .argumentExpected word => labelled word "argument expected"
  | .parenthesisExpected => "closing paren expected".toList
  | .illegalNumber text => "Illegal number: ".toList ++ text
where
  labelled (word : Bytes) (text : String) : Bytes :=
    (if word.isEmpty then [] else word ++ ": ".toList) ++ text.toList

def unaryOperators : List String :=
  ["-r", "-w", "-x", "-e", "-f", "-d", "-c", "-b", "-p", "-u", "-g", "-k", "-s", "-t", "-z", "-n",
    "-h", "-O", "-G", "-L", "-S"]

def binaryOperators : List String :=
  ["=", "!=", "<", ">", "-eq", "-ne", "-ge", "-gt", "-le", "-lt", "-nt", "-ot", "-ef"]

def isUnary (word : Bytes) : Bool :=
  unaryOperators.contains (String.ofList word)

def isBinary (word : Bytes) : Bool :=
  binaryOperators.contains (String.ofList word)

/-- What a word is where it stands. -/
inductive Role where
  | nothing
  | operand
  | unary
  | binary
  | negation
  | conjunction
  | disjunction
  | opening
  | closing
deriving DecidableEq

/-- An operator of one operand is itself an operand at the end, and in front of an
operator of two. -/
def role : List Bytes → Role
  | [] => .nothing
  | word :: rest =>
      if isUnary word then
        let isOperand := match rest with
          | [] => true
          | [_] => false
          | next :: _ => isBinary next
        if isOperand then .operand else .unary
      else if isBinary word then .binary
      else
        match word with
        | ['!'] => .negation
        | ['-', 'a'] => .conjunction
        | ['-', 'o'] => .disjunction
        | ['('] => if rest.isEmpty then .operand else .opening
        | [')'] => .closing
        | _ => .operand

/-- What is known of the outside. -/
structure World where
  found : Bytes → Option Entry
  isTerminal : Nat → Bool

def number (text : Bytes) : Except Fault Int :=
  match wholeNumeral? text with
  | some value => .ok value
  | none => .error (.illegalNumber text)

def size : Entry → Nat
  | .file (.text chars) => (Utf8.encode (String.ofList chars)).length
  | .file (.bytes bytes) => bytes.length
  | .directory => 1

def unary (world : World) (operator operand : Bytes) : Except Fault Bool :=
  let entry := world.found operand
  match operator with
  | ['-', 'z'] => .ok operand.isEmpty
  | ['-', 'n'] => .ok !operand.isEmpty
  | ['-', 't'] => do return world.isTerminal (← number operand).toNat
  | ['-', 'f'] => .ok (entry.any (· != .directory))
  | ['-', 'd'] => .ok (entry == some .directory)
  | ['-', 's'] => .ok (entry.any fun entry => size entry ≠ 0)
  | ['-', 'e'] | ['-', 'r'] | ['-', 'w'] | ['-', 'O'] | ['-', 'G'] => .ok entry.isSome
  | ['-', 'x'] => .ok (entry == some .directory)
  | _ => .ok false

def binary (left operator right : Bytes) : Except Fault Bool := do
  let compared (holds : Int → Int → Bool) : Except Fault Bool := do
    return holds (← number left) (← number right)
  match String.ofList operator with
  | "=" => return left == right
  | "!=" => return left != right
  | "<" => return left < right
  | ">" => return right < left
  | "-eq" => compared (· == ·)
  | "-ne" => compared (· != ·)
  | "-ge" => compared (· ≥ ·)
  | "-gt" => compared (· > ·)
  | "-le" => compared (· ≤ ·)
  | "-lt" => compared (· < ·)
  | _ => return false

/-- A condition at the start of words, and the words from its last one. -/
abbrev Reader := List Bytes → Except Fault (Bool × List Bytes)

/-- A comparison, a question or a single text. -/
def primary (world : World) (whole : Reader) (words : List Bytes) :
    Except Fault (Bool × List Bytes) :=
  match role words, words with
  | .nothing, _ => .ok (false, words)
  | .opening, _ :: inside => do
      if role inside == .closing then return (false, inside)
      let (result, rest) ← whole inside
      if role rest.tail == .closing then return (result, rest.tail)
      else .error .parenthesisExpected
  | .unary, operator :: rest =>
      match rest with
      | [] => .error (.argumentExpected operator)
      | operand :: _ => do return (← unary world operator operand, rest)
  | _, left :: operator :: rest =>
      if role (operator :: rest) == .binary then
        match rest with
        | [] => .error (.argumentExpected operator)
        | right :: _ => do return (← binary left operator right, rest)
      else .ok (!left.isEmpty, words)
  | _, word :: _ => .ok (!word.isEmpty, words)
  | _, [] => .ok (false, words)

def negated (world : World) (whole : Reader) : List Bytes → Except Fault (Bool × List Bytes)
  | [] => primary world whole []
  | word :: rest =>
      if role (word :: rest) == .negation then
        match rest with
        | [] => .ok (true, [word])
        | rest => do
            let (result, rest) ← negated world whole rest
            return (!result, rest)
      else primary world whole (word :: rest)

/-- Conditions joined by an operator, the first one as if nothing stood before it. -/
def joined (part : Reader) (isOperator : Role → Bool) (join : Bool → Bool → Bool) :
    Nat → Bool → Reader
  | 0, result, words => .ok (result, words)
  | fuel + 1, result, words => do
      let (next, rest) ← part words
      let result := join result next
      if isOperator (role rest.tail) then joined part isOperator join fuel result rest.tail.tail
      else return (result, rest)

def expression (world : World) : Nat → Reader
  | 0, words => .ok (false, words)
  | fuel + 1, words =>
      let conjunction (words : List Bytes) :=
        joined (negated world (expression world fuel)) (· == .conjunction) (· && ·)
          (words.length + 1) true words
      joined conjunction (· == .disjunction) (· || ·) (words.length + 1) false words

/-- Three words with an operator of two operands in the middle. -/
def isComparison : List Bytes → Bool
  | [_, operator, _] => isBinary operator
  | _ => false

/-- Three or four words may be in parentheses, or have negations in front of them as a
whole, of which several are one. -/
def outer : List Bytes → Bool × List Bytes
  | [] => (false, [])
  | word :: rest =>
      let isShort := rest.length == 2 || rest.length == 3
      if isComparison (word :: rest) || !isShort then (false, word :: rest)
      else if word == ['('] && rest.getLast? == some [')'] then (false, rest.dropLast)
      else if word == ['!'] then (true, (outer rest).2)
      else (false, word :: rest)

/-- A condition that takes all words but the last one at most. -/
def wholly (world : World) (words : List Bytes) : Except Fault Bool := do
  let (result, rest) ← match words with
    | [left, operator, right] =>
        if isBinary operator then do pure (← binary left operator right, [right])
        else expression world (words.length + 1) words
    | words => expression world (words.length + 1) words
  match rest with
  | word :: _ :: _ => .error (.unexpectedOperator word)
  | _ => return result

def evaluate (world : World) (words : List Bytes) : Except Fault Bool := do
  let (negated, words) := outer words
  if words.isEmpty then return false
  return (← wholly world words) != negated

end RefSync.Compiler.Shell.Condition
