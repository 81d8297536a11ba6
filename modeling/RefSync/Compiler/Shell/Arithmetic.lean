/-
Arithmetic in commands: whole numbers of 64 bits with the usual operators, and
assignments to bindings. An unset or empty variable is zero.
-/

import RefSync.Compiler.Shell.Numeral
import RefSync.Table

namespace RefSync.Compiler.Shell.Arithmetic

inductive Fault where
  | expecting (what : String)
  | divisionByZero
  | illegalNumber (text : Bytes)
deriving Repr

/-! ### Tokens -/

inductive Token where
  | number (value : Int)
  | name (name : String)
  | operator (text : String)
  | unknown
deriving DecidableEq, Repr

def assignments : List String :=
  ["<<=", ">>=", "*=", "/=", "%=", "+=", "-=", "&=", "^=", "|=", "="]

/-- Operators, those before their beginnings. -/
def operators : List String :=
  ["<<=", ">>=", "<<", ">>", "<=", ">=", "==", "!=", "&&", "||", "*=", "/=", "%=", "+=", "-=",
    "&=", "^=", "|=", "<", ">", "=", "!", "&", "|", "^", "~", "*", "/", "%", "+", "-", "?", ":",
    "(", ")"]

/-- The tokens of an expression. What cannot be a token ends it. -/
def tokens : Nat → Bytes → List Token
  | 0, _ => []
  | _ + 1, [] => []
  | fuel + 1, char :: rest =>
      let text := char :: rest
      if char == ' ' || char == '\t' || char == '\n' then tokens fuel rest
      else if isNameStart char then
        let name := text.takeWhile isNameChar
        .name (String.ofList name) :: tokens fuel (text.drop name.length)
      else
        match unsignedNumeral? text with
        | some (value, rest) => .number (clamp value) :: tokens fuel rest
        | none =>
            match operators.find? fun operator => operator.toList.isPrefixOf text with
            | some operator => .operator operator :: tokens fuel (text.drop operator.length)
            | none => [.unknown]

/-! ### Expressions -/

inductive Expression where
  | number (value : Int)
  | named (name : String)
  | unary (operator : String) (operand : Expression)
  | binary (operator : String) (left right : Expression)
  | choice (condition whenTrue whenFalse : Expression)
  | assign (operator name : String) (value : Expression)
deriving Repr

abbrev Parser := List Token → Except Fault (Expression × List Token)

/-- Binary operators from those that bind least. -/
def levels : List (List String) :=
  [["||"], ["&&"], ["|"], ["^"], ["&"], ["==", "!="], ["<", "<=", ">", ">="], ["<<", ">>"],
    ["+", "-"], ["*", "/", "%"]]

/-- Operands of operators of one level, after the first. -/
def operandsAfter (operand : Parser) (operators : List String) : Nat → Expression → Parser
  | 0, left, tokens => .ok (left, tokens)
  | fuel + 1, left, tokens =>
      match tokens with
      | .operator operator :: rest =>
          if operators.contains operator then do
            let (right, rest) ← operand rest
            operandsAfter operand operators fuel (.binary operator left right) rest
          else .ok (left, tokens)
      | tokens => .ok (left, tokens)

def binary (primary : Parser) : List (List String) → Parser
  | [], tokens => primary tokens
  | operators :: tighter, tokens => do
      let (left, rest) ← binary primary tighter tokens
      operandsAfter (binary primary tighter) operators rest.length left rest

/-- A number, a variable, or an expression in parentheses, after any signs. -/
def primary (whole : Parser) : Nat → Parser
  | 0, _ => .error (.expecting "primary")
  | fuel + 1, tokens =>
      match tokens with
      | .number value :: rest => .ok (.number value, rest)
      | .name name :: rest => .ok (.named name, rest)
      | .operator "(" :: rest => do
          match ← whole rest with
          | (inside, .operator ")" :: rest) => .ok (inside, rest)
          | _ => .error (.expecting "')'")
      | .operator "+" :: rest => primary whole fuel rest
      | .operator operator :: rest =>
          if ["-", "!", "~"].contains operator then do
            let (operand, rest) ← primary whole fuel rest
            .ok (.unary operator operand, rest)
          else .error (.expecting "primary")
      | _ => .error (.expecting "primary")

/-- An expression with a condition at most. -/
def conditional (whole : Parser) : Nat → Parser
  | 0, _ => .error (.expecting "primary")
  | fuel + 1, tokens => do
      match ← binary (primary whole tokens.length.succ) levels tokens with
      | (condition, .operator "?" :: rest) =>
          match ← whole rest with
          | (whenTrue, .operator ":" :: rest) =>
              let (whenFalse, rest) ← conditional whole fuel rest
              .ok (.choice condition whenTrue whenFalse, rest)
          | _ => .error (.expecting "':'")
      | (value, rest) => .ok (value, rest)

def expression : Nat → Parser
  | 0, _ => .error (.expecting "primary")
  | fuel + 1, tokens =>
      match tokens with
      | .name name :: .operator operator :: rest =>
          if assignments.contains operator then do
            let (value, rest) ← expression fuel rest
            .ok (.assign operator name value, rest)
          else conditional (expression fuel) tokens.length tokens
      | tokens => conditional (expression fuel) (tokens.length + 1) tokens

def parse (text : Bytes) : Except Fault Expression := do
  let tokens := tokens (text.length + 1) text
  match ← expression (tokens.length + 1) tokens with
  | (value, []) => .ok value
  | _ => .error (.expecting "EOF")

/-! ### Values -/

/-- Variables that were assigned to. -/
abbrev Assigned := Table Int

def truth (value : Bool) : Int :=
  if value then 1 else 0

/-- Two numbers as 64 bits each. -/
def bitwise (operation : Nat → Nat → Nat) (left right : Int) : Int :=
  wrap (operation (left % wordRange).toNat (right % wordRange).toNat)

def apply (operator : String) (left right : Int) : Except Fault Int :=
  match operator with
  | "*" => .ok (wrap (left * right))
  | "/" => if right = 0 then .error .divisionByZero else .ok (wrap (left.tdiv right))
  | "%" => if right = 0 then .error .divisionByZero else .ok (wrap (left.tmod right))
  | "+" => .ok (wrap (left + right))
  | "-" => .ok (wrap (left - right))
  | "<<" => .ok (wrap (left * Nat.pow 2 (right % 64).toNat))
  | ">>" => .ok (wrap (left.fdiv (Nat.pow 2 (right % 64).toNat)))
  | "<" => .ok (truth (left < right))
  | "<=" => .ok (truth (left ≤ right))
  | ">" => .ok (truth (right < left))
  | ">=" => .ok (truth (right ≤ left))
  | "==" => .ok (truth (left == right))
  | "!=" => .ok (truth (left != right))
  | "&" => .ok (bitwise (· &&& ·) left right)
  | "^" => .ok (bitwise (· ^^^ ·) left right)
  | _ => .ok (bitwise (· ||| ·) left right)

/-- The number that a variable holds. -/
def held (value : String → Bytes) (name : String) (assigned : Assigned) : Except Fault Int :=
  match assigned.get? name with
  | some number => .ok number
  | none =>
      let text := value name
      if text.all isBlankByte then .ok 0
      else
        match wholeNumeral? text with
        | some number =>
            if number == clamp number then .ok number else .error (.illegalNumber text)
        | none => .error (.illegalNumber text)

def evaluate (value : String → Bytes) :
    Expression → Assigned → Except Fault (Int × Assigned)
  | .number number, assigned => .ok (number, assigned)
  | .named name, assigned => do return (← held value name assigned, assigned)
  | .unary operator operand, assigned => do
      let (number, assigned) ← evaluate value operand assigned
      let result := match operator with
        | "-" => wrap (-number)
        | "!" => truth (number == 0)
        | _ => wrap (-number - 1)
      return (result, assigned)
  | .binary "&&" left right, assigned => do
      let (number, assigned) ← evaluate value left assigned
      if number = 0 then return (0, assigned)
      let (number, assigned) ← evaluate value right assigned
      return (truth (number != 0), assigned)
  | .binary "||" left right, assigned => do
      let (number, assigned) ← evaluate value left assigned
      if number ≠ 0 then return (1, assigned)
      let (number, assigned) ← evaluate value right assigned
      return (truth (number != 0), assigned)
  | .binary operator left right, assigned => do
      let (first, assigned) ← evaluate value left assigned
      let (second, assigned) ← evaluate value right assigned
      return (← apply operator first second, assigned)
  | .choice condition whenTrue whenFalse, assigned => do
      let (number, assigned) ← evaluate value condition assigned
      if number ≠ 0 then evaluate value whenTrue assigned else evaluate value whenFalse assigned
  | .assign operator name operand, assigned => do
      let (second, assigned) ← evaluate value operand assigned
      let result ← if operator == "=" then .ok second
        else apply (String.ofList operator.toList.dropLast) (← held value name assigned) second
      return (result, assigned.set name result)

end RefSync.Compiler.Shell.Arithmetic
