/-
Whole numbers in commands. Digits after `0x` are hexadecimal and digits after a zero are
octal; what is beyond 64 bits is the greatest or the least number there is.
-/

import RefSync.Compiler.Shell.Syntax

namespace RefSync.Compiler.Shell

def isBlankByte (char : Char) : Bool :=
  char == ' ' || (9 ≤ char.toNat && char.toNat ≤ 13)

/-- The value of a digit in the bases up to sixteen. -/
def digitOf? (base : Nat) (char : Char) : Option Nat :=
  let value :=
    if char.isDigit then char.toNat - '0'.toNat
    else if 'a' ≤ char && char ≤ 'f' then char.toNat - 'a'.toNat + 10
    else if 'A' ≤ char && char ≤ 'F' then char.toNat - 'A'.toNat + 10
    else base
  if value < base then some value else none

def digitsOf (base : Nat) (text : Bytes) : Bytes :=
  text.takeWhile fun char => (digitOf? base char).isSome

def valueOf (base : Nat) (digits : Bytes) : Nat :=
  digits.foldl (fun value digit => value * base + (digitOf? base digit).getD 0) 0

/-- A number without a sign at the start of a text, and what follows it. -/
def unsignedNumeral? (text : Bytes) : Option (Nat × Bytes) :=
  let (base, skipped) : Nat × Nat := match text with
    | '0' :: mark :: rest =>
        if (mark == 'x' || mark == 'X') && !(digitsOf 16 rest).isEmpty then (16, 2) else (8, 0)
    | '0' :: _ => (8, 0)
    | _ => (10, 0)
  let digits := digitsOf base (text.drop skipped)
  if digits.isEmpty then none
  else some (valueOf base digits, text.drop (skipped + digits.length))

/-- A number at the start of a text, after blanks and a sign, and what follows it. -/
def numeral? (text : Bytes) : Option (Int × Bytes) :=
  match text.dropWhile isBlankByte with
  | '-' :: rest => (unsignedNumeral? rest).map fun (value, rest) => (-(value : Int), rest)
  | '+' :: rest => (unsignedNumeral? rest).map fun (value, rest) => ((value : Int), rest)
  | rest => (unsignedNumeral? rest).map fun (value, rest) => ((value : Int), rest)

def greatest : Int := 9223372036854775807
def least : Int := -9223372036854775808

/-- The count of numbers of 64 bits. -/
def wordRange : Int := 18446744073709551616

def clamp (value : Int) : Int :=
  max least (min greatest value)

/-- A number modulo the range of 64 bits. -/
def wrap (value : Int) : Int :=
  Int.bmod value (Nat.pow 2 64)

/-- Text that is a number, with blanks around it at most. -/
def wholeNumeral? (text : Bytes) : Option Int :=
  match numeral? text with
  | some (value, rest) => if rest.all isBlankByte then some value else none
  | none => none

/-- A count or a status: a decimal number within 31 bits, with blanks around it at most. -/
def natural? (text : Bytes) : Option Nat :=
  let (negative, rest) := match text.dropWhile isBlankByte with
    | '-' :: rest => (true, rest)
    | '+' :: rest => (false, rest)
    | rest => (false, rest)
  let digits := digitsOf 10 rest
  let value := valueOf 10 digits
  if digits.isEmpty || !(rest.drop digits.length).all isBlankByte then none
  else if value < Nat.pow 2 31 && !(negative && value != 0) then some value
  else none

def decimalText (value : Int) : Bytes :=
  (toString value).toList

end RefSync.Compiler.Shell
