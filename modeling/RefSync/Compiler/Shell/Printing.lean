/-
What `echo` and `printf` print. Both know backslash escapes; `printf` lays its arguments
out by a format, which it uses again as long as arguments are left.
-/

import RefSync.Binary64.Fixed
import RefSync.Binary64.Shortest
import RefSync.Compiler.Shell.Numeral
import RefSync.Text.Number

namespace RefSync.Compiler.Shell.Printing

/-! ### Escapes -/

def letterEscape? : Char → Option Char
  | 'a' => some '\x07'
  | 'b' => some '\x08'
  | 'e' => some '\x1b'
  | 'f' => some '\x0c'
  | 'n' => some '\n'
  | 'r' => some '\r'
  | 't' => some '\t'
  | 'v' => some '\x0b'
  | '\\' => some '\\'
  | _ => none

/-- A byte by its number, of which one byte is kept. -/
def byte (value : Nat) : Char :=
  Char.ofNat (value % 256)

/-- The byte of up to three octal digits, and their count. -/
def octal? (text : Bytes) : Option (Char × Nat) :=
  let digits := (text.take 3).takeWhile fun char => (digitOf? 8 char).isSome
  if digits.isEmpty then none else some (byte (valueOf 8 digits), digits.length)

/-- What follows a backslash as one character, and the length of that. A backslash that
begins nothing is itself. -/
def escape (text : Bytes) : Char × Nat :=
  match octal? text with
  | some found => found
  | none =>
      match text.head?.bind letterEscape? with
      | some char => (char, 1)
      | none => ('\\', 0)

/-- An argument with its escapes taken for what they mean, and whether one of them ends
all output. An octal number may have a zero more in front. -/
def unescape : Nat → Bytes → Bytes × Bool
  | 0, _ => ([], false)
  | _ + 1, [] => ([], false)
  | _ + 1, '\\' :: 'c' :: _ => ([], true)
  | fuel + 1, '\\' :: rest =>
      let rest := match rest with
        | '0' :: digit :: more => if (digitOf? 8 digit).isSome then digit :: more else rest
        | rest => rest
      let (char, length) := escape rest
      let (more, ends) := unescape fuel (rest.drop length)
      (char :: more, ends)
  | fuel + 1, char :: rest =>
      let (more, ends) := unescape fuel rest
      (char :: more, ends)

/-- Arguments with blanks between them. The first one may ask for no end of line. -/
def echo (arguments : List Bytes) : Bytes :=
  let bare := arguments.head? == some ['-', 'n']
  let text := ((if bare then arguments.tail else arguments).intersperse [' ']).flatten
  let (text, ends) := unescape (text.length + 1) text
  if bare || ends then text else text ++ ['\n']

/-! ### Layout -/

/-- How a value is laid out in a format. -/
structure Layout where
  left : Bool := false
  plus : Bool := false
  blank : Bool := false
  alternate : Bool := false
  zeros : Bool := false
  width : Nat := 0
  precision : Option Nat := none

def Layout.withFlag (layout : Layout) : Char → Layout
  | '-' => { layout with left := true }
  | '+' => { layout with plus := true }
  | ' ' => { layout with blank := true }
  | '#' => { layout with alternate := true }
  | '0' => { layout with zeros := true }
  | _ => layout

/-- A width that is negative means the left side. -/
def Layout.withWidth (layout : Layout) (width : Int) : Layout :=
  if width < 0 then { layout with left := true, width := width.natAbs }
  else { layout with width := width.natAbs }

def Layout.padded (layout : Layout) (text : Bytes) : Bytes :=
  let padding := List.replicate (layout.width - text.length) ' '
  if layout.left then text ++ padding else padding ++ text

def Layout.text (layout : Layout) (text : Bytes) : Bytes :=
  layout.padded (match layout.precision with
    | some length => text.take length
    | none => text)

/-- Digits after a sign or a mark of the base. Zeros may fill the width. -/
def Layout.digits (layout : Layout) (start digits : Bytes) (fill : Bool) : Bytes :=
  let zeros := if fill && layout.zeros && !layout.left then
    layout.width - start.length - digits.length else 0
  layout.padded (start ++ List.replicate zeros '0' ++ digits)

def Layout.sign (layout : Layout) (negative : Bool) : Bytes :=
  if negative then ['-'] else if layout.plus then ['+'] else if layout.blank then [' '] else []

/-- A number in a base with at least as many digits as the precision says. -/
def Layout.whole (layout : Layout) (start : Bytes) (base magnitude : Nat) (capitals : Bool) :
    Bytes :=
  let digits := if magnitude = 0 && layout.precision == some 0 then []
    else Nat.toDigits base magnitude
  let digits := if capitals then digits.map Char.toUpper else digits
  let digits := List.replicate ((layout.precision.getD 1) - digits.length) '0' ++ digits
  let digits := if layout.alternate && base = 8 && digits.head? != some '0' then '0' :: digits
    else digits
  layout.digits start digits layout.precision.isNone

def Layout.signed (layout : Layout) (value : Int) : Bytes :=
  layout.whole (layout.sign (value < 0)) 10 value.natAbs false

def Layout.unsigned (layout : Layout) (kind : Char) (value : Int) : Bytes :=
  let magnitude := (value % wordRange).toNat
  let start := if layout.alternate && magnitude ≠ 0 && (kind == 'x' || kind == 'X')
    then ['0', kind] else []
  let base := if kind == 'o' then 8 else if kind == 'u' then 10 else 16
  layout.whole start base magnitude (kind == 'X')

/-! ### Reals -/

/-- A positive number as digits with a point after the first, and a power of ten. -/
def scientific (places numerator denominator : Nat) : Nat × Int :=
  let power := Binary64.decimalPoint numerator denominator - 1
  let (top, bottom) := Binary64.scale 10 numerator denominator ((places : Int) - power)
  let digits := Binary64.divideToEven top bottom
  if digits = Nat.pow 10 (places + 1) then (Nat.pow 10 places, power + 1) else (digits, power)

/-- Digits with a point in front of the last ones. -/
def pointed (places digits : Nat) (alternate : Bool) : Bytes :=
  let text := Nat.toDigits 10 digits
  let text := List.replicate (places + 1 - text.length) '0' ++ text
  let whole := text.take (text.length - places)
  if places = 0 then if alternate then whole ++ ['.'] else whole
  else whole ++ '.' :: text.drop (text.length - places)

def exponentText (power : Int) : Bytes :=
  let digits := Nat.toDigits 10 power.natAbs
  'e' :: (if power < 0 then '-' else '+') :: List.replicate (2 - digits.length) '0' ++ digits

def fixedPoint (places numerator denominator : Nat) (alternate : Bool) : Bytes :=
  pointed places (Binary64.divideToEven (numerator * Nat.pow 10 places) denominator) alternate

def exponential (places numerator denominator : Nat) (alternate : Bool) : Bytes :=
  if numerator = 0 then pointed places 0 alternate ++ exponentText 0
  else
    let (digits, power) := scientific places numerator denominator
    pointed places digits alternate ++ exponentText power

/-- Text without the zeros at the end of its fraction. -/
def withoutZeros (text : Bytes) : Bytes :=
  if text.contains '.' then
    let kept := text.reverse.dropWhile (· == '0')
    (if kept.head? == some '.' then kept.tail else kept).reverse
  else text

/-- The shorter of both forms with a count of digits. -/
def general (precision numerator denominator : Nat) (alternate : Bool) : Bytes :=
  let digits := max precision 1
  let power := if numerator = 0 then 0 else (scientific (digits - 1) numerator denominator).2
  let trimmed (text : Bytes) := if alternate then text else withoutZeros text
  if power < -4 || (digits : Int) ≤ power then
    let text := exponential (digits - 1) numerator denominator alternate
    let mantissa := text.takeWhile (· != 'e')
    trimmed mantissa ++ text.drop mantissa.length
  else trimmed (fixedPoint ((digits : Int) - 1 - power).toNat numerator denominator alternate)

/-- Hexadecimal digits after a first one, which is zero for the smallest numbers only, and
a power of two. Without a precision there are as many digits as are needed. -/
def hexadecimal (precision : Option Nat) (significand : Nat) (exponent : Int)
    (alternate : Bool) : Bytes :=
  let power : Int := if significand = 0 then 0 else max (-1022) (exponent + Nat.log2 significand)
  let (bits, _) := Binary64.scale 2 significand 1 (exponent + 52 - power)
  let places := precision.getD 13
  let digits := if places < 13 then Binary64.divideToEven bits (Nat.pow 16 (13 - places))
    else bits * Nat.pow 16 (places - 13)
  let text := Nat.toDigits 16 digits
  let text := List.replicate (places + 1 - text.length) '0' ++ text
  let fraction := text.drop (text.length - places)
  let fraction := if precision.isSome then fraction
    else (fraction.reverse.dropWhile (· == '0')).reverse
  text.take (text.length - places) ++ (if fraction.isEmpty && !alternate then [] else ['.'])
    ++ fraction ++ 'p' :: (if power < 0 then '-' else '+') :: Nat.toDigits 10 power.natAbs

def Layout.real (layout : Layout) (kind : Char) (value : Binary64) : Bytes :=
  let capitals (text : Bytes) := if kind.isUpper then text.map Char.toUpper else text
  match value with
  | .nan => layout.padded (layout.sign false ++ capitals "nan".toList)
  | .infinite negative => layout.padded (layout.sign negative ++ capitals "inf".toList)
  | .finite negative significand exponent =>
      let (numerator, denominator) := Binary64.scale 2 significand 1 exponent
      let places := layout.precision.getD 6
      let (start, text) := match kind.toLower with
        | 'a' => ("0x".toList, hexadecimal layout.precision significand exponent layout.alternate)
        | 'f' => ([], fixedPoint places numerator denominator layout.alternate)
        | 'e' => ([], exponential places numerator denominator layout.alternate)
        | _ => ([], general places numerator denominator layout.alternate)
      layout.digits (layout.sign negative ++ capitals start) (capitals text) true

/-! ### Formats -/

/-- What a format makes of the arguments: output, complaints, and a status. -/
structure Outcome where
  arguments : List Bytes
  output : Bytes := []
  complaints : List Bytes := []
  status : Nat := 0
  ended : Bool := false

def Outcome.print (outcome : Outcome) (text : Bytes) : Outcome :=
  { outcome with output := outcome.output ++ text }

def Outcome.complain (outcome : Outcome) (text : Bytes) (reason : String) : Outcome :=
  { outcome with
    complaints := outcome.complaints ++ [text ++ ": ".toList ++ reason.toList]
    status := 1 }

/-- A fault of the format ends all output. -/
def Outcome.refuse (outcome : Outcome) (message : Bytes) : Outcome :=
  { outcome with complaints := outcome.complaints ++ [message], status := 2, ended := true }

def Outcome.take (outcome : Outcome) : Option Bytes × Outcome :=
  (outcome.arguments.head?, { outcome with arguments := outcome.arguments.tail })

/-- A complaint about an argument of which something is left over. -/
def Outcome.afterNumber (outcome : Outcome) (text rest : Bytes) : Outcome :=
  if rest.isEmpty then outcome
  else outcome.complain text
    (if rest.length = text.length then "expected numeric value" else "not completely converted")

/-- A number from the next argument: the code of a quoted character, or what the text
starts with. -/
def Outcome.takeNumber (outcome : Outcome) (isSigned : Bool) : Int × Outcome :=
  match outcome.take with
  | (none, outcome) => (0, outcome)
  | (some text, outcome) =>
      if text.head? == some '"' || text.head? == some '\'' then
        (((text[1]?.map Char.toNat).getD 0 : Nat), outcome)
      else
        match numeral? text with
        | none => (0, outcome.afterNumber text text)
        | some (value, rest) =>
            let bounded := if isSigned then clamp value
              else max (1 - wordRange) (min (wordRange - 1) value)
            let outcome := outcome.afterNumber text rest
            (bounded, if rest.isEmpty && bounded ≠ value then
              outcome.complain text "Numerical result out of range" else outcome)

/-- A power of two after a mark, and what follows it. -/
def binaryPower (text : Bytes) : Int × Bytes :=
  match text with
  | mark :: rest =>
      let (negative, rest) := match rest with
        | '-' :: rest => (true, rest)
        | '+' :: rest => (false, rest)
        | rest => (false, rest)
      let digits := digitsOf 10 rest
      if (mark == 'p' || mark == 'P') && !digits.isEmpty then
        let power : Int := min (valueOf 10 digits) 10000
        (if negative then -power else power, rest.drop digits.length)
      else (0, text)
  | [] => (0, [])

/-- A hexadecimal real number at the start of a text, after its sign, and what follows. -/
def hexadecimalStart (negative : Bool) (text : Bytes) : Option (Binary64 × Bytes) :=
  match text with
  | '0' :: mark :: rest =>
      let whole := digitsOf 16 rest
      let rest := rest.drop whole.length
      let fraction := match rest with
        | '.' :: rest => digitsOf 16 rest
        | _ => []
      if (mark != 'x' && mark != 'X') || (whole ++ fraction).isEmpty then none
      else
        let rest := if rest.head? == some '.' then rest.drop (fraction.length + 1) else rest
        let (power, rest) := binaryPower rest
        let (numerator, denominator) := Binary64.scale 2 (valueOf 16 (whole ++ fraction)) 1
          (power - 4 * fraction.length)
        some (.ofFraction negative numerator denominator, rest)
  | _ => none

/-- The longest start of a text that is a real number. -/
def realStart (text : Bytes) : Option (Binary64 × Bytes) :=
  match text.dropWhile isBlankByte with
  | '-' :: rest => (hexadecimalStart true rest).or (decimalStart text)
  | '+' :: rest => (hexadecimalStart false rest).or (decimalStart text)
  | rest => (hexadecimalStart false rest).or (decimalStart text)
where
  decimalStart (text : Bytes) : Option (Binary64 × Bytes) :=
    let lengths := (List.range (text.length + 1)).reverse
    lengths.findSome? fun length =>
      let start := text.take length
      if start.getLast?.any isBlankByte || start.contains '_' then none
      else (realText? (String.ofList start)).map fun value => (value, text.drop length)

def Outcome.takeReal (outcome : Outcome) : Binary64 × Outcome :=
  match outcome.take with
  | (none, outcome) => (.zero false, outcome)
  | (some text, outcome) =>
      if text.head? == some '"' || text.head? == some '\'' then
        (.ofDecimal false ((text[1]?.map Char.toNat).getD 0) 0, outcome)
      else
        match realStart text with
        | some (value, rest) =>
            let outcome := outcome.afterNumber text rest
            let isBeyond := value matches .infinite _ && text.any Char.isDigit
            (value, if rest.isEmpty && isBeyond then
              outcome.complain text "Numerical result out of range" else outcome)
        | none => (.zero false, outcome.afterNumber text text)

/-- Nothing is wider than this. -/
def widest : Int := 1000000

/-- A measure as a number of 32 bits. -/
def measureOf (value : Int) : Int :=
  max (-widest) (min widest (Int.bmod value (Nat.pow 2 32)))

/-- A width or a precision: a star takes an argument. -/
def measure (outcome : Outcome) (format : Bytes) : Option Int × Bytes × Outcome :=
  match format with
  | '*' :: rest =>
      let (value, outcome) := outcome.takeNumber true
      (some (measureOf value), rest, outcome)
  | format =>
      let digits := format.takeWhile Char.isDigit
      let value := if digits.isEmpty then none else some (measureOf (valueOf 10 digits))
      (value, format.drop digits.length, outcome)

/-- One value in its layout. -/
def directive (layout : Layout) (kind : Char) (written : Bytes) (outcome : Outcome) : Outcome :=
  match kind with
  | 's' =>
      let (text, outcome) := outcome.take
      outcome.print (layout.text (text.getD []))
  | 'b' =>
      let (text, outcome) := outcome.take
      let text := text.getD []
      let (text, ends) := unescape (text.length + 1) text
      { outcome.print (layout.text text) with ended := ends }
  | 'c' =>
      let (text, outcome) := outcome.take
      outcome.print (layout.padded [((text.getD []).head?).getD '\x00'])
  | 'd' | 'i' =>
      let (value, outcome) := outcome.takeNumber true
      outcome.print (layout.signed value)
  | 'o' | 'u' | 'x' | 'X' =>
      let (value, outcome) := outcome.takeNumber false
      outcome.print (layout.unsigned kind value)
  | 'a' | 'A' | 'e' | 'E' | 'f' | 'F' | 'g' | 'G' =>
      let (value, outcome) := outcome.takeReal
      outcome.print (layout.real kind value)
  | _ => outcome.refuse (written ++ ": invalid directive".toList)

/-- A directive after its percent sign, and the format after it. -/
def directiveOf (format : Bytes) (outcome : Outcome) : Outcome × Bytes :=
  let flags := format.takeWhile "#-+ 0".toList.contains
  let layout := flags.foldl Layout.withFlag {}
  let (width, rest, outcome) := measure outcome (format.drop flags.length)
  let layout := layout.withWidth (width.getD 0)
  let (layout, rest, outcome) := match rest with
    | '.' :: rest =>
        let (precision, rest, outcome) := measure outcome rest
        let precision := precision.getD 0
        ({ layout with precision := if precision < 0 then none else some precision.toNat },
          rest, outcome)
    | rest => (layout, rest, outcome)
  match rest with
  | [] => (outcome.refuse "missing format character".toList, [])
  | kind :: after =>
      let written := '%' :: format.take (format.length - after.length)
      (directive layout kind written outcome, after)

/-- One pass over a format. -/
def pass : Nat → Bytes → Outcome → Outcome
  | 0, _, outcome => outcome
  | _ + 1, [], outcome => outcome
  | fuel + 1, '\\' :: rest, outcome =>
      let (char, length) := escape rest
      pass fuel (rest.drop length) (outcome.print [char])
  | fuel + 1, '%' :: '%' :: rest, outcome => pass fuel rest (outcome.print ['%'])
  | fuel + 1, '%' :: rest, outcome =>
      let (outcome, rest) := directiveOf rest outcome
      if outcome.ended then outcome else pass fuel rest outcome
  | fuel + 1, char :: rest, outcome => pass fuel rest (outcome.print [char])

/-- Passes over a format while they take arguments and some are left. -/
def passes (format : Bytes) : Nat → Outcome → Outcome
  | 0, outcome => outcome
  | fuel + 1, outcome =>
      let after := pass (format.length + 1) format outcome
      if after.ended || after.arguments.isEmpty
          || after.arguments.length == outcome.arguments.length then after
      else passes format fuel after

def printf (arguments : List Bytes) : Outcome :=
  match arguments with
  | [] => Outcome.refuse { arguments } "usage: printf format [arg ...]".toList
  | format :: arguments => passes format (arguments.length + 1) { arguments }

end RefSync.Compiler.Shell.Printing
