/-
Quoted texts in messages. Single quotes are used unless the text holds one and no
double quote; the quote, backslashes and characters that are not shown are escaped.
-/

import RefSync.Text.Unprintable

namespace RefSync

private def hexEscape (letter : Char) (width code : Nat) : List Char :=
  let digits := Nat.toDigits 16 code
  '\\' :: letter :: (List.replicate (width - digits.length) '0' ++ digits)

private def escapeIn (quote char : Char) : List Char :=
  let code := char.toNat
  if char == quote || char == '\\' then ['\\', char]
  else if char == '\t' then ['\\', 't']
  else if char == '\n' then ['\\', 'n']
  else if char == '\r' then ['\\', 'r']
  else if code < 32 || code == 127 then hexEscape 'x' 2 code
  else if code < 127 || !isUnprintable char then [char]
  else if code < 0x100 then hexEscape 'x' 2 code
  else if code < 0x10000 then hexEscape 'u' 4 code
  else hexEscape 'U' 8 code

def quoted (text : String) : String :=
  let chars := text.toList
  let quote := if chars.contains '\'' && !chars.contains '"' then '"' else '\''
  String.ofList (quote :: (chars.flatMap (escapeIn quote) ++ [quote]))

end RefSync
