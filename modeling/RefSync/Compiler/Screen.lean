/-
The compiler's output with its screen clearing removed, so that the engine's notices
stay visible. Output comes in chunks; each is decoded and cleaned on its own.
-/

import RefSync.Text.Utf8

namespace RefSync.Compiler

/-- Removes screen clearing sequences in one pass; what then meets is left alone. -/
def stripChars : List Char → List Char
  | '\x1b' :: 'c' :: rest => stripChars rest
  | '\x1b' :: '[' :: '2' :: 'J' :: rest => stripChars rest
  | '\x1b' :: '[' :: '3' :: 'J' :: rest => stripChars rest
  | char :: rest => char :: stripChars rest
  | [] => []

def strip (text : String) : String :=
  String.ofList (stripChars text.toList)

/-- What is shown of a chunk of output. -/
def showChunk (bytes : List UInt8) : String :=
  strip (Utf8.decodeLossy bytes)

/-- What is shown of a stream that comes in chunks. -/
def showChunks (chunks : List (List UInt8)) : String :=
  String.join (chunks.map showChunk)

end RefSync.Compiler
