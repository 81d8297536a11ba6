/-
Programs that commands start beside the shell's own: those that pass text on, count or
order its lines, and those that make and remove files. Each is a function of its
arguments, its input and the files.
-/

import RefSync.Compiler.Shell.Printing
import RefSync.Compiler.Shell.State
import RefSync.Sorted

namespace RefSync.Compiler.Shell.Utility

structure Outcome where
  output : Bytes := []
  errors : Bytes := []
  status : Nat := 0
  files : FileTree

/-- What a program is started with. -/
structure Call where
  name : String
  arguments : List Bytes
  input : Bytes
  files : FileTree
  directory : String

def Call.done (call : Call) (output : Bytes) : Outcome :=
  { output, files := call.files }

def Call.fault (call : Call) (message : Bytes) (status : Nat := 1) : Outcome :=
  { errors := (call.name ++ ": ").toList ++ message ++ ['\n'], status, files := call.files }

def Outcome.and (first : Outcome) (next : Outcome → Outcome) : Outcome :=
  let second := next first
  { second with
    output := first.output ++ second.output
    errors := first.errors ++ second.errors
    status := max first.status second.status }

/-! ### Arguments -/

def isOption (argument : Bytes) : Bool :=
  argument.head? == some '-' && 1 < argument.length

/-- The letters of the options in front, and the arguments after them. -/
def options : List Bytes → Bytes × List Bytes
  | [] => ([], [])
  | argument :: rest =>
      if argument == ['-', '-'] then ([], rest)
      else if isOption argument then
        let (letters, rest) := options rest
        (argument.tail ++ letters, rest)
      else ([], argument :: rest)

/-- A count as the value of an option, or as an option itself, and the arguments that are
left. -/
def countOption (letter : Char) : List Bytes → Option Bytes × List Bytes
  | ['-', option] :: value :: rest =>
      if option == letter then (some value, rest) else (none, ['-', option] :: value :: rest)
  | ('-' :: option :: value) :: rest =>
      if option == letter then (some value, rest)
      else if option.isDigit && letter == 'n' then (some (option :: value), rest)
      else (none, ('-' :: option :: value) :: rest)
  | arguments => (none, arguments)

/-- Lines with their ends; the last one may have none. -/
def linesFrom : Nat → Bytes → List Bytes
  | 0, _ => []
  | fuel + 1, text =>
      if text.isEmpty then []
      else
        let length := (text.takeWhile (· != '\n')).length + 1
        text.take length :: linesFrom fuel (text.drop length)

def lines (text : Bytes) : List Bytes :=
  linesFrom text.length text

def ended (line : Bytes) : Bytes :=
  if line.getLast? == some '\n' then line else line ++ ['\n']

/-! ### Text -/

/-- The contents of the files that are named, or the input, with a complaint about each
that cannot be read. -/
def Call.contents (call : Call) (names : List Bytes) : Outcome :=
  (if names.isEmpty then [['-']] else names).foldl (fun outcome name =>
    outcome.and fun _ =>
      if name == ['-'] || name == "/dev/stdin".toList then call.done call.input
      else if name == "/dev/null".toList then call.done []
      else
        match call.files.found (pathOf call.directory name) with
        | some (.file content) => call.done (contentBytes content)
        | some .directory => call.fault (name ++ ": Is a directory".toList)
        | none => call.fault (name ++ ": No such file or directory".toList)) (call.done [])

def Outcome.map (outcome : Outcome) (change : Bytes → Bytes) : Outcome :=
  { outcome with output := change outcome.output }

def head (call : Call) : Outcome :=
  match countOption 'c' call.arguments with
  | (some count, names) => (call.contents names).map (·.take ((natural? count).getD 0))
  | (none, arguments) =>
      let (count, names) := countOption 'n' arguments
      let count := (count.bind natural?).getD 10
      (call.contents names).map fun text => ((lines text).take count).flatten

def lastOf {α : Type} (count : Nat) (items : List α) : List α :=
  items.drop (items.length - count)

def tail (call : Call) : Outcome :=
  match countOption 'c' call.arguments with
  | (some count, names) => (call.contents names).map (lastOf ((natural? count).getD 0))
  | (none, arguments) =>
      let (count, names) := countOption 'n' arguments
      (call.contents names).map fun text =>
        match count with
        | some ('+' :: first) => ((lines text).drop ((natural? first).getD 1 - 1)).flatten
        | count => (lastOf ((count.bind natural?).getD 10) (lines text)).flatten

def countWords (text : Bytes) : Nat :=
  (text.zip (' ' :: text)).countP fun (char, before) => !isBlankByte char && isBlankByte before

/-- Counts of lines, words and bytes; several of them are aligned. -/
def count (call : Call) : Outcome :=
  let (letters, names) := options call.arguments
  let counts (text : Bytes) : List Nat :=
    let all := [('l', text.countP (· == '\n')), ('w', countWords text), ('c', text.length)]
    (all.filter fun (letter, _) => letters.isEmpty || letters.contains letter).map (·.2)
  let outcome := call.contents names
  let counts := counts outcome.output
  let width :=
    if counts.length ≤ 1 then 1
    else if names.isEmpty then 7 else (toString outcome.output.length).length
  let texts := counts.map fun (count : Nat) =>
    let text := decimalText count
    List.replicate (width - text.length) ' ' ++ text
  let label := match names with
    | [name] => ' ' :: name
    | _ => []
  outcome.map fun _ => (texts.intersperse [' ']).flatten ++ label ++ ['\n']

/-- The characters of a set, with ranges and escapes. -/
def members : Nat → Bytes → Bytes
  | 0, _ => []
  | fuel + 1, text =>
      match text with
      | [] => []
      | '\\' :: rest =>
          let (char, length) := Printing.escape rest
          char :: members fuel (rest.drop length)
      | low :: '-' :: high :: rest =>
          let count := high.toNat + 1 - low.toNat
          (List.range count).map (fun index => Char.ofNat (low.toNat + index))
            ++ members fuel rest
      | char :: rest =>
          let classes : List (String × Bytes) :=
            [("[:lower:]", "abcdefghijklmnopqrstuvwxyz".toList),
              ("[:upper:]", "ABCDEFGHIJKLMNOPQRSTUVWXYZ".toList),
              ("[:digit:]", "0123456789".toList),
              ("[:space:]", "\t\n\x0b\x0c\r ".toList)]
          match classes.find? fun (name, _) => name.toList.isPrefixOf text with
          | some (name, inside) => inside ++ members fuel (text.drop name.length)
          | none => char :: members fuel rest

/-- Characters replaced by those of another set, whose last one stands for all more. -/
def replaceIn (source target : Bytes) (char : Char) : Char :=
  match source.idxOf? char with
  | some index => (target[index]?).getD (target.getLast?.getD char)
  | none => char

/-- Repetitions of the characters of a set become one. -/
def squeeze (set : Bytes) : Bytes → Bytes
  | first :: second :: rest =>
      if first == second && set.contains first then squeeze set (second :: rest)
      else first :: squeeze set (second :: rest)
  | text => text

def translate (call : Call) : Outcome :=
  let (letters, names) := options call.arguments
  let sets := names.map fun text => members (text.length + 1) text
  let source := (sets[0]?).getD []
  let target := (sets[1]?).getD []
  if letters.contains 'd' then
    call.done (call.input.filter fun char => !source.contains char)
  else if letters.contains 's' then
    call.done (squeeze (if sets.length < 2 then source else target)
      (if sets.length < 2 then call.input else call.input.map (replaceIn source target)))
  else call.done (call.input.map (replaceIn source target))

def sort (call : Call) : Outcome :=
  let (letters, names) := options call.arguments
  (call.contents names).map fun text =>
    let keyOf (line : Bytes) : Int := ((numeral? line).map (·.1)).getD 0
    let precedes (left right : Bytes) : Bool :=
      if letters.contains 'n' then
        keyOf left < keyOf right || (keyOf left == keyOf right && left.precedes right)
      else left.precedes right
    let sorted := sortBy precedes ((lines text).map ended)
    let sorted := if letters.contains 'u' then sorted.eraseDups else sorted
    (if letters.contains 'r' then sorted.reverse else sorted).flatten

/-- Repetitions of a line that follow it, with their count. -/
def runs : List Bytes → List (Nat × Bytes)
  | [] => []
  | line :: rest =>
      match runs rest with
      | (count, other) :: more =>
          if other == line then (count + 1, other) :: more else (1, line) :: (count, other) :: more
      | [] => [(1, line)]

def unique (call : Call) : Outcome :=
  let (letters, names) := options call.arguments
  (call.contents names).map fun text =>
    (runs ((lines text).map ended)).flatMap fun ((count : Nat), line) =>
      if letters.contains 'c' then
        let digits := decimalText count
        List.replicate (7 - digits.length) ' ' ++ digits ++ ' ' :: line
      else line

/-- Numbers from a first one to a last one, in steps. -/
def sequence (call : Call) : Outcome :=
  match call.arguments.mapM wholeNumeral? with
  | some [last] => call.done (numbers 1 1 last)
  | some [first, last] => call.done (numbers first 1 last)
  | some [first, step, last] => call.done (numbers first step last)
  | _ => call.fault "missing operand".toList
where
  numbers (first step last : Int) : Bytes :=
    let count := if step = 0 then 0 else ((last - first).fdiv step + 1).toNat
    (List.range count).flatMap fun (index : Nat) =>
      decimalText (first + step * (index : Int)) ++ ['\n']

/-- Input that is also put into files. -/
def tee (call : Call) : Outcome :=
  let (letters, names) := options call.arguments
  let files := names.foldl (fun files name =>
    let path := pathOf call.directory name
    let before := if letters.contains 'a' then fileBytes files path else []
    putFile files path (before ++ call.input)) call.files
  { output := call.input, files }

/-- More repetitions of a line than anything takes. -/
def repeated (call : Call) : Outcome :=
  let line := if call.arguments.isEmpty then ['y'] else (call.arguments.intersperse [' ']).flatten
  call.done (List.replicate 4096 (line ++ ['\n'])).flatten

/-! ### Files -/

def withoutSlashes (path : Bytes) : Bytes :=
  let trimmed := (path.reverse.dropWhile (· == '/')).reverse
  if trimmed.isEmpty && !path.isEmpty then ['/'] else trimmed

def baseName (call : Call) : Outcome :=
  match call.arguments with
  | path :: rest =>
      let path := withoutSlashes path
      let name := if path == ['/'] then path else (Path.splitLast path).2
      let ending := rest.head?.getD []
      let name := if ending.isSuffixOf name && ending.length < name.length then
        name.take (name.length - ending.length) else name
      call.done (name ++ ['\n'])
  | [] => call.fault "missing operand".toList

def directoryName (call : Call) : Outcome :=
  match call.arguments with
  | path :: _ =>
      let above := (Path.splitLast (withoutSlashes path)).1
      call.done ((if path.head? == some '/' && above.isEmpty then ['/']
        else if above.isEmpty then ['.'] else above) ++ ['\n'])
  | [] => call.fault "missing operand".toList

def quotedName (name : Bytes) : Bytes :=
  Bytes.ofString "‘" ++ name ++ Bytes.ofString "’"

def makeDirectory (call : Call) : Outcome :=
  let (letters, names) := options call.arguments
  names.foldl (fun outcome name => outcome.and fun outcome =>
    let call := { call with files := outcome.files }
    let path := pathOf call.directory name
    let refused (reason : String) :=
      call.fault ("cannot create directory ".toList ++ quotedName name ++ reason.toList)
    if letters.contains 'p' then
      { files := (call.files.makeFrom false [] (Path.parts path)).2 }
    else if call.files.exists? path then refused ": File exists"
    else if !call.files.isDirectoryPath (Path.directory path) then
      refused ": No such file or directory"
    else { files := (call.files.makeFrom false [] (Path.parts path)).2 }) (call.done [])

def remove (call : Call) : Outcome :=
  let (letters, names) := options call.arguments
  names.foldl (fun outcome name => outcome.and fun outcome =>
    let call := { call with files := outcome.files }
    let refused (reason : String) :=
      call.fault ("cannot remove '".toList ++ name ++ reason.toList)
    match call.files.walk (pathOf call.directory name) with
    | .error _ => if letters.contains 'f' then call.done []
        else refused "': No such file or directory"
    | .ok place =>
        if call.files.isDirectory place && !letters.any "rR".toList.contains then
          refused "': Is a directory"
        else { files := call.files.remove place }) (call.done [])

def removeEmpty (call : Call) : Outcome :=
  call.arguments.foldl (fun outcome name => outcome.and fun outcome =>
    let call := { call with files := outcome.files }
    let refused (reason : String) :=
      call.fault ("failed to remove ".toList ++ quotedName name ++ reason.toList)
    match call.files.walk (pathOf call.directory name) with
    | .error _ => refused ": No such file or directory"
    | .ok place =>
        if !call.files.isDirectory place then refused ": Not a directory"
        else if !(call.files.names place).isEmpty then refused ": Directory not empty"
        else { files := call.files.remove place }) (call.done [])

def touch (call : Call) : Outcome :=
  call.arguments.foldl (fun outcome name => outcome.and fun outcome =>
    let call := { call with files := outcome.files }
    let path := pathOf call.directory name
    if call.files.exists? path then call.done []
    else if !call.files.isDirectoryPath (Path.directory path) then
      call.fault ("cannot touch '".toList ++ name ++ "': No such file or directory".toList)
    else { files := putFile call.files path [] }) (call.done [])

/-- The names in a directory, sorted. -/
def listed (call : Call) (letters : Bytes) (path : String) : Bytes :=
  match call.files.walk path with
  | .ok place =>
      let names := (call.files.names place).map Bytes.ofString
      let names :=
        if letters.contains 'a' then ['.'] :: ['.', '.'] :: names
        else if letters.contains 'A' then names
        else names.filter fun name => name.head? != some '.'
      (sortBy Bytes.precedes names).flatMap (· ++ ['\n'])
  | .error _ => []

def listFiles (call : Call) : Outcome :=
  let (letters, names) := options call.arguments
  if names.isEmpty then call.done (listed call letters call.directory)
  else
    names.foldl (fun outcome name => outcome.and fun _ =>
      let path := pathOf call.directory name
      match call.files.found path with
      | none =>
          call.fault ("cannot access '".toList ++ name ++ "': No such file or directory".toList) 2
      | some .directory =>
          if letters.contains 'd' then call.done (name ++ ['\n'])
          else call.done (listed call letters path)
      | some (.file _) => call.done (name ++ ['\n'])) (call.done [])

/-- A program by its name. -/
def program? : String → Option (Call → Outcome)
  | "cat" => some fun call => call.contents (options call.arguments).2
  | "head" => some head
  | "tail" => some tail
  | "wc" => some count
  | "tr" => some translate
  | "sort" => some sort
  | "uniq" => some unique
  | "seq" => some sequence
  | "rev" => some fun call => (call.contents call.arguments).map fun text =>
      (lines text).flatMap fun line => (line.filter (· != '\n')).reverse ++ ['\n']
  | "tee" => some tee
  | "yes" => some repeated
  | "basename" => some baseName
  | "dirname" => some directoryName
  | "mkdir" => some makeDirectory
  | "rmdir" => some removeEmpty
  | "rm" => some remove
  | "touch" => some touch
  | "ls" => some listFiles
  | _ => none

/-- Programs that read their input, unless they are told which files to read. -/
def readsInput (name : String) (arguments : List Bytes) : Bool :=
  if name == "tr" || name == "tee" then true
  else
    ["cat", "head", "tail", "wc", "sort", "uniq", "rev"].contains name
      && (arguments.contains ['-'] || !arguments.any fun argument =>
        !isOption argument && (natural? argument).isNone)

end RefSync.Compiler.Shell.Utility
