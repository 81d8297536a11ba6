/-
The state of a shell while it runs commands, and the actions on it. A subshell has a scope
of its own; files, pipes and what was shown are common to all. An action that stops says
how far: out of a loop, a function, a subshell, or the process.
-/

import RefSync.Compiler.Shell.Syntax
import RefSync.Compiler.Signal
import RefSync.FileTree.Edit

namespace RefSync.Compiler.Shell

/-- Where a stream leads. What is written to a pipe is kept until it is read. -/
inductive Channel where
  | output
  | errors
  | nowhere
  | pipe (number : Nat)
  | file (path : String)
deriving DecidableEq, Repr

/-- A value that may be missing, as that of a variable that is only exported. -/
structure Variable where
  value : Option Bytes := none
  isExported : Bool := false
  isFixed : Bool := false

/-- Settings of a shell that `set` changes. -/
structure Flags where
  stopOnFailure : Bool := false
  refuseUnset : Bool := false
  trace : Bool := false
  keepPatterns : Bool := false
  onlyRead : Bool := false

/-- What a subshell has of its own. A trap without an action ignores its signal. -/
structure Scope where
  bindings : Table Variable := []
  functions : Table Command := []
  arguments : List Bytes := []
  streams : List (Nat × Channel) := [(0, .nowhere), (1, .output), (2, .errors)]
  directory : String
  traps : List (Nat × Bytes) := []
  flags : Flags := {}
  hidden : List (String × Option Variable) := []
  loops : Nat := 0
  calls : Nat := 0
  mask : Nat := 0o022

/-- A command that runs beside others. It runs as soon as something waits. -/
structure Job where
  number : Nat
  scope : Scope
  command : Command
  ending : Option Ending := none

/-- Bytes in the pieces in which they were written, the last one first. -/
abbrev Written := List Bytes

def Written.text (written : Written) : Bytes :=
  written.reverse.flatten

/-- The state of a process: the scope of the shell that runs and those of the shells around
it, and what all of them share. Messages start with the name of the shell, the line, and
the label of the command that is at work. While a trap runs, the status before it is
saved. A shell may be replaced by what runs. The budget
is the number of steps that a process may still take. -/
structure State where
  scope : Scope
  outer : List Scope := []
  name : String
  pid : Nat := 4242
  line : Nat := 1
  label : String := ""
  status : Nat := 0
  saved : Option Nat := none
  captured : Nat := 0
  files : FileTree
  pipes : List Written := []
  documents : List (List Piece) := []
  jobs : List Job := []
  started : Nat := 0
  signals : List Nat := []
  out : Written := []
  err : Written := []
  chunks : List Bytes := []
  waits : Nat := 0
  isInterrupted : Bool
  isReplaced : Bool := false
  budget : Nat

/-- How far an action stops. A fault stops a shell too, but for faults of commands that
have no special meaning to it. What takes the place of a shell ends it without more ado.
A process without end stops when its bound is reached. -/
inductive Stop where
  | loop (levels : Nat) (again : Bool)
  | function (status : Nat)
  | fault
  | shell (status : Nat)
  | replaced (status : Nat)
  | signal (number : Nat)
  | bound

abbrev Action := ExceptT Stop (StateM State)

/-- The way in which a command inside of another one is run, given whether something
depends on its failure. -/
abbrev Runner := (tested : Bool) → Command → Action Unit

/-! ### Scope -/

def scope : Action Scope := do
  return (← get).scope

def modifyScope (change : Scope → Scope) : Action Unit :=
  modify fun state => { state with scope := change state.scope }

def setStatus (status : Nat) : Action Unit :=
  modify fun state => { state with status }

/-- The value of a variable; an exported one may have none. -/
def Scope.value? (scope : Scope) (name : String) : Option Bytes :=
  (scope.bindings.get? name).bind (·.value)

def Scope.valueOf (scope : Scope) (name : String) : Bytes :=
  (scope.value? name).getD []

def Scope.assign (scope : Scope) (name : String) (value : Bytes) : Scope :=
  let before : Variable := (scope.bindings.get? name).getD {}
  { scope with bindings := scope.bindings.set name { before with value := some value } }

/-! ### Streams -/

def channel (stream : Nat) : Action (Option Channel) := do
  return (← scope).streams.lookup stream

def setChannel (stream : Nat) (channel : Option Channel) : Action Unit :=
  modifyScope fun scope =>
    let others := scope.streams.filter fun (other, _) => other != stream
    { scope with streams := others ++ (channel.map fun channel => (stream, channel)).toList }

def contentBytes : Content → Bytes
  | .text chars => Bytes.ofString (String.ofList chars)
  | .bytes bytes => bytes.map fun byte => Char.ofNat byte.toNat

/-- The contents of a file, none if there is no such file. -/
def fileBytes (files : FileTree) (path : String) : Bytes :=
  match files.found path with
  | some (.file content) => contentBytes content
  | _ => []

/-- Puts contents in place of a file whose directory exists. -/
def putFile (files : FileTree) (path : String) (bytes : Bytes) : FileTree :=
  let parts := Path.parts path
  match files.walkFrom [] parts.dropLast with
  | .ok directory =>
      files.put (directory ++ parts.getLast?.toList) (.file (.ofBytes (Bytes.numbers bytes)))
  | .error _ => files

def writeTo (channel : Option Channel) (bytes : Bytes) : Action Unit := do
  match channel with
  | some .output => modify fun state => { state with out := bytes :: state.out }
  | some .errors => modify fun state => { state with err := bytes :: state.err }
  | some (.pipe number) =>
      modify fun state => { state with pipes := state.pipes.modify number (bytes :: ·) }
  | some (.file path) =>
      modify fun state =>
        { state with files := putFile state.files path (fileBytes state.files path ++ bytes) }
  | some .nowhere | none => return

def write (stream : Nat) (bytes : Bytes) : Action Unit := do
  writeTo (← channel stream) bytes

/-- A new pipe that holds something. -/
def openPipe (bytes : Bytes) : Action Nat := do
  let number := (← get).pipes.length
  modify fun state => { state with pipes := state.pipes ++ [[bytes]] }
  return number

/-- Takes what a pipe holds, up to a length. -/
def takeFrom (stream : Nat) (length : Bytes → Nat) : Action Bytes := do
  match ← channel stream with
  | some (.pipe number) =>
      let held := Written.text (((← get).pipes[number]?).getD [])
      let taken := length held
      modify fun state => { state with pipes := state.pipes.set number [held.drop taken] }
      return held.take taken
  | _ => return []

def takeAll (stream : Nat) : Action Bytes :=
  takeFrom stream List.length

/-- Takes a line with its end, if there is one. -/
def takeLine (stream : Nat) : Action Bytes :=
  takeFrom stream fun held => (held.takeWhile (· != '\n')).length + 1

/-- While a process waits, what it printed is read: a chunk of each stream. -/
def flush : Action Unit :=
  modify fun state =>
    { state with
      chunks := state.chunks
        ++ [state.out.text, state.err.text].filter fun bytes => !bytes.isEmpty
      out := []
      err := [] }

/-! ### Faults -/

/-- A message of the shell, with the line of the command. -/
def complain (message : Bytes) : Action Unit := do
  let state ← get
  write 2 (Bytes.ofString (state.name ++ ": " ++ toString state.line ++ ": " ++ state.label)
    ++ message ++ ['\n'])

def refuse {α : Type} (message : Bytes) : Action α := do
  complain message
  throw .fault

/-- What an action yields, or how it stops. -/
def settled {α : Type} (action : Action α) : Action (Except Stop α) :=
  ExceptT.mk (Except.ok <$> action.run)

/-- Does something in any case after an action. -/
def ensuring {α : Type} (action : Action α) (after : Action Unit) : Action α := do
  let result ← settled action
  after
  match result with
  | .ok value => return value
  | .error stop => throw stop

/-! ### Files -/

/-- A path of a command as an absolute one. -/
def pathOf (directory : String) (text : Bytes) : String :=
  Path.tidy (Path.join directory (Bytes.shown text))

/-- What there is at a path of a command. -/
def entryAt (text : Bytes) : Action (Option Entry) := do
  if text.isEmpty then return none
  let state ← get
  return state.files.found (pathOf state.scope.directory text)

end RefSync.Compiler.Shell
