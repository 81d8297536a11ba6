/-
Simple commands: words and assignments, which mean a function, a command of the shell or a
program. The commands of the shell that run others are here as well.
-/

import RefSync.Compiler.Shell.Program

namespace RefSync.Compiler.Shell

/-! ### Commands that run others -/

/-- The status after a text that may have held nothing to run. -/
def statusIf (ran : Bool) : Action Nat := do
  if ran then return (← get).status else return 0

/-- Runs the arguments as a text. -/
def evaluate (run : Runner) (tested : Bool) : Builtin := fun arguments => do
  let ran ← runText run tested (arguments.intersperse [' ']).flatten
  statusIf ran

/-- Runs the contents of a file. -/
def readIn (run : Runner) : Builtin := fun arguments => do
  match arguments with
  | [] => return 0
  | file :: _ =>
      if !file.contains '/' then refuse (file ++ ": not found".toList)
      match ← entryAt file with
      | some (.file content) =>
          try statusIf (← runText run false (contentBytes content))
          catch
            | .function status => return status
            | stop => throw stop
      | _ => refuse ("cannot open ".toList ++ file ++ ": No such file".toList)

/-- Puts a program in place of the shell. -/
def replace (run : Runner) : Builtin := fun arguments => do
  match arguments with
  | [] => return 0
  | path :: rest =>
      let name := (programName path).shown
      if name != "env" && (program? run name).isNone then
        throw (.shell (← runProgram run path rest))
      modifyScope Scope.inner
      modify fun state => { state with label := "", isReplaced := true }
      throw (.replaced (← runProgram run path rest))

/-- Commands that run others, by their names. -/
def running? (run : Runner) (tested : Bool) (name : String) : Option Builtin :=
  match name with
  | "eval" => some (evaluate run tested)
  | "." => some (readIn run)
  | "exec" => some (replace run)
  | "wait" => some (wait run)
  | _ => none

def isSpecial (name : String) : Bool :=
  Reader.specialNames.contains name

/-- The names of the commands that look at other commands. -/
def lookingNames : List String :=
  ["command", "type"]

/-- What is said of a name: all of it, or just what would be run. -/
def describe (full : Bool) (text : Bytes) : Action Nat := do
  let name := text.shown
  let tell (kind : String) (short : Bytes) : Action Nat := do
    write 1 ((if full then text ++ kind.toList else short) ++ ['\n'])
    return 0
  let path := "/usr/bin/".toList ++ text
  if Reader.keywords.contains name then tell " is a shell keyword" text
  else if isSpecial name then tell " is a special shell builtin" text
  else if ((← scope).functions.get? name).isSome then tell " is a shell function" text
  else if ["eval", ".", "exec", "wait"].contains name || lookingNames.contains name
      || (Builtin.table.lookup name).isSome then
    tell " is a shell builtin" text
  else if isProgram name || name == "env" then tell (" is /usr/bin/" ++ name) path
  else
    if full then write 1 (text ++ ": not found\n".toList)
    return 127

def describeAll (full : Bool) : List Bytes → Nat → Action Nat
  | [], status => return status
  | text :: rest, status => do
      let found ← describe full text
      describeAll full rest (if found = 0 then status else found)

/-- Does the work of a command of the shell. Its messages are labelled with its name. A
fault ends the shell only if the command is special. -/
def labelled (name : Bytes) (special : Bool) (action : Action Nat) : Action Unit := do
  let before := (← get).label
  modify fun state => { state with label := name.shown ++ ": " }
  let restore := modify fun state => { state with label := before }
  try
    let status ← ensuring action restore
    setStatus status
  catch
    | .fault => if special then throw .fault else setStatus 2
    | stop => throw stop

/-- A command of the shell by its name. -/
def builtin? (run : Runner) (tested : Bool) (name : String) : Option Builtin :=
  (running? run tested name).or (Builtin.table.lookup name)

/-- Runs a command whatever functions there are, or says what it is. -/
def plainly (run : Runner) (tested : Bool) : List Bytes → Action Unit
  | [] => setStatus 0
  | argument :: rest => do
      match argument with
      | ['-', 'v'] => setStatus (← describeAll false rest 0)
      | ['-', 'V'] => setStatus (← describeAll true rest 0)
      | ['-', 'p'] | ['-', '-'] => plainly run tested rest
      | name =>
          match builtin? run tested name.shown with
          | some builtin => labelled name false (builtin rest)
          | none =>
              if name.shown == "type" then setStatus (← describeAll true rest 0)
              else setStatus (← runProgram run name rest)

/-! ### Simple commands -/

/-- Makes assignments, and shows them as they are written. -/
def assignAll (capture : Capture) (before : String → Action Unit) (exported : Bool) :
    List (String × List Piece) → Action (List Bytes)
  | [] => return []
  | (name, pieces) :: rest => do
      let value ← wordValue capture pieces
      before name
      assignTo name value
      if exported then
        modifyScope fun scope =>
          let entry : Variable := (scope.bindings.get? name).getD {}
          { scope with bindings := scope.bindings.set name { entry with isExported := true } }
      return (name.toList ++ '=' :: value) :: (← assignAll capture before exported rest)

/-- Shows what is run, if that is asked for. -/
def trace (errors : Option Channel) (words : List Bytes) : Action Unit := do
  if (← scope).flags.trace then
    writeTo errors ("+ ".toList ++ (words.intersperse [' ']).flatten ++ ['\n'])

def restoreVariable (bindings : Table Variable) (entry : String × Option Variable) :
    Table Variable :=
  match entry.2 with
  | some value => bindings.set entry.1 value
  | none => bindings.erase entry.1

/-- Does something with variables of its own, which are what they were before afterwards. -/
def withHidden {α : Type} (action : Action α) : Action α := do
  let before := (← scope).hidden
  modifyScope ({ · with hidden := [] })
  ensuring action (modifyScope fun scope =>
    { scope with
      bindings := scope.hidden.foldl restoreVariable scope.bindings
      hidden := before })

def callLimit : Nat := 1000

/-- Runs the body of a function with arguments. -/
def call (run : Runner) (tested : Bool) (body : Command) (arguments : List Bytes) :
    Action Unit := do
  let before ← scope
  if callLimit ≤ before.calls then
    refuse ("Maximum function recursion depth (" ++ toString callLimit ++ ") reached").toList
  modifyScope ({ · with arguments, calls := before.calls + 1, loops := 0 })
  let body : Action Unit :=
    try run tested body
    catch
      | .function status => setStatus status
      | stop => throw stop
  ensuring body (modifyScope ({ · with
    arguments := before.arguments, calls := before.calls, loops := before.loops }))

/-- Runs a command that is no function, by its name. -/
def perform (run : Runner) (tested : Bool) (name : Bytes) (arguments : List Bytes) :
    Action Unit := do
  if lookingNames.contains name.shown then
    plainly run tested (if name.shown == "type" then name :: arguments else arguments)
  else
    match builtin? run tested name.shown with
    | some builtin => labelled name (isSpecial name.shown) (builtin arguments)
    | none => setStatus (← runProgram run name arguments)

/-- A command with words. The assignments of a special one last. -/
def runWords (run : Runner) (tested : Bool) (errors : Option Channel)
    (assignments : List (String × List Piece)) (name : Bytes) (arguments : List Bytes) :
    Action Unit := do
  let capture := captureWith run
  let shown (assigned : List Bytes) : Action Unit := trace errors (assigned ++ name :: arguments)
  if isSpecial name.shown then
    shown (← assignAll capture (fun _ => return) false assignments)
    perform run tested name arguments
  else
    withHidden do
      shown (← assignAll capture Builtin.hide true assignments)
      match (← scope).functions.get? name.shown with
      | some body => call run tested body arguments
      | none => perform run tested name arguments

/-- Commands whose arguments may be assignments. -/
def declaringNames : List Bytes :=
  ["export".toList, "local".toList, "readonly".toList]

/-- An argument that may be an assignment, which is one field then. -/
def declaredFields (capture : Capture) (pieces : List Piece) : Action (List Bytes) := do
  match Reader.assignment? pieces with
  | some (name, value) => return [name.toList ++ '=' :: (← wordValue capture value)]
  | none => wordFields capture pieces

/-- The words of a command as fields. -/
def commandFields (capture : Capture) : List (List Piece) → Action (List Bytes)
  | [] => return []
  | word :: rest => do
      match ← wordFields capture word with
      | [] => commandFields capture rest
      | first :: others =>
          if first == "command".toList && others.isEmpty then
            return first :: (← commandFields capture rest)
          else if declaringNames.contains first then
            return first :: others ++ (← rest.mapM (declaredFields capture)).flatten
          else return first :: others ++ (← rest.mapM (wordFields capture)).flatten

def simple (run : Runner) (tested : Bool) (assignments : List (String × List Piece))
    (words : List (List Piece)) (redirections : List Redirection) : Action Unit := do
  modify fun state => { state with captured := 0 }
  let capture := captureWith run
  let fields ← commandFields capture words
  let errors ← channel 2
  match fields with
  | [] =>
      keepingStreams do
        if ← redirectAll capture redirections then
          traceSome errors (← assignAll capture (fun _ => return) false assignments)
          setStatus (← get).captured
  | name :: arguments =>
      let whole : Action Unit := do
        if ← redirectAll capture redirections then
          runWords run tested errors assignments name arguments
        else if isSpecial name.shown then throw .fault
      if name.shown == "exec" && arguments.isEmpty then whole else keepingStreams whole
where
  traceSome (errors : Option Channel) (assigned : List Bytes) : Action Unit :=
    if assigned.isEmpty then return else trace errors assigned

end RefSync.Compiler.Shell
