/-
Programs that a shell starts: other shells, utilities, and those that do what a command of
the shell does too.
-/

import RefSync.Compiler.Shell.Process
import RefSync.Compiler.Shell.Utility

namespace RefSync.Compiler.Shell

/-- The names of the programs that are not utilities. -/
def programNames : List String :=
  ["sh", "dash", "bash", "env", "printenv", "sleep", "echo", "printf", "true", "false", "test",
    "[", "pwd", "kill"]

def isProgram (name : String) : Bool :=
  programNames.contains name || (Utility.program? name).isSome

/-- The name of a program, without one of the directories where programs are. -/
def programName (path : Bytes) : Bytes :=
  match ["/usr/bin/", "/bin/"].find? fun directory => directory.toList.isPrefixOf path with
  | some directory => path.drop directory.length
  | none => path

def programFault (message : String) (status : Nat) : Action Nat := do
  write 2 (Bytes.ofString (message ++ "\n"))
  return status

/-- Whether a text is a time with a unit, or without one. -/
def isInterval (text : Bytes) : Bool :=
  let number := if text.getLast?.any "smhd".toList.contains then text.dropLast else text
  !number.isEmpty && number.all fun char => char.isDigit || char == '.'

def sleep (run : Runner) : Builtin := fun arguments => do
  let hint := "\nTry 'sleep --help' for more information."
  match arguments.find? fun argument => !isInterval argument with
  | some ('-' :: letter :: _) =>
      programFault ("sleep: invalid option -- '" ++ String.ofList [letter] ++ "'" ++ hint) 1
  | some argument =>
      programFault ("sleep: invalid time interval ‘" ++ argument.shown ++ "’" ++ hint) 1
  | none =>
      if arguments.isEmpty then programFault ("sleep: missing operand" ++ hint) 1
      else
        pause
        runJobs run
        return 0

/-- Arguments in a line. Escapes mean something only if that is asked for. -/
def echoProgram : Nat → (bare escapes : Bool) → List Bytes → Bytes
  | 0, _, _, _ => []
  | fuel + 1, bare, escapes, arguments =>
      match arguments with
      | ('-' :: letter :: letters) :: rest =>
          if (letter :: letters).all "neE".toList.contains then
            echoProgram fuel (bare || (letter :: letters).contains 'n')
              (((letter :: letters).find? (· != 'n')).elim escapes (· == 'e')) rest
          else shown bare escapes (('-' :: letter :: letters) :: rest)
      | arguments => shown bare escapes arguments
where
  shown (bare escapes : Bool) (arguments : List Bytes) : Bytes :=
    let text := (arguments.intersperse [' ']).flatten
    let (text, ends) := if escapes then Printing.unescape (text.length + 1) text
      else (text, false)
    if bare || ends then text else text ++ ['\n']

/-- The parts of a shell's arguments: its flags, its text, its name and its arguments. -/
structure Invocation where
  flags : Flags := {}
  takesText : Bool := false

def Invocation.read (invocation : Invocation) : List Bytes → Invocation × List Bytes
  | ['-', '-'] :: rest => (invocation, rest)
  | ('-' :: letter :: letters) :: rest =>
      let flags := (letter :: letters).foldl (fun flags letter =>
        Builtin.withFlag flags letter true) invocation.flags
      let takesText := invocation.takesText || (letter :: letters).contains 'c'
      { invocation with flags, takesText }.read rest
  | arguments => (invocation, arguments)

/-- Variables as another program gets them. -/
def environment (scope : Scope) : Table Variable :=
  scope.bindings.filter (·.2.isExported)

/-- Variables that a shell has from the start. -/
def ownVariables : Table Variable :=
  [("IFS", " \t\n"), ("OPTIND", "1"), ("PS1", "# "), ("PS2", "> "), ("PS4", "+ ")].map
    fun (name, value) => (name, { value := some value.toList })

/-- Runs a text in a process of its own. A signal that ends it ends this one too if it
is in place of this one. -/
def runProcess (run : Runner) (invocation : Invocation) (name : String)
    (text : Bytes) (arguments : List Bytes) : Action Nat := do
  let outside ← get
  let inner : Scope :=
    { outside.scope.inner with
      bindings := environment outside.scope ++ ownVariables
      functions := []
      hidden := []
      loops := 0
      calls := 0
      flags := invocation.flags
      arguments }
  set { outside with
    scope := inner
    outer := []
    name
    pid := outside.pid + 1000
    line := 1
    label := ""
    status := 0
    saved := none
    jobs := []
    signals := []
    isInterrupted := outside.isInterrupted && outside.isReplaced
    isReplaced := false }
  let result ← settled (concluding run do let _ ← runText run false text)
  modify fun inside =>
    { inside with
      scope := outside.scope
      outer := outside.outer
      name := outside.name
      pid := outside.pid
      line := outside.line
      label := outside.label
      status := outside.status
      saved := outside.saved
      jobs := outside.jobs
      signals := outside.signals
      isInterrupted := outside.isInterrupted && !outside.isReplaced
      isReplaced := outside.isReplaced }
  if (← get).waits ≠ outside.waits then interruptIfDue
  match result with
  | .ok status => return status
  | .error (.signal signal) =>
      if outside.isReplaced then throw (.signal signal) else reportSignal signal
  | .error stop => throw stop

def shellProgram (run : Runner) (name : String) : Builtin :=
  fun arguments => do
    let (invocation, arguments) := Invocation.read {} arguments
    let process := runProcess run invocation
    if invocation.takesText then
      match arguments with
      | [] => programFault (name ++ ": 0: -c requires an argument") 2
      | text :: [] => process name text []
      | text :: name :: arguments => process name.shown text arguments
    else
      match arguments with
      | [] => process name (← takeAll 0) []
      | file :: arguments =>
          match ← entryAt file with
          | some (.file content) => process file.shown (contentBytes content) arguments
          | _ =>
              programFault (name ++ ": 0: cannot open " ++ file.shown ++ ": No such file") 2

/-- A utility with the input it reads. -/
def runUtility (name : String) (utility : Utility.Call → Utility.Outcome) : Builtin :=
  fun arguments => do
    let input ← if Utility.readsInput name arguments then takeAll 0 else pure []
    let state ← get
    let outcome := utility
      { name, arguments, input, files := state.files, directory := state.scope.directory }
    modify fun state => { state with files := outcome.files }
    write 1 outcome.output
    write 2 outcome.errors
    return outcome.status

def printEnvironment : Builtin := fun names => do
  let bindings := environment (← scope)
  if names.isEmpty then
    for (name, entry) in bindings do
      write 1 ((name ++ "=").toList ++ entry.value.getD [] ++ ['\n'])
    return 0
  else
    let values := names.map fun name => (bindings.get? (String.ofList name)).bind (·.value)
    for value in values.filterMap id do write 1 (value ++ ['\n'])
    return if values.all (·.isSome) then 0 else 1

/-- A program by its name, apart from `env`. -/
def program? (run : Runner) (name : String) : Option Builtin :=
  match name with
  | "sh" | "dash" | "bash" => some (shellProgram run name)
  | "sleep" => some (sleep run)
  | "printenv" => some printEnvironment
  | "echo" => some fun arguments => do
      write 1 (echoProgram (arguments.length + 1) false false arguments)
      return 0
  | name =>
      if programNames.contains name then Builtin.table.lookup name
      else (Utility.program? name).map (runUtility name)

/-- A program with variables that are set or taken away for it. -/
def withEnvironment (run : Runner) : List Bytes → Action Nat
  | [] => printEnvironment []
  | ['-', 'i'] :: rest | ['-'] :: rest => do
      modifyScope fun scope => { scope with bindings := [] }
      withEnvironment run rest
  | ['-', 'u'] :: name :: rest => do
      modifyScope fun scope =>
        { scope with bindings := scope.bindings.erase (String.ofList name) }
      withEnvironment run rest
  | argument :: rest => do
      match Builtin.divide argument with
      | (name, some value) =>
          modifyScope fun scope =>
            let entry : Variable := { value := some value, isExported := true }
            { scope with bindings := scope.bindings.set (String.ofList name) entry }
          withEnvironment run rest
      | (_, none) =>
          match program? run (programName argument).shown with
          | some program => program rest
          | none =>
              programFault ("env: ‘" ++ argument.shown ++ "’: No such file or directory") 127

/-- Runs a program by the name or the path that a command gives. -/
def runProgram (run : Runner) (path : Bytes) : Builtin :=
  fun arguments => do
    let name := (programName path).shown
    if name == "env" then
      let bindings := (← scope).bindings
      ensuring (withEnvironment run arguments)
        (modifyScope fun scope => { scope with bindings })
    else
      match program? run name with
      | some program => program arguments
      | none =>
          let refused (reason : String) (status : Nat) : Action Nat := do
            complain (path ++ (": " ++ reason).toList)
            return status
          if path.isEmpty then refused "Permission denied" 127
          else if path.contains '/' && (← entryAt path).isSome then
            refused "Permission denied" 126
          else refused "not found" 127

end RefSync.Compiler.Shell
