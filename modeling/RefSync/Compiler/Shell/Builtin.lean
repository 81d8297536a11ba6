/-
Commands that a shell carries out itself, as far as they run no other commands: those that
print and ask, those that change variables, options, arguments, traps and the directory,
and those that leave a loop, a function or the shell. Each takes its arguments and gives
a status.
-/

import RefSync.Compiler.Shell.Condition
import RefSync.Compiler.Shell.Expansion
import RefSync.Compiler.Shell.Printing

namespace RefSync.Compiler.Shell

abbrev Builtin := List Bytes → Action Nat

namespace Builtin

/-! ### Arguments -/

def number (text : Bytes) : Action Nat := do
  match natural? text with
  | some value => return value
  | none => refuse ("Illegal number: ".toList ++ text)

def illegalOption {α : Type} (letter : Char) : Action α :=
  refuse ("Illegal option -".toList ++ [letter])

/-- The letters of the options in front, of those that are allowed, and the arguments that
follow them. -/
def options (allowed : String) : List Bytes → Action (Bytes × List Bytes)
  | [] => return ([], [])
  | argument :: rest => do
      match argument with
      | ['-', '-'] => return ([], rest)
      | '-' :: letter :: letters =>
          match (letter :: letters).find? fun letter => !allowed.toList.contains letter with
          | some letter => illegalOption letter
          | none =>
              let (more, rest) ← options allowed rest
              return (letter :: letters ++ more, rest)
      | _ => return ([], argument :: rest)

/-- Text in single quotes. A single quote is put into double ones. -/
def quoted (text : Bytes) : Bytes :=
  let inside := text.flatMap fun char => if char == '\'' then "'\"'\"'".toList else [char]
  '\'' :: inside ++ ['\'']

def say (text : String) : Action Unit :=
  write 1 (Bytes.ofString (text ++ "\n"))

/-! ### Printing and asking -/

def echo : Builtin := fun arguments => do
  write 1 (Printing.echo arguments)
  return 0

def printf : Builtin := fun arguments => do
  let (_, arguments) ← options "" arguments
  let outcome := Printing.printf arguments
  outcome.complaints.forM complain
  write 1 outcome.output
  return outcome.status

def printDirectory : Builtin := fun arguments => do
  let _ ← options "LP" arguments
  say (← scope).directory
  return 0

/-- The world as conditions see it. No stream is a terminal. -/
def world : Action Condition.World := do
  let state ← get
  return {
    found := fun path =>
      if path.isEmpty then none else state.files.found (pathOf state.scope.directory path)
    isTerminal := fun _ => false }

def test : Builtin := fun arguments => do
  match Condition.evaluate (← world) arguments with
  | .ok holds => return if holds then 0 else 1
  | .error fault => refuse fault.message

def bracket : Builtin := fun arguments => do
  if arguments.getLast? == some [']'] then test arguments.dropLast
  else refuse Condition.Fault.missingBracket.message

def printMask : Builtin := fun arguments => do
  match arguments with
  | [] =>
      let digits := Nat.toDigits 8 (← scope).mask
      write 1 (List.replicate (4 - digits.length) '0' ++ digits ++ ['\n'])
      return 0
  | text :: _ =>
      if text.isEmpty || !text.all fun char => (digitOf? 8 char).isSome then
        refuse ("Illegal mode: ".toList ++ text)
      modifyScope ({ · with mask := valueOf 8 text % 512 })
      return 0

def printTimes : Builtin := fun _ => do
  say "0m0.000000s 0m0.000000s\n0m0.000000s 0m0.000000s"
  return 0

def printLimit : Builtin := fun _ => do
  say "unlimited"
  return 0

/-! ### Variables -/

def checkName (text : Bytes) : Action String := do
  if isName text then return String.ofList text
  refuse (text ++ ": bad variable name".toList)

/-- A name, and the value that an equals sign gives it. -/
def divide (argument : Bytes) : Bytes × Option Bytes :=
  let name := argument.takeWhile (· != '=')
  (name, if name.length < argument.length then some (argument.drop (name.length + 1)) else none)

/-- A variable as a command that brings it about. -/
def showVariable (label name : String) (entry : Variable) : Bytes :=
  let value := match entry.value with
    | some value => '=' :: quoted value
    | none => []
  (label ++ name).toList ++ value ++ ['\n']

def showVariables (label : String) (test : Variable → Bool) : Action Unit := do
  for (name, value) in (← scope).bindings.sortKeys do
    if test value then write 1 (showVariable label name value)

/-- Gives variables a property, and a value if there is one. -/
def declare (label : String) (has : Variable → Bool) (give : Variable → Variable) : Builtin :=
  fun arguments => do
    let (letters, arguments) ← options "p" arguments
    if arguments.isEmpty || letters.contains 'p' then showVariables label has
    for argument in arguments do
      let (name, value) := divide argument
      let name ← checkName name
      if let some value := value then assignTo name value
      modifyScope fun scope =>
        let before : Variable := (scope.bindings.get? name).getD {}
        { scope with bindings := scope.bindings.set name (give before) }
    return 0

def exportAll : Builtin :=
  declare "export " (·.isExported) ({ · with isExported := true })

def fixAll : Builtin :=
  declare "readonly " (·.isFixed) ({ · with isFixed := true })

def unset : Builtin := fun arguments => do
  let (letters, names) ← options "fv" arguments
  for text in names do
    if letters.contains 'f' then
      modifyScope fun scope =>
        { scope with functions := scope.functions.erase (String.ofList text) }
    else
      let name ← checkName text
      if ((← scope).bindings.get? name).any (·.isFixed) then
        refuse (text ++ ": is read only".toList)
      modifyScope fun scope => { scope with bindings := scope.bindings.erase name }
  return 0

/-- Keeps what a variable is until the function ends. -/
def hide (name : String) : Action Unit :=
  modifyScope fun scope =>
    { scope with hidden := (name, scope.bindings.get? name) :: scope.hidden }

def keepLocal : Builtin := fun arguments => do
  if (← scope).calls = 0 then refuse "not in a function".toList
  for argument in arguments do
    let (name, value) := divide argument
    let name ← checkName name
    hide name
    if let some value := value then assignTo name value
  return 0

/-! ### Reading -/

/-- The characters of a line, each with whether a backslash protects it, the length of the
line with its end, and whether it has one. A protected end of line goes on. -/
def record (raw : Bool) : Bytes → List (Char × Bool) × Nat × Bool
  | [] => ([], 0, false)
  | '\x00' :: rest =>
      let (marks, length, ends) := record raw rest
      (marks, length + 1, ends)
  | char :: rest =>
      if char == '\n' then ([], 1, true)
      else if char == '\\' && !raw then
        match rest with
        | [] => ([], 1, false)
        | next :: rest =>
            let (marks, length, ends) := record raw rest
            (if next == '\n' then marks else (next, true) :: marks, length + 2, ends)
      else
        let (marks, length, ends) := record raw rest
        ((char, false) :: marks, length + 1, ends)

def isSeparator (separators : Bytes) (mark : Char × Bool) : Bool :=
  !mark.2 && separators.contains mark.1

def isBlankMark (separators : Bytes) (mark : Char × Bool) : Bool :=
  isSeparator separators mark && " \t\n".toList.contains mark.1

/-- What follows the end of a field: blanks, and one other separator among them. -/
def afterField (separators : Bytes) (marks : List (Char × Bool)) : List (Char × Bool) :=
  let rest := marks.dropWhile (isBlankMark separators)
  match rest with
  | mark :: more =>
      if isSeparator separators mark then more.dropWhile (isBlankMark separators) else rest
  | [] => []

/-- A character that may be lost at the end: one that is blank or protected. -/
def isLoose (separators : Bytes) (mark : Char × Bool) : Bool :=
  mark.2 || isBlankMark separators mark

/-- What is left for a last name, up to the blanks after which all is loose. -/
def trimmed (separators : Bytes) (marks : List (Char × Bool)) : List (Char × Bool) :=
  let tail := (marks.reverse.takeWhile (isLoose separators)).reverse
  marks.take (marks.length - tail.length)
    ++ tail.takeWhile fun mark => !isBlankMark separators mark

/-- The values for a number of names. The last one takes all that is left, but for the
separator that ends it if it is a single field. -/
def distribute (separators : Bytes) : Nat → List (Char × Bool) → List Bytes
  | 0, _ => []
  | count + 1, marks =>
      let field := marks.takeWhile fun mark => !isSeparator separators mark
      let rest := afterField separators (marks.drop field.length)
      if 0 < count || rest.all (isLoose separators) then
        field.map (·.1) :: distribute separators count rest
      else [(trimmed separators marks).map (·.1)]

def read : Builtin := fun arguments => do
  let (raw, names) ← flags arguments
  if names.isEmpty then refuse "arg count".toList
  let held ← takeFrom 0 fun held => (record raw held).2.1
  let (marks, _, ends) := record raw held
  let separators := separatorsOf (← scope)
  let values := distribute separators names.length
    (marks.dropWhile (isBlankMark separators))
  for (text, value) in names.zip values do
    assignTo (← checkName text) value
  return if ends then 0 else 1
where
  /-- A prompt is shown to terminals only. -/
  flags : List Bytes → Action (Bool × List Bytes)
    | ['-', 'r'] :: rest => return (true, (← flags rest).2)
    | ['-', 'p'] :: _ :: rest => flags rest
    | ['-', '-'] :: rest => return (false, rest)
    | ('-' :: letter :: _) :: _ => illegalOption letter
    | rest => return (false, rest)

/-! ### Options and arguments -/

def optionNames : List (String × Char) :=
  [("errexit", 'e'), ("noglob", 'f'), ("ignoreeof", 'I'), ("interactive", 'i'),
    ("monitor", 'm'), ("noexec", 'n'), ("stdin", 's'), ("xtrace", 'x'), ("verbose", 'v'),
    ("vi", 'V'), ("emacs", 'E'), ("noclobber", 'C'), ("allexport", 'a'), ("notify", 'b'),
    ("nounset", 'u')]

def withFlag (flags : Flags) (letter : Char) (value : Bool) : Flags :=
  match letter with
  | 'e' => { flags with stopOnFailure := value }
  | 'u' => { flags with refuseUnset := value }
  | 'x' => { flags with trace := value }
  | 'f' => { flags with keepPatterns := value }
  | 'n' => { flags with onlyRead := value }
  | _ => flags

def changeFlag (letter : Char) (value : Bool) : Action Unit :=
  modifyScope fun scope => { scope with flags := withFlag scope.flags letter value }

/-- Changes the options that letters stand for. The letter `o` takes a name. -/
def changeFlags (value : Bool) : Bytes → List Bytes → Action (List Bytes)
  | [], arguments => return arguments
  | 'o' :: letters, [] => changeFlags value letters []
  | 'o' :: letters, name :: arguments => do
      match optionNames.lookup (String.ofList name) with
      | some letter =>
          changeFlag letter value
          changeFlags value letters arguments
      | none => refuse ("Illegal option -o ".toList ++ name)
  | letter :: letters, arguments => do
      if !optionNames.any (·.2 == letter) then illegalOption letter
      changeFlag letter value
      changeFlags value letters arguments

def setArguments (arguments : List Bytes) : Action Unit :=
  modifyScope fun scope => { scope with arguments }

/-- The fuel is the number of arguments, as each round takes one at least. -/
def setAll : Nat → List Bytes → Action Unit
  | 0, _ | _, [] => return
  | fuel + 1, argument :: rest => do
      match argument with
      | ['-', '-'] => setArguments rest
      | ['-'] =>
          changeFlag 'x' false
          if !rest.isEmpty then setArguments rest
      | '-' :: letters => setAll fuel (← changeFlags true letters rest)
      | '+' :: letters => setAll fuel (← changeFlags false letters rest)
      | _ => setArguments (argument :: rest)

def setShell : Builtin := fun arguments => do
  if arguments.isEmpty then showVariables "" (·.value.isSome)
  setAll arguments.length arguments
  return 0

def shift : Builtin := fun arguments => do
  let count ← match arguments with
    | [] => pure 1
    | text :: _ => number text
  let before := (← scope).arguments
  if before.length < count then refuse "can't shift that many".toList
  setArguments (before.drop count)
  return 0

/-! ### Leaving -/

def exit : Builtin := fun arguments => do
  let state ← get
  match arguments with
  | [] => throw (.shell (state.saved.getD state.status))
  | text :: _ => throw (.shell ((← number text) % 256))

def leaveFunction : Builtin := fun arguments => do
  match arguments with
  | [] => throw (.function (← get).status)
  | text :: _ => throw (.function (← number text))

/-- Outside of loops there is nothing to leave. -/
def leave (again : Bool) : Builtin := fun arguments => do
  let levels ← match arguments with
    | [] => pure 1
    | text :: _ => number text
  if levels = 0 then refuse "Illegal number: 0".toList
  let loops := (← scope).loops
  if loops = 0 then return 0
  setStatus 0
  throw (.loop (min levels loops) again)

/-! ### Directory -/

def enter (directory : String) : Action Unit :=
  modifyScope fun scope =>
    let before := scope.valueOf "PWD"
    { (scope.assign "OLDPWD" before).assign "PWD" (Bytes.ofString directory) with directory }

def changeDirectory : Builtin := fun arguments => do
  let (_, arguments) ← options "LP" arguments
  let scope ← scope
  let target := match arguments with
    | [] => scope.valueOf "HOME"
    | ['-'] :: _ => (scope.value? "OLDPWD").getD (Bytes.ofString scope.directory)
    | target :: _ => target
  if target.isEmpty then return 0
  let path := Path.normalize (pathOf scope.directory target)
  if !(← get).files.isDirectoryPath path then refuse ("can't cd to ".toList ++ target)
  enter path
  if arguments.head? == some ['-'] then say path
  return 0

/-! ### Signals -/

/-- A signal by its number or its name. -/
def signal? (text : Bytes) : Option Nat :=
  if text.all Char.isDigit then (natural? text).filter (· ≤ 64)
  else Signal.names.idxOf? (String.ofList (text.map Char.toUpper))

/-- What a signal does to the process: its action waits for the end of a command; without
one the process ends. A shell inside of another one goes on nevertheless. -/
def receive (signal : Nat) : Action Unit := do
  let state ← get
  let root := (state.outer.getLast?).getD state.scope
  match if signal = Signal.kill then none else root.traps.lookup signal with
  | some [] => return
  | some _ => modify fun state => { state with signals := state.signals ++ [signal] }
  | none =>
      if Signal.isHarmless signal then return
      if state.outer.isEmpty then throw (.signal signal)
      modify fun state => { state with signals := state.signals ++ [signal] }

/-- Makes a note of how a job ended. -/
def endJob (number : Nat) (ending : Ending) : Action Unit :=
  modify fun state =>
    { state with jobs := state.jobs.map fun job =>
        if job.number = number then { job with ending := some ending } else job }

/-- Sends a signal to a process, if there is one with that number. -/
def send (signal : Nat) (target : Bytes) : Action Bool := do
  let isJob := target.head? == some '%'
  let isGroup := target.head? == some '-'
  let value ← number (if isJob || isGroup then target.drop 1 else target)
  let state ← get
  if !isJob && !isGroup && value = state.pid then
    if signal ≠ 0 then receive signal
    return true
  let job? := state.jobs.find? fun job =>
    !isGroup && job.ending.isNone && (if isJob then job.number else state.pid + job.number) = value
  match job? with
  | some job =>
      if signal ≠ 0 && !Signal.isHarmless signal then endJob job.number (.signalled signal)
      return true
  | none =>
      complain "No such process\n".toList
      return false

def usage {α : Type} : Action α :=
  refuse (("Usage: kill [-s sigspec | -signum | -sigspec] [pid | job]... or\n"
    ++ "kill -l [exitstatus]").toList)

def sendAll (signal : Nat) (targets : List Bytes) : Action Nat := do
  if targets.isEmpty then usage
  let sent ← targets.mapM (send signal)
  return if sent.all id then 0 else 1

def listSignals : List Bytes → Action Nat
  | [] => do
      say "0"
      Signal.names.tail.forM say
      return 0
  | text :: _ => do
      let value ← number text
      let signal := if 128 < value then value - 128 else value
      match if signal = 0 then none else Signal.names[signal]? with
      | some name =>
          say name
          return 0
      | none => refuse ("invalid signal number or exit status: ".toList ++ text)

def kill : Builtin := fun arguments => do
  match arguments with
  | [] => usage
  | ('-' :: name) :: rest =>
      match if name.isEmpty then none else signal? name with
      | some signal => sendAll signal rest
      | none =>
          match name, rest with
          | ['l'], rest => listSignals rest
          | ['s'], [] => refuse "No arg for -s option".toList
          | ['s'], name :: rest => named name rest
          | 's' :: name, rest => named name rest
          | ['-'], rest => sendAll Signal.terminate rest
          | letter :: _, _ => illegalOption letter
          | [], _ => sendAll Signal.terminate rest
  | targets => sendAll Signal.terminate targets
where
  named (name : Bytes) (targets : List Bytes) : Action Nat := do
    match signal? name with
    | some signal => sendAll signal targets
    | none => refuse ("invalid signal number or name: ".toList ++ name)

def nameOf (signal : Nat) : String :=
  (Signal.names[signal]?).getD (toString signal)

def setTrap (action : Option Bytes) (signal : Nat) : Action Unit :=
  modifyScope fun scope =>
    let others := scope.traps.filter (·.1 ≠ signal)
    { scope with traps := others ++ (action.map fun action => (signal, action)).toList }

def trap : Builtin := fun arguments => do
  let (_, arguments) ← options "" arguments
  match arguments with
  | [] =>
      let traps := sortBy (fun left right => decide (left.1 ≤ right.1)) (← scope).traps
      for (signal, action) in traps do
        write 1 ("trap -- ".toList ++ quoted action ++ (" " ++ nameOf signal ++ "\n").toList)
      return 0
  | [signal] => change none [signal]
  | ['-'] :: signals => change none signals
  | action :: signals => change (some action) signals
where
  change (action : Option Bytes) : List Bytes → Action Nat
    | [] => return 0
    | text :: rest => do
        match if text.isEmpty then none else signal? text with
        | some signal =>
            setTrap action signal
            change action rest
        | none =>
            write 2 ("trap: ".toList ++ text ++ ": bad trap\n".toList)
            return 1

/-! ### Table -/

def missing (reason : String) : Builtin := fun _ =>
  refuse reason.toList

def table : List (String × Builtin) :=
  [(":", fun _ => return 0), ("true", fun _ => return 0), ("false", fun _ => return 1),
    ("echo", echo), ("printf", printf), ("pwd", printDirectory), ("test", test), ("[", bracket),
    ("umask", printMask), ("times", printTimes), ("export", exportAll), ("readonly", fixAll),
    ("unset", unset), ("local", keepLocal), ("read", read), ("set", setShell), ("shift", shift),
    ("exit", exit), ("return", leaveFunction), ("break", leave false), ("continue", leave true),
    ("cd", changeDirectory), ("chdir", changeDirectory), ("kill", kill), ("trap", trap),
    ("hash", fun _ => return 0), ("jobs", fun _ => return 0), ("alias", fun _ => return 0),
    ("unalias", fun _ => return 0), ("ulimit", printLimit),
    ("bg", missing "No current job"),
    ("fg", missing "No current job")]

end Builtin
end RefSync.Compiler.Shell
