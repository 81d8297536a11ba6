/-
A shell as a process: it takes steps, runs texts line by line, does something about signals,
runs commands in shells inside of it, and lets jobs run while it waits.
-/

import RefSync.Compiler.Shell.Builtin
import RefSync.Compiler.Shell.Reader
import RefSync.Compiler.Shell.Redirect

namespace RefSync.Compiler.Shell

/-! ### Steps -/

def spend : Action Unit := do
  let state ← get
  if state.budget = 0 then throw .bound
  set { state with budget := state.budget - 1 }

/-- The line of the command that is at work, which messages mention. -/
def setLine (line : Nat) : Action Unit :=
  modify fun state => { state with line }

/-- A failure on which nothing depends ends a shell that is told so. -/
def checkFailure (tested : Bool) : Action Unit := do
  let state ← get
  if !tested && state.scope.flags.stopOnFailure && state.status ≠ 0 then
    throw (.shell state.status)

/-! ### Texts -/

/-- Runs a text line by line, and says whether there was anything to run. -/
def runLines (run : Runner) (tested : Bool) : Nat → Source → Action Bool
  | 0, _ => return false
  | fuel + 1, source => do
      match readLine { source with documents := (← get).documents } with
      | .error fault =>
          modify fun state => { state with line := fault.line }
          refuse (Bytes.ofString ("Syntax error: " ++ fault.message))
      | .ok none => return false
      | .ok (some (command, source)) =>
          modify fun state => { state with documents := source.documents }
          match command with
          | .nothing => runLines run tested fuel source
          | command =>
              run tested command
              let _ ← runLines run tested fuel source
              return true

def runText (run : Runner) (tested : Bool) (text : Bytes) : Action Bool :=
  runLines run tested (text.length + 1) { rest := text }

/-! ### Signals -/

/-- Runs the actions of signals that came meanwhile. One without an action ends the
process. -/
def runSignals (run : Runner) : List Nat → Action Unit
  | [] => return
  | signal :: rest => do
      match (← scope).traps.lookup signal with
      | some action =>
          let before ← get
          modify fun state => { state with saved := some state.status }
          let _ ← runText run false action
          modify fun state => { state with status := before.status, saved := before.saved }
      | none => throw (.signal signal)
      runSignals run rest

/-- Only the outermost shell of a process does something about signals. -/
def handleSignals (run : Runner) : Action Unit := do
  let state ← get
  if state.outer.isEmpty && !state.signals.isEmpty then
    set { state with signals := [] }
    runSignals run state.signals

/-- The interrupt of an interrupted process, whose outermost shell gets it. -/
def interruptIfDue : Action Unit := do
  let state ← get
  if state.isInterrupted && state.outer.isEmpty then
    set { state with isInterrupted := false }
    Builtin.receive Signal.interrupt

/-- Where a process waits, what it printed is read, and it may be interrupted. -/
def pause : Action Unit := do
  flush
  modify fun state => { state with waits := state.waits + 1 }
  interruptIfDue

/-! ### Shells inside of shells -/

/-- The status with which a shell ends, after a status of its last command. A process that
ends does not end as a shell does. -/
def statusAfter (result : Except Stop Unit) (status : Nat) : Action Nat :=
  match result with
  | .ok _ | .error (.loop _ _) => return status
  | .error (.function status) | .error (.shell status) | .error (.replaced status) =>
      return status
  | .error .fault => return 2
  | .error stop => throw stop

/-- Does what is set for the end of a shell that ends with a status. The action may exit
with another one. -/
def concludeWith (run : Runner) (status : Nat) : Action Nat := do
  match (← scope).traps.lookup 0 with
  | none => return status
  | some action =>
      Builtin.setTrap none 0
      modify fun state => { state with status, saved := some status, label := "" }
      statusAfter (← settled do let _ ← runText run false action) status

/-- Does something in a shell and yields the status with which the shell ends. -/
def concluding (run : Runner) (action : Action Unit) : Action Nat := do
  match ← settled action with
  | .error (.replaced status) => return status
  | result => concludeWith run (← statusAfter result (← get).status)

/-- A scope as a shell inside of another one has it: signals that are ignored stay so. -/
def Scope.inner (scope : Scope) : Scope :=
  { scope with traps := scope.traps.filter fun (_, action) => action.isEmpty }

/-- The status after a process that a signal ended, which is said unless it is expected. -/
def reportSignal (signal : Nat) : Action Nat := do
  if let some message := Signal.message? signal then
    write 2 (message ++ "\n").toList
  return (Ending.signalled signal).status

/-- A signal without an action ends the process as soon as its outermost shell is back. -/
def endIfKilled : Action Unit := do
  let state ← get
  if state.outer.isEmpty then
    match state.signals.find? fun signal => (state.scope.traps.lookup signal).isNone with
    | some signal => throw (.signal signal)
    | none => return

/-- Does something in a shell inside of the present one, and yields its status. A signal
that ends what replaced the inner shell does not concern the present one. -/
def inShell (run : Runner) (change : Scope → Scope) (action : Action Unit) : Action Nat := do
  let before ← get
  modify fun state =>
    { state with
      scope := (change state.scope).inner
      outer := state.scope :: state.outer
      isReplaced := false }
  let result ← settled (concluding run action)
  let wasReplaced := (← get).isReplaced
  modify fun state =>
    { state with
      scope := before.scope
      outer := before.outer
      saved := before.saved
      label := before.label
      line := before.line
      isReplaced := before.isReplaced }
  if (← get).waits ≠ before.waits then interruptIfDue
  match result with
  | .ok status => return status
  | .error (.signal signal) =>
      if wasReplaced then reportSignal signal else throw (.signal signal)
  | .error stop => throw stop

/-- What a command prints, without line ends after it. -/
def captureWith (run : Runner) : Capture := fun command => do
  let before := (← get).status
  let pipe ← openPipe []
  let status ← inShell run id do
    setChannel 1 (some (.pipe pipe))
    run false command
  endIfKilled
  modify fun state => { state with status := before, captured := status }
  let printed := Written.text (((← get).pipes[pipe]?).getD [])
  return ((printed.filter (· != '\x00')).reverse.dropWhile (· == '\n')).reverse

/-! ### Jobs -/

/-- Lets a job come to its end. Nothing waits for it while it runs. -/
def runJob (run : Runner) (job : Job) : Action Unit := do
  let before := (← get).status
  Builtin.endJob job.number (.exited 0)
  let status ← inShell run (fun _ => job.scope) (run false job.command)
  Builtin.endJob job.number (.exited status)
  setStatus before

/-- Lets all jobs come to their ends. -/
def runJobs (run : Runner) : Action Unit := do
  for job in (← get).jobs do
    if job.ending.isNone then runJob run job

def startJob (command : Command) : Action Unit :=
  modify fun state =>
    let number := state.started + 1
    let streams := (0, Channel.nowhere) :: state.scope.streams.filter (·.1 ≠ 0)
    let job : Job := { number, scope := { state.scope.inner with streams }, command }
    { state with started := number, jobs := state.jobs ++ [job], status := 0 }

/-- Waits for a job. What ended it is said, if that was a signal. -/
def waitFor (run : Runner) (target : Bytes) : Action Nat := do
  let isJob := target.head? == some '%'
  let value ← if isJob then pure ((natural? target.tail).getD 0) else Builtin.number target
  let state ← get
  let isTarget (job : Job) := (if isJob then job.number else state.pid + job.number) == value
  match state.jobs.find? isTarget with
  | none => if isJob then refuse ("No such job: ".toList ++ target) else return 127
  | some job =>
      if job.ending.isNone then
        pause
        if !(← get).signals.isEmpty then return (Ending.signalled Signal.interrupt).status
        runJob run job
      match ((← get).jobs.find? isTarget).bind (·.ending) with
      | some (.signalled signal) => reportSignal signal
      | some ending => return ending.status
      | none => return 127

def waitAll (run : Runner) : List Bytes → Nat → Action Nat
  | [], status => return status
  | target :: rest, _ => do waitAll run rest (← waitFor run target)

/-- Waits for jobs, if there are any to wait for. -/
def wait (run : Runner) : Builtin := fun targets => do
  if !targets.isEmpty then waitAll run targets 0
  else if (← get).jobs.all (·.ending.isSome) then return 0
  else
    pause
    if !(← get).signals.isEmpty then return (Ending.signalled Signal.interrupt).status
    runJobs run
    return 0

end RefSync.Compiler.Shell
