/-
Running commands. Every kind of command is one step that runs the commands inside of it by
a given way of running, and the knot is tied with a bound on the depth.
-/

import RefSync.Compiler.Shell.Simple

namespace RefSync.Compiler.Shell

/-! ### Compound commands -/

/-- A round of a loop says whether there is another one, unless it leaves the loop. -/
def round (action : Action Bool) : Action Bool :=
  try action
  catch
    | .loop 0 again | .loop 1 again => return again
    | .loop (levels + 1) again => throw (.loop levels again)
    | stop => throw stop

/-- Does something inside of one more loop. -/
def looping (action : Action Unit) : Action Unit := do
  let before := (← scope).loops
  modifyScope ({ · with loops := before + 1 })
  ensuring action (modifyScope ({ · with loops := before }))

/-- Rounds of a loop as long as its condition has a status. The status of all of it is that
of its last round. -/
def rounds (run : Runner) (tested : Bool) (goal : Bool) (condition body : Command) :
    Nat → (status : Nat) → Action Unit
  | 0, _ => throw .bound
  | fuel + 1, status => do
      let goesOn ← round do
        run true condition
        if ((← get).status == 0) == goal then
          run tested body
          return true
        else
          setStatus status
          return false
      if goesOn then rounds run tested goal condition body fuel (← get).status

def each (run : Runner) (tested : Bool) (name : String) (body : Command) :
    List Bytes → Action Unit
  | [] => return
  | value :: rest => do
      let goesOn ← round do
        assignTo name value
        run tested body
        return true
      if goesOn then each run tested name body rest

/-- Runs the commands of the first case with a pattern that matches. -/
def choose (run : Runner) (tested : Bool) (subject : Bytes) :
    List (List (List Piece) × Command) → Action Unit
  | [] => setStatus 0
  | (patterns, body) :: rest => do
      if ← patterns.anyM fun pattern => do
          return Glob.admitsAll (itemsOf (← wordPattern (captureWith run) pattern)) subject then
        match body with
        | .nothing => setStatus 0
        | body => run tested body
      else choose run tested subject rest

/-- Runs a stage of a pipeline whose output is read by another one. When it takes more than
half of what is left it does so without end, and ends as nothing reads it any more. -/
def feeding (action : Action Unit) : Action Unit := do
  let before := (← get).budget
  modify fun state => { state with budget := before / 2 }
  let restore := modify fun state => { state with budget := before - before / 2 + state.budget }
  ensuring (try action
    catch
      | .bound => throw (.shell (Ending.signalled Signal.pipe).status)
      | stop => throw stop) restore

/-- Runs the stages of a pipeline, each in a shell of its own. The status is the last one. -/
def pipeline (run : Runner) (tested : Bool) : Option Nat → List Command → Action Unit
  | _, [] => return
  | input, stage :: rest => do
      let output ← if rest.isEmpty then pure none else pure (some (← openPipe []))
      let status ← inShell run id do
        if let some number := input then setChannel 0 (some (.pipe number))
        match output with
        | some number =>
            setChannel 1 (some (.pipe number))
            feeding (run tested stage)
        | none => run tested stage
      if rest.isEmpty then
        endIfKilled
        setStatus status
      else pipeline run tested output rest

/-! ### All commands -/

/-- Runs a command, whose inner commands are run by another way. -/
def carryOut (run : Runner) (tested : Bool) : Command → Action Unit
  | .nothing => return
  | .simple line assignments words redirections => do
      setLine line
      simple run tested assignments words redirections
      checkFailure tested
  | .pipeline stages => do
      pipeline run tested none stages
      checkFailure tested
  | .negation command => do
      run true command
      setStatus (if (← get).status = 0 then 1 else 0)
  | .both first second => do
      run true first
      if (← get).status = 0 then run tested second
  | .either first second => do
      run true first
      if (← get).status ≠ 0 then run tested second
  | .sequence first second => do
      run tested first
      run tested second
  | .background command => startJob command
  | .subshell line body => do
      setLine line
      let status ← inShell run id (run tested body)
      endIfKilled
      setStatus status
      checkFailure tested
  | .redirected line body redirections => do
      setLine line
      keepingStreams do
        if ← redirectAll (captureWith run) redirections then
          run tested body
  | .branch condition whenTrue whenFalse => do
      run true condition
      if (← get).status = 0 then run tested whenTrue
      else
        match whenFalse with
        | .nothing => setStatus 0
        | whenFalse => run tested whenFalse
  | .loop goal condition body => do
      looping (rounds run tested goal condition body ((← get).budget + 1) 0)
  | .each line name words body => do
      setLine line
      let values := (← words.mapM (wordFields (captureWith run))).flatten
      if values.isEmpty then setStatus 0
      looping (each run tested name body values)
  | .choice line subject cases => do
      setLine line
      choose run tested (← wordText (captureWith run) subject) cases
  | .definition name body => do
      modifyScope fun scope => { scope with functions := scope.functions.set name body }
      setStatus 0

/-- Runs a command, and then what signals ask for. -/
def step (run : Runner) : Runner := fun tested command => do
  spend
  if !(← scope).flags.onlyRead then
    carryOut run tested command
    handleSignals run

/-- Runs commands that are nested to a depth. -/
def execute : (depth : Nat) → Runner
  | 0 => fun _ _ => throw .bound
  | depth + 1 => step (execute depth)

end RefSync.Compiler.Shell
