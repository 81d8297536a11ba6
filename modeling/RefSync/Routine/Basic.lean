/-
Routines: what a handler does, as data. A routine reads and changes the engine's state at
once; only its requests to the outside take time, so between two requests nothing
else can happen. How the requests are answered, and what other routines do meanwhile,
is left to whoever runs it: one after another (`Routine.run`) or interleaved.
-/

import RefSync.Duration
import RefSync.Fault

universe u

namespace RefSync

inductive Level where
  | info
  | warning
  | error
  | critical
deriving DecidableEq, Repr

def Level.text : Level → String
  | .info => "INFO"
  | .warning => "WARNING"
  | .error => "ERROR"
  | .critical => "CRITICAL"

structure LogRecord where
  level : Level
  message : String
deriving DecidableEq, Repr

/-- The state all handlers share. `generation` counts the deletions of the root
manifest; `notices` are messages that wait for their repetitions to stop. -/
structure Engine where
  registry : Registry := .empty
  active : Bool := false
  generation : Nat := 0
  notices : List String := []
  log : List LogRecord := []
deriving Repr

/-- What a routine asks of the outside. Paths are relative to the project root. -/
inductive Request where
  | read (path : String)
  | write (path : String) (document : Document)
  | isPresent (path : String)
  | discover (globs : List String)
  | hasJsx (directory : String)
  | sources (directory : String)
  | hasFiles (directory : String)
  | removeDirectory (directory : String)
  | pause (length : Duration)

/-- The answer to a request. -/
@[reducible] def Request.Answer : Request → Type
  | .read _ => Except ReadFault Json
  | .write _ _ => Except WriteFault Unit
  | .isPresent _ | .hasJsx _ => Except ReadFault Bool
  | .discover _ => Except ReadFault (List String)
  | .sources _ => List (List String)
  | .hasFiles _ => Bool
  | .removeDirectory _ => Except ReadFault Unit
  | .pause _ => Unit

/-- `group` starts its members together and goes on when all of them are through. -/
inductive Routine : Type → Type 1 where
  | done {α : Type} (value : α) : Routine α
  | fail {α : Type} (failure : Failure) : Routine α
  | get {α : Type} (next : Engine → Routine α) : Routine α
  | put {α : Type} (engine : Engine) (next : Routine α) : Routine α
  | request {α : Type} (request : Request) (next : request.Answer → Routine α) : Routine α
  | group {α β : Type} {size : Nat} (members : Fin size → Routine β)
      (next : List (Except Failure β) → Routine α) : Routine α

namespace Routine

def bind {α β : Type} : Routine α → (α → Routine β) → Routine β
  | .done value, rest => rest value
  | .fail failure, _ => .fail failure
  | .get next, rest => .get fun engine => (next engine).bind rest
  | .put engine next, rest => .put engine (next.bind rest)
  | .request asked next, rest => .request asked fun answer => (next answer).bind rest
  | .group members next, rest => .group members fun results => (next results).bind rest

instance : Monad Routine where
  pure := .done
  bind := bind

/-- Goes on with `handler` where the routine fails. -/
def recover {α : Type} : Routine α → (Failure → Routine α) → Routine α
  | .done value, _ => .done value
  | .fail failure, handler => handler failure
  | .get next, handler => .get fun engine => (next engine).recover handler
  | .put engine next, handler => .put engine (next.recover handler)
  | .request asked next, handler => .request asked fun answer => (next answer).recover handler
  | .group members next, handler => .group members fun results => (next results).recover handler

def throw {α : Type} (fault : Fault) : Routine α :=
  .fail [fault]

def ofExcept {ε α : Type} (toFault : ε → Fault) : Except ε α → Routine α
  | .ok value => .done value
  | .error problem => throw (toFault problem)

/-- The value that a request to look at files yields. -/
def orThrow {α : Type} (answer : Except ReadFault α) : Routine α :=
  ofExcept Fault.read answer

def ask (asked : Request) : Routine asked.Answer :=
  .request asked .done

def engine : Routine Engine :=
  .get .done

def registry : Routine Registry :=
  .get fun engine => .done engine.registry

def modify (change : Engine → Engine) : Routine Unit :=
  .get fun engine => .put (change engine) (.done ())

def modifyRegistry (change : Registry → Registry) : Routine Unit :=
  modify fun engine => { engine with registry := change engine.registry }

def log (level : Level) (message : String) : Routine Unit :=
  modify fun engine => { engine with log := engine.log ++ [⟨level, message⟩] }

/-- A routine that is skipped where a condition fails. -/
def onlyIf (condition : Bool) (routine : Routine Unit) : Routine Unit :=
  if condition then routine else .done ()

/-- The values of a group, or the faults of all members that failed. -/
def collect {α : Type} : List (Except Failure α) → Except Failure (List α)
  | [] => .ok []
  | result :: results =>
      match result, collect results with
      | .ok value, .ok values => .ok (value :: values)
      | .ok _, .error failure => .error failure
      | .error failure, .ok _ => .error failure
      | .error failure, .error others => .error (failure ++ others)

/-- Starts a routine for each item and waits for all. -/
def forAll {α : Type u} {β : Type} (items : List α) (routine : α → Routine β) : Routine (List β) :=
  .group (fun index : Fin items.length => routine (items.get index)) fun results =>
    match collect results with
    | .ok values => .done values
    | .error failure => .fail failure

end Routine
end RefSync
