/-
Handlers in flight. Events are handled as they come, whether or not earlier ones are through,
so any number of handlers are on their way at once. Whichever of them is scheduled makes its
next step. The outside is not looked into: it may answer every request with anything, and
otherwise at another time.
-/

import RefSync.Routine.Schedule
import RefSync.Watch.Dispatch

namespace RefSync.Watch

open Routine

/-- What the outside would answer at some moment. -/
abbrev Outside := (request : Request) → request.Answer

/-- Asks the outside, which leaves the engine alone. -/
def consult : Answering Outside :=
  fun asked state => (state.2 asked, state)

inductive Task where
  | start
  | dispatch (event : Event)

def Task.routine (project : Project) (options : SyncOptions) : Task → Routine Unit
  | .start => Watch.start project options
  | .dispatch event => Watch.dispatch project options event

/-- Whether a task ends the processing. -/
def Task.isRootDeletion (project : Project) : Task → Bool
  | .start => false
  | .dispatch event => project.relative event.path == manifestFile && event.change == .delete

/-- Whether a task may begin the processing. -/
def Task.isRootCreation (project : Project) : Task → Bool
  | .start => true
  | .dispatch event => project.relative event.path == manifestFile && event.change != .delete

/-- A task on its way. It is begun once its routine went on by itself: that is when the
handler of a root manifest looks at the generation. -/
structure Flight where
  task : Task
  routine : Routine Unit
  begun : Bool

structure Traffic where
  engine : Engine := {}
  flights : List Flight := []

/-- One step of one flight, with whatever the outside answers just then. -/
inductive Advances (index : Nat) (before : Traffic) : Traffic → Prop where
  | steps (flight : Flight) (found : before.flights[index]? = some flight) (outside : Outside)
      {moved : Routine Unit} {after : Engine}
      (steps : Step consult flight.routine (before.engine, outside) moved (after, outside)) :
      Advances index before
        { engine := after
          flights := before.flights.set index
            { flight with routine := moved, begun := flight.begun || flight.routine.isPending } }

/-- What may happen next: a task departs, a flight makes a step, a flight is cancelled as
another one of its batch failed, or notices are due. -/
inductive Moves (project : Project) (options : SyncOptions) : Traffic → Traffic → Prop where
  | departs (traffic : Traffic) (task : Task) :
      Moves project options traffic
        { traffic with flights := traffic.flights ++ [⟨task, task.routine project options, false⟩] }
  | advances {before after : Traffic} (index : Nat) (advances : Advances index before after) :
      Moves project options before after
  | cancelled (traffic : Traffic) (index : Nat) (flight : Flight)
      (found : traffic.flights[index]? = some flight) :
      Moves project options traffic
        { traffic with
          flights := traffic.flights.set index { flight with routine := .fail [], begun := true } }
  | noted (traffic : Traffic) :
      Moves project options traffic { traffic with engine := logNotices traffic.engine }

def Travels (project : Project) (options : SyncOptions) : Traffic → Traffic → Prop :=
  Relation.ReflTransGen (Moves project options)

end RefSync.Watch
