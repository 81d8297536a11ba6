/-
Sessions: routines run one after another on the files of a project, with an account of
what each one did. Others may be at work meanwhile: an interruption waits for a file
operation and does its work just before or just after it, once.
-/

import RefSync.Disk
import RefSync.FileTree.Edit
import RefSync.Watch.Dispatch

namespace RefSync

inductive Moment where
  | before
  | after
deriving DecidableEq, Repr

/-- The file operations that an interruption can wait for. -/
inductive Operation where
  | read
  | write
  | isPresent
  | discover
  | hasJsx
  | pause
deriving DecidableEq, Repr

/-- What is done by others: files change, or a routine runs to its end. -/
inductive Work where
  | edit (edits : List (String × Edit))
  | routine (routine : Routine Unit)

structure Interruption where
  operation : Operation
  path : String
  moment : Moment
  work : List Work

structure Session where
  engine : Engine := {}
  disk : Disk

/-- A disk with the interruptions that happened, and the failures of their routines. -/
structure Scene where
  disk : Disk
  happened : List Nat := []
  failures : List Failure := []

namespace Disk

/-- The place of the project root. -/
def base (disk : Disk) : Place :=
  Path.resolve true (Path.parts disk.project.root)

def edit (disk : Disk) (edits : List (String × Edit)) : Disk :=
  { disk with files := disk.files.editAll disk.base edits }

/-- The disk of a project whose root directory is empty. -/
def ofProject (project : Project) : Disk :=
  { project, files := FileTree.empty.edit [] project.root .directory }

end Disk

namespace Session

/-- A relative path without `.` and repeated slashes. -/
def spelled (path : String) : String :=
  Path.ofParts (Path.parts path)

/-- What an interruption sees of a request. A pause has its number for a path. -/
def occasion (disk : Disk) : Request → Option (Operation × String)
  | .read path => some (.read, spelled path)
  | .write path _ => some (.write, spelled path)
  | .isPresent path => some (.isPresent, spelled path)
  | .discover _ => some (.discover, manifestFile)
  | .hasJsx directory => some (.hasJsx, spelled directory)
  | .pause _ => some (.pause, toString (disk.pauses.length + 1))
  | .sources _ | .hasFiles _ | .removeDirectory _ => none

def doWork (answer : Routine.Answering Scene) (state : Engine × Scene) (work : Work) :
    Engine × Scene :=
  match work with
  | .edit edits => (state.1, { state.2 with disk := state.2.disk.edit edits })
  | .routine routine =>
      match routine.run answer state with
      | (.ok (), state) => state
      | (.error failure, engine, scene) =>
          (engine, { scene with failures := scene.failures ++ [failure] })

/-- Lets the interruptions happen that wait for an occasion. -/
def interrupt (answer : Routine.Answering Scene) (agenda : List Interruption)
    (occasion : Option (Operation × String)) (moment : Moment) (state : Engine × Scene) :
    Engine × Scene :=
  agenda.zipIdx.foldl (fun state (interruption, index) =>
    let (engine, scene) := state
    if occasion == some (interruption.operation, interruption.path)
        && interruption.moment == moment && !scene.happened.contains index then
      interruption.work.foldl (doWork answer)
        (engine, { scene with happened := scene.happened ++ [index] })
    else state) state

/-- Answers a request, with interruptions around it. Work can be interrupted in turn;
as each interruption happens once, their number bounds the nesting. -/
def amid (agenda : List Interruption) : Nat → Routine.Answering Scene
  | 0 => fun request (engine, scene) =>
      let (given, disk) := scene.disk.answer request
      (given, engine, { scene with disk })
  | depth + 1 => fun request (engine, scene) =>
      let occasion := occasion scene.disk request
      let (engine, scene) := interrupt (amid agenda depth) agenda occasion .before (engine, scene)
      let (given, disk) := scene.disk.answer request
      (given, interrupt (amid agenda depth) agenda occasion .after (engine, { scene with disk }))

/-- What a routine did. -/
structure Account (α : Type) where
  result : Except Failure α
  log : List LogRecord
  written : List String
  pauses : List Duration
  changes : Table (Option Entry)
  happened : List Bool
  failures : List Failure

def edit (session : Session) (edits : List (String × Edit)) : Session :=
  { session with disk := session.disk.edit edits }

/-- Runs a routine amid interruptions. Messages that wait for repetitions stay waiting. -/
def runWaiting {α : Type} (session : Session) (agenda : List Interruption) (routine : Routine α) :
    Account α × Session :=
  let engine := { session.engine with log := [] }
  let disk := { session.disk with written := [], pauses := [] }
  let (result, engine, scene) := routine.run (amid agenda agenda.length) (engine, { disk })
  ({ result, log := engine.log
     written := scene.disk.written.map spelled
     pauses := scene.disk.pauses
     changes := session.disk.files.changes scene.disk.files session.disk.base
     happened := (List.range agenda.length).map scene.happened.contains
     failures := scene.failures },
    { engine, disk := scene.disk })

/-- Logs the messages that wait for repetitions. -/
def settle (session : Session) : List LogRecord × Session :=
  let engine := Watch.logNotices { session.engine with log := [] }
  (engine.log, { session with engine })

/-- Runs a routine amid interruptions, until no message waits. -/
def run {α : Type} (session : Session) (agenda : List Interruption) (routine : Routine α) :
    Account α × Session :=
  let (account, session) := session.runWaiting agenda routine
  let (log, session) := session.settle
  ({ account with log := account.log ++ log }, session)

end Session
end RefSync
