/-
Watch mode as a session: the first look at the root manifest, then one batch of
changes after another. Changes to anything but watched documents are dropped, and a
batch without any is none.
-/

import RefSync.Session

namespace RefSync.Watch

/-- A change as it is reported, with an absolute path. -/
abbrev Report := Change × String

/-- The events of reported changes, by path. -/
def eventsOf (reports : List Report) : List Event :=
  let watched := (distinct reports).filter fun (_, path) => isWatchedPath path
  (sortBy (fun left right => decide (left.2 ≤ right.2)) watched).map fun (change, path) =>
    { change, path }

/-- What happens in watch mode: files change, or changes are reported. -/
inductive Happening where
  | edit (edits : List (String × Edit))
  | reports (reports : List Report)

structure Served where
  result : Except Failure Unit
  log : List LogRecord
  written : List String
  session : Session

def note (served : Served) (message : String) : Served :=
  { served with log := served.log ++ [⟨.info, message⟩] }

/-- One routine more, unless one before it failed. -/
def follow (served : Served) (routine : Routine Unit) : Served :=
  match served.result with
  | .error _ => served
  | .ok () =>
      let (account, session) := served.session.runWaiting [] routine
      { result := account.result, session
        log := served.log ++ account.log
        written := served.written ++ account.written }

/-- A pause long enough for messages to stop repeating. -/
def rest (served : Served) : Served :=
  let (log, session) := served.session.settle
  { served with session, log := served.log ++ log }

def happen (project : Project) (options : SyncOptions) (served : Served) :
    Happening → Served
  | .edit edits =>
      if served.result.isOk then { served with session := served.session.edit edits } else served
  | .reports reports =>
      let events := eventsOf reports
      if events.isEmpty then served
      else rest (follow served (dispatchAll project options events))

/-- The whole of watch mode, until the reports end or a routine fails. -/
def serve (options : SyncOptions) (session : Session) (happenings : List Happening) : Served :=
  let project := session.disk.project
  let begun := note { result := .ok (), log := [], written := [], session }
    ("Watching " ++ project.root)
  let started := follow begun (start project options)
  let served := rest (happenings.foldl (happen project options) started)
  if served.result.isOk then note served "Stopped" else served

end RefSync.Watch
