/-
Runs of an engine with one event at a time. An engine is started, and then files change
and events are dispatched in any order, each of them to its end. A run is over as soon as a
routine fails.
-/

import RefSync.Routine.Schedule
import RefSync.Disk
import RefSync.Watch.Dispatch

namespace RefSync.Watch

open Routine

/-- The states between two events. The disks that routines begin with are among the allowed
ones; changes of files are not looked at otherwise. -/
inductive Reached (project : Project) (options : SyncOptions) (allowed : Disk → Prop) :
    Engine × Disk → Prop where
  | started (disk : Disk) (same : disk.project = project) (plain : allowed disk)
      {after : Engine × Disk}
      (finishes : Finishes Disk.alone (start project options) ({}, disk) (.ok ()) after) :
      Reached project options allowed after
  | edited {before : Engine × Disk} (reached : Reached project options allowed before)
      (files : FileTree) :
      Reached project options allowed (before.1, { before.2 with files := files })
  | dispatched {before : Engine × Disk} (reached : Reached project options allowed before)
      (plain : allowed before.2) (event : Event) {after : Engine × Disk}
      (finishes : Finishes Disk.alone (dispatch project options event) before (.ok ()) after) :
      Reached project options allowed after

/-- The states between two events while nothing else writes the root config. What a routine left
behind counts even where it failed. -/
inductive Owned (project : Project) (options : SyncOptions) (allowed : Disk → Prop) :
    Engine × Disk → Prop where
  | started (disk : Disk) (same : disk.project = project) (plain : allowed disk)
      {result : Except Failure Unit} {after : Engine × Disk}
      (finishes : Finishes Disk.alone (start project options) ({}, disk) result after) :
      Owned project options allowed after
  | edited {before : Engine × Disk} (owned : Owned project options allowed before)
      (files : FileTree)
      (untouched : { before.2 with files := files }.read configFile = before.2.read configFile) :
      Owned project options allowed (before.1, { before.2 with files := files })
  | dispatched {before : Engine × Disk} (owned : Owned project options allowed before)
      (plain : allowed before.2) (event : Event) {result : Except Failure Unit}
      {after : Engine × Disk}
      (finishes : Finishes Disk.alone (dispatch project options event) before result after) :
      Owned project options allowed after

/-- The states between two events, whatever becomes of the files and whatever a routine ended with.
An engine that was not started takes events too. -/
inductive Visited (project : Project) (options : SyncOptions) : Engine × Disk → Prop where
  | begun (disk : Disk) (same : disk.project = project) : Visited project options ({}, disk)
  | started (disk : Disk) (same : disk.project = project)
      {result : Except Failure Unit} {after : Engine × Disk}
      (finishes : Finishes Disk.alone (start project options) ({}, disk) result after) :
      Visited project options after
  | edited {before : Engine × Disk} (visited : Visited project options before) (files : FileTree) :
      Visited project options (before.1, { before.2 with files := files })
  | dispatched {before : Engine × Disk} (visited : Visited project options before) (event : Event)
      {result : Except Failure Unit} {after : Engine × Disk}
      (finishes : Finishes Disk.alone (dispatch project options event) before result after) :
      Visited project options after

/-- Events that are handled without a fault, so that dispatching them leaves nothing to settle. -/
inductive Handled (project : Project) (options : SyncOptions) (event : Event)
    (before : Engine × Disk) : Engine × Disk → Prop where
  | ignored (unclassified : classify project before.1.registry event.path = none) :
      Handled project options event before before
  | completed {kind : DocumentKind}
      (classified : classify project before.1.registry event.path = some kind)
      {after : Engine × Disk}
      (finishes : Finishes Disk.alone
        (handle project options kind event.change (project.relative event.path)) before (.ok ()) after) :
      Handled project options event before after

end RefSync.Watch
