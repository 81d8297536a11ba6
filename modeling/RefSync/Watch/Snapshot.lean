/-
Watching by looking again: what two looks at the files of a project have to report.
Only files are reported; a directory is known by what is in it.
-/

import RefSync.FileTree.Edit
import RefSync.Watch.Event

namespace RefSync.Watch

def isFile : Entry → Bool
  | .file _ => true
  | .directory => false

/-- What became of a file, if the entry is, or was, one. -/
def eventOf (root : String) (before : Table Entry) : String × Option Entry → Option Event
  | (path, some entry) =>
      if isFile entry then
        some { change := if before.contains path then .update else .create
               path := Path.join root path }
      else none
  | (path, none) =>
      if (before.get? path).any isFile then
        some { change := .delete, path := Path.join root path }
      else none

/-- The events on watched documents between two looks. -/
def eventsBetween (project : Project) (before after : FileTree) (base : Place) : List Event :=
  ((before.changes after base).filterMap (eventOf project.root (before.listing base))).filter
    fun event => isWatchedPath event.path

end RefSync.Watch
