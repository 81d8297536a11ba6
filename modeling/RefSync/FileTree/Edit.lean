/-
Edits from outside, and what became different between two trees.
-/

import RefSync.FileTree
import RefSync.Table

namespace RefSync

/-- What an edit makes of a path. Removing something that is not there is no fault. -/
inductive Edit where
  | file (content : Content)
  | directory
  | remove
deriving DecidableEq, Repr

namespace FileTree

/-- The directories above a place, from the top. -/
def withParents (tree : FileTree) (place : Place) : FileTree :=
  (List.range place.length).foldl (fun tree count =>
    let parent := place.take count
    if tree.isDirectory parent then tree else (tree.remove parent).put parent .directory) tree

/-- Applies an edit to a path below a place. -/
def edit (tree : FileTree) (base : Place) (path : String) (edit : Edit) : FileTree :=
  let place := base ++ Path.parts path
  match edit with
  | .remove => tree.remove place
  | .directory =>
      let tree := tree.withParents place
      if tree.isDirectory place then tree else (tree.remove place).put place .directory
  | .file content => ((tree.withParents place).remove place).put place (.file content)

def editAll (tree : FileTree) (base : Place) (edits : List (String × Edit)) : FileTree :=
  edits.foldl (fun tree (path, change) => tree.edit base path change) tree

/-- The path of an entry; that of a directory ends with a slash. -/
def entryPath (place : Place) : Entry → String
  | .file _ => Path.joinParts place
  | .directory => Path.joinParts place ++ "/"

/-- The entries below a place by path. -/
def listing (tree : FileTree) (base : Place) : Table Entry :=
  (tree.below base).map fun (place, entry) => (entryPath place entry, entry)

/-- The paths that are new or different, and those that are gone. -/
def changes (before after : FileTree) (base : Place) : Table (Option Entry) :=
  let old := before.listing base
  let new := after.listing base
  let set := new.filterMap fun (path, entry) =>
    if old.get? path == some entry then none else some (path, some entry)
  let gone := old.filterMap fun (path, _) => if new.contains path then none else some (path, none)
  set ++ gone

end FileTree
end RefSync
