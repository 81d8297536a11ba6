/-
Workspace dependencies in a manifest. Updates touch the two dependency tables only,
and a table that is written again comes out with sorted keys.
-/

import RefSync.Json.Value

namespace RefSync.Manifest

/-- The version of a dependency on another workspace. -/
def workspaceVersion : String := "*"

def dependencyFields : List String :=
  ["dependencies", "devDependencies"]

/-- A dependency table, if it is an object. -/
def table? (manifest : Document) (field : String) : Option Document :=
  (manifest.get? field).bind Json.members?

/-- Changes each dependency table that is an object. -/
def mapTables (manifest : Document) (change : Document → Document) : Document :=
  dependencyFields.foldl (fun manifest field =>
    match table? manifest field with
    | some table => manifest.set field (.obj (change table))
    | none => manifest) manifest

def addDependencies (manifest : Document) (names : List String) : Document :=
  if names.isEmpty then manifest
  else
    let table := (table? manifest "dependencies").getD []
    manifest.set "dependencies"
      (.obj (names.foldl (fun table name => Table.setDefault table name (.str workspaceVersion))
        table))

/-- The update before its tables are sorted, changed or not. -/
def withDependencies (manifest : Document) (missing redundant : List String) : Document :=
  let dev := (table? manifest "devDependencies").getD []
  let added := addDependencies manifest (missing.filter (!dev.contains ·))
  mapTables added fun table => redundant.foldl Table.erase table

/-- Adds the missing names and drops the redundant ones from both tables. Nothing is
written when both hold already; the order of keys alone never counts. -/
def updateDependencies? (manifest : Document) (missing redundant : List String) :
    Option Document :=
  let updated := withDependencies manifest missing redundant
  if updated.same manifest then none else some (mapTables updated Table.sortKeys)

def renameIn (old new : String) (table : Document) : Document :=
  match table.get? old with
  | some version => ((table.erase old).set new version).sortKeys
  | none => table

/-- Renames a dependency in whichever table declares it. -/
def renameDependency? (manifest : Document) (old new : String) : Option Document :=
  if dependencyFields.any fun field => ((table? manifest field).getD []).contains old then
    some (mapTables manifest (renameIn old new))
  else none

/-- The command that removes redundant dependencies of a workspace. -/
def uninstallCommand (workspace : String) (redundant : List String) : String :=
  "npm uninstall -w " ++ workspace ++ " "
    ++ " ".intercalate ((sortTexts redundant).map (· ++ "@*"))

end RefSync.Manifest
