/-
What the engine reads of a `package.json`: the name, the two dependency tables and
the workspace globs. All other fields are extras, of which only the keys are kept.
-/

import RefSync.Text.Blank
import RefSync.Validation

namespace RefSync

open Validation

structure Manifest where
  name : Option String
  dependencies : List (String × String)
  devDependencies : List (String × String)
  workspaces : Option (List String)
  extras : List String
deriving DecidableEq, Repr

namespace Manifest

/-- An empty or blank name is no name; any other is kept as it is. -/
def checkName : Option Json → Checked (Option String)
  | none | some .null => .ok none
  | some (.str name) => .ok (if isBlankText name then none else some name)
  | some _ => fail .notText

def checkTable : Option Json → Checked (List (String × String))
  | none | some .null => .ok []
  | some (.obj members) =>
      every (members.map fun (key, value) =>
        within (.field key) ((text value).map fun version => (key, version)))
  | some _ => fail .notTable

def checkGlobs : Option Json → Checked (Option (List String))
  | none | some .null => .ok none
  | some value => (list text value).map some

/-- The fields read from a document. The second spelling of the development
dependencies counts only where the first is absent. -/
def knownFields (document : Document) : List String :=
  ["name", "dependencies", "devDependencies", "workspaces"]
    ++ if document.contains "devDependencies" then [] else ["dev_dependencies"]

def checkDocument (document : Document) : Checked Manifest :=
  let name := within (.field "name") (checkName (document.get? "name"))
  let dependencies :=
    within (.field "dependencies") (checkTable (document.get? "dependencies"))
  let devDependencies :=
    within (.field "devDependencies")
      (checkTable (lookup document "devDependencies" "dev_dependencies"))
  let workspaces := within (.field "workspaces") (checkGlobs (document.get? "workspaces"))
  (both name (both dependencies (both devDependencies workspaces))).map
    fun (name, dependencies, devDependencies, workspaces) =>
      { name, dependencies, devDependencies, workspaces
        extras := document.keys.filter (!(knownFields document).contains ·) }

def validate (value : Json) : Except Rejection Manifest :=
  let checked := match value with
    | .obj document => checkDocument document
    | _ => fail .notObject
  checked.mapError fun issues => { model := "Manifest", issues }

/-- The declared dependencies that are workspaces. -/
def workspaceDependencies (manifest : Manifest) (known : List String) : List String :=
  ((manifest.dependencies ++ manifest.devDependencies).map (·.1)).eraseDups.filter known.contains

end Manifest
end RefSync
