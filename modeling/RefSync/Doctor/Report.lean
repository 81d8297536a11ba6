/-
Reports of the doctor: the checks of each workspace and of the root, what stopped a
run early, and the exit code all that amounts to.
-/

import RefSync.Registry

namespace RefSync.Doctor

inductive Status where
  | ok
  | info
  | fail
  | fixed
deriving DecidableEq, Repr

structure Check where
  status : Status
  message : String
deriving DecidableEq, Repr

def anyFailed (checks : List Check) : Bool :=
  checks.any (·.status == .fail)

/-- The checks of one workspace. `redundant` is an empty workspace that is still there,
`removed` one that is not. -/
structure WorkspaceReport where
  path : String
  name : Option String := none
  redundant : Bool := false
  hasConfig : Bool := false
  removed : Bool := false
  checks : List Check := []
deriving DecidableEq, Repr

/-- Why a run ended before the root was checked. -/
inductive Stop where
  | rootManifest
  | noGlobs
  | noWorkspaces
  | unnamed
  | duplicateNames
deriving DecidableEq, Repr

def Stop.message : Stop → String
  | .rootManifest =>
      "The root package.json is missing or invalid, please change the directory "
        ++ "or create the package.json with workspaces"
  | .noGlobs =>
      "The root package.json workspaces field is missing, please add it. "
        ++ "See: https://docs.npmjs.com/cli/using-npm/workspaces"
  | .noWorkspaces =>
      "Can't find any workspaces specified in the root package.json, "
        ++ "please check its configuration"
  | .unnamed => "Failed to update package.json names, please fix the issues manually"
  | .duplicateNames => "Found workspaces with the same name, please fix the issues manually"

structure Outcome where
  fix : Bool
  workspaces : List WorkspaceReport := []
  root : Option (List Check) := none
  stop : Option Stop := none
  duplicates : Table (List String) := []
deriving DecidableEq, Repr

namespace Outcome

/-- The empty workspaces that are still there. -/
def redundant (outcome : Outcome) : List String :=
  (outcome.workspaces.filter (·.redundant)).map (·.path)

def failed (outcome : Outcome) : Bool :=
  outcome.workspaces.any (anyFailed ·.checks) || (outcome.root.map anyFailed).getD false

def exitCode (outcome : Outcome) : Nat :=
  if outcome.stop.isSome then 1
  else if outcome.fix then 0
  else if outcome.failed then 1 else 0

end Outcome

/-- The name of a workspace that has none: the last component of its path. -/
def generatedName (workspace : String) : String :=
  Path.baseName workspace

def nameOf? (report : WorkspaceReport) : Option String :=
  report.name.filter (· != "")

/-- The names of several workspaces, with their paths, both sorted. -/
def duplicates (reports : List WorkspaceReport) : Table (List String) :=
  let names := sortTexts (distinct (reports.filterMap nameOf?))
  names.filterMap fun name =>
    let paths := (reports.filter (nameOf? · == some name)).map (·.path)
    if paths.length > 1 then some (name, sortTexts paths) else none

end RefSync.Doctor
