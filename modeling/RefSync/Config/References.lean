/-
The reference list of a config and the updates that keep it and the path aliases
in line with the workspaces a workspace depends on. Each update yields the config
to write, or nothing when the present one is right as it is.
-/

import RefSync.Config.Aliases
import RefSync.Difference

namespace RefSync.Config

/-- Why a reference list cannot be worked with. -/
inductive ReferenceFault where
  | notAList
  | pathNotScalar
  | noAlias (path : String)
deriving DecidableEq, Repr

/-- A reference with its path; an entry without a path is no reference. -/
def reference? : Json → Option (Json × Json)
  | .obj members => (Table.get? members "path").map (·, .obj members)
  | _ => none

/-- The references with their paths, in document order. A list that is null, false,
zero or empty has none, and neither has a text or an object. -/
def references (config : Document) : Except ReferenceFault (List (Json × Json)) :=
  match config.get? "references" with
  | some (.arr items) => .ok (items.filterMap reference?)
  | some (.str _) | some (.obj _) | none => .ok []
  | some other => if other.isSubstantial then .error .notAList else .ok []

def referencePaths (config : Document) : Except ReferenceFault (List Json) :=
  return (← references config).map (·.1)

/-- Whether a path can be looked up: arrays and objects cannot. -/
def isScalar : Json → Bool
  | .arr _ | .obj _ => false
  | _ => true

/-- The paths of a config, each of which can be looked up. -/
def scalarPaths (config : Document) : Except ReferenceFault (List Json) := do
  let paths ← referencePaths config
  if paths.all isScalar then .ok paths else .error .pathNotScalar

/-- The entry written for a path: the last one the config has, or a new one. -/
def entryFor (present : List (Json × Json)) (path : Json) : Json :=
  ((present.reverse.find? (·.1 == path)).map (·.2)).getD (.obj [("path", path)])

/-- Replaces the reference list. It keeps its order when only the order differs. -/
def setReferences (config : Document) (target : List Json) : Except ReferenceFault Document := do
  let present ← references config
  let current := present.map (·.1)
  let target := distinct target
  let ordered := if sameArrangement current target then current else target
  return config.set "references" (.arr (ordered.map (entryFor present)))

def removeAliases (config : Document) (redundant : List Json) : Document :=
  match aliases? config with
  | some aliases => setAliases config (redundant.foldl removeAlias aliases)
  | none => config

def addAliases (config : Document) (missing : List String)
    (aliasFor : String → Option String) : Except ReferenceFault Document := do
  if missing.isEmpty then return config
  let aliases ← missing.foldlM (fun aliases path =>
    match aliasFor path with
    | some key => .ok (addAlias aliases key path)
    | none => .error (.noAlias path)) ((aliases? config).getD [])
  return setAliases config aliases

/-- The update itself, changed or not. -/
def withReferences (config : Document) (target : List String)
    (aliasFor : String → Option String) : Except ReferenceFault Document := do
  let current ← scalarPaths config
  let paths := target.map Json.str
  let redundant := redundantItems current paths
  let missing := (missingItems current paths).filterMap Json.str?
  let updated ← addAliases (removeAliases config redundant) missing aliasFor
  if target.isEmpty && !config.contains "references" then return updated
  setReferences updated paths

/-- References and aliases for exactly the target paths. Aliases of references that
go are removed, references that come get theirs from `aliasFor`. -/
def updateReferences? (config : Document) (target : List String)
    (aliasFor : String → Option String) : Except ReferenceFault (Option Document) := do
  let updated ← withReferences config target aliasFor
  return if updated.same config then none else some updated

/-- The config with one entry for each path it references. -/
def tidyReferences (config : Document) : Except ReferenceFault Document := do
  let current ← scalarPaths config
  if current.isEmpty && !config.contains "references" then return config
  setReferences config current

/-- The root config aggregates exactly the target paths: no sources of its own. -/
def updateRoot? (config : Document) (target : List String) :
    Except ReferenceFault (Option Document) := do
  let _ ← scalarPaths config
  let bare := ((config.erase "include").erase "exclude").set "files" (.arr [])
  let updated ← setReferences bare (target.map Json.str)
  return if updated.same config then none else some updated

/-- Whether a root config aggregates exactly the given paths. The paths are only
looked up when there are as many as given. -/
def isRootSatisfactory (config : Document) (paths : List String) :
    Except ReferenceFault Bool := do
  let bare := (config.get? "files").any (· == .arr []) && !config.contains "include"
    && !config.contains "exclude"
  if !bare then return false
  let current ← referencePaths config
  if current.length != paths.length then return false
  return sameItems (← scalarPaths config) (paths.map Json.str)

end RefSync.Config
