/-
The workspaces of a project: the name of each path, the path of each name, the last
known dependencies of each name, how ready each path is, and the paths that are
watched. It lives as long as the process and is rebuilt from the documents.

A lookup of something unregistered is a fault of its own kind: going on with a
guess could write wrong cross references.
-/

import RefSync.Difference
import RefSync.Path
import RefSync.Sorted
import RefSync.Table

namespace RefSync

/-- The documents that a workspace has to offer before it is synchronized. -/
structure Readiness where
  manifest : Bool := false
  name : Bool := false
  config : Bool := false
deriving DecidableEq, Repr

namespace Readiness

def none : Readiness := {}

def all : Readiness :=
  { manifest := true, name := true, config := true }

def onlyManifest : Readiness := { manifest := true }
def onlyName : Readiness := { name := true }
def onlyConfig : Readiness := { config := true }
def manifestAndName : Readiness := { manifest := true, name := true }

def add (present more : Readiness) : Readiness :=
  { manifest := present.manifest || more.manifest
    name := present.name || more.name
    config := present.config || more.config }

def drop (present less : Readiness) : Readiness :=
  { manifest := present.manifest && !less.manifest
    name := present.name && !less.name
    config := present.config && !less.config }

/-- Whether all of `wanted` is there. -/
def covers (present wanted : Readiness) : Bool :=
  (!wanted.manifest || present.manifest) && (!wanted.name || present.name)
    && (!wanted.config || present.config)

end Readiness

/-- Sets of texts, as lists without repetition where only membership counts. -/
abbrev TextSet := List String

namespace TextSet

def insert (set : TextSet) (item : String) : TextSet :=
  if set.contains item then set else set ++ [item]

def remove (set : TextSet) (item : String) : TextSet :=
  set.filter (· != item)

end TextSet

structure Registry where
  names : Table String := []
  paths : Table String := []
  dependencies : Table TextSet := []
  readiness : Table Readiness := []
  manifests : TextSet := []
  artifacts : TextSet := []
  missingArtifacts : TextSet := []
  reported : TextSet := []
deriving DecidableEq, Repr

/-- What a failed lookup was after. -/
inductive Lookup where
  | nameOf (path : String)
  | pathOf (name : String)
  | dependenciesOf (name : String)
deriving DecidableEq, Repr

inductive RegistryFault where
  | nameTaken (name holder path : String)
  | unregistered (lookup : Lookup)
deriving DecidableEq, Repr

def Lookup.message : Lookup → String
  | .nameOf path => "Internal error: workspace name not found for " ++ path
  | .pathOf name => "Internal error: workspace path not found for " ++ name
  | .dependenciesOf name => "Internal error: workspace dependencies not found for " ++ name

def RegistryFault.message : RegistryFault → String
  | .nameTaken name holder path =>
      "Workspace name '" ++ name ++ "' is already used by " ++ holder ++ ", ignoring " ++ path
  | .unregistered lookup => lookup.message

namespace Registry

def empty : Registry := {}

/-! ### Readiness -/

def readinessOf (registry : Registry) (path : String) : Readiness :=
  (registry.readiness.get? path).getD .none

def addReadiness (registry : Registry) (path : String) (more : Readiness) : Registry :=
  { registry with
    readiness := registry.readiness.set path ((registry.readinessOf path).add more) }

def dropReadiness (registry : Registry) (path : String) (less : Readiness) : Registry :=
  { registry with
    readiness := registry.readiness.set path ((registry.readinessOf path).drop less) }

def hasReadiness (registry : Registry) (path : String) (wanted : Readiness) : Bool :=
  (registry.readinessOf path).covers wanted

def isReady (registry : Registry) (path : String) : Bool :=
  registry.hasReadiness path .all

/-- The candidates that are ready for synchronization. -/
def ready (registry : Registry) (candidates : List String) : List String :=
  candidates.filter registry.isReady

/-! ### Names -/

def findName (registry : Registry) (path : String) : Option String :=
  registry.names.get? path

def findPath (registry : Registry) (name : String) : Option String :=
  registry.paths.get? name

def nameOf (registry : Registry) (path : String) : Except RegistryFault String :=
  match registry.findName path with
  | some name => .ok name
  | none => .error (.unregistered (.nameOf path))

def pathOf (registry : Registry) (name : String) : Except RegistryFault String :=
  match registry.findPath name with
  | some path => .ok path
  | none => .error (.unregistered (.pathOf name))

/-- The names that are in use. -/
def allNames (registry : Registry) : List String :=
  registry.paths.keys

/-- Gives a path a name and yields the name it had. A name in use elsewhere is
refused. -/
def setName (registry : Registry) (path name : String) :
    Except RegistryFault (Registry × Option String) :=
  let previous := registry.findName path
  let assigned : Registry :=
    let paths := match previous with
      | some old => if old = name then registry.paths else registry.paths.erase old
      | none => registry.paths
    { registry with names := registry.names.set path name, paths := paths.set name path }
  match registry.findPath name with
  | some holder =>
      if holder = path then .ok (assigned, previous) else .error (.nameTaken name holder path)
  | none => .ok (assigned, previous)

/-- `old` replaced by `new` in a set. -/
def substitute (old new : String) (set : TextSet) : TextSet :=
  if set.contains old then (set.remove old).insert new else set

/-- Moves everything known under the old name of a path to a new one, in the
dependencies of other workspaces too, and yields the old name. -/
def rename (registry : Registry) (path new : String) :
    Except RegistryFault (Registry × String) := do
  let old ← registry.nameOf path
  let (registry, _) ← registry.setName path new
  let own := (registry.dependencies.get? old).getD []
  let moved := (registry.dependencies.erase old).set new own
  let dependencies := moved.map fun (name, set) =>
    (name, if name = new then set else substitute old new set)
  return ({ registry with dependencies }, old)

/-- Takes its name from a path. -/
def forgetName (registry : Registry) (path : String) : Registry × Option String :=
  match registry.findName path with
  | some name =>
      ({ registry with
          names := registry.names.erase path
          paths := registry.paths.erase name }, some name)
  | none => (registry, none)

/-! ### Dependencies -/

def setDependencies (registry : Registry) (name : String) (dependencies : List String) :
    Registry :=
  { registry with dependencies := registry.dependencies.set name (distinct dependencies) }

def dependenciesOf (registry : Registry) (name : String) : Except RegistryFault TextSet :=
  match registry.dependencies.get? name with
  | some dependencies => .ok dependencies
  | none => .error (.unregistered (.dependenciesOf name))

def dropDependencies (registry : Registry) (name : String) : Registry :=
  { registry with dependencies := registry.dependencies.erase name }

/-- The other names whose dependencies contain a name, sorted. -/
def dependentsOf (registry : Registry) (name : String) : List String :=
  sortTexts ((registry.dependencies.filter fun (dependent, set) =>
    set.contains name && dependent != name).map (·.1))

/-! ### Watched paths -/

def watchManifest (registry : Registry) (path : String) : Registry :=
  { registry with manifests := registry.manifests.insert path }

def watchArtifact (registry : Registry) (path : String) : Registry :=
  { registry with artifacts := registry.artifacts.insert path }

def unwatchArtifact (registry : Registry) (path : String) : Registry :=
  { registry with
    artifacts := registry.artifacts.remove path
    missingArtifacts := registry.missingArtifacts.remove path }

def markMissing (registry : Registry) (path : String) : Registry :=
  { registry with missingArtifacts := registry.missingArtifacts.insert path }

def unmarkMissing (registry : Registry) (path : String) : Registry :=
  { registry with missingArtifacts := registry.missingArtifacts.remove path }

def report (registry : Registry) (command : String) : Registry :=
  { registry with reported := registry.reported.insert command }

/-- The workspaces of the watched manifests. -/
def watched (registry : Registry) : List String :=
  distinct (registry.manifests.map Path.directory)

/-- Drops every trace of a workspace. -/
def removeWorkspace (registry : Registry) (path manifest artifact : String) : Registry :=
  let registry := { registry with manifests := registry.manifests.remove manifest }
  let (registry, name) := (registry.unwatchArtifact artifact).forgetName path
  let registry := match name with
    | some name => registry.dropDependencies name
    | none => registry
  { registry with readiness := registry.readiness.erase path }

end Registry
end RefSync
