/-
Bringing the documents of a workspace, or of the root, in line. Each update reads the
present document, computes the one that should be there, and writes only if they
differ: a write comes back as an event, and finding nothing to do then is what ends
the circle. Every update says whether it wrote.
-/

import RefSync.Config.Options
import RefSync.Config.References
import RefSync.Routine.Documents
import RefSync.Manifest.Dependencies
import RefSync.Workspace

namespace RefSync.Update

open Routine

/-- The name a workspace goes by in messages. -/
def label (registry : Registry) (workspace : String) : String :=
  match registry.findName workspace with
  | some name => if name.isEmpty then workspace else name
  | none => workspace

/-- Reference paths with the names they stand for, in the order of the names. Names
that are no longer registered are left out. -/
def targetAliases (project : Project) (registry : Registry) (workspace : String)
    (names : List String) : Except Fault (Table String) :=
  (sortTexts (distinct names)).foldlM (fun aliases name =>
    match registry.findPath name with
    | none => .ok aliases
    | some path =>
        match project.referencePath? path (some workspace) with
        | some reference => .ok (aliases.set reference name)
        | none => .error .emptyPath) []

def targetReferences (project : Project) (registry : Registry) (workspace : String)
    (names : List String) : Except Fault (List String) :=
  return (← targetAliases project registry workspace names).keys

/-- Points references and aliases of a workspace at exactly the given names. They are
resolved before the config is read. -/
def references (project : Project) (workspace : String) (names : List String) : Routine Bool := do
  let registry ← registry
  let label := label registry workspace
  let aliases ← ofExcept id (targetAliases project registry workspace names)
  let path := Workspace.configPath workspace
  let config := (← readObject? path).getD (Config.newWorkspace false)
  match ← ofExcept Fault.reference
      (Config.updateReferences? config aliases.keys aliases.get?) with
  | none => return false
  | some updated =>
      writeDocument path updated
      log .info ("Writing " ++ label ++ " tsconfig.json with updated references list")
      return true

/-- Moves the aliases of a renamed workspace to its new name, in a config that has
references. -/
def renamedConfig? (config : Document) (renamed : Option (String × String)) :
    Except Config.ReferenceFault (Option Document) := do
  if !config.contains "references" then return none
  let moved := (renamed.bind fun (old, new) => Config.renameAlias? config old new).getD config
  let updated ← Config.tidyReferences moved
  return if updated.same config then none else some updated

/-- Brings the aliases of a workspace up to date with the references it has, before
the compiler knows of a rename. -/
def aliases (project : Project) (workspace : String) (renamed : Option (String × String)) :
    Routine Bool := do
  let registry ← registry
  let label := label registry workspace
  let _ ← ofExcept id (targetAliases project registry workspace registry.allNames)
  let path := Workspace.configPath workspace
  match ← readObject? path with
  | none => return false
  | some config =>
      match ← ofExcept Fault.reference (renamedConfig? config renamed) with
      | none => return false
      | some updated =>
          writeDocument path updated
          log .info ("Writing " ++ label ++ " tsconfig.json with renamed references")
          return true

/-- Adds the missing and drops the redundant workspace dependencies of a manifest. -/
def dependencies (workspace : String) (missing redundant : List String) : Routine Bool := do
  let label := label (← registry) workspace
  let path := Workspace.manifestPath workspace
  match Manifest.updateDependencies? (← readObject path) missing redundant with
  | none => return false
  | some updated =>
      writeDocument path updated
      log .info ("The " ++ label ++ " package.json dependencies changed, writing")
      return true

def dependencyName (workspace old new : String) : Routine Bool := do
  let label := label (← registry) workspace
  let path := Workspace.manifestPath workspace
  match Manifest.renameDependency? (← readObject path) old new with
  | none => return false
  | some updated =>
      writeDocument path updated
      log .info ("Renamed " ++ old ++ " -> " ++ new ++ " in " ++ label ++ " package.json")
      return true

/-- Carries a rename, which the registry has made already, into the documents of every
dependent, and yields the dependents. -/
def name (project : Project) (old new : String) : Routine (List String) := do
  let registry ← registry
  let dependents := registry.dependentsOf new
  let workspaces ← ofExcept Fault.registry (dependents.mapM registry.pathOf)
  let _ ← forAll workspaces fun workspace => do
    let _ ← dependencyName workspace old new
    aliases project workspace (some (old, new))
  return dependents

/-- Gives a workspace a config with the composite build options. -/
def configure (workspace : String) (force : Bool) : Routine Bool := do
  let path := Workspace.configPath workspace
  let jsx ← orThrow (← ask (.hasJsx workspace))
  let updated := match ← readObject? path with
    | none => some (Config.newWorkspace jsx)
    | some config => Config.configure? config jsx force
  match updated with
  | none => return false
  | some updated =>
      writeDocument path updated
      log .info ("Configured " ++ label (← registry) workspace ++ " tsconfig.json")
      return true

/-- The workspaces as the root config references them, sorted by path. -/
def rootReferences (project : Project) (workspaces : List String) :
    Except Fault (List String) :=
  (sortTexts workspaces).mapM fun workspace =>
    match project.referencePath? workspace none with
    | some reference => .ok reference
    | none => .error .emptyPath

/-- Makes the root config reference exactly the given workspaces. -/
def root (project : Project) (workspaces : List String) : Routine Bool := do
  let config := (← readObject? configFile).getD []
  let target ← ofExcept id (rootReferences project workspaces)
  match ← ofExcept Fault.reference (Config.updateRoot? config target) with
  | none => return false
  | some updated =>
      writeDocument configFile updated
      log .info "Configured the root tsconfig.json"
      return true

end RefSync.Update
