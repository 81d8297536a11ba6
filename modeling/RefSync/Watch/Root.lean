/-
Events on the root manifest. While it is there the engine is active and watches the
workspaces its globs match; a change adds and removes the difference. Deleting it
clears the registry and ends every routine that adds to it at its next stage.
-/

import RefSync.Watch.Event
import RefSync.Watch.Workspace

namespace RefSync.Watch

open Routine

/-- Whether the engine is active and the root manifest was not deleted since. -/
def isCurrent (engine : Engine) (generation : Nat) : Bool :=
  engine.active && engine.generation == generation

/-- Configures the workspaces that have a manifest and starts watching their
artifacts. -/
def bringUp (project : Project) (options : SyncOptions) (workspaces : List String)
    (generation : Nat) : Routine Unit := do
  let registry ← registry
  let present := workspaces.filter (registry.hasReadiness · .onlyManifest)
  let _ ← forAll present bootstrapConfig
  configureRoot project
  onlyIf (isCurrent (← engine) generation) do
    let _ ← forAll present (watchArtifact project options)

/-- Registers, configures and starts watching workspaces. All their names are known
before any of their artifacts is decoded, as that resolves references by name. -/
def addWorkspaces (project : Project) (options : SyncOptions) (workspaces : List String)
    (generation : Nat) : Routine Unit := do
  modifyRegistry fun registry =>
    workspaces.foldl (fun registry workspace =>
      registry.watchManifest (Workspace.manifestPath workspace)) registry
  let loaded ← forAll workspaces (loadManifest project)
  onlyIf (isCurrent (← engine) generation) do
    (loaded.filterMap id).forM registerDependencies
    bringUp project options workspaces generation

/-- Makes the workspaces that the globs match the watched ones. -/
def activate (project : Project) (options : SyncOptions) (generation : Nat)
    (manifest : Manifest) : Routine Unit := do
  let workspaces ← orThrow (← ask (.discover (manifest.workspaces.getD [])))
  onlyIf ((← engine).generation == generation) do
    modify fun engine => { engine with active := true }
    addWorkspaces project options workspaces generation

def rootCreated (project : Project) (options : SyncOptions) : Routine Unit := do
  let generation := (← engine).generation
  let manifest ← ofExcept id (← readManifest manifestFile)
  activate project options generation manifest

/-- A change of the watched workspaces, in words. -/
def differenceText (added removed : List String) : String :=
  let part (word : String) (items : List String) :=
    if items.isEmpty then [] else [word ++ ": " ++ ", ".intercalate items]
  "; ".intercalate (part "added" added ++ part "removed" removed)

/-- Drops workspaces that the globs no longer match. -/
def removeWorkspaces (registry : Registry) (workspaces : List String) : Registry :=
  workspaces.foldl (fun registry workspace =>
    registry.removeWorkspace workspace (Workspace.manifestPath workspace)
      (Workspace.artifactPath workspace)) registry

/-- Goes from the watched workspaces to those that the globs match. -/
def exchange (project : Project) (options : SyncOptions) (generation : Nat)
    (added removed : List String) : Routine Unit := do
  log .info ("Workspaces list updated, " ++ differenceText added removed ++ "; processing")
  modifyRegistry (removeWorkspaces · removed)
  addWorkspaces project options added generation

def rootUpdated (project : Project) (options : SyncOptions) : Routine Unit := do
  let generation := (← engine).generation
  let manifest ← ofExcept id (← readManifest manifestFile)
  let workspaces ← orThrow (← ask (.discover (manifest.workspaces.getD [])))
  let engine ← engine
  onlyIf (isCurrent engine generation) do
    let watched := engine.registry.watched
    let added := sortTexts (missingItems watched workspaces)
    let removed := sortTexts (redundantItems watched workspaces)
    onlyIf (!(added.isEmpty && removed.isEmpty))
      (exchange project options generation added removed)

def rootDeleted : Routine Unit := do
  log .warning "package.json has been deleted, pausing processing"
  modify fun engine =>
    { engine with registry := .empty, active := false, generation := engine.generation + 1 }

/-- The first look at the root manifest. Without a usable one the engine stays
inactive until an event brings it. -/
def start (project : Project) (options : SyncOptions) : Routine Unit := do
  match ← readManifest manifestFile with
  | .ok manifest => activate project options (← engine).generation manifest
  | .error (.read (.missing _)) =>
      log .warning ("package.json not found, make sure you are in the root directory. "
        ++ "The processing will begin once the file is created.")
  | .error fault =>
      log .warning ((if fault.isAccess
        then "package.json can't be read, the processing will begin once it changes: "
        else "package.json is invalid, the processing will begin once it is fixed: ")
          ++ fault.message)

end RefSync.Watch
