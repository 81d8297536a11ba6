/-
Events on the manifest and the config of a workspace. Each document that is there
and usable adds to the workspace's readiness, and whatever changes which workspaces
are ready brings the root config up to date.
-/

import RefSync.Watch.Artifact

namespace RefSync.Watch

open Routine

def isWatched (registry : Registry) (workspace : String) : Bool :=
  registry.manifests.contains (Workspace.manifestPath workspace)

/-- Brings the root config in line with the workspaces that are ready. -/
def configureRoot (project : Project) : Routine Unit := do
  let engine ← engine
  onlyIf engine.active do
    let _ ← Update.root project (engine.registry.ready engine.registry.watched)

/-- Takes readiness, name and dependencies from a watched workspace. -/
def unregister (registry : Registry) (workspace : String) (lost : Readiness) : Registry :=
  if !isWatched registry workspace then registry
  else
    let (registry, name) := (registry.dropReadiness workspace lost).forgetName workspace
    match name with
    | some name => registry.dropDependencies name
    | none => registry

/-- The workspace loses its manifest, and with it its name. -/
def withoutManifest (workspace message : String) : Routine (Option Manifest) := do
  log .warning message
  modifyRegistry (unregister · workspace .manifestAndName)
  return none

def withoutName (workspace message : String) : Routine (Option Manifest) := do
  log .warning message
  modifyRegistry (unregister · workspace .onlyName)
  return none

/-- Gives a workspace its first name, or the one it has. -/
def assignName (registry : Registry) (workspace name : String) :
    Routine (Except RegistryFault Unit) :=
  match registry.setName workspace name with
  | .error fault => .done (.error fault)
  | .ok (assigned, _) => do
      modifyRegistry fun _ => assigned
      return .ok ()

/-- Gives a workspace another name and carries it to the dependents. -/
def changeName (project : Project) (registry : Registry) (workspace previous name : String) :
    Routine (Except RegistryFault Unit) := do
  log .info ("Workspace name changed " ++ previous ++ " -> " ++ name
    ++ ", updating the references")
  match registry.rename workspace name with
  | .error fault => return .error fault
  | .ok (renamed, _) =>
      modifyRegistry fun _ => renamed
      let _ ← Update.name project previous name
      return .ok ()

/-- Registers the name of a workspace. A name in use elsewhere is refused. -/
def registerName (project : Project) (workspace name : String) :
    Routine (Except RegistryFault Unit) := do
  let registry ← registry
  match registry.findName workspace with
  | none => assignName registry workspace name
  | some previous =>
      if previous = name then assignName registry workspace name
      else changeName project registry workspace previous name

/-- A workspace that still has its name after the registration is ready as far as its
manifest goes. -/
def confirmName (workspace name : String) (manifest : Manifest) : Routine (Option Manifest) := do
  if (← registry).findName workspace = some name then
    modifyRegistry (·.addReadiness workspace .onlyName)
    return some manifest
  else return none

/-- Registers a manifest that was read, and yields it if the workspace ends up with
its name. A workspace that is no longer watched is left alone. -/
def registerManifest (project : Project) (workspace : String) (manifest : Manifest) :
    Routine (Option Manifest) := do
  if isWatched (← registry) workspace then
    modifyRegistry (·.addReadiness workspace .onlyManifest)
    match manifest.name with
    | none =>
        withoutName workspace ("Workspace package.json name is missing, ignoring " ++ workspace)
    | some name =>
        match ← registerName project workspace name with
        | .ok () => confirmName workspace name manifest
        | .error (.nameTaken name holder path) =>
            withoutName workspace (RegistryFault.nameTaken name holder path).message
        | .error (.unregistered lookup) => throw (.registry (.unregistered lookup))
  else return none

/-- Reads a workspace manifest into the registry. A manifest that is missing or that
says nothing usable takes the workspace's name. -/
def loadManifest (project : Project) (workspace : String) : Routine (Option Manifest) := do
  match ← readManifest (Workspace.manifestPath workspace) with
  | .ok manifest => registerManifest project workspace manifest
  | .error (.read (.missing _)) =>
      withoutManifest workspace ("Workspace package.json not found, ignoring " ++ workspace)
  | .error fault =>
      if fault.isAccess then throw fault
      else
        withoutManifest workspace
          ("Workspace package.json is invalid, ignoring " ++ workspace ++ ": " ++ fault.message)

/-- Makes the declared workspace dependencies the known ones. -/
def registerDependencies (manifest : Manifest) : Routine Unit :=
  match manifest.name with
  | some name =>
      modifyRegistry fun registry =>
        registry.setDependencies name (manifest.workspaceDependencies registry.allNames)
  | none => .done ()

/-- Gives a workspace its config and what readiness that is worth. -/
def bootstrapConfig (workspace : String) : Routine Unit := do
  let _ ← Update.configure workspace false
  onlyIf (isWatched (← registry) workspace) (modifyRegistry (·.addReadiness workspace .onlyConfig))

/-- Handles the artifact of a workspace, if there is one. -/
def whenPresent (path : String) (handler : Routine Unit) : Routine Unit := do
  let present ← orThrow (← ask (.isPresent path))
  onlyIf present handler

/-- Starts watching a workspace's artifact, and handles the one that is there. -/
def watchArtifact (project : Project) (options : SyncOptions) (workspace : String) :
    Routine Unit := do
  let path := Workspace.artifactPath workspace
  let registry ← registry
  onlyIf (!registry.artifacts.contains path && isWatched registry workspace) do
    modifyRegistry (·.watchArtifact path)
    whenPresent path (artifactCreated project options path)

/-- What follows once a manifest has given the workspace its name. -/
def manifestLoaded (project : Project) (options : SyncOptions) (workspace : String)
    (readyBefore : Bool) (manifest : Manifest) : Routine Unit := do
  registerDependencies manifest
  onlyIf (!(← registry).hasReadiness workspace .onlyConfig) (bootstrapConfig workspace)
  onlyIf ((← registry).isReady workspace != readyBefore) (configureRoot project)
  watchArtifact project options workspace

def manifestWritten (project : Project) (options : SyncOptions) (path : String) :
    Routine Unit := do
  let workspace := Workspace.ofDocument path
  let readyBefore := (← registry).isReady workspace
  match ← loadManifest project workspace with
  | none => onlyIf readyBefore (configureRoot project)
  | some manifest => manifestLoaded project options workspace readyBefore manifest

def manifestDeleted (project : Project) (path : String) : Routine Unit := do
  let workspace := Workspace.ofDocument path
  log .warning ("Workspace package.json deleted, ignoring " ++ workspace)
  modifyRegistry fun registry =>
    unregister (registry.unwatchArtifact (Workspace.artifactPath workspace)) workspace
      .manifestAndName
  configureRoot project

/-- A workspace that its config makes ready resumes with the artifact that is there. -/
def configPresent (project : Project) (options : SyncOptions) (workspace : String) :
    Routine Unit := do
  onlyIf (!(← registry).hasReadiness workspace .onlyConfig) do
    log .info ("The " ++ workspace ++ " tsconfig.json is back, resuming processing")
    modifyRegistry (·.addReadiness workspace .onlyConfig)
    onlyIf ((← registry).isReady workspace) do
      configureRoot project
      let path := Workspace.artifactPath workspace
      whenPresent path (artifactWritten project options path)

def configDeleted (project : Project) (workspace : String) : Routine Unit := do
  let registry ← registry
  onlyIf (registry.hasReadiness workspace .onlyConfig) do
    log .warning ("The " ++ workspace ++ " tsconfig.json has been deleted, pausing processing")
    modifyRegistry (·.dropReadiness workspace .onlyConfig)
    onlyIf (registry.isReady workspace) (configureRoot project)

end RefSync.Watch
