/-
Events on build artifacts. An artifact tells which workspaces its own one refers to;
references and dependencies are brought in line with them, and the registry remembers
them as the workspace's dependencies.
-/

import RefSync.Routine.Options
import RefSync.Update

namespace RefSync.Watch

open Routine

/-- The registered names that an artifact's own workspace refers to, without its own
name. Files of no watched workspace, and of one without a name, count for nothing. -/
def discoveredNames (project : Project) (registry : Registry) (artifactPath owner : String)
    (artifact : Artifact) : List String :=
  let watched := registry.watched
  distinct (artifact.referencedNames.filterMap fun file =>
    match Workspace.owning (project.artifactFile artifactPath file) watched with
    | none => none
    | some workspace =>
        match registry.findName workspace with
        | none => none
        | some name => if name = owner then none else some name)

/-- Suggests a command that removes redundant dependencies, once. -/
def reportRedundant (name : String) (redundant : List String) : Routine Unit := do
  let command := Manifest.uninstallCommand name redundant
  onlyIf (!(← registry).reported.contains command) do
    modifyRegistry (·.report command)
    log .warning ("Detected redundant dependencies in " ++ name ++ " package.json: "
      ++ ", ".intercalate redundant ++ ". Please run: " ++ command)

def installNotice : String :=
  "Dependencies changed, run the command to update package-lock.json: npm install"

/-- A message that is logged once its repetitions stop. -/
def notice (message : String) : Routine Unit :=
  modify fun engine => { engine with notices := engine.notices.filter (· != message) ++ [message] }

/-- Logs the messages whose repetitions stopped. -/
def logNotices (engine : Engine) : Engine :=
  { engine with
    notices := []
    log := engine.log ++ engine.notices.map fun message => ⟨.info, message⟩ }

/-- Brings the manifest and the config of a workspace in line, together. -/
def updateDocuments (project : Project) (workspace : String)
    (missing pruned discovered : List String) : Routine Unit := do
  let references := Update.references project workspace discovered
  let updates :=
    if missing.isEmpty && pruned.isEmpty then [references]
    else [Update.dependencies workspace missing pruned, references]
  let _ ← forAll updates id

/-- Brings a workspace in line with the names its artifact refers to. -/
def applyDiscovered (project : Project) (options : SyncOptions) (workspace name : String)
    (discovered : List String) : Routine Unit := do
  let registry ← registry
  let discovered := discovered.filter fun name => (registry.findPath name).isSome
  let declared ← ofExcept Fault.registry (registry.dependenciesOf name)
  let missing := sortTexts (missingItems declared discovered)
  let redundant := sortTexts (redundantItems declared discovered)
  onlyIf (!redundant.isEmpty && !options.pruneRedundant && options.showRedundant)
    (reportRedundant name redundant)
  onlyIf (!missing.isEmpty) (notice installNotice)
  modifyRegistry (·.setDependencies name discovered)
  updateDocuments project workspace missing (if options.pruneRedundant then redundant else [])
    discovered

/-- An artifact that cannot be used is logged, and that is all. -/
def artifactOf (path : String) : Except Unreadable Json → Routine (Option Artifact)
  | .error failure => complain failure.message
  | .ok value =>
      match Artifact.validate value with
      | .ok artifact => .done (some artifact)
      | .error failure => complain failure.message
where
  complain (message : String) : Routine (Option Artifact) := do
    log .error ("Failed to get build info dependencies " ++ path ++ ": " ++ message)
    return none

/-- What became of a workspace while its artifact was read: one that was renamed or
stopped being ready is left alone. -/
def artifactRead (project : Project) (options : SyncOptions) (path workspace name : String)
    (artifact : Artifact) : Routine Unit := do
  let registry ← registry
  onlyIf (registry.findName workspace == some name && registry.isReady workspace)
    (applyDiscovered project options workspace name
      (discoveredNames project registry path name artifact))

/-- A workspace that is not ready is left alone. -/
def artifactWritten (project : Project) (options : SyncOptions) (path : String) :
    Routine Unit := do
  let workspace := Workspace.ofArtifact path
  let registry ← registry
  onlyIf (registry.isReady workspace) do
    let name ← ofExcept Fault.registry (registry.nameOf workspace)
    let outcome ← readRetrying path (project.absolute path) options.artifactAttempts
      options.artifactDelay
    match ← artifactOf path outcome with
    | none => return
    | some artifact => artifactRead project options path workspace name artifact

def artifactCreated (project : Project) (options : SyncOptions) (path : String) :
    Routine Unit := do
  let registry ← registry
  onlyIf (registry.missingArtifacts.contains path) do
    modifyRegistry (·.unmarkMissing path)
    log .info ("The " ++ Update.label registry (Workspace.ofArtifact path)
      ++ " tsconfig.tsbuildinfo has been created, resuming processing")
  artifactWritten project options path

def artifactDeleted (path : String) : Routine Unit := do
  let registry ← registry
  log .warning ("The " ++ Update.label registry (Workspace.ofArtifact path)
    ++ " tsconfig.tsbuildinfo has been deleted, pausing processing")
  modifyRegistry (·.markMissing path)

end RefSync.Watch
