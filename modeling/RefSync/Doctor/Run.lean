/-
The doctor checks that every workspace and the root are set up for project
references, and fixes what it is allowed to fix. Without `fix` it only reads.
-/

import RefSync.Doctor.Report
import RefSync.Text.Blank
import RefSync.Update

namespace RefSync.Doctor

open Routine

structure Permissions where
  fix : Bool := false
  delete : Bool := false
deriving DecidableEq, Repr

/-- A document that cannot be got at, or that is no object, counts as absent. -/
def present? (path : String) : Routine (Option Document) := do
  match objectOf path (← ask (.read path)) with
  | .ok document => return some document
  | .error (.read fault) => if fault.isAccess then return none else throw (.read fault)
  | .error _ => return none

/-- What a check did, and the name the workspace goes by from then on. -/
structure Named where
  name : Option String
  checks : List Check

/-- The name kept or given when a manifest is written. -/
def keptName (workspace : String) (document : Document) : String :=
  match document.get? "name" with
  | some (.str name) => if isBlankText name then generatedName workspace else name
  | _ => generatedName workspace

def writeName (workspace : String) (document : Document) (name : String) : Routine Unit :=
  writeDocument (Workspace.manifestPath workspace) (document.set "name" (.str name))

/-- A workspace needs a valid manifest with a name. A fix keeps whatever else the
document holds. -/
def checkManifest (fix : Bool) (workspace : String) (raw : Option Document) :
    Routine Named := do
  let manifest := raw.bind fun document => (Manifest.validate (.obj document)).toOption
  match manifest, raw with
  | some manifest, raw =>
      let ok : Check := ⟨.ok, "package.json"⟩
      if manifest.name.isSome then return ⟨manifest.name, [ok]⟩
      if !fix then return ⟨none, [ok, ⟨.fail, "name in package.json is empty or missing"⟩]⟩
      let name := generatedName workspace
      writeName workspace (raw.getD []) name
      return ⟨some name, [ok, ⟨.fixed, "set package.json name to " ++ name⟩]⟩
  | none, some document =>
      if !fix then return ⟨none, [⟨.fail, "package.json not found or it's invalid"⟩]⟩
      let name := keptName workspace document
      writeName workspace document name
      return ⟨some name, [⟨.fixed, "set package.json name to " ++ name⟩]⟩
  | none, none =>
      if !fix then return ⟨none, [⟨.fail, "package.json not found or it's invalid"⟩]⟩
      let name := generatedName workspace
      writeName workspace [] name
      return ⟨some name, [⟨.fixed, "created package.json with name " ++ name⟩]⟩

/-- Whether a file has the suffix of JSX source; a bare suffix is no suffix. -/
def hasJsxSuffix (parts : List String) : Bool :=
  parts.getLast?.any fun name => name.endsWith ".tsx" && name != ".tsx"

/-- A workspace with sources needs a satisfactory config. Says whether it has one. -/
def checkConfig (fix : Bool) (workspace : String) (sources : List (List String))
    (config : Option Document) : Routine (Bool × Check) := do
  if sources.isEmpty then
    return (config.isSome, ⟨.info, if config.isSome
      then "no TS files found, but tsconfig.json exists" else "no TS files found"⟩)
  match config with
  | none =>
      if !fix then return (false, ⟨.fail, "tsconfig.json not found or it's invalid"⟩)
      writeDocument (Workspace.configPath workspace)
        (Config.newWorkspace (sources.any hasJsxSuffix))
      return (true, ⟨.fixed, "created tsconfig.json"⟩)
  | some config =>
      if Config.isSatisfactory (config.get? "compilerOptions") then
        return (true, ⟨.ok, "tsconfig.json"⟩)
      if !fix then return (true, ⟨.fail, "tsconfig.json needs to be configured"⟩)
      let _ ← Update.configure workspace true
      return (true, ⟨.fixed, "configured tsconfig.json"⟩)

/-- A workspace without any file is only reported, or removed. -/
def checkEmpty (allowed : Permissions) (workspace : String) : Routine WorkspaceReport := do
  if allowed.fix && allowed.delete then
    orThrow (← ask (.removeDirectory workspace))
    return { path := workspace, removed := true, checks := [⟨.fixed, "removed empty workspace"⟩] }
  return { path := workspace, redundant := true }

def checkWorkspace (allowed : Permissions) (workspace : String) : Routine WorkspaceReport := do
  let raw ← present? (Workspace.manifestPath workspace)
  let config ← present? (Workspace.configPath workspace)
  let sources : List (List String) ← ask (.sources workspace)
  if config.isNone && sources.isEmpty && raw.isNone then
    if !(← ask (.hasFiles workspace)) then return ← checkEmpty allowed workspace
  let named ← checkManifest allowed.fix workspace raw
  let (hasConfig, check) ← checkConfig allowed.fix workspace sources config
  return { path := workspace, name := named.name, hasConfig, checks := named.checks ++ [check] }

/-- The root needs a config that references exactly the given workspaces. -/
def checkRoot (project : Project) (fix : Bool) (workspaces : List String) :
    Routine (List Check) := do
  let manifest : Check := ⟨.ok, "package.json"⟩
  match ← present? configFile with
  | none =>
      if !fix then return [manifest, ⟨.fail, "tsconfig.json not found or it's invalid"⟩]
      writeDocument configFile Config.newRoot
      let _ ← Update.root project workspaces
      return [manifest, ⟨.fixed, "created tsconfig.json"⟩]
  | some config =>
      let references ← ofExcept id (Update.rootReferences project workspaces)
      if ← ofExcept Fault.reference (Config.isRootSatisfactory config references) then
        return [manifest, ⟨.ok, "tsconfig.json"⟩]
      if !fix then return [manifest, ⟨.fail, "tsconfig.json needs to be configured"⟩]
      let _ ← Update.root project workspaces
      return [manifest, ⟨.fixed, "configured tsconfig.json"⟩]

def checkAll (project : Project) (allowed : Permissions) (workspaces : List String) :
    Routine Outcome := do
  let reports ← forAll workspaces (checkWorkspace allowed)
  let outcome : Outcome := { fix := allowed.fix, workspaces := reports }
  if allowed.fix
      && reports.any fun report => report.name.isNone && !(report.redundant || report.removed) then
    return { outcome with stop := some .unnamed }
  let duplicates := duplicates reports
  if !duplicates.isEmpty then
    return { outcome with duplicates, stop := some .duplicateNames }
  let referenced := (reports.filter fun report => report.name.isSome && report.hasConfig).map
    (·.path)
  return { outcome with root := some (← checkRoot project allowed.fix referenced) }

def run (project : Project) (allowed : Permissions) : Routine Outcome := do
  let stopped (stop : Stop) : Outcome := { fix := allowed.fix, stop := some stop }
  let root := (objectOf manifestFile (← ask (.read manifestFile))).bind fun document =>
    (Manifest.validate (.obj document)).mapError Fault.invalid
  match root with
  | .error _ => return stopped .rootManifest
  | .ok manifest =>
      match manifest.workspaces with
      | none => return stopped .noGlobs
      | some globs =>
          let workspaces ← orThrow (← ask (.discover globs))
          if workspaces.isEmpty then return stopped .noWorkspaces
          checkAll project allowed workspaces

end RefSync.Doctor
