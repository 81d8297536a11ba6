/-
Settings of the process: their defaults, what the environment says, and the options
that the engine runs with. Variables have the prefix `TSRF_` in any case; of several
spellings of one name the last counts.
-/

import RefSync.Routine.Options
import RefSync.Path
import RefSync.Table
import RefSync.Text.Uppercase
import RefSync.Validation

namespace RefSync

open Validation

structure Settings where
  logLevel : String := "INFO"
  verbose : Bool := false
  root : String := ""
  showRedundant : Bool := false
  pruneRedundant : Bool := false
  artifactAttempts : Int := 50
  artifactDelay : Binary64 := .ofDecimal false 1 (-2)
  spawnCompiler : Bool := true
  compilerCommand : String := "tsc --build --watch --pretty"
deriving DecidableEq, Repr

/-- What the engine runs with: settings with the flags of a command merged in. -/
structure Options where
  root : String
  showRedundant : Bool
  pruneRedundant : Bool
  artifactAttempts : Int
  artifactDelay : Binary64
  spawnCompiler : Bool
  compilerCommand : String
  fix : Bool := false
  delete : Bool := false
deriving DecidableEq, Repr

/-- Options to be replaced; what is absent stays. -/
structure Overrides where
  root : Option String := none
  showRedundant : Option Bool := none
  pruneRedundant : Option Bool := none
  artifactAttempts : Option Int := none
  artifactDelay : Option Binary64 := none
  spawnCompiler : Option Bool := none
  compilerCommand : Option String := none
  fix : Option Bool := none
  delete : Option Bool := none
deriving DecidableEq, Repr

namespace Settings

/-- The value of a setting, by its name without the prefix. -/
def lookup? (environment : Table String) (name : String) : Option String :=
  (environment.reverse.find? fun (key, _) =>
    String.ofList (key.toList.map Char.toLower) == "tsrf_" ++ name).map (·.2)

def setting {α : Type} (environment : Table String) (name : String) (fallback : α)
    (parse : String → Checked α) : Checked α :=
  match lookup? environment name with
  | none => .ok fallback
  | some text => within (.field name) (parse text)

/-- The settings that an environment asks for, or every variable that says nothing. -/
def ofEnvironment (environment : Table String) : Except Validation.Rejection Settings :=
  let defaults : Settings := {}
  let text (name fallback : String) := (lookup? environment name).getD fallback
  let flag (name : String) (fallback : Bool) :=
    setting environment name fallback (ofText booleanText? .notBooleanText)
  let attempts := setting environment "build_info_attempts" defaults.artifactAttempts integerOfText
  let delay := setting environment "build_info_delay" defaults.artifactDelay
    (ofText realText? .notRealText)
  let checked := (both (flag "verbose" false) (both (flag "show_redundant" false)
    (both (flag "prune_redundant" false) (both attempts (both delay
      (flag "spawn_compiler" true)))))).map
        fun (verbose, showRedundant, pruneRedundant, artifactAttempts, artifactDelay,
            spawnCompiler) =>
          { verbose, showRedundant, pruneRedundant, artifactAttempts, artifactDelay, spawnCompiler
            logLevel := text "log_level" defaults.logLevel
            root := text "root" defaults.root
            compilerCommand := text "compiler_command" defaults.compilerCommand }
  checked.mapError fun issues => { model := "TsrfSettings", issues }

/-- The level of the log; `verbose` asks for the most detailed one. -/
def resolvedLevel (settings : Settings) : String :=
  if settings.verbose then "DEBUG" else uppercase settings.logLevel

end Settings

/-- A path seen from a directory, with `..` resolved. -/
def resolvePath (directory path : String) : String :=
  "/" ++ Path.joinParts (Path.resolve true (Path.parts (Path.join directory path)))

namespace Options

def ofSettings (settings : Settings) (directory : String) : Options :=
  { root := resolvePath directory settings.root
    showRedundant := settings.showRedundant
    pruneRedundant := settings.pruneRedundant
    artifactAttempts := settings.artifactAttempts
    artifactDelay := settings.artifactDelay
    spawnCompiler := settings.spawnCompiler
    compilerCommand := settings.compilerCommand }

def override (options : Options) (overrides : Overrides) : Options :=
  { root := overrides.root.getD options.root
    showRedundant := overrides.showRedundant.getD options.showRedundant
    pruneRedundant := overrides.pruneRedundant.getD options.pruneRedundant
    artifactAttempts := overrides.artifactAttempts.getD options.artifactAttempts
    artifactDelay := overrides.artifactDelay.getD options.artifactDelay
    spawnCompiler := overrides.spawnCompiler.getD options.spawnCompiler
    compilerCommand := overrides.compilerCommand.getD options.compilerCommand
    fix := overrides.fix.getD options.fix
    delete := overrides.delete.getD options.delete }

/-- The part that concerns the documents. -/
def sync (options : Options) : SyncOptions :=
  { showRedundant := options.showRedundant
    pruneRedundant := options.pruneRedundant
    artifactAttempts := options.artifactAttempts
    artifactDelay := .rounded options.artifactDelay }

end Options
end RefSync
