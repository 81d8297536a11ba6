/-
Compiler options of a workspace: what an incremental composite build needs, the
templates of new configs, and the repair of a config that lacks some of it.
-/

import RefSync.Config.Aliases

namespace RefSync.Config

/-- The build artifact, relative to the workspace. -/
def artifactDirectory : String := ".ts"
def artifactFile : String := "tsconfig.tsbuildinfo"
def artifactPath : String := ".ts/tsconfig.tsbuildinfo"

/-- The options every workspace config is given. -/
def defaultOptions : Document :=
  [("composite", .bool true), ("outDir", .str artifactDirectory), ("skipLibCheck", .bool true),
    ("tsBuildInfoFile", .str artifactPath)]

/-- The options that decide whether a config is satisfactory. -/
def requiredOptions : Document :=
  defaultOptions.filter (·.1 != "skipLibCheck")

def isSatisfactory : Option Json → Bool
  | some (.obj options) => requiredOptions.all fun (key, value) =>
      (Table.get? options key).any (· == value)
  | _ => false

/-- The config of a workspace that has none. -/
def newWorkspace (jsx : Bool) : Document :=
  let globs := if jsx then ["**/*.ts", "**/*.tsx"] else ["**/*.ts"]
  let options := if jsx then defaultOptions ++ [("jsx", .str "preserve")] else defaultOptions
  [("include", .arr (globs.map .str)), ("compilerOptions", .obj options)]

/-- The config of a root that has none. -/
def newRoot : Document :=
  [("files", .arr []), ("references", .arr [])]

/-- Sets the options that every workspace config is given. -/
def withDefaults (options : Document) (jsx : Bool) : Document :=
  let options := defaultOptions.foldl (fun options (key, value) => options.set key value) options
  if jsx then options.setDefault "jsx" (.str "preserve") else options

/-- The repaired config, or nothing if it needs no repair. A satisfactory config is
left alone unless the repair is forced. -/
def configure? (config : Document) (jsx force : Bool) : Option Document :=
  if !force && isSatisfactory (config.get? "compilerOptions") then none
  else
    let updated : Document :=
      config.set "compilerOptions" (.obj (withDefaults ((options? config).getD []) jsx))
    if updated.same config then none else some updated

end RefSync.Config
