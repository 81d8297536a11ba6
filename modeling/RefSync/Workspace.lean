/-
Where the documents of a project and its workspaces are. Every path the engine
keeps is relative to the project root and normalised. A workspace holds

    package.json
    tsconfig.json
    .ts/tsconfig.tsbuildinfo

and is written into the references of another one as the way from there.
-/

import RefSync.Config.Options
import RefSync.Path

namespace RefSync

def manifestFile : String := "package.json"
def configFile : String := "tsconfig.json"

namespace Workspace

def manifestPath (workspace : String) : String :=
  Path.join workspace manifestFile

def configPath (workspace : String) : String :=
  Path.join workspace configFile

def artifactPath (workspace : String) : String :=
  Path.join workspace Config.artifactPath

/-- The workspace of a manifest or a config. -/
def ofDocument (path : String) : String :=
  Path.directory path

/-- The workspace of a build artifact, whose directory is inside it. -/
def ofArtifact (path : String) : String :=
  Path.directory (Path.directory path)

def dropSlashes (path : String) : String :=
  String.ofList (path.toList.reverse.dropWhile (· == '/')).reverse

/-- Whether a file is the workspace or below it. -/
def owns (workspace file : String) : Bool :=
  file == workspace || file.startsWith (dropSlashes workspace ++ "/")

/-- Of two candidates the longer one, the first if they are equally long. -/
def longer (best : Option String) (candidate : String) : Option String :=
  match best with
  | none => some candidate
  | some best => some (if best.length < candidate.length then candidate else best)

/-- The most specific workspace that owns a file. -/
def owning (file : String) (workspaces : List String) : Option String :=
  (workspaces.filter (owns · file)).foldl longer none

/-- The place a reference of a workspace leads to. -/
def ofReference (reference : String) (workspace : Option String) : String :=
  let base := workspace.getD ""
  Path.normalize (Path.join (if base.isEmpty then "." else base) reference)

end Workspace

/-- A project: the absolute path of its root directory, without `.` and repeated
slashes. -/
structure Project where
  root : String
deriving DecidableEq, Repr

namespace Project

/-- A path as an absolute one; `..` stays. -/
def absolute (project : Project) (path : String) : String :=
  if Path.isAbsolute path then Path.tidy path
  else
    let parts := Path.parts path
    if parts.isEmpty then project.root
    else Path.join project.root (Path.joinParts parts)

/-- The resolved components of a path seen from the root. -/
def resolved (project : Project) (path : String) : List String :=
  Path.resolve true (Path.parts (Path.join project.root path))

/-- A path, absolute or not, as the way from the root. -/
def relative (project : Project) (path : String) : String :=
  Path.ofParts (Path.climb (project.resolved "") (project.resolved path))

/-- The file an artifact means: its names are relative to the artifact. -/
def artifactFile (project : Project) (artifact name : String) : String :=
  project.relative (Path.join (Path.join project.root (Path.directory artifact)) name)

/-- A directory deep enough for relative paths to climb as they like. Its end is the
root, so that the way back down is known. -/
def deepBase (project : Project) (path start : String) : List String :=
  List.replicate (path.length + start.length) "" ++ project.resolved ""

def resolvedFrom (project : Project) (base : List String) (path : String) :
    List String :=
  if Path.isAbsolute path then project.resolved path
  else Path.resolve true (base ++ Path.parts path)

/-- The path of a workspace as written in the references of another one, or of the
root. The empty path is no place. -/
def referencePath? (project : Project) (dependency : String) (workspace : Option String) :
    Option String :=
  if dependency.isEmpty then none
  else
    let start := workspace.getD ""
    let base :=
      if Path.isAbsolute dependency || Path.isAbsolute start then project.resolved ""
      else project.deepBase dependency start
    some (Path.ofParts
      (Path.climb (project.resolvedFrom base start) (project.resolvedFrom base dependency)))

end Project
end RefSync
