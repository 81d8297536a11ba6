/-
Events on watched documents. A path is classified by what the registry watches: the
root manifest first, then workspace manifests, build artifacts, and the configs of
watched workspaces. Anything else is no concern of the engine.
-/

import RefSync.Registry
import RefSync.Workspace

namespace RefSync.Watch

inductive Change where
  | create
  | update
  | delete
deriving DecidableEq, Repr

def Change.text : Change → String
  | .create => "create"
  | .update => "update"
  | .delete => "delete"

structure Event where
  change : Change
  path : String
deriving DecidableEq, Repr

inductive DocumentKind where
  | rootManifest
  | workspaceManifest
  | workspaceConfig
  | artifact
deriving DecidableEq, Repr

/-- What a normalised path below the root is. -/
def classifyRelative (registry : Registry) (path : String) : Option DocumentKind :=
  if path == manifestFile then some .rootManifest
  else if registry.manifests.contains path then some .workspaceManifest
  else if registry.artifacts.contains path then some .artifact
  else if Path.baseName path == configFile
      && registry.manifests.contains (Workspace.manifestPath (Workspace.ofDocument path)) then
    some .workspaceConfig
  else none

def classify (project : Project) (registry : Registry) (path : String) : Option DocumentKind :=
  classifyRelative registry (project.relative path)

/-- Directories in which nothing is watched. -/
def ignoredDirectories : List String :=
  ["__pycache__", ".git", ".hg", ".svn", ".tox", ".venv", ".idea", "node_modules",
    ".mypy_cache", ".pytest_cache", ".hypothesis"]

/-- What the names of lock files and of checkers' copies start with. -/
def ignoredStarts : List String :=
  [".#", "flycheck_"]

/-- Whether a path is worth an event: it has the name of a document, whichever slashes
it is written with, no component of it is an ignored directory, and the last one has no
ignored start. -/
def isWatchedPath (path : String) : Bool :=
  let slashes := path.toList.map fun char => if char == '\\' then '/' else char
  let name := Path.baseName path
  [manifestFile, configFile, Config.artifactFile].contains (Path.baseName (String.ofList slashes))
    && !(Path.parts path).any ignoredDirectories.contains
    && !ignoredStarts.any fun start => name.startsWith start

end RefSync.Watch
