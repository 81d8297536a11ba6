/-
Path aliases of a config: the `paths` table of its compiler options. A referenced
workspace has an exact alias and one with `/*` for the files below it.
-/

import RefSync.Json.Value

namespace RefSync

instance : BEq Json := ⟨Json.same⟩

namespace Config

/-- The alias, or the path, of everything below. -/
def below (key : String) : String :=
  key ++ "/*"

/-- The compiler options, if they are an object. -/
def options? (config : Document) : Option Document :=
  (config.get? "compilerOptions").bind Json.members?

/-- The alias table, if there is one. -/
def aliases? (config : Document) : Option Document :=
  (options? config).bind fun options => (options.get? "paths").bind Json.members?

/-- Replaces the alias table; options and table are created where they are not
objects. -/
def setAliases (config aliases : Document) : Document :=
  config.set "compilerOptions" (.obj (((options? config).getD []).set "paths" (.obj aliases)))

/-- The first alias that lists a reference path among its targets. -/
def findAlias : Document → Json → Option String
  | [], _ => none
  | (key, targets) :: rest, path =>
      match targets with
      | .arr targets => if targets.contains path then some key else findAlias rest path
      | _ => findAlias rest path

/-- Removes the exact and the `/*` alias of a reference path. -/
def removeAlias (aliases : Document) (path : Json) : Document :=
  match findAlias aliases path with
  | some key => (aliases.erase key).erase (below key)
  | none => aliases

/-- Points an alias and its `/*` alias at a reference path. -/
def addAlias (aliases : Document) (key path : String) : Document :=
  (aliases.set key (.arr [.str path])).set (below key) (.arr [.str (below path)])

/-- Moves an alias to a new name, at the end of the table. -/
def moveAlias (aliases : Document) (old new : String) : Document :=
  match aliases.get? old with
  | some targets => (aliases.erase old).set new targets
  | none => aliases

/-- The config after a workspace was renamed, or nothing if neither of its aliases
is there. -/
def renameAlias? (config : Document) (old new : String) : Option Document :=
  (aliases? config).bind fun aliases =>
    if aliases.contains old || aliases.contains (below old) then
      some (setAliases config (moveAlias (moveAlias aliases old new) (below old) (below new)))
    else none

end Config
end RefSync
