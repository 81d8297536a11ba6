/-
Calls of a registry made in place, one store after another. A call that fails leaves what it
stored until then, and an entry that is to be deleted has to be there. `setName` and `rename`
of a registry yield a new one or a fault; here it can be asked what a failed call did to the
tables.
-/

import RefSync.Registry

namespace RefSync.Registry

/-- Why a call fails: it is refused, or an entry to be deleted is not there. -/
inductive CallFault where
  | refused (fault : RegistryFault)
  | noEntry (key : String)
deriving DecidableEq, Repr

abbrev InPlace := EStateM CallFault Registry

namespace InPlace

/-- Refuses a name that another path holds. -/
def requireFree (path name : String) : InPlace Unit := do
  match (← get).findPath name with
  | some holder =>
      if holder = path then return ()
      else throw (.refused (.nameTaken name holder path))
  | none => return ()

def deletePath (name : String) : InPlace Unit := do
  if (← get).paths.contains name then
    modify fun registry => { registry with paths := registry.paths.erase name }
  else throw (.noEntry name)

/-- Frees the name that a path has, unless it is the one it gets. -/
def release (path name : String) : InPlace (Option String) := do
  match (← get).findName path with
  | some old =>
      unless old = name do deletePath old
      return some old
  | none => return none

def setName (path name : String) : InPlace (Option String) := do
  requireFree path name
  let previous ← release path name
  modify fun registry => { registry with names := registry.names.set path name }
  modify fun registry => { registry with paths := registry.paths.set name path }
  return previous

def requireName (path : String) : InPlace String := do
  match (← get).nameOf path with
  | .ok name => return name
  | .error fault => throw (.refused fault)

/-- Takes the dependencies of a name out of the table. -/
def takeDependencies (name : String) : InPlace TextSet := do
  let own := ((← get).dependencies.get? name).getD []
  modify (·.dropDependencies name)
  return own

/-- Puts the new name in the place of the old one in what the others depend on. -/
def redirect (old new : String) : InPlace Unit :=
  modify fun registry => { registry with
    dependencies := registry.dependencies.map fun (name, set) =>
      (name, if name = new then set else substitute old new set) }

def rename (path new : String) : InPlace String := do
  let old ← requireName path
  let _ ← setName path new
  let own ← takeDependencies old
  modify fun registry => { registry with dependencies := registry.dependencies.set new own }
  redirect old new
  return old

end InPlace

/-- A call that changes names or dependencies. -/
inductive Call where
  | setName (path name : String)
  | rename (path new : String)
  | forgetName (path : String)
  | removeWorkspace (path manifest artifact : String)
  | setDependencies (name : String) (dependencies : List String)
  | dropDependencies (name : String)
  | clear
deriving DecidableEq, Repr

namespace Call

/-- Makes a call, with the name that it yields, if any. -/
def make : Call → InPlace (Option String)
  | .setName path name => InPlace.setName path name
  | .rename path new => do return some (← InPlace.rename path new)
  | .forgetName path => modifyGet fun registry => (registry.forgetName path).swap
  | .removeWorkspace path manifest artifact => do
      modify (·.removeWorkspace path manifest artifact)
      return none
  | .setDependencies name dependencies => do
      modify (·.setDependencies name dependencies)
      return none
  | .dropDependencies name => do
      modify (·.dropDependencies name)
      return none
  | .clear => do
      set Registry.empty
      return none

/-- The registry after a call, whether it returned or failed. -/
def step (registry : Registry) (call : Call) : Registry :=
  match call.make registry with
  | .ok _ after => after
  | .error _ after => after

end Call

/-- The registry after some calls, the first of them of an empty one. -/
def afterCalls (calls : List Call) : Registry :=
  calls.foldl Call.step .empty

end RefSync.Registry
