/-
What the operations of a registry do to what can be asked of it: the name of a path, the
path of a name, the dependencies of a name and the readiness of a path.
-/

import RefSync.Proofs.Table

namespace RefSync.Registry

variable {registry : Registry}

/-! ### Readiness -/

theorem readinessOf_addReadiness (path other : String) (more : Readiness) :
    (registry.addReadiness path more).readinessOf other
      = if other = path then (registry.readinessOf path).add more
        else registry.readinessOf other := by
  unfold readinessOf addReadiness
  rw [Table.get?_set]
  split <;> rfl

theorem readinessOf_dropReadiness (path other : String) (less : Readiness) :
    (registry.dropReadiness path less).readinessOf other
      = if other = path then (registry.readinessOf path).drop less
        else registry.readinessOf other := by
  unfold readinessOf dropReadiness
  rw [Table.get?_set]
  split <;> rfl

/-- A path that counts as one with a manifest does so already. -/
theorem readinessOf_addManifest {path : String} (bit : (registry.readinessOf path).manifest = true)
    (other : String) :
    (registry.addReadiness path .onlyManifest).readinessOf other = registry.readinessOf other := by
  rw [readinessOf_addReadiness]
  by_cases same : other = path
  · rw [if_pos same, same]
    revert bit
    cases registry.readinessOf path with
    | mk manifest name config => revert manifest name config; decide
  · rw [if_neg same]

theorem hasReadiness_manifest {path : String} :
    registry.hasReadiness path .onlyManifest = (registry.readinessOf path).manifest := by
  unfold hasReadiness
  cases registry.readinessOf path with
  | mk manifest name config => revert manifest name config; decide

theorem hasReadiness_config {path : String} :
    registry.hasReadiness path .onlyConfig = (registry.readinessOf path).config := by
  unfold hasReadiness
  cases registry.readinessOf path with
  | mk manifest name config => revert manifest name config; decide

/-- What is ready has all that it takes. -/
theorem isReady_iff {path : String} :
    registry.isReady path = true ↔ registry.readinessOf path = .all := by
  unfold isReady hasReadiness
  cases registry.readinessOf path with
  | mk manifest name config => revert manifest name config; decide

theorem isReady_congr {one other : Registry} {path : String}
    (same : one.readinessOf path = other.readinessOf path) : one.isReady path = other.isReady path := by
  rw [isReady, hasReadiness, same]
  rfl

/-! ### Names -/

/-- Whether the names of paths and the paths of names are inverse to each other. -/
def Inverse (registry : Registry) : Prop :=
  ∀ path name, registry.findName path = some name ↔ registry.findPath name = some path

theorem inverse_empty : Inverse .empty :=
  fun _ _ => ⟨nofun, nofun⟩

/-- A name is that of one path. -/
theorem Inverse.one_path (inverse : registry.Inverse) {path other name : String}
    (named : registry.findName path = some name) (otherNamed : registry.findName other = some name) :
    path = other := by
  have held := (inverse path name).mp named
  rw [(inverse other name).mp otherNamed] at held
  exact (Option.some.inj held).symm

theorem holder_of_free {path name holder : String}
    (free : registry.findPath name = none ∨ registry.findPath name = some path)
    (held : registry.findPath name = some holder) : holder = path := by
  rcases free with absent | own
  · rw [absent] at held
    cases held
  · exact Option.some.inj (held.symm.trans own)

/-- The registry in which a path has a name, and nothing else is different. -/
structure Gives (path name : String) (before after : Registry) : Prop where
  findName other : after.findName other = if other = path then some name else before.findName other
  findPath other : after.findPath other =
    if other = name then some path
    else if before.findName path = some other then none else before.findPath other
  others : after = { before with names := after.names, paths := after.paths }

theorem Gives.inverse {path name : String} {after : Registry} (gives : Gives path name registry after)
    (free : registry.findPath name = none ∨ registry.findPath name = some path)
    (inverse : registry.Inverse) : after.Inverse := by
  have elsewhere {other : String} (differs : other ≠ path) : registry.findName other ≠ some name :=
    fun named => differs (holder_of_free free ((inverse other name).mp named))
  intro other asked
  rw [gives.findName, gives.findPath]
  by_cases samePath : other = path
  · rw [if_pos samePath, samePath]
    by_cases sameName : asked = name
    · rw [if_pos sameName, sameName]
      exact ⟨fun _ => rfl, fun _ => rfl⟩
    · rw [if_neg sameName]
      constructor
      · intro equal
        exact absurd (Option.some.inj equal).symm sameName
      · intro found
        split at found
        · cases found
        · rename_i notOwn
          exact absurd ((inverse path asked).mpr found) notOwn
  · rw [if_neg samePath]
    by_cases sameName : asked = name
    · rw [if_pos sameName, sameName]
      constructor
      · intro named
        exact absurd named (elsewhere samePath)
      · intro equal
        exact absurd (Option.some.inj equal).symm samePath
    · rw [if_neg sameName]
      by_cases own : registry.findName path = some asked
      · rw [if_pos own]
        constructor
        · intro named
          exact absurd (inverse.one_path named own) samePath
        · intro found
          cases found
      · rw [if_neg own]
        exact inverse other asked

/-- Giving a path a name frees the one that it had, unless it is the same. -/
private theorem gives_assigned (registry : Registry) (path name : String) :
    Gives path name registry
      { registry with
        names := registry.names.set path name
        paths := (match registry.findName path with
          | some old => if old = name then registry.paths else registry.paths.erase old
          | none => registry.paths).set name path } := by
  refine ⟨fun other => Table.get?_set registry.names path other name, fun other => ?_, rfl⟩
  refine (Table.get?_set ..).trans ?_
  by_cases sameName : other = name
  · rw [if_pos sameName, if_pos sameName]
  · rw [if_neg sameName, if_neg sameName]
    cases found : registry.findName path with
    | none => rw [if_neg (by simp)]; rfl
    | some old =>
        simp only [Option.some.injEq]
        by_cases kept : old = name
        · have differs : ¬old = other := fun equal => sameName (equal.symm.trans kept)
          rw [if_pos kept, if_neg differs]
          rfl
        · rw [if_neg kept, Table.get?_erase]
          by_cases asked : other = old
          · rw [if_pos asked, if_pos asked.symm]
          · rw [if_neg asked, if_neg fun equal => asked equal.symm]
            rfl

theorem setName_eq_ok {path name : String} {after : Registry} {previous : Option String}
    (given : registry.setName path name = .ok (after, previous)) :
    Gives path name registry after
      ∧ (registry.findPath name = none ∨ registry.findPath name = some path)
      ∧ previous = registry.findName path := by
  unfold setName at given
  cases held : registry.findPath name with
  | none =>
      simp only [held] at given
      cases given
      exact ⟨gives_assigned registry path name, Or.inl rfl, rfl⟩
  | some holder =>
      simp only [held] at given
      split at given
      · rename_i same
        cases given
        exact ⟨gives_assigned registry path name, Or.inr (congrArg some same), rfl⟩
      · cases given

theorem setName_eq_error {path name : String} {fault : RegistryFault}
    (refused : registry.setName path name = .error fault) :
    ∃ holder, fault = .nameTaken name holder path
      ∧ registry.findPath name = some holder ∧ holder ≠ path := by
  unfold setName at refused
  cases held : registry.findPath name with
  | none =>
      simp only [held] at refused
      cases refused
  | some holder =>
      simp only [held] at refused
      split at refused
      · cases refused
      · rename_i other
        cases refused
        exact ⟨holder, rfl, rfl, other⟩

/-- A renamed registry: the path has another name, which takes over what was known under
the old one. -/
structure Renames (path old new : String) (before after : Registry) : Prop where
  gives : Gives path new before { after with dependencies := before.dependencies }
  findOld : before.findName path = some old
  free : before.findPath new = none ∨ before.findPath new = some path
  dependencies other : after.dependencies.get? other =
    if other = new then some ((before.dependencies.get? old).getD [])
    else if other = old then none
    else (before.dependencies.get? other).map (substitute old new)
  once : before.dependencies.keys.Nodup → after.dependencies.keys.Nodup

theorem rename_eq_ok {path new old : String} {after : Registry}
    (renamed : registry.rename path new = .ok (after, old)) : Renames path old new registry after := by
  unfold rename nameOf at renamed
  cases found : registry.findName path with
  | none => rw [found] at renamed; cases renamed
  | some name =>
      rw [found] at renamed
      cases assigned : registry.setName path new with
      | error fault =>
          simp only [assigned, bind, Except.bind] at renamed
          cases renamed
      | ok given =>
          obtain ⟨next, previous⟩ := given
          simp only [assigned, bind, Except.bind, pure, Except.pure] at renamed
          cases renamed
          obtain ⟨gives, free, _⟩ := setName_eq_ok assigned
          have kept : next.dependencies = registry.dependencies := by rw [gives.others]
          refine ⟨?_, found, free, ?_, ?_⟩
          · refine ⟨gives.findName, gives.findPath, ?_⟩
            rw [gives.others]
          · intro other
            have mapped := Table.get?_map
              (fun asked set => if asked = new then set else substitute old new set)
              ((next.dependencies.erase old).set new ((next.dependencies.get? old).getD [])) other
            refine Eq.trans mapped ?_
            rw [Table.get?_set, Table.get?_erase, kept]
            by_cases same : other = new
            · rw [if_pos same, if_pos same, Option.map_some, if_pos same]
            · rw [if_neg same, if_neg same]
              by_cases asked : other = old
              · rw [if_pos asked, if_pos asked, Option.map_none]
              · rw [if_neg asked, if_neg asked]
                simp only [if_neg same]
          · intro once
            rw [kept, Table.keys_map fun asked set =>
              if asked = new then set else substitute old new set]
            exact Table.nodup_keys_set (Table.nodup_keys_erase once _) _ _

theorem rename_eq_error {path new : String} {fault : RegistryFault}
    (refused : registry.rename path new = .error fault)
    (named : (registry.findName path).isSome) :
    ∃ holder, fault = .nameTaken new holder path
      ∧ registry.findPath new = some holder ∧ holder ≠ path := by
  unfold rename nameOf at refused
  obtain ⟨name, found⟩ := Option.isSome_iff_exists.mp named
  rw [found] at refused
  cases assigned : registry.setName path new with
  | ok given =>
      simp only [assigned, bind, Except.bind, pure, Except.pure] at refused
      cases refused
  | error other =>
      simp only [assigned, bind, Except.bind] at refused
      cases refused
      exact setName_eq_error assigned

theorem mem_substitute {old new : String} {set : TextSet} (member : old ∈ set) :
    new ∈ substitute old new set := by
  rw [substitute, if_pos (List.contains_iff_mem.mpr member)]
  exact TextSet.mem_insert.mpr (Or.inl rfl)

/-- A name that stands nowhere else comes in where the old one stood. -/
theorem new_mem_substitute_iff {old new : String} {set : TextSet} (unknown : new ∉ set) :
    new ∈ substitute old new set ↔ old ∈ set := by
  constructor
  · intro member
    by_contra lacks
    rw [substitute, if_neg fun has => lacks (List.contains_iff_mem.mp has)] at member
    exact unknown member
  · exact mem_substitute

theorem mem_dependentsOf {name asked : String} {set : TextSet} (other : name ≠ asked)
    (found : registry.dependencies.get? name = some set) (depends : asked ∈ set) :
    name ∈ registry.dependentsOf asked := by
  rw [dependentsOf, mem_sortTexts, List.mem_map]
  refine ⟨(name, set), List.mem_filter.mpr ⟨Table.mem_of_get? found, ?_⟩, rfl⟩
  rw [Bool.and_eq_true, bne_iff_ne]
  exact ⟨List.contains_iff_mem.mpr depends, other⟩

theorem mem_dependentsOf_iff (once : registry.dependencies.keys.Nodup) {name asked : String} :
    name ∈ registry.dependentsOf asked
      ↔ name ≠ asked ∧ ∃ set, registry.dependencies.get? name = some set ∧ asked ∈ set := by
  constructor
  · rw [dependentsOf, mem_sortTexts, List.mem_map]
    rintro ⟨entry, kept, rfl⟩
    obtain ⟨member, depends⟩ := List.mem_filter.mp kept
    rw [Bool.and_eq_true, bne_iff_ne] at depends
    exact ⟨depends.2, entry.2, (Table.get?_eq_some_iff once).mpr member,
      List.contains_iff_mem.mp depends.1⟩
  · rintro ⟨other, set, found, depends⟩
    exact mem_dependentsOf other found depends

section

variable {path old new : String} {after : Registry}

theorem Renames.findName (renames : Renames path old new registry after) (other : String) :
    after.findName other = if other = path then some new else registry.findName other :=
  renames.gives.findName other

theorem Renames.findPath (renames : Renames path old new registry after) (name : String) :
    after.findPath name = if name = new then some path else if name = old then none
      else registry.findPath name := by
  have given : after.findPath name = if name = new then some path
      else if registry.findName path = some name then none else registry.findPath name :=
    renames.gives.findPath name
  rw [given, renames.findOld]
  simp only [Option.some.injEq, eq_comm (a := old)]

theorem Renames.rest (renames : Renames path old new registry after) : after = { registry with
    names := after.names, paths := after.paths, dependencies := after.dependencies } := by
  have others := renames.gives.others
  cases after
  cases others
  rfl

/-- One of which the old name was known depends on the new name. -/
theorem Renames.mem_dependentsOf {name : String} {stored : TextSet}
    (renames : Renames path old new registry after) (notOld : name ≠ old) (notNew : name ≠ new)
    (known : registry.dependencies.get? name = some stored) (member : old ∈ stored) :
    name ∈ after.dependentsOf new := by
  have held : after.dependencies.get? name = some (substitute old new stored) := by
    rw [renames.dependencies, if_neg notNew, if_neg notOld, known]
    rfl
  exact Registry.mem_dependentsOf notNew held (mem_substitute member)

/-- Those that depend on a name of which nothing was known are those that depended on the old one. -/
theorem Renames.mem_dependentsOf_iff (renames : Renames path old new registry after)
    (once : registry.dependencies.keys.Nodup) (absent : registry.dependencies.get? new = none)
    (unknown : ∀ name set, registry.dependencies.get? name = some set → new ∉ set) {name : String} :
    name ∈ after.dependentsOf new
      ↔ name ≠ old ∧ ∃ set, registry.dependencies.get? name = some set ∧ old ∈ set := by
  constructor
  · intro member
    obtain ⟨notNew, set, known, depends⟩ :=
      (Registry.mem_dependentsOf_iff (renames.once once)).mp member
    rw [renames.dependencies, if_neg notNew] at known
    by_cases isOld : name = old
    · rw [if_pos isOld] at known
      cases known
    · rw [if_neg isOld] at known
      obtain ⟨stored, found, rfl⟩ := Option.map_eq_some_iff.mp known
      exact ⟨isOld, stored, found, (new_mem_substitute_iff (unknown name stored found)).mp depends⟩
  · rintro ⟨notOld, stored, known, member⟩
    have notNew : name ≠ new := by
      rintro rfl
      rw [absent] at known
      cases known
    exact renames.mem_dependentsOf notOld notNew known member

end

/-- A registry in which a path has no name, and nothing is known under the one it had. -/
structure Forgets (path : String) (before after : Registry) : Prop where
  findName other : after.findName other = if other = path then none else before.findName other
  findPath other : after.findPath other =
    if before.findName path = some other then none else before.findPath other
  dependencies other : after.dependencies.get? other =
    if before.findName path = some other then none else before.dependencies.get? other
  once : before.dependencies.keys.Nodup → after.dependencies.keys.Nodup

theorem Forgets.inverse {path : String} {after : Registry} (forgets : Forgets path registry after)
    (inverse : registry.Inverse) : after.Inverse := by
  intro other asked
  rw [forgets.findName, forgets.findPath]
  by_cases samePath : other = path
  · rw [if_pos samePath, samePath]
    constructor
    · intro held
      cases held
    · intro found
      split at found
      · cases found
      · rename_i notOwn
        exact absurd ((inverse path asked).mpr found) notOwn
  · rw [if_neg samePath]
    by_cases own : registry.findName path = some asked
    · rw [if_pos own]
      constructor
      · intro held
        exact absurd (inverse.one_path held own) samePath
      · intro found
        cases found
    · rw [if_neg own]
      exact inverse other asked

/-- The registry without the name of a path and the dependencies known under it. -/
def forgotten (registry : Registry) (path : String) : Registry :=
  match registry.forgetName path with
  | (registry, some name) => registry.dropDependencies name
  | (registry, none) => registry

theorem forgets_forgotten (registry : Registry) (path : String) :
    Forgets path registry (registry.forgotten path) := by
  unfold forgotten forgetName
  cases found : registry.findName path with
  | none =>
      simp only
      refine ⟨fun other => ?_, fun other => ?_, fun other => ?_, id⟩
      · by_cases same : other = path
        · rw [if_pos same, same, found]
        · rw [if_neg same]
      · rw [if_neg (by simp [found])]
      · rw [if_neg (by simp [found])]
  | some name =>
      simp only
      refine ⟨fun other => Table.get?_erase _ _ _, fun other => ?_, fun other => ?_,
        fun once => Table.nodup_keys_erase once _⟩
      · refine (Table.get?_erase registry.paths name other).trans ?_
        rw [found]
        simp only [Option.some.injEq]
        by_cases same : other = name
        · rw [if_pos same, if_pos same.symm]
        · rw [if_neg same, if_neg fun equal => same equal.symm]
          rfl
      · refine (Table.get?_erase registry.dependencies name other).trans ?_
        rw [found]
        simp only [Option.some.injEq]
        by_cases same : other = name
        · rw [if_pos same, if_pos same.symm]
        · rw [if_neg same, if_neg fun equal => same equal.symm]

theorem forgotten_of_unnamed {path : String} (unnamed : registry.findName path = none) :
    registry.forgotten path = registry := by
  unfold forgotten forgetName
  rw [unnamed]

theorem forgotten_others (registry : Registry) (path : String) :
    registry.forgotten path = { registry with
      names := (registry.forgotten path).names
      paths := (registry.forgotten path).paths
      dependencies := (registry.forgotten path).dependencies } := by
  unfold forgotten forgetName
  cases registry.findName path <;> rfl

/-- What is left of a registry without a workspace. -/
structure Removes (path manifest artifact : String) (before after : Registry) : Prop where
  forgets : Forgets path before after
  manifests : after.manifests = before.manifests.remove manifest
  artifacts : after.artifacts = before.artifacts.remove artifact
  missing : after.missingArtifacts = before.missingArtifacts.remove artifact
  readinessOf other :
    after.readinessOf other = if other = path then .none else before.readinessOf other

theorem removes_removeWorkspace (registry : Registry) (path manifest artifact : String) :
    Removes path manifest artifact registry (registry.removeWorkspace path manifest artifact) := by
  let unwatched := { registry with manifests := registry.manifests.remove manifest }.unwatchArtifact
    artifact
  have others := forgotten_others unwatched path
  have removed : registry.removeWorkspace path manifest artifact =
      { unwatched.forgotten path with readiness := registry.readiness.erase path } := by
    unfold removeWorkspace forgotten forgetName
    dsimp only
    cases unwatched.findName path <;> rfl
  rw [removed]
  refine ⟨?_, ?_, ?_, ?_, fun other => ?_⟩
  · obtain ⟨findName, findPath, dependencies, once⟩ :=
      forgets_forgotten unwatched path
    exact ⟨findName, findPath, dependencies, once⟩
  · rw [others]
    rfl
  · rw [others]
    rfl
  · rw [others]
    rfl
  · unfold readinessOf
    rw [Table.get?_erase]
    split <;> rfl

end RefSync.Registry
