/-
What holds of a registry between two stages of any handler. Names and paths are inverse to
each other, readiness and names agree, and everything known is about a watched workspace.
Whether a workspace has a dependency set is a property of its own (`Settled`), as a name
comes before its dependencies while workspaces are being added.
-/

import RefSync.Proofs.Registry.Operations
import RefSync.Proofs.Workspace.Documents
import RefSync.Proofs.Workspace.Relative

namespace RefSync

namespace Registry

open Path

/-- A workspace whose manifest is watched. -/
def Watches (registry : Registry) (workspace : String) : Prop :=
  IsStem workspace ∧ Workspace.manifestPath workspace ∈ registry.manifests

/-- A workspace that has dependencies as soon as it has a name. -/
def Settled (registry : Registry) (workspace : String) : Prop :=
  ∀ name, registry.findName workspace = some name → (registry.dependencies.get? name).isSome

structure Sound (project : Project) (registry : Registry) : Prop where
  inverse workspace name :
    registry.findName workspace = some name ↔ registry.findPath name = some workspace
  nameBit workspace :
    (registry.readinessOf workspace).name = true ↔ (registry.findName workspace).isSome
  manifestBit workspace :
    (registry.readinessOf workspace).name = true → (registry.readinessOf workspace).manifest = true
  dependenciesNamed name :
    (registry.dependencies.get? name).isSome → (registry.findPath name).isSome
  dependenciesOnce : registry.dependencies.keys.Nodup
  manifests path : path ∈ registry.manifests →
    ∃ workspace, project.IsRelative workspace ∧ path = Workspace.manifestPath workspace
  ready workspace : registry.readinessOf workspace ≠ .none → registry.Watches workspace
  artifacts path : path ∈ registry.artifacts →
    ∃ workspace, registry.Watches workspace ∧ path = Workspace.artifactPath workspace
  missing path : path ∈ registry.missingArtifacts → path ∈ registry.artifacts

variable {project : Project} {registry : Registry} {workspace : String}

theorem sound_empty : Sound project .empty where
  inverse _ _ := ⟨nofun, nofun⟩
  nameBit _ := ⟨nofun, nofun⟩
  manifestBit _ := nofun
  dependenciesNamed _ := nofun
  dependenciesOnce := List.nodup_nil
  manifests _ := nofun
  ready _ some := absurd rfl some
  artifacts _ := nofun
  missing _ := nofun

namespace Sound

variable (sound : Sound project registry)

include sound

theorem watches_of_named {name : String} (named : registry.findName workspace = some name) :
    registry.Watches workspace := by
  refine sound.ready workspace fun none => ?_
  have bit := (sound.nameBit workspace).mpr (by rw [named]; rfl)
  rw [none] at bit
  cases bit

theorem watches_of_artifact (stem : IsStem workspace)
    (watched : Workspace.artifactPath workspace ∈ registry.artifacts) :
    registry.Watches workspace := by
  obtain ⟨other, watches, same⟩ := sound.artifacts _ watched
  rw [Workspace.artifactPath_injective stem watches.1 same]
  exact watches

/-- A watched manifest leads back to a watched workspace. -/
theorem watches_ofDocument {path : String} (watched : path ∈ registry.manifests) :
    registry.Watches (Workspace.ofDocument path)
      ∧ Workspace.manifestPath (Workspace.ofDocument path) = path
      ∧ project.IsRelative (Workspace.ofDocument path) := by
  obtain ⟨workspace, relative, rfl⟩ := sound.manifests path watched
  have stem : IsStem workspace := relative.spelled.stem
  rw [Workspace.ofDocument_manifestPath stem]
  exact ⟨⟨stem, watched⟩, rfl, relative⟩

theorem ofArtifact {path : String} (watched : path ∈ registry.artifacts) :
    registry.Watches (Workspace.ofArtifact path)
      ∧ Workspace.artifactPath (Workspace.ofArtifact path) = path := by
  obtain ⟨workspace, watches, rfl⟩ := sound.artifacts path watched
  rw [Workspace.ofArtifact_artifactPath watches.1]
  exact ⟨watches, rfl⟩

theorem relative (watches : registry.Watches workspace) : project.IsRelative workspace := by
  obtain ⟨other, otherRelative, same⟩ := sound.manifests _ watches.2
  rw [Workspace.manifestPath_injective watches.1 otherRelative.spelled.stem same]
  exact otherRelative

/-- A name is that of one workspace. -/
theorem one_workspace {other name : String} (named : registry.findName workspace = some name)
    (otherNamed : registry.findName other = some name) : workspace = other :=
  Inverse.one_path sound.inverse named otherNamed

/-! ### Watching -/

theorem watchManifest (relative : project.IsRelative workspace) :
    Sound project (registry.watchManifest (Workspace.manifestPath workspace)) := by
  have more {other : String} (watches : registry.Watches other) :
      (registry.watchManifest (Workspace.manifestPath workspace)).Watches other :=
    ⟨watches.1, TextSet.mem_insert.mpr (Or.inr watches.2)⟩
  refine { sound with
    manifests := fun path member => ?_
    ready := fun other some => more (sound.ready other some)
    artifacts := fun path member => ?_ }
  · rcases TextSet.mem_insert.mp member with rfl | present
    · exact ⟨workspace, relative, rfl⟩
    · exact sound.manifests path present
  · obtain ⟨other, watches, same⟩ := sound.artifacts path member
    exact ⟨other, more watches, same⟩

theorem watchArtifact (watches : registry.Watches workspace) :
    Sound project (registry.watchArtifact (Workspace.artifactPath workspace)) := by
  refine { sound with
    artifacts := fun path member => ?_
    missing := fun path member => TextSet.mem_insert.mpr (Or.inr (sound.missing path member)) }
  rcases TextSet.mem_insert.mp member with rfl | present
  · exact ⟨workspace, watches, rfl⟩
  · exact sound.artifacts path present

theorem unwatchArtifact (path : String) : Sound project (registry.unwatchArtifact path) := by
  refine { sound with
    artifacts := fun other member => sound.artifacts other (TextSet.mem_remove.mp member).1
    missing := fun other member => ?_ }
  obtain ⟨present, differs⟩ := TextSet.mem_remove.mp member
  exact TextSet.mem_remove.mpr ⟨sound.missing other present, differs⟩

theorem markMissing {path : String} (watched : path ∈ registry.artifacts) :
    Sound project (registry.markMissing path) := by
  refine { sound with missing := fun other member => ?_ }
  rcases TextSet.mem_insert.mp member with rfl | present
  · exact watched
  · exact sound.missing other present

theorem unmarkMissing (path : String) : Sound project (registry.unmarkMissing path) :=
  { sound with missing := fun other member => sound.missing other (TextSet.mem_remove.mp member).1 }

theorem report (command : String) : Sound project (registry.report command) :=
  { sound with }

/-! ### Readiness and names -/

/-- Readiness that its name is not part of, unless it has one. -/
theorem addReadiness (watches : registry.Watches workspace) (more : Readiness)
    (named : more.name = true → (registry.findName workspace).isSome) :
    Sound project (registry.addReadiness workspace more) := by
  have bit : ((registry.readinessOf workspace).add more).name
      = (registry.readinessOf workspace).name := by
    cases adds : more.name with
    | false => rw [Readiness.add, adds, Bool.or_false]
    | true => rw [Readiness.add, adds, Bool.or_true, (sound.nameBit workspace).mpr (named adds)]
  refine { sound with nameBit := fun other => ?_, manifestBit := fun other present => ?_
                      ready := fun other some => ?_ }
  · rw [readinessOf_addReadiness]
    by_cases same : other = workspace
    · rw [if_pos same, bit, same]
      exact sound.nameBit workspace
    · rw [if_neg same]
      exact sound.nameBit other
  · rw [readinessOf_addReadiness] at present ⊢
    by_cases same : other = workspace
    · rw [if_pos same, bit] at present
      rw [if_pos same, Readiness.add, sound.manifestBit workspace present, Bool.true_or]
    · rw [if_neg same] at present ⊢
      exact sound.manifestBit other present
  · by_cases same : other = workspace
    · rw [same]
      exact watches
    · rw [readinessOf_addReadiness, if_neg same] at some
      exact sound.ready other some

theorem dropReadiness {less : Readiness} (noName : less.name = false)
    (noManifest : less.manifest = false) : Sound project (registry.dropReadiness workspace less) := by
  refine { sound with nameBit := fun other => ?_, manifestBit := fun other present => ?_
                      ready := fun other some => sound.ready other fun none => some ?_ }
  · rw [readinessOf_dropReadiness]
    by_cases same : other = workspace
    · rw [if_pos same, Readiness.drop, noName, Bool.not_false, Bool.and_true, same]
      exact sound.nameBit workspace
    · rw [if_neg same]
      exact sound.nameBit other
  · rw [readinessOf_dropReadiness] at present ⊢
    by_cases same : other = workspace
    · rw [if_pos same, Readiness.drop, noName, Bool.not_false, Bool.and_true] at present
      rw [if_pos same, Readiness.drop, noManifest, Bool.not_false, Bool.and_true]
      exact sound.manifestBit workspace present
    · rw [if_neg same] at present ⊢
      exact sound.manifestBit other present
  · rw [readinessOf_dropReadiness]
    by_cases same : other = workspace
    · rw [if_pos same, ← same, none]
      rfl
    · rw [if_neg same, none]

/-- A workspace gets its name, or the one it has, and with it the readiness it is worth. -/
theorem register {name : String} {after : Registry} {previous : Option String}
    (watches : registry.Watches workspace)
    (manifestBit : (registry.readinessOf workspace).manifest = true)
    (keeps : registry.findName workspace = none ∨ registry.findName workspace = some name)
    (given : registry.setName workspace name = .ok (after, previous)) :
    Sound project (after.addReadiness workspace .onlyName) := by
  obtain ⟨gives, free, _⟩ := setName_eq_ok given
  have readiness (other : String) : (after.addReadiness workspace .onlyName).readinessOf other
      = if other = workspace then (registry.readinessOf workspace).add .onlyName
        else registry.readinessOf other := by
    rw [readinessOf_addReadiness, gives.others]
    rfl
  have same : after.dependencies = registry.dependencies ∧ after.manifests = registry.manifests
      ∧ after.artifacts = registry.artifacts
      ∧ after.missingArtifacts = registry.missingArtifacts := by
    rw [gives.others]
    exact ⟨rfl, rfl, rfl, rfl⟩
  obtain ⟨dependencies, manifests, artifacts, missing⟩ := same
  have watched {other : String} (watches : registry.Watches other) :
      (after.addReadiness workspace .onlyName).Watches other :=
    ⟨watches.1, manifests ▸ watches.2⟩
  have unheld {other : String} (differs : other ≠ name) :
      registry.findName workspace ≠ some other := by
    intro named
    rcases keeps with absent | own
    · rw [absent] at named
      cases named
    · rw [own] at named
      exact differs (Option.some.inj named).symm
  refine
    { inverse := gives.inverse free sound.inverse
      nameBit := fun other => ?_
      manifestBit := fun other bit => ?_
      dependenciesNamed := fun asked present => ?_
      dependenciesOnce := dependencies ▸ sound.dependenciesOnce
      manifests := fun path member => sound.manifests path (manifests ▸ member)
      ready := fun other some => ?_
      artifacts := fun path member => ?_
      missing := fun path member => artifacts ▸ sound.missing path (missing ▸ member) }
  · change ((after.addReadiness workspace .onlyName).readinessOf other).name = true
      ↔ (after.findName other).isSome
    rw [readiness, gives.findName]
    by_cases same : other = workspace
    · rw [if_pos same, if_pos same]
      simp [Readiness.add, Readiness.onlyName]
    · rw [if_neg same, if_neg same]
      exact sound.nameBit other
  · rw [readiness] at bit ⊢
    by_cases same : other = workspace
    · rw [if_pos same, Readiness.add, manifestBit, Bool.true_or]
    · rw [if_neg same] at bit ⊢
      exact sound.manifestBit other bit
  · change (after.findPath asked).isSome
    rw [gives.findPath]
    have before := sound.dependenciesNamed asked (dependencies ▸ present)
    by_cases same : asked = name
    · rw [if_pos same]
      rfl
    · rw [if_neg same, if_neg (unheld same)]
      exact before
  · by_cases same : other = workspace
    · rw [same]
      exact watched watches
    · rw [readiness, if_neg same] at some
      exact watched (sound.ready other some)
  · obtain ⟨other, watches, same⟩ := sound.artifacts path (artifacts ▸ member)
    exact ⟨other, watched watches, same⟩

/-- A workspace that has a name gets another one. -/
theorem rename {old new : String} {after : Registry}
    (renames : Renames workspace old new registry after) : Sound project after := by
  have findName := renames.findName
  have findPath := renames.findPath
  obtain ⟨gives, named, free, dependencies, once⟩ := renames
  have others := gives.others
  have same : after.readiness = registry.readiness ∧ after.manifests = registry.manifests
      ∧ after.artifacts = registry.artifacts
      ∧ after.missingArtifacts = registry.missingArtifacts := by
    cases after
    cases others
    exact ⟨rfl, rfl, rfl, rfl⟩
  obtain ⟨readiness, manifests, artifacts, missing⟩ := same
  have readinessOf (other : String) : after.readinessOf other = registry.readinessOf other := by
    unfold Registry.readinessOf
    rw [readiness]
  have watched {other : String} (watches : registry.Watches other) : after.Watches other :=
    ⟨watches.1, manifests ▸ watches.2⟩
  refine
    { inverse := gives.inverse free sound.inverse
      nameBit := fun other => ?_
      manifestBit := fun other bit => ?_
      dependenciesNamed := fun asked present => ?_
      dependenciesOnce := once sound.dependenciesOnce
      manifests := fun path member => sound.manifests path (manifests ▸ member)
      ready := fun other some => watched (sound.ready other (readinessOf other ▸ some))
      artifacts := fun path member => ?_
      missing := fun path member => artifacts ▸ sound.missing path (missing ▸ member) }
  · rw [readinessOf, findName]
    by_cases samePath : other = workspace
    · subst samePath
      have bit := sound.nameBit other
      rw [named] at bit
      rw [if_pos rfl]
      exact bit
    · rw [if_neg samePath]
      exact sound.nameBit other
  · rw [readinessOf] at bit ⊢
    exact sound.manifestBit other bit
  · rw [findPath]
    rw [dependencies] at present
    by_cases sameName : asked = new
    · rw [if_pos sameName]
      rfl
    · rw [if_neg sameName] at present ⊢
      by_cases wasOld : asked = old
      · rw [if_pos wasOld] at present
        cases present
      · rw [if_neg wasOld, Option.isSome_map] at present
        rw [if_neg wasOld]
        exact sound.dependenciesNamed asked present
  · obtain ⟨other, watches, same⟩ := sound.artifacts path (artifacts ▸ member)
    exact ⟨other, watched watches, same⟩

/-- A workspace loses its name, what is known under it, and the readiness it was worth. -/
theorem forgotten {after : Registry} (forgets : Forgets workspace registry after)
    (nameBit : ∀ other, (after.readinessOf other).name = true ↔
      other ≠ workspace ∧ (registry.readinessOf other).name = true)
    (manifestBit : ∀ other, other ≠ workspace → (registry.readinessOf other).manifest = true →
      (after.readinessOf other).manifest = true)
    (manifests : ∀ path ∈ after.manifests, path ∈ registry.manifests)
    (ready : ∀ other, after.readinessOf other ≠ .none → after.Watches other)
    (artifacts : ∀ path ∈ after.artifacts, path ∈ registry.artifacts
      ∧ after.Watches (Workspace.ofArtifact path))
    (missing : ∀ path ∈ after.missingArtifacts, path ∈ after.artifacts) :
    Sound project after := by
  have ⟨findName, findPath, dependencies, once⟩ := forgets
  refine
    { inverse := forgets.inverse sound.inverse
      nameBit := fun other => ?_
      manifestBit := fun other bit => ?_
      dependenciesNamed := fun asked present => ?_
      dependenciesOnce := once sound.dependenciesOnce
      manifests := fun path member => sound.manifests path (manifests path member)
      ready := ready
      artifacts := fun path member => ?_
      missing := missing }
  · rw [nameBit, findName, sound.nameBit]
    by_cases samePath : other = workspace
    · rw [if_pos samePath]
      simp [samePath]
    · rw [if_neg samePath]
      simp [samePath]
  · obtain ⟨differs, before⟩ := (nameBit other).mp bit
    exact manifestBit other differs (sound.manifestBit other before)
  · rw [dependencies] at present
    rw [findPath]
    by_cases own : registry.findName workspace = some asked
    · rw [if_pos own] at present
      cases present
    · rw [if_neg own] at present ⊢
      exact sound.dependenciesNamed asked present
  · obtain ⟨before, watches⟩ := artifacts path member
    exact ⟨_, watches, (sound.ofArtifact before).2.symm⟩

theorem setDependencies {name : String} (named : (registry.findPath name).isSome)
    (dependencies : List String) : Sound project (registry.setDependencies name dependencies) := by
  refine { sound with
    dependenciesNamed := fun other present => ?_
    dependenciesOnce := Table.nodup_keys_set sound.dependenciesOnce _ _ }
  unfold Registry.setDependencies at present
  rw [Table.get?_set] at present
  by_cases same : other = name
  · rw [same]
    exact named
  · rw [if_neg same] at present
    exact sound.dependenciesNamed other present

theorem removeWorkspace (stem : IsStem workspace) :
    Sound project (registry.removeWorkspace workspace (Workspace.manifestPath workspace)
      (Workspace.artifactPath workspace)) := by
  obtain ⟨forgets, manifests, artifacts, missing, readinessOf⟩ :=
    removes_removeWorkspace registry workspace (Workspace.manifestPath workspace)
      (Workspace.artifactPath workspace)
  have still {other : String} (differs : other ≠ workspace) (watches : registry.Watches other) :
      (registry.removeWorkspace workspace (Workspace.manifestPath workspace)
        (Workspace.artifactPath workspace)).Watches other := by
    refine ⟨watches.1, ?_⟩
    rw [manifests]
    refine TextSet.mem_remove.mpr ⟨watches.2, fun same => ?_⟩
    exact differs (Workspace.manifestPath_injective watches.1 stem same)
  refine sound.forgotten forgets (fun other => ?_) (fun other differs bit => ?_)
    (fun path member => ?_) (fun other some => ?_) (fun path member => ?_) fun path member => ?_
  · rw [readinessOf]
    by_cases same : other = workspace
    · rw [if_pos same]
      simp [same, Readiness.none]
    · rw [if_neg same]
      simp [same]
  · rw [readinessOf, if_neg differs]
    exact bit
  · rw [manifests] at member
    exact (TextSet.mem_remove.mp member).1
  · rw [readinessOf] at some
    by_cases same : other = workspace
    · rw [if_pos same] at some
      exact absurd rfl some
    · rw [if_neg same] at some
      exact still same (sound.ready other some)
  · rw [artifacts] at member
    obtain ⟨present, other⟩ := TextSet.mem_remove.mp member
    obtain ⟨watches, same⟩ := sound.ofArtifact present
    refine ⟨present, still (fun equal => other ?_) watches⟩
    rw [← same, equal]
  · rw [missing] at member
    rw [artifacts]
    obtain ⟨present, other⟩ := TextSet.mem_remove.mp member
    exact TextSet.mem_remove.mpr ⟨sound.missing path present, other⟩

end Sound

/-! ### Settled workspaces -/

theorem settled_of_unnamed (unnamed : registry.findName workspace = none) :
    registry.Settled workspace := by
  intro name named
  rw [unnamed] at named
  cases named

theorem Settled.of_same {after : Registry} (settled : registry.Settled workspace)
    (names : after.findName workspace = registry.findName workspace)
    (dependencies : after.dependencies = registry.dependencies) : after.Settled workspace := by
  intro name named
  rw [dependencies]
  exact settled name (names ▸ named)

theorem Settled.setDependencies (settled : registry.Settled workspace) (name : String)
    (dependencies : List String) : (registry.setDependencies name dependencies).Settled workspace := by
  intro other named
  unfold Registry.setDependencies
  rw [Table.get?_set]
  split
  · rfl
  · exact settled other named

theorem settled_setDependencies {name : String} (named : registry.findName workspace = some name)
    (dependencies : List String) : (registry.setDependencies name dependencies).Settled workspace := by
  intro other otherNamed
  have same : registry.findName workspace = some other := otherNamed
  rw [named] at same
  unfold Registry.setDependencies
  rw [Table.get?_set, if_pos (Option.some.inj same).symm]
  rfl

theorem Settled.forgets {path : String} {after : Registry} (sound : Sound project registry)
    (settled : registry.Settled workspace) (forgets : Forgets path registry after) :
    after.Settled workspace := by
  intro name named
  rw [forgets.findName] at named
  by_cases same : workspace = path
  · rw [if_pos same] at named
    cases named
  · rw [if_neg same] at named
    rw [forgets.dependencies, if_neg fun own => same (sound.one_workspace named own)]
    exact settled name named

theorem Settled.renames {path old new : String} {after : Registry} (sound : Sound project registry)
    (settled : registry.Settled workspace) (renames : Renames path old new registry after) :
    after.Settled workspace := by
  intro name named
  rw [renames.dependencies]
  by_cases isNew : name = new
  · rw [if_pos isNew]
    rfl
  · rw [if_neg isNew]
    rw [renames.findName] at named
    by_cases same : workspace = path
    · rw [if_pos same] at named
      exact absurd (Option.some.inj named).symm isNew
    · rw [if_neg same] at named
      have notOld : name ≠ old := by
        rintro rfl
        exact same (sound.one_workspace named renames.findOld)
      rw [if_neg notOld, Option.isSome_map]
      exact settled name named

end Registry
end RefSync
