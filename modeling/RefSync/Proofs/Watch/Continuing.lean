/-
What goes on while all workspaces keep their names. The engine loses nothing that it has of them, and
it writes the root config, configs of workspaces and manifests of workspaces with names. Those that
are brought up end with a config and with their artifact watched.
-/

import RefSync.Proofs.Watch.Heeding
import RefSync.Proofs.Watch.Provisions

namespace RefSync

open Routine Path Update

namespace Disk

variable {within wider : String → Prop} {before between after : Disk}

/-- Whether only certain documents were written, as far as routines tried to. -/
def Writes (within : String → Prop) (before after : Disk) : Prop :=
  ∃ more, after.written = before.written ++ more ∧ ∀ path ∈ more, within path

theorem writes_of_same (within : String → Prop) (same : after.written = before.written) :
    Writes within before after :=
  ⟨[], same.trans (List.append_nil _).symm, List.forall_mem_nil _⟩

theorem Writes.trans (first : Writes within before between) (second : Writes within between after) :
    Writes within before after := by
  obtain ⟨some, wroteSome, some_within⟩ := first
  obtain ⟨more, wroteMore, more_within⟩ := second
  refine ⟨some ++ more, ?_, fun path member => ?_⟩
  · rw [wroteMore, wroteSome, List.append_assoc]
  · exact (List.mem_append.mp member).elim (some_within path) (more_within path)

theorem Writes.weaken (writes : Writes within before after)
    (implies : ∀ path, within path → wider path) : Writes wider before after :=
  writes.imp fun _ ⟨wrote, inside⟩ => ⟨wrote, fun path member => implies path (inside path member)⟩

theorem writes_write {path : String} (own : within path) (disk : Disk) (document : Document) :
    Writes within disk (disk.write path document).2 := by
  refine ⟨[path], ?_, fun other member => ?_⟩
  · rw [(puts_write disk path document).2]
  · rwa [List.mem_singleton.mp member]

end Disk

namespace Watch

attribute [local irreducible] Disk.write

variable {project : Project} {options : SyncOptions} {within : String → Prop}
  {now later : Engine × Disk} {workspace path : String}

/-! ### What is lost and what is written -/

/-- Whether nothing was lost of the workspaces, and only certain documents were written. -/
structure Continues (within : String → Prop) (before after : Engine × Disk) : Prop where
  grows : Grows before.1 after.1
  active : after.1.active = before.1.active
  writes : before.2.Writes within after.2

def continuing (within : String → Prop) : Conduct Disk where
  allows := Continues within
  refl state := ⟨.refl state.1, rfl, Disk.writes_of_same within rfl⟩
  trans first second := ⟨first.grows.trans second.grows, second.active.trans first.active,
    first.writes.trans second.writes⟩

theorem Grows.continues {engine : Engine} (grows : Grows now.1 engine)
    (active : engine.active = now.1.active) : Continues within now (engine, now.2) :=
  ⟨grows, active, Disk.writes_of_same within rfl⟩

theorem continues_write (own : within path) (now : Engine × Disk) (document : Document) :
    Continues within now (now.1, (now.2.write path document).2) :=
  ⟨.refl now.1, rfl, Disk.writes_write own now.2 document⟩

/-- What has to do with names, configs and watched artifacts at most lasts. -/
theorem endures_growing {holds : Engine → Prop}
    (lasts : ∀ before after : Engine, Grows before after → holds before → holds after) :
    Endures (continuing within) fun state => holds state.1 :=
  fun _ _ allowed => lasts _ _ allowed.grows

/-- Whether the manifests of all workspaces with names are among certain documents. -/
def Covers (within : String → Prop) (engine : Engine) : Prop :=
  ∀ workspace, (engine.registry.findName workspace).isSome → within (Workspace.manifestPath workspace)

theorem Covers.grows {before after : Engine} (covers : Covers within before)
    (grows : Grows before after) : Covers within after :=
  fun workspace named => covers workspace (grows.names workspace ▸ named)

section

variable {pre : Engine × Disk → Prop} (endures : Endures (continuing within) pre)

include endures

theorem permits_continuing : Permits project (fun _ => True) (continuing within) (fun _ => True) pre where
  endures := endures
  notes state _ _ same active generation :=
    (grows_same state.1 same generation).continues active
  faults _ _ _ _ := trivial

omit endures in
theorem permitsConfig_continuing (own : within path) :
    PermitsConfig (fun _ => True) (continuing within) pre path :=
  ⟨trivial, fun _ _ updated now _ _ _ _ => continues_write own now updated⟩

omit endures in
theorem permitsManifest_continuing (own : within path) (change : Document → Option Document) :
    PermitsManifest (fun _ => True) (continuing within) pre path change :=
  ⟨trivial, fun _ _ updated now _ _ _ _ => continues_write own now updated⟩

omit endures in
theorem permitsArtifact_continuing (covers : ∀ state, pre state → Covers within state.1)
    (own : within (Workspace.configPath workspace)) :
    PermitsArtifact (fun _ => True) (continuing within) (fun _ => True) pre options workspace where
  config := permitsConfig_continuing own
  manifest state name _ _ _ holds named _ _ _ :=
    permitsManifest_continuing (covers state holds workspace (by rw [named]; rfl)) _
  learns state name discovered _ _ _ := (grows_setDependencies state.1 name discovered).continues rfl
  marks _ _ _ _ _ := Grows.continues ⟨fun _ => rfl, rfl, fun _ => id, fun _ => id, rfl⟩ rfl
  pauses state _ _ := ⟨.refl state.1, rfl, Disk.writes_of_same within rfl⟩
  endless _ _ _ := trivial

theorem abides_bootstrap_continuing (project : Project)
    (own : within (Workspace.configPath workspace)) :
    Abides Disk.alone (continuing within) (fun _ => True) pre (bootstrapConfig workspace)
      fun _ state => pre state ∧ (Workspace.manifestPath workspace ∈ state.1.registry.manifests →
        (state.1.registry.readinessOf workspace).config = true) := by
  have permits : Permits project (fun _ => True) (continuing within) (fun _ => True) pre :=
    permits_continuing endures
  apply abides_bootstrapped (abides_configure permits (permitsConfig_continuing own) trivial false)
  intro state holds _
  have allowed : (continuing within).allows state ({ state.1 with
      registry := state.1.registry.addReadiness workspace .onlyConfig }, state.2) :=
    (grows_addConfig state.1 workspace).continues rfl
  exact ⟨allowed, endures _ _ allowed holds⟩

theorem abides_watch_continuing (stem : IsStem workspace)
    (covers : ∀ state, pre state → Covers within state.1)
    (own : within (Workspace.configPath workspace)) :
    Abides Disk.alone (continuing within) (fun _ => True) pre
      (watchArtifact project options workspace) fun _ state => pre state
        ∧ (Workspace.manifestPath workspace ∈ state.1.registry.manifests →
          Workspace.artifactPath workspace ∈ state.1.registry.artifacts) := by
  have artifact : PermitsArtifact (fun _ => True) (continuing within) (fun _ => True) pre options
      workspace := permitsArtifact_continuing covers own
  rw [← Workspace.ofArtifact_artifactPath stem] at artifact
  apply abides_watched (permits_continuing endures) trivial artifact
  · exact fun state _ _ => (grows_watchArtifact state.1 _).continues rfl
  · rintro before after allowed ⟨holds, watched⟩
    refine ⟨endures _ _ allowed holds, fun inManifests => allowed.grows.artifacts _ (watched ?_)⟩
    rwa [← allowed.grows.manifests]

/-- Workspaces that are brought up have their configs and their artifacts watched from then on. -/
theorem abides_bringUp_continuing {workspaces : List String} {generation : Nat}
    (stem : ∀ workspace ∈ workspaces, IsStem workspace)
    (covers : ∀ state, pre state → Covers within state.1)
    (current : ∀ state, pre state → isCurrent state.1 generation = true) (root : within configFile)
    (own : ∀ workspace ∈ workspaces.filter (now.1.registry.hasReadiness · .onlyManifest),
      within (Workspace.configPath workspace)) (holds : pre now) :
    Abides Disk.alone (continuing within) (fun _ => True) (· = now)
      (bringUp project options workspaces generation) fun _ state => pre state
        ∧ ∀ workspace ∈ workspaces.filter (now.1.registry.hasReadiness · .onlyManifest),
          Workspace.manifestPath workspace ∈ state.1.registry.manifests →
          (state.1.registry.readinessOf workspace).config = true
            ∧ Workspace.artifactPath workspace ∈ state.1.registry.artifacts := by
  let present := workspaces.filter (now.1.registry.hasReadiness · .onlyManifest)
  have permits : Permits project (fun _ => True) (continuing within) (fun _ => True) pre :=
    permits_continuing endures
  have presentStem (workspace : String) (member : workspace ∈ present) : IsStem workspace :=
    stem workspace (List.mem_filter.mp member).1
  have lasting (some : Registry → String → Prop)
      (grows : ∀ before after : Engine, Grows before after → ∀ workspace,
        some before.registry workspace → some after.registry workspace) (workspace : String) :
      Endures (continuing within) fun state => pre state
        ∧ (Workspace.manifestPath workspace ∈ state.1.registry.manifests →
          some state.1.registry workspace) := by
    rintro before after allowed ⟨holds, held⟩
    refine ⟨endures _ _ allowed holds, fun watched => grows _ _ allowed.grows workspace (held ?_)⟩
    rwa [← allowed.grows.manifests]
  -- What every member of the first group has got lasts while the others go on.
  let configured (state : Engine × Disk) : Prop := pre state ∧ ∀ workspace ∈ present,
    Workspace.manifestPath workspace ∈ state.1.registry.manifests →
    (state.1.registry.readinessOf workspace).config = true
  have lastsConfigured : Endures (continuing within) configured := by
    rintro before after allowed ⟨holds, configs⟩
    refine ⟨endures _ _ allowed holds, fun workspace member watched => ?_⟩
    apply allowed.grows.configs
    apply configs workspace member
    rwa [← allowed.grows.manifests]
  have configures : Abides Disk.alone (continuing within) (fun _ => True) pre
      (forAll present bootstrapConfig) fun _ => configured :=
    (abides_all endures (lasting (fun registry workspace =>
      (registry.readinessOf workspace).config = true) fun _ _ grows => grows.configs)
      fun workspace member => abides_bootstrap_continuing endures project (own workspace member)).weaken
        fun _ _ ⟨holds, ends⟩ => ⟨holds, fun workspace member => (ends workspace member).2⟩
  have watches : Abides Disk.alone (continuing within) (fun _ => True) configured
      (forAll present (watchArtifact project options)) fun _ state => configured state
        ∧ ∀ workspace ∈ present, pre state
          ∧ (Workspace.manifestPath workspace ∈ state.1.registry.manifests →
            Workspace.artifactPath workspace ∈ state.1.registry.artifacts) :=
    abides_all lastsConfigured (lasting (fun registry workspace =>
      Workspace.artifactPath workspace ∈ registry.artifacts) fun _ _ grows _ => grows.artifacts _)
      fun workspace member => (abides_watch_continuing endures (presentStem workspace member) covers
        (own workspace member)).strengthen fun _ held => held.1
  apply abides_registry
  rintro _ rfl
  refine Abides.strengthen (configures.bind _ fun _ => ?_) fun _ same => same ▸ holds
  apply Abides.bind (fun _ => configured)
  · exact abides_configureRoot (permits_continuing lastsConfigured) (permitsConfig_continuing root)
  · intro _
    apply abides_engine
    intro state held
    rw [current state held.1]
    refine Abides.strengthen (watches.bind _ fun _ => ?_) fun _ same => same ▸ held
    apply abides_pure
    rintro after ⟨⟨holds, configs⟩, artifacts⟩
    exact ⟨holds, fun workspace member watched =>
      ⟨configs workspace member watched, (artifacts workspace member).2 watched⟩⟩

/-- A workspace whose manifest gave it a name has a config and its artifact watched from then on. -/
theorem abides_manifestLoaded_continuing (stem : IsStem workspace) {readyBefore : Bool}
    {manifest : Manifest} (watched : ∀ state, pre state →
      Workspace.manifestPath workspace ∈ state.1.registry.manifests)
    (covers : ∀ state, pre state → Covers within state.1) (root : within configFile)
    (own : within (Workspace.configPath workspace)) :
    Abides Disk.alone (continuing within) (fun _ => True) pre
      (manifestLoaded project options workspace readyBefore manifest) fun _ state => pre state
        ∧ (state.1.registry.readinessOf workspace).config = true
        ∧ Workspace.artifactPath workspace ∈ state.1.registry.artifacts := by
  let configured (state : Engine × Disk) : Prop := pre state
    ∧ (state.1.registry.readinessOf workspace).config = true
  have lastsConfigured : Endures (continuing within) configured :=
    endures_and endures (endures_growing fun _ _ grows => grows.configs workspace)
  have registers : Abides Disk.alone (continuing within) (fun _ => True) pre
      (registerDependencies manifest) fun _ => pre := by
    unfold registerDependencies
    split
    · rename_i name _
      apply abides_modify
      intro state holds
      have allowed : (continuing within).allows state ({ state.1 with
          registry := state.1.registry.setDependencies name
            (manifest.workspaceDependencies state.1.registry.allNames) }, state.2) :=
        (grows_setDependencies ..).continues rfl
      exact ⟨allowed, endures _ _ allowed holds⟩
    · exact abides_pure fun _ => id
  refine registers.bind _ fun _ => ?_
  apply abides_registry
  intro state holds
  apply Abides.bind (fun _ => configured)
  · apply abides_onlyIf
    · intro _
      refine ((abides_bootstrap_continuing endures project own).weaken ?_).strengthen
        fun _ same => same ▸ holds
      exact fun _ later ⟨held, config⟩ => ⟨held, config (watched later held)⟩
    · rintro _ has rfl
      rw [Bool.not_eq_false', Registry.hasReadiness_config] at has
      exact ⟨holds, has⟩
  intro _
  apply abides_anyRegistry
  intro _
  have permits : Permits project (fun _ => True) (continuing within) (fun _ => True) configured :=
    permits_continuing lastsConfigured
  apply Abides.bind (fun _ => configured)
  · exact abides_whenever (abides_configureRoot permits (permitsConfig_continuing root))
  · intro _
    apply (abides_watch_continuing lastsConfigured stem (fun _ held => covers _ held.1) own).weaken
    exact fun _ later ⟨held, artifact⟩ => ⟨held.1, held.2, artifact (watched later held.1)⟩

end

end Watch
end RefSync
