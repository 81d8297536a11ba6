/-
Who has which name once the manifest of a workspace was read, with nobody else at work. It is
a matter of that workspace alone: it ends up with the name that its manifest gives it, or with
none, and where it is refused a name another workspace has it.
-/

import RefSync.Proofs.Update.Permitted
import RefSync.Proofs.Watch.Adding
import RefSync.Proofs.Watch.Registering

namespace RefSync

open Routine Path Update

namespace Watch

/-! ### Routines that leave the registry alone -/

/-- What an engine is like that has taken notes at most. -/
structure Unmoved (engine : Engine) (state : Engine × Disk) : Prop where
  registry : state.1.registry = engine.registry
  active : state.1.active = engine.active
  generation : state.1.generation = engine.generation

section

variable {project : Project} {engine : Engine}

theorem permits_unmoved : Permits project (fun _ => True) (.preserving (Unmoved engine))
    (fun _ => True) (Unmoved engine) where
  endures _ _ kept := kept
  notes _ _ _ registry active generation unmoved :=
    ⟨registry.trans unmoved.registry, active.trans unmoved.active,
      generation.trans unmoved.generation⟩
  faults _ _ _ _ := trivial

theorem permitsConfig_unmoved (path : String) :
    PermitsConfig (fun _ => True) (.preserving (Unmoved engine)) (Unmoved engine) path :=
  ⟨trivial, fun _ _ _ _ _ _ _ _ unmoved => { unmoved with }⟩

theorem permitsManifest_unmoved (path : String) (change : Document → Option Document) :
    PermitsManifest (fun _ => True) (.preserving (Unmoved engine)) (Unmoved engine) path change :=
  ⟨trivial, fun _ _ _ _ _ _ _ _ unmoved => { unmoved with }⟩

end

/-! ### Manifests -/

/-- What reading the manifest of a workspace makes of the names and of what is ready. -/
structure Reread (workspace : String) (now : Engine × Disk) (loaded : Option Manifest)
    (later : Engine × Disk) : Prop where
  manifests : later.1.registry.manifests = now.1.registry.manifests
  artifacts : later.1.registry.artifacts = now.1.registry.artifacts
  active : later.1.active = now.1.active
  generation : later.1.generation = now.1.generation
  names other : other ≠ workspace →
    later.1.registry.findName other = now.1.registry.findName other
  readinessOf other : other ≠ workspace →
    later.1.registry.readinessOf other = now.1.registry.readinessOf other
  config : (later.1.registry.readinessOf workspace).config
    = (now.1.registry.readinessOf workspace).config
  unnamed : loaded = none → later.1.registry.findName workspace = none
  files : loaded = none → later.2 = now.2
  refused name : loaded = none → isWatched now.1.registry workspace = true →
    now.2.Carries workspace name →
    ∃ holder, holder ≠ workspace ∧ later.1.registry.findName holder = some name
  named manifest : loaded = some manifest →
    manifestOf (now.2.read (Workspace.manifestPath workspace)) = .ok manifest
      ∧ ∃ name, manifest.name = some name ∧ later.1.registry.findName workspace = some name

section

variable {project : Project} {workspace : String} {now : Engine × Disk}

/-- A workspace that loses its name. -/
theorem reread_unregister {registry : Registry} {lost : Readiness} (noConfig : lost.config = false)
    (sound : registry.Sound project) (manifests : registry.manifests = now.1.registry.manifests)
    (artifacts : registry.artifacts = now.1.registry.artifacts)
    (names : ∀ other, registry.findName other = now.1.registry.findName other)
    (readinessOf : ∀ other, other ≠ workspace →
      registry.readinessOf other = now.1.registry.readinessOf other)
    (config : (registry.readinessOf workspace).config = (now.1.registry.readinessOf workspace).config)
    (refused : isWatched now.1.registry workspace = true → ∀ name, now.2.Carries workspace name →
      ∃ holder, holder ≠ workspace ∧ now.1.registry.findName holder = some name)
    (log : List LogRecord) :
    Reread workspace now none
      ({ now.1 with registry := unregister registry workspace lost, log := log }, now.2) := by
  have others := unregister_others registry workspace lost
  have kept (other : String) (differs : other ≠ workspace) :
      (unregister registry workspace lost).findName other = now.1.registry.findName other :=
    (findName_unregister registry lost differs).trans (names other)
  refine ⟨others.1.trans manifests, others.2.1.trans artifacts, rfl, rfl, kept, ?_, ?_,
    fun _ => unnamed_unregister sound lost, fun _ => rfl, ?_, nofun⟩
  · intro other differs
    rw [← readinessOf other differs]
    cases watched : isWatched registry workspace with
    | false => rw [unregister_of_unwatched watched]
    | true => exact (readinessOf_unregister watched lost other).trans (if_neg differs)
  · rw [← config]
    cases watched : isWatched registry workspace with
    | false => rw [unregister_of_unwatched watched]
    | true =>
        rw [readinessOf_unregister watched lost, if_pos rfl, Readiness.drop, noConfig]
        exact Bool.and_true _
  · intro name _ watched carries
    obtain ⟨holder, differs, held⟩ := refused watched name carries
    exact ⟨holder, differs, (kept holder differs).trans held⟩

/-- A workspace that has the name that its manifest gives it. -/
theorem reread_named {later : Engine × Disk} {manifest : Manifest} {name : String}
    (read : manifestOf (now.2.read (Workspace.manifestPath workspace)) = .ok manifest)
    (given : manifest.name = some name)
    (manifests : later.1.registry.manifests = now.1.registry.manifests)
    (artifacts : later.1.registry.artifacts = now.1.registry.artifacts)
    (active : later.1.active = now.1.active) (generation : later.1.generation = now.1.generation)
    (findName : ∀ other, later.1.registry.findName other
      = if other = workspace then some name else now.1.registry.findName other)
    (readiness : later.1.registry.readiness
      = (now.1.registry.addReadiness workspace .onlyManifest).readiness) :
    Reread workspace now (some manifest)
      ({ later.1 with registry := later.1.registry.addReadiness workspace .onlyName }, later.2) := by
  have before (other : String) : later.1.registry.readinessOf other
      = (now.1.registry.addReadiness workspace .onlyManifest).readinessOf other := by
    rw [Registry.readinessOf, readiness]
    rfl
  refine ⟨manifests, artifacts, active, generation, fun other differs => ?_, fun other differs => ?_,
    ?_, nofun, nofun, nofun, ?_⟩
  · exact (findName other).trans (if_neg differs)
  · rw [Registry.readinessOf_addReadiness, if_neg differs, before,
      Registry.readinessOf_addReadiness, if_neg differs]
  · rw [Registry.readinessOf_addReadiness, if_pos rfl, before, Registry.readinessOf_addReadiness,
      if_pos rfl]
    exact (Bool.or_false _).trans (Bool.or_false _)
  · rintro _ ⟨rfl⟩
    exact ⟨read, name, given, (findName workspace).trans (if_pos rfl)⟩

/-- A rename is a matter of the registry; carrying it to the dependents leaves the registry alone. -/
theorem leads_renamed {manifest : Manifest} {name previous : String} {renamed : Registry}
    {old : String} (read : manifestOf (now.2.read (Workspace.manifestPath workspace)) = .ok manifest)
    (given : manifest.name = some name)
    (renames : (now.1.registry.addReadiness workspace .onlyManifest).rename workspace name
      = .ok (renamed, old)) (log : List LogRecord) :
    Leads Disk.alone (Update.name project previous name >>= fun _ =>
      confirmName workspace name manifest) ({ now.1 with registry := renamed, log := log }, now.2)
      fun result later => ∀ loaded, result = .ok loaded → Reread workspace now loaded later := by
  have gives := (Registry.rename_eq_ok renames).gives
  have others : renamed = { now.1.registry.addReadiness workspace .onlyManifest with
      names := renamed.names
      paths := renamed.paths
      dependencies := renamed.dependencies } := by
    cases renamed
    cases gives.others
    rfl
  have carries : Leads Disk.alone (Update.name project previous name)
      ({ now.1 with registry := renamed, log := log }, now.2) _ :=
    (abides_name permits_unmoved (fun _ other _ => permitsConfig_unmoved (Workspace.configPath other))
      fun _ other _ => permitsManifest_unmoved (Workspace.manifestPath other) _).leads
        ⟨⟨rfl, rfl, rfl⟩, rfl⟩
  apply carries.bind
  · rintro dependents later ⟨_, unmoved⟩
    have registry : later.1.registry = renamed := unmoved.registry
    have findName (other : String) : later.1.registry.findName other
        = if other = workspace then some name else now.1.registry.findName other := by
      rw [registry]
      exact gives.findName other
    unfold confirmName
    apply leads_registry
    rw [if_pos ((findName workspace).trans (if_pos rfl))]
    apply leads_modifyRegistry
    apply leads_pure
    rintro _ ⟨rfl⟩
    apply reread_named read given
    · rw [registry, others]
      rfl
    · rw [registry, others]
      rfl
    · exact unmoved.active
    · exact unmoved.generation
    · exact findName
    · rw [registry, others]
  · exact fun _ _ _ _ => nofun

/-- What reading a manifest leads to where nothing fails. -/
theorem leads_reread (sound : now.1.registry.Sound project) (stem : IsStem workspace) :
    Leads Disk.alone (loadManifest project workspace) now
      fun result later => ∀ loaded, result = .ok loaded → Reread workspace now loaded later := by
  apply leads_loadManifest
  · exact fun _ _ _ _ _ => nofun
  · rintro fault failed log _ ⟨rfl⟩
    apply reread_unregister rfl sound rfl rfl (fun _ => rfl) (fun _ _ => rfl) rfl
    rintro _ name ⟨manifest, read, _⟩
    rw [failed] at read
    cases read
  · intro manifest read
    apply leads_registerManifest
    · rintro unwatched _ ⟨rfl⟩
      refine ⟨rfl, rfl, rfl, rfl, fun _ _ => rfl, fun _ _ => rfl, rfl,
        fun _ => unnamed_of_unwatched sound unwatched, fun _ => rfl, ?_, nofun⟩
      intro name _ watched
      rw [unwatched] at watched
      cases watched
    · rintro watched taken log _ ⟨rfl⟩
      have watches := watches_of_isWatched stem watched
      apply reread_unregister rfl (sound.addReadiness watches .onlyManifest nofun) rfl rfl
      · exact fun _ => rfl
      · exact fun other differs => (Registry.readinessOf_addReadiness ..).trans (if_neg differs)
      · rw [Registry.readinessOf_addReadiness, if_pos rfl]
        exact Bool.or_false _
      · rintro _ name ⟨other, again, given⟩
        cases read.symm.trans again
        obtain ⟨holder, held, differs⟩ := taken name given
        exact ⟨holder, differs, (sound.inverse holder name).mpr held⟩
    · rintro _ name assigned previous given _ set _ ⟨rfl⟩
      have gives := (Registry.setName_eq_ok set).1
      let between : Engine × Disk := ({ now.1 with registry := assigned }, now.2)
      have manifests : assigned.manifests = now.1.registry.manifests := by
        rw [gives.others]
        rfl
      have artifacts : assigned.artifacts = now.1.registry.artifacts := by
        rw [gives.others]
        rfl
      have readiness : assigned.readiness
          = (now.1.registry.addReadiness workspace .onlyManifest).readiness := by
        rw [gives.others]
      have named : Reread workspace now (some manifest) ({ between.1 with
          registry := between.1.registry.addReadiness workspace .onlyName }, between.2) :=
        reread_named read given manifests artifacts rfl rfl gives.findName readiness
      exact named
    · exact fun _ name _ renamed old given _ _ renames log => leads_renamed read given renames log

end

end Watch
end RefSync
