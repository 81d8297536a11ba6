/-
Loading a workspace manifest. It decides about the name of that workspace alone. A manifest
that is yielded has the workspace's name, and then it is for the caller to make its
dependencies known; otherwise the workspace is left without a name.
-/

import RefSync.Proofs.Watch.Workspaces

namespace RefSync

open Routine Path

namespace Watch

/-- What a workspace manifest that was read may have made of the engine. -/
structure Loads (project : Project) (workspace : String) (before : Engine)
    (result : Option Manifest) (after : Engine) : Prop where
  sound : after.registry.Sound project
  findName other : other ≠ workspace →
    after.registry.findName other = before.registry.findName other
  settled other : other ≠ workspace →
    before.registry.Settled other → after.registry.Settled other
  readinessOf other : other ≠ workspace →
    after.registry.readinessOf other = before.registry.readinessOf other
  manifests : after.registry.manifests = before.registry.manifests
  artifacts : after.registry.artifacts = before.registry.artifacts
  missing : after.registry.missingArtifacts = before.registry.missingArtifacts
  dependencies : before.registry.findName workspace = none →
    after.registry.dependencies = before.registry.dependencies
  active : after.active = before.active
  generation : after.generation = before.generation
  idle : before.registry = .empty → after.registry = .empty
  unnamed : result = none → after.registry.findName workspace = none
  named manifest : result = some manifest →
    ∃ name, manifest.name = some name ∧ after.registry.findName workspace = some name

variable {project : Project} {workspace : String}

theorem unregister_eq {registry : Registry} (watched : isWatched registry workspace = true)
    (lost : Readiness) :
    unregister registry workspace lost = (registry.dropReadiness workspace lost).forgotten workspace := by
  unfold unregister Registry.forgotten
  rw [watched]
  rcases (registry.dropReadiness workspace lost).forgetName workspace with ⟨registry, name | name⟩ <;>
    rfl

theorem unregister_of_unwatched {registry : Registry} (unwatched : isWatched registry workspace = false)
    (lost : Readiness) : unregister registry workspace lost = registry := by
  rw [unregister, unwatched]
  rfl

theorem forgets_unregister {registry : Registry} (watched : isWatched registry workspace = true)
    (lost : Readiness) :
    Registry.Forgets workspace registry (unregister registry workspace lost) := by
  rw [unregister_eq watched]
  obtain ⟨findName, findPath, dependencies, once⟩ :=
    Registry.forgets_forgotten (registry.dropReadiness workspace lost) workspace
  exact ⟨findName, findPath, dependencies, once⟩

theorem readinessOf_unregister {registry : Registry} (watched : isWatched registry workspace = true)
    (lost : Readiness) (other : String) :
    (unregister registry workspace lost).readinessOf other
      = if other = workspace then (registry.readinessOf workspace).drop lost
        else registry.readinessOf other := by
  rw [unregister_eq watched, ← Registry.readinessOf_dropReadiness, Registry.forgotten_others]
  rfl

/-- Only watched workspaces have names. -/
theorem unnamed_of_unwatched {registry : Registry} (sound : registry.Sound project)
    (unwatched : isWatched registry workspace = false) : registry.findName workspace = none := by
  cases named : registry.findName workspace with
  | none => rfl
  | some name =>
      have watches := sound.watches_of_named named
      rw [isWatched, List.contains_iff_mem.mpr watches.2] at unwatched
      cases unwatched

theorem findName_unregister (registry : Registry) (lost : Readiness) {other : String}
    (differs : other ≠ workspace) :
    (unregister registry workspace lost).findName other = registry.findName other := by
  cases watched : isWatched registry workspace with
  | false => rw [unregister_of_unwatched watched]
  | true => exact ((forgets_unregister watched lost).findName other).trans (if_neg differs)

theorem unnamed_unregister {registry : Registry} (sound : registry.Sound project) (lost : Readiness) :
    (unregister registry workspace lost).findName workspace = none := by
  cases watched : isWatched registry workspace with
  | false =>
      rw [unregister_of_unwatched watched]
      exact unnamed_of_unwatched sound watched
  | true => exact ((forgets_unregister watched lost).findName workspace).trans (if_pos rfl)

theorem unregister_others (registry : Registry) (workspace : String) (lost : Readiness) :
    (unregister registry workspace lost).manifests = registry.manifests
      ∧ (unregister registry workspace lost).artifacts = registry.artifacts
      ∧ (unregister registry workspace lost).missingArtifacts = registry.missingArtifacts := by
  cases watched : isWatched registry workspace with
  | false =>
      rw [unregister_of_unwatched watched]
      exact ⟨rfl, rfl, rfl⟩
  | true =>
      rw [unregister_eq watched, Registry.forgotten_others]
      exact ⟨rfl, rfl, rfl⟩

theorem sound_unregister {registry : Registry} (sound : registry.Sound project) {lost : Readiness}
    (name : lost.name = true) : (unregister registry workspace lost).Sound project := by
  obtain ⟨manifests, artifacts, missing⟩ := unregister_others registry workspace lost
  have still {other : String} (watches : registry.Watches other) :
      (unregister registry workspace lost).Watches other :=
    ⟨watches.1, manifests ▸ watches.2⟩
  cases watched : isWatched registry workspace with
  | false =>
      rw [unregister_of_unwatched watched]
      exact sound
  | true =>
      refine sound.forgotten (forgets_unregister watched lost) (fun other => ?_)
        (fun other differs bit => ?_) (fun path member => manifests ▸ member)
        (fun other some => still (sound.ready other fun none => some ?_))
        (fun path member => ?_) fun path member => ?_
      · rw [readinessOf_unregister watched]
        by_cases same : other = workspace
        · rw [if_pos same, Readiness.drop, name]
          simp [same]
        · rw [if_neg same]
          simp [same]
      · rw [readinessOf_unregister watched, if_neg differs]
        exact bit
      · rw [readinessOf_unregister watched]
        by_cases same : other = workspace
        · rw [if_pos same, ← same, none]
          rfl
        · rw [if_neg same, none]
      · rw [artifacts] at member
        exact ⟨member, still (sound.ofArtifact member).1⟩
      · rw [artifacts]
        exact sound.missing path (missing ▸ member)

/-- Losing its name, a workspace loses what is known under it. -/
theorem loads_unregister (engine : Engine) (lost : Readiness)
    (sound : engine.registry.Sound project) (stem : IsStem workspace) (name : lost.name = true) :
    Loads project workspace engine none
      { engine with registry := unregister engine.registry workspace lost } := by
  obtain ⟨manifests, artifacts, missing⟩ := unregister_others engine.registry workspace lost
  cases watched : isWatched engine.registry workspace with
  | false =>
      have unnamed := unnamed_of_unwatched sound watched
      rw [unregister_of_unwatched watched]
      exact ⟨sound, fun _ _ => rfl, fun _ _ => id, fun _ _ => rfl, rfl, rfl, rfl, fun _ => rfl, rfl, rfl,
        id, fun _ => unnamed, nofun⟩
  | true =>
      have forgets := forgets_unregister watched lost
      refine ⟨sound_unregister sound name, fun other differs => ?_, fun other _ settled => ?_,
        fun other differs => ?_, manifests, artifacts, missing, fun unnamed => ?_, rfl, rfl,
        fun empty => ?_, fun _ => ?_, nofun⟩
      · exact (forgets.findName other).trans (if_neg differs)
      · exact settled.forgets sound forgets
      · exact (readinessOf_unregister watched lost other).trans (if_neg differs)
      · have still : (engine.registry.dropReadiness workspace lost).findName workspace = none :=
          unnamed
        change (unregister engine.registry workspace lost).dependencies = _
        rw [unregister_eq watched, Registry.forgotten_of_unnamed still]
        rfl
      · exact absurd empty (ne_empty_of_watches (watches_of_isWatched stem watched))
      · exact (forgets.findName workspace).trans (if_pos rfl)

/-- Without its manifest a workspace has no manifest. -/
theorem manifest_unregister {registry : Registry} (sound : registry.Sound project)
    {lost : Readiness} (manifest : lost.manifest = true) :
    ((unregister registry workspace lost).readinessOf workspace).manifest = false := by
  cases watched : isWatched registry workspace with
  | true =>
      rw [readinessOf_unregister watched, if_pos rfl, Readiness.drop, manifest]
      exact Bool.and_false _
  | false =>
      rw [unregister_of_unwatched watched]
      by_contra some
      have watches := sound.ready workspace fun none => some (by rw [none]; rfl)
      rw [isWatched, List.contains_iff_mem.mpr watches.2] at watched
      cases watched

/-- Logging, and being ready as far as the manifest goes, says nothing about the name. -/
theorem Loads.of_change {engine between after : Engine} {result : Option Manifest}
    (loads : Loads project workspace between result after)
    (findName : ∀ other, other ≠ workspace →
      between.registry.findName other = engine.registry.findName other)
    (settled : ∀ other, other ≠ workspace →
      engine.registry.Settled other → between.registry.Settled other)
    (readinessOf : ∀ other, other ≠ workspace →
      between.registry.readinessOf other = engine.registry.readinessOf other)
    (manifests : between.registry.manifests = engine.registry.manifests)
    (artifacts : between.registry.artifacts = engine.registry.artifacts)
    (missing : between.registry.missingArtifacts = engine.registry.missingArtifacts)
    (own : between.registry.findName workspace = engine.registry.findName workspace)
    (dependencies : between.registry.dependencies = engine.registry.dependencies)
    (active : between.active = engine.active) (generation : between.generation = engine.generation)
    (some : engine.registry ≠ .empty ∨ between.registry = engine.registry) :
    Loads project workspace engine result after where
  sound := loads.sound
  findName other differs := (loads.findName other differs).trans (findName other differs)
  settled other differs before := loads.settled other differs (settled other differs before)
  readinessOf other differs := (loads.readinessOf other differs).trans (readinessOf other differs)
  manifests := loads.manifests.trans manifests
  artifacts := loads.artifacts.trans artifacts
  missing := loads.missing.trans missing
  dependencies unnamed := (loads.dependencies (own.trans unnamed)).trans dependencies
  active := loads.active.trans active
  generation := loads.generation.trans generation
  idle empty := loads.idle ((some.resolve_left fun filled => filled empty).trans empty)
  unnamed := loads.unnamed
  named := loads.named

theorem Loads.of_ready {engine after : Engine} {result : Option Manifest}
    (watches : engine.registry.Watches workspace)
    (loads : Loads project workspace
      { engine with registry := engine.registry.addReadiness workspace .onlyManifest } result after) :
    Loads project workspace engine result after :=
  loads.of_change (fun _ _ => rfl) (fun _ _ => id)
    (fun _ differs => (Registry.readinessOf_addReadiness ..).trans (if_neg differs))
    rfl rfl rfl rfl rfl rfl rfl (Or.inl (ne_empty_of_watches watches))

theorem manifest_addReadiness {registry : Registry} :
    ((registry.addReadiness workspace .onlyManifest).readinessOf workspace).manifest = true := by
  rw [Registry.readinessOf_addReadiness, if_pos rfl, Readiness.add]
  exact Bool.or_true _

section

variable {ε : Type} {answer : Answering ε} {others own : Conduct ε} {start now : Engine × ε}

theorem meets_withoutName {message : String} (lost : Readiness) (name : lost.name = true)
    (sound : now.1.registry.Sound project) (stem : IsStem workspace)
    {ending : Ending (Option Manifest) ε}
    (ends : ∀ after, Loads project workspace now.1 none after →
      (lost.manifest = true → (after.registry.readinessOf workspace).manifest = false) →
      ending (.ok none) start (after, now.2)) :
    Meets answer
      (do
        log .warning message
        modifyRegistry (unregister · workspace lost)
        return none) others own start now ending := by
  rw [meets_log, meets_modifyRegistry]
  refine ends _ ?_ (manifest_unregister sound)
  have loads := loads_unregister { now.1 with log := now.1.log ++ [⟨.warning, message⟩] } lost
    sound stem name
  exact loads.of_change (fun _ _ => rfl) (fun _ _ => id) (fun _ _ => rfl) rfl rfl rfl rfl rfl rfl rfl
    (Or.inr rfl)

/-- The first name of a workspace, or the one it has. -/
theorem loads_register (engine : Engine) (sound : engine.registry.Sound project)
    (watches : engine.registry.Watches workspace)
    (manifestBit : (engine.registry.readinessOf workspace).manifest = true)
    {manifest : Manifest} {name : String} (given : manifest.name = some name)
    (keeps : engine.registry.findName workspace = none
      ∨ engine.registry.findName workspace = some name)
    {assigned : Registry} {previous : Option String}
    (set : engine.registry.setName workspace name = .ok (assigned, previous)) :
    Loads project workspace engine (some manifest)
      { engine with registry := assigned.addReadiness workspace .onlyName } := by
  obtain ⟨gives, _, _⟩ := Registry.setName_eq_ok set
  have dependencies : assigned.dependencies = engine.registry.dependencies := by rw [gives.others]
  have elsewhere (other : String) (differs : other ≠ workspace) :
      assigned.findName other = engine.registry.findName other :=
    (gives.findName other).trans (if_neg differs)
  have named : assigned.findName workspace = some name :=
    (gives.findName workspace).trans (if_pos rfl)
  refine ⟨sound.register watches manifestBit keeps set, elsewhere, fun other differs settled => ?_,
    fun other differs => ?_, ?_, ?_, ?_, fun _ => dependencies, rfl, rfl,
    fun empty => absurd empty (ne_empty_of_watches watches), nofun, ?_⟩
  · exact settled.of_same (elsewhere other differs) dependencies
  · have same : assigned.readinessOf other = engine.registry.readinessOf other := by
      rw [gives.others]
      rfl
    exact (Registry.readinessOf_addReadiness ..).trans ((if_neg differs).trans same)
  · change assigned.manifests = _
    rw [gives.others]
  · change assigned.artifacts = _
    rw [gives.others]
  · change assigned.missingArtifacts = _
    rw [gives.others]
  · rintro _ ⟨rfl⟩
    exact ⟨name, given, named⟩

private theorem meets_registerName {name : String}
    (keeps : now.1.registry.findName workspace = none
      ∨ now.1.registry.findName workspace = some name) (ending : Ending (Except RegistryFault Unit) ε) :
    Meets answer (registerName project workspace name) others own start now ending
      ↔ Meets answer (assignName now.1.registry workspace name) others own start now ending := by
  unfold registerName
  rw [meets_registry]
  rcases keeps with unnamed | named
  · rw [unnamed]
  · rw [named]
    dsimp only
    rw [if_pos rfl]

private theorem meets_confirmName {name : String} {manifest : Manifest}
    (named : now.1.registry.findName workspace = some name) {ending : Ending (Option Manifest) ε}
    (ends : ending (.ok (some manifest)) start
      ({ now.1 with registry := now.1.registry.addReadiness workspace .onlyName }, now.2)) :
    Meets answer (confirmName workspace name manifest) others own start now ending := by
  unfold confirmName
  rw [meets_registry, if_pos named, meets_modifyRegistry]
  exact ends

/-- A workspace whose name does not change is through with its manifest at once. A watched one is
refused a name only if another one has it. -/
theorem meets_registerManifest (sound : now.1.registry.Sound project) (stem : IsStem workspace)
    {manifest : Manifest}
    (keeps : ∀ name previous, manifest.name = some name →
      now.1.registry.findName workspace = some previous → previous = name)
    {ending : Ending (Option Manifest) ε}
    (ends : ∀ result after, Loads project workspace now.1 result after →
      (∀ read, result = some read → read = manifest) →
      (result = none → isWatched now.1.registry workspace = true → ∀ name, manifest.name = some name →
        ∃ holder, now.1.registry.findPath name = some holder ∧ holder ≠ workspace) →
      ending (.ok result) start (after, now.2)) :
    Meets answer (registerManifest project workspace manifest) others own start now ending := by
  unfold registerManifest
  rw [meets_registry]
  cases watched : isWatched now.1.registry workspace with
  | false =>
      rw [if_neg (by simp)]
      have loads := loads_unregister now.1 .onlyName sound stem rfl
      rw [unregister_of_unwatched watched] at loads
      refine ends none now.1 loads (fun _ impossible => by cases impossible) fun _ isWatched => ?_
      rw [watched] at isWatched
      cases isWatched
  | true =>
      rw [if_pos rfl, meets_modifyRegistry]
      have watches := watches_of_isWatched stem watched
      have ready := sound.addReadiness watches .onlyManifest fun impossible => by cases impossible
      cases given : manifest.name with
      | none =>
          dsimp only
          refine meets_withoutName .onlyName rfl ready stem fun after loads _ => ?_
          refine ends none after (loads.of_ready watches) (fun _ impossible => by cases impossible)
            fun _ _ name named => ?_
          rw [given] at named
          cases named
      | some name =>
          dsimp only
          have kept : now.1.registry.findName workspace = none
              ∨ now.1.registry.findName workspace = some name := by
            cases named : now.1.registry.findName workspace with
            | none => exact Or.inl rfl
            | some previous => exact Or.inr (congrArg some (keeps name previous given named))
          refine (meets_bind (registerName project workspace name) _ _).mpr ?_
          refine (meets_registerName ?_ _).mpr ?_
          · exact kept
          unfold assignName
          dsimp only
          cases set : (now.1.registry.addReadiness workspace .onlyManifest).setName workspace name with
          | error fault =>
              obtain ⟨holder, rfl, held⟩ := Registry.setName_eq_error set
              refine meets_withoutName .onlyName rfl ready stem fun after loads _ =>
                ends none after (loads.of_ready watches) (fun _ impossible => by cases impossible)
                  fun _ _ asked same => ⟨holder, ?_⟩
              rw [given] at same
              cases same
              exact held
          | ok result =>
              obtain ⟨assigned, previous⟩ := result
              have loads := loads_register { now.1 with
                registry := now.1.registry.addReadiness workspace .onlyManifest } ready watches
                manifest_addReadiness given kept set
              have named : assigned.findName workspace = some name := by
                exact ((Registry.setName_eq_ok set).1.findName workspace).trans (if_pos rfl)
              dsimp only
              rw [meets_modifyRegistry, meets_pure]
              refine meets_confirmName named ?_
              exact ends (some manifest) _ (loads.of_ready watches) (fun _ same => (Option.some.inj same).symm)
                fun impossible => by cases impossible

end

end Watch
end RefSync
