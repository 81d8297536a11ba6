/-
Handlers of workspaces that cross each other. Each of them is steady, whatever the documents
hold and whichever other steady routines are at work: the name of a workspace and its dependencies
become known in one stage. So does the deletion of the root manifest, after which nothing has a name.
-/

import RefSync.Proofs.Watch.Adding

namespace RefSync

open Routine Path

namespace Routine

section

variable {ε α : Type} {answer : Answering ε} {project : Project} {full : Prop} {pre : Engine → Prop}

theorem Steadily.recover {routine : Routine α} {handler : Failure → Routine α}
    {post : α → Engine → Prop} (steadily : Steadily answer project full pre routine post)
    (handles : ∀ failure, (∀ fault ∈ failure, Harmless full fault) →
      Steadily answer project full (fun _ => True) (handler failure) post) :
    Steadily answer project full pre (routine.recover handler) post := by
  intro start now stage holds
  refine (meets_recover routine handler _).mpr ?_
  refine (steadily start now stage holds).weaken fun result start now ended => ?_
  cases result with
  | ok value => exact ended
  | error failure => exact handles failure ended.2 start now ended.1 trivial

end

end Routine

namespace Watch

section

variable {ε : Type} {answer : Answering ε} {project : Project} {full : Prop}
  {start now : Engine × ε} {workspace : String}

/-! ### The manifest of a workspace -/

/-- A stage in which a workspace got the name that its manifest gives it. Its dependencies are to
come in the same stage. -/
structure NamingStage (project : Project) (full : Prop) (workspace : String) (manifest : Manifest)
    (start now : Engine) : Prop where
  began : start.Orderly project full []
  orderly : now.Orderly project full [workspace]
  settled other : other ≠ workspace → start.registry.Settled other → now.registry.Settled other
  named : ∃ name, manifest.name = some name ∧ now.registry.findName workspace = some name

/-- How the loading of a manifest ends: with the name of the workspace in a stage that is not over,
or without one. -/
def loadEnd (ε : Type) (project : Project) (full : Prop) (workspace : String) :
    Ending (Option Manifest) ε :=
  fun result start now =>
    match result with
    | .ok none => Stage project full start.1 now.1
    | .ok (some manifest) => NamingStage project full workspace manifest start.1 now.1
    | .error failure => Stage project full start.1 now.1 ∧ ∀ fault ∈ failure, Harmless full fault

theorem orderly_adding {engine : Engine} (orderly : engine.Orderly project full [])
    (added : List String) : engine.Orderly project full added :=
  { orderly with settled := fun workspace _ => orderly.settled workspace List.not_mem_nil }

theorem loadEnd_of_loads (now : Engine × ε) {result : Option Manifest} {after : Engine}
    (stage : Stage project full start.1 now.1) (loads : Loads project workspace now.1 result after) :
    loadEnd ε project full workspace (.ok result) start (after, now.2) := by
  have exempt : after.Orderly project full [workspace] :=
    loads.orderly (orderly_adding stage.orderly [workspace]) List.mem_cons_self
  have elsewhere (other : String) (differs : other ≠ workspace)
      (settled : start.1.registry.Settled other) : after.registry.Settled other :=
    loads.settled other differs (stage.settled other settled)
  cases result with
  | some manifest => exact ⟨stage.began, exempt, elsewhere, loads.named manifest rfl⟩
  | none =>
      have own : after.registry.Settled workspace :=
        Registry.settled_of_unnamed (loads.unnamed rfl)
      refine ⟨stage.began, { exempt with settled := fun other _ due => ?_ }, fun other settled => ?_⟩
      · by_cases same : other = workspace
        · exact same ▸ own
        · exact exempt.settled other (fun member => same (List.mem_singleton.mp member)) due
      · by_cases same : other = workspace
        · exact same ▸ own
        · exact elsewhere other same settled

/-- A workspace that still has its name is confirmed, any other one left as it is. -/
theorem meets_confirmName_steady {name : String} {manifest : Manifest}
    (stage : Stage project full start.1 now.1) (given : manifest.name = some name) :
    Meets answer (confirmName workspace name manifest) (steady ε project full)
      (steady ε project full) start now (loadEnd ε project full workspace) := by
  unfold confirmName
  rw [meets_registry]
  by_cases named : now.1.registry.findName workspace = some name
  · rw [if_pos named, meets_modifyRegistry]
    have watches := stage.orderly.sound.watches_of_named named
    have confirmed := stage.lift
      (stage_addReadiness .onlyName stage.orderly watches fun _ => by rw [named]; rfl)
    exact ⟨stage.began, orderly_adding confirmed.orderly [workspace],
      fun other _ settled => confirmed.settled other settled, name, given, named⟩
  · rw [if_neg named]
    exact stage

/-- A renamed workspace takes its dependencies along. -/
theorem stage_rename {engine : Engine} {name previous old : String} {after : Registry}
    (orderly : engine.Orderly project full [])
    (named : engine.registry.findName workspace = some previous)
    (renamed : engine.registry.rename workspace name = .ok (after, old)) :
    Stage project full engine { engine with registry := after } := by
  have renames := Registry.rename_eq_ok renamed
  have artifacts : after.artifacts = engine.registry.artifacts := by
    have others := renames.gives.others
    cases after
    cases others
    rfl
  refine stage_of_change orderly (orderly.sound.rename renames) (fun other settled => ?_)
    (fun path member => artifacts ▸ member) (Registry.ne_empty_of_named named)
  exact settled.renames orderly.sound renames

variable (quiet : Quiet answer)

include quiet

/-- A workspace whose name changes is renamed for its dependents too. -/
theorem meets_registerManifest_renamed {name previous : String} {manifest : Manifest}
    (stage : Stage project full start.1 now.1) (stem : IsStem workspace)
    (given : manifest.name = some name)
    (named : now.1.registry.findName workspace = some previous) (differs : previous ≠ name) :
    Meets answer (registerManifest project workspace manifest) (steady ε project full)
      (steady ε project full) start now (loadEnd ε project full workspace) := by
  have watches := stage.orderly.sound.watches_of_named named
  have watched : isWatched now.1.registry workspace = true := List.contains_iff_mem.mpr watches.2
  let between : Engine :=
    { now.1 with registry := now.1.registry.addReadiness workspace .onlyManifest }
  have ready : Stage project full start.1 between :=
    stage.lift (stage_addReadiness .onlyManifest stage.orderly watches fun impossible => by cases impossible)
  have betweenNamed : between.registry.findName workspace = some previous := named
  unfold registerManifest
  rw [meets_registry, if_pos watched, meets_modifyRegistry, given]
  dsimp only
  refine (meets_bind (registerName project workspace name) _ _).mpr ?_
  unfold registerName
  rw [meets_registry]
  dsimp only
  rw [show (now.1.registry.addReadiness workspace .onlyManifest).findName workspace
    = some previous from named]
  dsimp only
  rw [if_neg differs]
  unfold changeName
  rw [meets_log]
  let logged : Engine := { between with
    log := now.1.log ++ [⟨.info, "Workspace name changed " ++ previous ++ " -> " ++ name
      ++ ", updating the references"⟩] }
  have loggedStage : Stage project full start.1 logged :=
    ready.lift (.logged ready.orderly _)
  cases renamed : between.registry.rename workspace name with
  | error fault =>
      obtain ⟨holder, rfl, _⟩ := Registry.rename_eq_error renamed (by rw [betweenNamed]; rfl)
      dsimp only
      rw [meets_pure]
      have unnames (after : Engine) (loads : Loads project workspace logged none after) :
          loadEnd ε project full workspace (.ok none) start (after, now.2) :=
        loadEnd_of_loads (logged, now.2) loggedStage loads
      exact meets_withoutName .onlyName rfl loggedStage.orderly.sound stem
        fun after loads _ => unnames after loads
  | ok result =>
      obtain ⟨after, old⟩ := result
      dsimp only
      rw [meets_modifyRegistry]
      have afterStage := loggedStage.lift (stage_rename loggedStage.orderly betweenNamed renamed)
      have carries := Update.steadily_name quiet lasting_true previous name start
        ({ logged with registry := after }, now.2) afterStage trivial
      refine (meets_bind _ _ _).mpr (carries.weaken fun result start later ended => ?_)
      cases result with
      | ok dependents => exact meets_confirmName_steady ended.1 given
      | error failure => exact ended

theorem steadily_readManifest (path : String) :
    Steadily answer project full (fun _ => True) (readManifest path) fun outcome _ =>
      ∀ fault, outcome = .error fault → fault.isDocumentFault = true :=
  Steadily.bind _ (steadily_ask quiet lasting_true _) fun _ =>
    steadily_pure fun _ _ _ failed => documentFault_of_manifestOf failed

theorem meets_loadManifest_steady (stage : Stage project full start.1 now.1) (stem : IsStem workspace) :
    Meets answer (loadManifest project workspace) (steady ε project full) (steady ε project full)
      start now (loadEnd ε project full workspace) := by
  have reads := steadily_readManifest quiet (Workspace.manifestPath workspace) start now stage trivial
  refine (meets_bind (readManifest (Workspace.manifestPath workspace)) _ _).mpr
    (reads.weaken fun result start now ended => ?_)
  obtain ⟨stage, ended⟩ := ended
  have loses (message : String) : Meets answer (withoutManifest workspace message)
      (steady ε project full) (steady ε project full) start now (loadEnd ε project full workspace) :=
    meets_withoutName .manifestAndName rfl stage.orderly.sound stem
      fun after loads _ => loadEnd_of_loads now stage loads
  cases result with
  | error failure => exact ⟨stage, ended⟩
  | ok outcome =>
      dsimp only
      split
      · rename_i manifest
        by_cases renamed : ∃ name previous, manifest.name = some name
            ∧ now.1.registry.findName workspace = some previous ∧ previous ≠ name
        · obtain ⟨name, previous, given, named, differs⟩ := renamed
          exact meets_registerManifest_renamed quiet stage stem given named differs
        · refine meets_registerManifest stage.orderly.sound stem (fun name previous given named => ?_)
            fun result after loads _ _ => loadEnd_of_loads now stage loads
          exact not_not.mp fun differs => renamed ⟨name, previous, given, named, differs⟩
      · exact loses _
      · rename_i fault _
        split
        · refine ⟨stage, fun other member _ => ?_⟩
          rw [List.mem_singleton.mp member]
          exact notFatal_of_documentFault (ended fault rfl)
        · exact loses _

/-- What follows a manifest that gave the workspace its name. -/
theorem meets_manifestLoaded {options : SyncOptions} {readyBefore : Bool} {manifest : Manifest}
    (stem : IsStem workspace) (naming : NamingStage project full workspace manifest start.1 now.1) :
    Meets answer (manifestLoaded project options workspace readyBefore manifest)
      (steady ε project full) (steady ε project full) start now
      (steadyEnd ε project full fun _ _ => True) := by
  obtain ⟨began, orderly, elsewhere, name, given, named⟩ := naming
  have registers : registerDependencies manifest = modifyRegistry fun registry =>
      registry.setDependencies name (manifest.workspaceDependencies registry.allNames) := by
    rw [registerDependencies, given]
  let after := now.1.registry.setDependencies name
    (manifest.workspaceDependencies now.1.registry.allNames)
  have settled : after.Settled workspace := Registry.settled_setDependencies named _
  have stage : Stage project full start.1 { now.1 with registry := after } := by
    refine ⟨began, ⟨orderly.sound.setDependencies ?_ _, fun other _ due => ?_, fun inactive => ?_⟩,
      fun other before => ?_⟩
    · rw [(orderly.sound.inverse workspace name).mp named]
      rfl
    · by_cases same : other = workspace
      · rw [same]
        exact settled
      · have absent : other ∉ [workspace] := fun member => same (List.mem_singleton.mp member)
        exact (orderly.settled other absent due).setDependencies name _
    · exact absurd (orderly.idle inactive) (Registry.ne_empty_of_named named)
    · by_cases same : other = workspace
      · rw [same]
        exact settled
      · exact (elsewhere other same before).setDependencies name _
  have rest : Steadily answer project full (·.registry.Settled workspace)
      (do
        onlyIf (!(← registry).hasReadiness workspace .onlyConfig) (bootstrapConfig workspace)
        onlyIf ((← registry).isReady workspace != readyBefore) (configureRoot project)
        watchArtifact project options workspace) fun _ _ => True := by
    have lasting := lasting_settled project full workspace
    refine steadily_anyRegistry fun _ => ?_
    refine Steadily.bind (fun _ engine => engine.registry.Settled workspace)
      (steadily_onlyIf (fun _ => steadily_bootstrapConfig quiet lasting stem)
        fun _ _ => id) fun _ => ?_
    refine steadily_anyRegistry fun _ => ?_
    refine Steadily.bind (fun _ engine => engine.registry.Settled workspace)
      (steadily_onlyIf (fun _ => steadily_configureRoot quiet lasting)
        fun _ _ => id) fun _ => ?_
    exact steadily_watchArtifact quiet options stem
  unfold manifestLoaded
  rw [registers, meets_modifyRegistry]
  exact rest start ({ now.1 with registry := after }, now.2) stage settled

theorem steadily_manifestWritten (options : SyncOptions) (path : String) :
    Steadily answer project full (path ∈ ·.registry.manifests)
      (manifestWritten project options path) fun _ _ => True := by
  intro start now stage watched
  have stem := (stage.orderly.sound.watches_ofDocument watched).1.1
  unfold manifestWritten
  dsimp only
  rw [meets_registry]
  refine (meets_bind (loadManifest project (Workspace.ofDocument path)) _ _).mpr ?_
  refine (meets_loadManifest_steady quiet stage stem).weaken fun result start later ended => ?_
  cases result with
  | error failure => exact ended
  | ok loaded =>
      cases loaded with
      | some manifest => exact meets_manifestLoaded quiet stem ended
      | none =>
          have configures (ready : Bool) : Steadily answer project full (fun _ => True)
              (onlyIf ready (configureRoot project)) fun _ _ => True :=
            steadily_onlyIf (fun _ => steadily_configureRoot quiet lasting_true) fun _ _ => id
          exact configures _ start later ended trivial

theorem steadily_manifestDeleted (path : String) :
    Steadily answer project full (path ∈ ·.registry.manifests) (manifestDeleted project path)
      fun _ _ => True := by
  refine Steadily.bind (fun _ engine => path ∈ engine.registry.manifests)
    (steadily_log fun _ watched _ => watched) fun _ => ?_
  refine Steadily.bind (fun _ _ => True) (steadily_modifyRegistry fun engine orderly watched => ?_)
    fun _ => steadily_configureRoot quiet lasting_true
  have watches := (orderly.sound.watches_ofDocument watched).1
  have unwatched := orderly.sound.unwatchArtifact
    (Workspace.artifactPath (Workspace.ofDocument path))
  have isWatched : isWatched (engine.registry.unwatchArtifact
      (Workspace.artifactPath (Workspace.ofDocument path))) (Workspace.ofDocument path) = true :=
    List.contains_iff_mem.mpr watches.2
  refine ⟨stage_of_change orderly (sound_unregister unwatched rfl) (fun other settled => ?_)
    (fun other member => ?_) (ne_empty_of_watches watches), trivial⟩
  · have before : (engine.registry.unwatchArtifact
        (Workspace.artifactPath (Workspace.ofDocument path))).Settled other :=
      settled.of_same rfl rfl
    exact before.forgets unwatched (forgets_unregister isWatched _)
  · rw [(unregister_others _ _ _).2.1] at member
    exact (TextSet.mem_remove.mp member).1

/-! ### The config of a workspace -/

theorem steadily_configPresent (options : SyncOptions) (workspace : String) :
    Steadily answer project full (·.registry.Watches workspace)
      (configPresent project options workspace) fun _ _ => True := by
  refine steadily_registry fun engine _ watches => ?_
  refine steadily_onlyIf (fun _ => ?_) fun _ _ _ => trivial
  refine Steadily.strengthen ?_ fun other same => show other.registry.Watches workspace from same ▸ watches
  refine Steadily.bind (fun _ other => other.registry.Watches workspace)
    (steadily_log fun _ watches _ => watches) fun _ => ?_
  refine Steadily.bind (fun _ _ => True) (steadily_modifyRegistry fun other orderly watches =>
    ⟨stage_addReadiness .onlyConfig orderly watches nofun, trivial⟩) fun _ => ?_
  refine steadily_anyRegistry fun _ => ?_
  refine steadily_onlyIf (fun _ => ?_) fun _ _ => id
  refine Steadily.bind _ (steadily_configureRoot quiet lasting_true) fun _ => ?_
  exact steadily_whenPresent quiet _ (steadily_artifactWritten quiet options _)

theorem steadily_configDeleted (workspace : String) :
    Steadily answer project full (·.registry.Watches workspace) (configDeleted project workspace)
      fun _ _ => True := by
  refine steadily_registry fun engine _ watches => ?_
  refine steadily_onlyIf (fun _ => ?_) fun _ _ _ => trivial
  refine Steadily.strengthen ?_ fun other same => show other.registry.Watches workspace from same ▸ watches
  refine Steadily.bind (fun _ other => other.registry.Watches workspace)
    (steadily_log fun _ watches _ => watches) fun _ => ?_
  refine Steadily.bind (fun _ _ => True)
    (steadily_modifyRegistry fun other orderly watches => ⟨?_, trivial⟩) fun _ => ?_
  · exact stage_of_change orderly (orderly.sound.dropReadiness rfl rfl)
      (fun _ settled => settled.of_same rfl rfl) (fun _ => id) (ne_empty_of_watches watches)
  · exact steadily_onlyIf (fun _ => steadily_configureRoot quiet lasting_true) fun _ _ => id

end

/-! ### Deletions -/

section

variable {ε : Type} {answer : Answering ε} {project : Project} {full : Prop}

theorem steadily_artifactDeleted (path : String) :
    Steadily answer project full (path ∈ ·.registry.artifacts) (artifactDeleted path)
      fun _ _ => True := by
  refine steadily_anyRegistry fun _ => ?_
  refine Steadily.bind (fun _ engine => path ∈ engine.registry.artifacts)
    (steadily_log fun _ watched _ => watched) fun _ => ?_
  refine steadily_modifyRegistry fun engine orderly watched => ⟨?_, trivial⟩
  exact stage_of_change orderly (orderly.sound.markMissing watched)
    (fun _ settled => settled.of_same rfl rfl) (fun _ => id)
    (ne_empty_of_watches (orderly.sound.ofArtifact watched).1)

/-- Where nothing has a name, everything is settled. -/
theorem steadily_rootDeleted :
    Steadily answer project full (fun _ => True) rootDeleted fun _ _ => True := by
  refine Steadily.bind _ (steadily_log fun _ _ _ => trivial) fun _ => ?_
  refine steadily_modify fun engine orderly _ => ⟨⟨orderly, ?_, fun _ _ => ?_⟩, trivial⟩
  · exact ⟨Registry.sound_empty, fun _ _ _ => Registry.settled_of_unnamed rfl, fun _ => rfl⟩
  · exact Registry.settled_of_unnamed rfl

end

end Watch
end RefSync
