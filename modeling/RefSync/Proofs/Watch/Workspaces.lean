/-
Bringing a workspace up is steady once its dependencies are known: it gets a config and its
artifact is watched. The root config follows the workspaces that are ready.
-/

import RefSync.Proofs.Watch.Artifacts
import RefSync.Watch.Root

namespace RefSync

open Routine Path

namespace Watch

theorem watches_of_isWatched {registry : Registry} {workspace : String} (stem : IsStem workspace)
    (watched : isWatched registry workspace = true) : registry.Watches workspace :=
  ⟨stem, List.contains_iff_mem.mp watched⟩

theorem ne_empty_of_watches {registry : Registry} {workspace : String}
    (watches : registry.Watches workspace) : registry ≠ .empty := by
  rintro rfl
  cases watches.2

section

variable {ε : Type} {answer : Answering ε} {project : Project} {full : Prop}
  (quiet : Quiet answer) (options : SyncOptions)

/-- A workspace's artifact is watched once its dependencies are known. -/
theorem stage_watchArtifact {engine : Engine} {workspace : String}
    (orderly : engine.Orderly project full []) (watches : engine.registry.Watches workspace)
    (settled : engine.registry.Settled workspace) :
    Stage project full engine
      { engine with registry := engine.registry.watchArtifact (Workspace.artifactPath workspace) } := by
  refine ⟨orderly, ⟨orderly.sound.watchArtifact watches, fun other absent due name named => ?_,
    fun inactive => absurd (orderly.idle inactive) (ne_empty_of_watches watches)⟩, fun _ => id⟩
  rcases due with isFull | artifact
  · exact orderly.settled other absent (Or.inl isFull) name named
  · rcases TextSet.mem_insert.mp artifact with same | present
    · have otherStem := (orderly.sound.watches_of_named named).1
      rw [Workspace.artifactPath_injective otherStem watches.1 same] at named
      exact settled name named
    · exact orderly.settled other absent (Or.inr present) name named

theorem stage_addReadiness {engine : Engine} {workspace : String} (more : Readiness)
    (orderly : engine.Orderly project full []) (watches : engine.registry.Watches workspace)
    (named : more.name = true → (engine.registry.findName workspace).isSome) :
    Stage project full engine
      { engine with registry := engine.registry.addReadiness workspace more } :=
  stage_of_change orderly (orderly.sound.addReadiness watches more named)
    (fun _ settled => settled.of_same rfl rfl) (fun _ => id) (ne_empty_of_watches watches)

include quiet

section

variable {pre : Engine → Prop} (lasting : Lasting project full pre)

include lasting

theorem steadily_configureRoot :
    Steadily answer project full pre (configureRoot project) fun _ => pre := by
  refine steadily_engine fun engine _ holds => ?_
  refine steadily_onlyIf (fun _ => ?_) fun _ _ same => same ▸ holds
  have updates (workspaces : List String) : Steadily answer project full pre
      (do let _ ← Update.root project workspaces) fun _ => pre :=
    Steadily.bind _ (Update.steadily_root quiet lasting workspaces) fun _ =>
      steadily_pure fun _ => id
  exact (updates _).strengthen fun _ same => same ▸ holds

theorem steadily_bootstrapConfig {workspace : String} (stem : IsStem workspace) :
    Steadily answer project full pre (bootstrapConfig workspace) fun _ => pre := by
  refine Steadily.bind _ (Update.steadily_configure quiet lasting workspace false) fun _ => ?_
  refine steadily_registry fun engine orderly holds => ?_
  refine steadily_onlyIf (fun watched => ?_) fun _ _ same => same ▸ holds
  refine steadily_modifyRegistry fun other _ same => ?_
  subst same
  have stage := stage_addReadiness .onlyConfig orderly (watches_of_isWatched stem watched) nofun
  exact ⟨stage, lasting _ _ stage holds⟩

end

theorem steadily_whenPresent {handler : Routine Unit} (path : String)
    (handles : Steadily answer project full (fun _ => True) handler fun _ _ => True) :
    Steadily answer project full (fun _ => True) (whenPresent path handler) fun _ _ => True := by
  refine Steadily.bind _ (steadily_ask quiet lasting_true _) fun given => ?_
  refine Steadily.bind (fun _ _ => True)
    (steadily_ofExcept (fun _ _ _ _ => trivial) fun _ _ _ => rfl) fun present => ?_
  exact steadily_onlyIf (fun _ => handles) fun _ _ _ => trivial

theorem steadily_watchArtifact {workspace : String} (stem : IsStem workspace) :
    Steadily answer project full (·.registry.Settled workspace)
      (watchArtifact project options workspace) fun _ _ => True := by
  refine steadily_registry fun engine orderly settled => ?_
  refine steadily_onlyIf (fun due => ?_) fun _ _ _ => trivial
  rw [Bool.and_eq_true] at due
  refine Steadily.bind (fun _ _ => True)
    (steadily_modifyRegistry fun other _ same => ⟨?_, trivial⟩) fun _ => ?_
  · subst same
    exact stage_watchArtifact orderly (watches_of_isWatched stem due.2) settled
  · exact steadily_whenPresent quiet _ (steadily_artifactCreated quiet options _)

theorem steadily_bringUp {workspaces : List String}
    (stems : ∀ workspace ∈ workspaces, IsStem workspace) (generation : Nat) :
    Steadily answer project full (fun engine => ∀ workspace ∈ workspaces,
        engine.registry.Settled workspace)
      (bringUp project options workspaces generation) fun _ _ => True := by
  have lasting : Lasting project full fun engine => ∀ workspace ∈ workspaces,
      engine.registry.Settled workspace :=
    fun _ _ stage settled workspace member => stage.settled workspace (settled workspace member)
  refine steadily_anyRegistry fun registry => ?_
  refine Steadily.bind _ (steadily_forAll lasting fun workspace member => ?_) fun _ => ?_
  · exact (steadily_bootstrapConfig quiet lasting
      (stems workspace (List.mem_filter.mp member).1)).weaken fun _ _ _ => trivial
  refine Steadily.bind _ (steadily_configureRoot quiet lasting) fun _ => ?_
  refine steadily_engine fun engine _ settled => ?_
  refine steadily_onlyIf (fun _ => ?_) fun _ _ _ => trivial
  have watches (present : List String) (within : ∀ workspace ∈ present, workspace ∈ workspaces) :
      Steadily answer project full (fun engine => ∀ workspace ∈ workspaces,
          engine.registry.Settled workspace)
        (do let _ ← forAll present (watchArtifact project options)) fun _ _ => True := by
    refine Steadily.bind _ (steadily_forAll lasting fun workspace member => ?_) fun _ =>
      steadily_pure fun _ _ => trivial
    have inside := within workspace member
    exact (steadily_watchArtifact quiet options (stems workspace inside)).strengthen
      fun _ settled => settled workspace inside
  refine (watches _ fun workspace member => (List.mem_filter.mp member).1).strengthen ?_
  exact fun other same => same ▸ settled

end

end Watch
end RefSync
