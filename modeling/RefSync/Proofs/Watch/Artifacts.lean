/-
Handling an artifact is steady: it changes the dependencies of one workspace, which has some
already where no lookup may fail.
-/

import RefSync.Proofs.Watch.Updates
import RefSync.Watch.Artifact

namespace RefSync

open Routine

namespace Registry

theorem ne_empty_of_named {registry : Registry} {workspace name : String}
    (named : registry.findName workspace = some name) : registry ≠ .empty := by
  rintro rfl
  cases named

/-- A workspace that is ready has a name. -/
theorem Sound.named_of_ready {project : Project} {registry : Registry}
    (sound : registry.Sound project) {workspace : String} (ready : registry.isReady workspace = true) :
    (registry.findName workspace).isSome := by
  refine (sound.nameBit workspace).mp ?_
  simp only [isReady, hasReadiness, Readiness.covers, Readiness.all, Bool.not_true, Bool.false_or,
    Bool.and_eq_true] at ready
  exact ready.1.2

end Registry

namespace Watch

section

variable {ε : Type} {answer : Answering ε} {project : Project} {full : Prop}
  (quiet : Quiet answer) (options : SyncOptions)

theorem steadily_reportRedundant (workspace name : String) (redundant : List String) :
    Steadily answer project full (·.registry.findName workspace = some name)
      (reportRedundant name redundant) fun _ engine => engine.registry.findName workspace = some name := by
  refine steadily_registry fun engine orderly named => ?_
  refine steadily_onlyIf (fun _ => ?_) fun other _ same => same ▸ named
  refine Steadily.bind (fun _ other => other.registry.findName workspace = some name)
    (steadily_modifyRegistry fun other otherOrderly same => ?_) fun _ =>
      steadily_log fun _ holds _ => holds
  subst same
  exact ⟨stage_of_change orderly (orderly.sound.report _) (fun _ => id) (fun _ => id)
    (Registry.ne_empty_of_named named), named⟩

include quiet

theorem steadily_updateDocuments (workspace : String) (missing pruned discovered : List String) :
    Steadily answer project full (fun _ => True)
      (updateDocuments project workspace missing pruned discovered) fun _ _ => True := by
  have references : Steadily answer project full (fun _ => True)
      (Update.references project workspace discovered) fun _ _ => True :=
    Update.steadily_references quiet lasting_true workspace discovered
  have dependencies : Steadily answer project full (fun _ => True)
      (Update.dependencies workspace missing pruned) fun _ _ => True :=
    Update.steadily_dependencies quiet lasting_true workspace missing pruned
  refine Steadily.bind _ (steadily_forAll lasting_true fun update member => ?_) fun _ =>
    steadily_pure fun _ _ => trivial
  split at member
  · rw [List.mem_singleton.mp member]
    exact references
  · rcases List.mem_cons.mp member with rfl | rest
    · exact dependencies
    · rw [List.mem_singleton.mp rest]
      exact references

theorem steadily_applyDiscovered (workspace name : String) (discovered : List String) :
    Steadily answer project full (·.registry.findName workspace = some name)
      (applyDiscovered project options workspace name discovered) fun _ _ => True := by
  refine steadily_registry fun engine orderly named => ?_
  refine Steadily.bind (fun _ other => other = engine)
    (steadily_ofExcept (fun _ _ _ same => same) fun problem failed isFull => ?_) fun declared => ?_
  · have settled := orderly.settled workspace (List.not_mem_nil) (Or.inl isFull) name named
    obtain ⟨found, present⟩ := Option.isSome_iff_exists.mp settled
    rw [Registry.dependenciesOf, present] at failed
    cases failed
  have keeps : ∀ other, other = engine → other.registry.findName workspace = some name :=
    fun other same => same ▸ named
  refine Steadily.strengthen ?_ keeps
  refine Steadily.bind (fun _ other => other.registry.findName workspace = some name)
    (steadily_onlyIf (fun _ => steadily_reportRedundant workspace name _) fun _ _ => id) fun _ => ?_
  refine Steadily.bind (fun _ other => other.registry.findName workspace = some name)
    (steadily_onlyIf (fun _ => ?_) fun _ _ => id) fun _ => ?_
  · exact steadily_modify fun other otherOrderly holds =>
      ⟨⟨otherOrderly, { otherOrderly with }, fun _ => id⟩, holds⟩
  refine Steadily.bind (fun _ _ => True)
    (steadily_modifyRegistry fun other otherOrderly holds => ⟨?_, trivial⟩) fun _ =>
      steadily_updateDocuments quiet workspace _ _ _
  refine stage_of_change otherOrderly ?_ (fun _ settled => settled.setDependencies _ _)
    (fun _ => id) (Registry.ne_empty_of_named holds)
  refine otherOrderly.sound.setDependencies ?_ _
  rw [(otherOrderly.sound.inverse workspace name).mp holds]
  rfl

theorem steadily_artifactRead (path workspace name : String) (artifact : Artifact) :
    Steadily answer project full (fun _ => True)
      (artifactRead project options path workspace name artifact) fun _ _ => True := by
  refine steadily_registry fun engine orderly _ => ?_
  refine steadily_onlyIf (fun still => ?_) fun _ _ _ => trivial
  rw [Bool.and_eq_true, beq_iff_eq] at still
  exact (steadily_applyDiscovered quiet options workspace name _).strengthen
    fun other same => same ▸ still.1

theorem steadily_readAgain (path shown : String) (delay : Duration) (more failures : Nat) :
    Steadily answer project full (fun _ => True) (readAgain path shown delay more failures)
      fun _ _ => True := by
  induction more generalizing failures with
  | zero =>
      unfold readAgain
      refine Steadily.bind _ (steadily_ask quiet lasting_true _) fun given => ?_
      cases given with
      | ok value => exact steadily_pure fun _ _ => trivial
      | error cause => exact steadily_pure fun _ _ => trivial
  | succ more ih =>
      unfold readAgain
      refine Steadily.bind _ (steadily_ask quiet lasting_true _) fun given => ?_
      cases given with
      | ok value => exact steadily_pure fun _ _ => trivial
      | error cause =>
          dsimp only
          cases delay.grown? failures with
          | none => exact steadily_throw fun _ => rfl
          | some pause =>
              exact Steadily.bind _ (steadily_ask quiet lasting_true _) fun _ => ih (failures + 1)

theorem steadily_artifactWritten (path : String) :
    Steadily answer project full (fun _ => True) (artifactWritten project options path)
      fun _ _ => True := by
  refine steadily_registry fun engine orderly _ => ?_
  refine steadily_onlyIf (fun ready => ?_) fun _ _ _ => trivial
  refine Steadily.bind (fun _ _ => True)
    (steadily_ofExcept (fun _ _ _ _ => trivial) fun problem failed _ => ?_) fun name => ?_
  · obtain ⟨name, named⟩ := Option.isSome_iff_exists.mp (orderly.sound.named_of_ready ready)
    rw [Registry.nameOf, named] at failed
    cases failed
  refine Steadily.bind _ (steadily_readAgain quiet _ _ _ _ _) fun outcome => ?_
  have complains (message : String) : Steadily answer project full (fun _ => True)
      (artifactOf.complain path message) fun _ _ => True :=
    Steadily.bind _ (steadily_log lasting_true.log) fun _ => steadily_pure fun _ _ => trivial
  refine Steadily.bind (fun _ _ => True) ?_ fun found => ?_
  · cases outcome with
    | error failure => exact complains _
    | ok value =>
        unfold artifactOf
        dsimp only
        cases Artifact.validate value with
        | ok artifact => exact steadily_pure fun _ _ => trivial
        | error failure => exact complains _
  · cases found with
    | none => exact steadily_pure fun _ _ => trivial
    | some artifact => exact steadily_artifactRead quiet options path _ name artifact

theorem steadily_artifactCreated (path : String) :
    Steadily answer project full (fun _ => True) (artifactCreated project options path)
      fun _ _ => True := by
  refine steadily_registry fun engine orderly _ => ?_
  refine Steadily.bind (fun _ _ => True)
    (steadily_onlyIf (fun missing => ?_) fun _ _ _ => trivial) fun _ =>
      steadily_artifactWritten quiet options path
  refine Steadily.bind (fun _ _ => True)
    (steadily_modifyRegistry fun other otherOrderly same => ⟨?_, trivial⟩) fun _ =>
      steadily_log lasting_true.log
  subst same
  refine stage_of_change otherOrderly (otherOrderly.sound.unmarkMissing path) (fun _ => id)
    (fun _ => id) ?_
  intro empty
  rw [empty] at missing
  cases missing

end

end Watch
end RefSync
