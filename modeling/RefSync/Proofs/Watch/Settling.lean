/-
What becomes of an event. Its path tells the document, the document tells the handler, and a
handler that failed leaves at most messages and a failure behind.
-/

import RefSync.Proofs.Routine.Abiding
import RefSync.Proofs.Watch.Dispatch
import RefSync.Proofs.Routine.Schedule
import RefSync.Watch.Runs

namespace RefSync

open Routine Path

namespace Watch

variable {project : Project} {options : SyncOptions} {now : Engine × Disk}

/-- A watched manifest is classified as one. -/
theorem classified_manifest {registry : Registry} (sound : registry.Sound project) {path : String}
    (watched : path ∈ registry.manifests) :
    classifyRelative registry path = some .workspaceManifest := by
  unfold classifyRelative
  split
  · rename_i root
    rw [eq_of_beq root] at watched
    exact absurd watched (root_unwatched sound)
  · rw [if_pos (List.contains_iff_mem.mpr watched)]

/-- What is left of a failed handler: messages, one fault that ends the process, or all of its
faults. -/
inductive Settles? (failure : Failure) (now : Engine × Disk) :
    Except Failure Unit → Engine × Disk → Prop where
  | logged (documents : ∀ fault ∈ failure, fault.isDocumentFault = true) (log : List LogRecord)
      (errors : ∀ record ∈ log, record.level = .error) (each : log.length = failure.length) :
      Settles? failure now (.ok ()) ({ now.1 with log := now.1.log ++ log }, now.2)
  | fatal (fault : Fault) (member : fault ∈ failure) (ends : fault.isFatal = true) :
      Settles? failure now (.error [fault]) now
  | raised (harmless : ∀ fault ∈ failure, fault.isFatal = false) (fault : Fault)
      (member : fault ∈ failure) (other : fault.isDocumentFault = false) :
      Settles? failure now (.error failure) now

theorem leads_settle (change : Change) (path : String) (failure : Failure) :
    Leads Disk.alone (settle change path failure) now (Settles? failure now) := by
  have logs (failure : Failure) (now : Engine × Disk) : Leads Disk.alone (failure.forM fun fault =>
      log .error ("Failed to process " ++ change.text ++ " " ++ path ++ ": " ++ fault.message)) now
      fun result later => result = .ok () ∧ ∃ log : List LogRecord,
        later = ({ now.1 with log := now.1.log ++ log }, now.2)
          ∧ (∀ record ∈ log, record.level = .error) ∧ log.length = failure.length := by
    induction failure generalizing now with
    | nil => exact fun _ => ⟨rfl, [], by rw [List.append_nil], nofun, rfl⟩
    | cons fault others ih =>
        let record : LogRecord := ⟨.error, "Failed to process " ++ change.text ++ " " ++ path ++ ": "
          ++ fault.message⟩
        apply (ih ({ now.1 with log := now.1.log ++ [record] }, now.2)).weaken
        rintro result later ⟨ok, log, rfl, errors, each⟩
        refine ⟨ok, record :: log, by rw [List.append_assoc]; rfl, ?_, congrArg (· + 1) each⟩
        intro other member
        rcases List.mem_cons.mp member with rfl | inLog
        · rfl
        · exact errors other inLog
  unfold settle
  split
  · rename_i fault found
    exact fun _ => .fatal fault (List.mem_of_find?_eq_some found) (List.find?_some found)
  · rename_i none
    have harmless : ∀ fault ∈ failure, fault.isFatal = false := fun fault member => by
      simpa using List.find?_eq_none.mp none fault member
    split
    · rename_i documents
      apply (logs failure now).weaken
      rintro result later ⟨rfl, log, rfl, errors, each⟩
      exact .logged (List.all_eq_true.mp documents) log errors each
    · rename_i mixed
      rw [Bool.not_eq_true, List.all_eq_false] at mixed
      obtain ⟨fault, member, other⟩ := mixed
      exact fun _ => .raised harmless fault member (by simpa using other)

/-- An event ends as its handler ends, or as the handler's failure is settled. -/
theorem leads_dispatch {event : Event} {kind : DocumentKind}
    (classified : classify project now.1.registry event.path = some kind)
    {handled : Except Failure Unit → Engine × Disk → Prop}
    (handles : Leads Disk.alone
      (handle project options kind event.change (project.relative event.path)) now handled) :
    Leads Disk.alone (dispatch project options event) now fun result later =>
      result = .ok () ∧ handled (.ok ()) later
        ∨ ∃ failure between, handled (.error failure) between ∧ Settles? failure between result later := by
  intro start
  unfold dispatch
  rw [meets_registry, classified]
  refine Leads.recover handles (fun _ later ended => Or.inl ⟨rfl, ended⟩)
    (fun failure between ended => ?_) start
  exact (leads_settle _ _ failure).weaken fun result later settled =>
    Or.inr ⟨failure, between, ended, settled⟩

/-- The event of a path that is no document of anything is over at once. -/
theorem leads_dispatch_ignored {event : Event}
    (unclassified : classify project now.1.registry event.path = none) :
    Leads Disk.alone (dispatch project options event) now fun result later =>
      result = .ok () ∧ later = now := by
  intro start
  unfold dispatch
  rw [meets_registry, unclassified]
  exact ⟨rfl, rfl⟩

/-- An event that is handled without a fault is dispatched with nothing left to do. -/
theorem Handled.dispatched {event : Event} {before after : Engine × Disk}
    (handled : Handled project options event before after) :
    Finishes Disk.alone (dispatch project options event) before (.ok ()) after := by
  unfold dispatch
  apply finishes_registry
  cases handled with
  | ignored unclassified =>
      rw [unclassified]
      exact .refl
  | completed classified finishes =>
      rw [classified]
      exact finishes.recovers Disk.alone _

end Watch
end RefSync
