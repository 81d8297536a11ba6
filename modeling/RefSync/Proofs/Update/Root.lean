/-
Bringing the root config in line, with nobody else at work. Where there is a place for it, it
aggregates the workspaces it was asked to.
-/

import RefSync.Proofs.Config.Root
import RefSync.Proofs.Routine.Alone
import RefSync.Proofs.Update.Permitted

namespace RefSync

open Routine Path

/-- A config that lists its references. -/
def Config.IsListed (config : Document) : Prop :=
  ∃ entries, Config.Lists config entries

theorem Config.Aggregates.isListed {config : Document} {wanted : String → Prop}
    (aggregates : Config.Aggregates config wanted) : Config.IsListed config := by
  obtain ⟨entries, lists, _⟩ := aggregates.lists
  exact ⟨entries, lists⟩

namespace Update

theorem mapM_eq_ok {ε α β : Type} {check : α → Except ε β} {items : List α} {chosen : α → β}
    (each : ∀ item ∈ items, check item = .ok (chosen item)) :
    items.mapM check = .ok (items.map chosen) := by
  induction items with
  | nil => rfl
  | cons first rest ih =>
      rw [List.mapM_cons, each first List.mem_cons_self,
        ih fun item member => each item (List.mem_cons_of_mem first member)]
      rfl

theorem rootReferences_eq_ok {project : Project} {workspaces : List String}
    {reference : String → String} (each : ∀ workspace ∈ workspaces,
      project.referencePath? workspace none = some (reference workspace)) :
    rootReferences project workspaces = .ok ((sortTexts workspaces).map reference) :=
  mapM_eq_ok fun workspace member => by rw [each workspace (mem_sortTexts.mp member)]

/-- The root refers to workspaces by their paths. -/
theorem rootReferences_relative {project : Project} {workspaces : List String}
    (relative : ∀ workspace ∈ workspaces, project.IsRelative workspace) :
    rootReferences project workspaces = .ok (sortTexts workspaces) :=
  (rootReferences_eq_ok fun workspace member => (relative workspace member).referencePath?_root).trans
    (congrArg Except.ok (List.map_id _))

/-- Whether a path is how the root references one of some workspaces. -/
def IsRootReference (project : Project) (workspaces : List String) (path : String) : Prop :=
  ∃ workspace ∈ workspaces, project.referencePath? workspace none = some path

theorem rootReferences_ok {project : Project} {workspaces : List String}
    (filled : ∀ workspace ∈ workspaces, workspace ≠ "") :
    ∃ target, rootReferences project workspaces = .ok target
      ∧ ∀ path, path ∈ target ↔ IsRootReference project workspaces path := by
  have each : ∀ workspace ∈ workspaces, project.referencePath? workspace none
      = some ((project.referencePath? workspace none).getD "") := by
    intro workspace member
    rw [Project.referencePath?, if_neg (by simpa using filled workspace member)]
    rfl
  refine ⟨_, rootReferences_eq_ok each, fun path => ?_⟩
  rw [List.mem_map]
  constructor
  · rintro ⟨workspace, member, rfl⟩
    have inside := mem_sortTexts.mp member
    exact ⟨workspace, inside, each workspace inside⟩
  · rintro ⟨workspace, member, same⟩
    exact ⟨workspace, mem_sortTexts.mpr member, by rw [same]; rfl⟩

/-- What is left where the root config was brought in line. -/
structure Rooted (project : Project) (workspaces : List String) (before after : Engine × Disk) :
    Prop where
  engine : ∃ log, after.1 = { before.1 with log := log }
  same : after.2.project = before.2.project
  aggregates : ∃ config, after.2.read configFile = .ok (.obj config)
    ∧ Config.Aggregates config (IsRootReference project workspaces)

attribute [local irreducible] Disk.write

theorem leads_root {project : Project} {workspaces : List String} {now : Engine × Disk}
    (accepts : now.2.Accepts configFile Config.IsListed)
    (filled : ∀ workspace ∈ workspaces, workspace ≠ "") :
    Leads Disk.alone (root project workspaces) now fun result later =>
      (∃ wrote, result = .ok wrote) ∧ Rooted project workspaces now later := by
  obtain ⟨found, finds, known⟩ := accepts.finds
  obtain ⟨target, resolves, targets⟩ : ∃ target, rootReferences project workspaces = .ok target
      ∧ ∀ path, path ∈ target ↔ IsRootReference project workspaces path := rootReferences_ok filled
  have listed : Config.IsListed (found.getD []) ∧ Document.Clean (found.getD []) := by
    cases found with
    | none => exact ⟨⟨[], nofun, Or.inr ⟨rfl, rfl⟩⟩, Document.clean_empty⟩
    | some config =>
        exact ⟨known config rfl, Document.clean_obj.mp (Disk.clean_of_read finds)⟩
  obtain ⟨⟨entries, lists⟩, clean⟩ := listed
  obtain ⟨update, updates, cleans, aggregates⟩ := Config.updateRoot?_ok lists clean target
  unfold root
  apply leads_readObject? finds
  apply leads_ok resolves
  apply leads_ok updates
  cases update with
  | none =>
      refine leads_pure ⟨⟨false, rfl⟩, ⟨now.1.log, rfl⟩, rfl, ?_⟩
      cases found with
      | none => exact absurd aggregates.files nofun
      | some config => exact ⟨config, finds, aggregates.congr targets⟩
  | some updated =>
      apply leads_writeDocument (accepts.write updated)
      apply leads_log
      refine leads_pure ⟨⟨true, rfl⟩, ⟨_, rfl⟩, ?_, updated, accepts.read_write (cleans updated rfl),
        aggregates.congr targets⟩
      rw [(Disk.puts_write now.2 configFile updated).2]

end Update
end RefSync
