/-
Bringing documents in line is steady: it leaves the registry alone, and what goes wrong is
a matter of the documents.
-/

import RefSync.Proofs.Watch.Steady
import RefSync.Update

namespace RefSync

open Routine

theorem mapM_eq_error {ε α β : Type} {check : α → Except ε β} {items : List α} {problem : ε}
    (failed : items.mapM check = .error problem) : ∃ item ∈ items, check item = .error problem := by
  induction items with
  | nil => cases failed
  | cons item rest ih =>
      rw [List.mapM_cons] at failed
      cases checked : check item with
      | error own =>
          rw [checked] at failed
          cases failed
          exact ⟨item, List.mem_cons_self, checked⟩
      | ok value =>
          rw [checked] at failed
          cases others : rest.mapM check with
          | error other =>
              rw [others] at failed
              cases failed
              obtain ⟨found, member, fails⟩ := ih others
              exact ⟨found, List.mem_cons_of_mem _ member, fails⟩
          | ok values =>
              rw [others] at failed
              cases failed

theorem mem_mapM {ε α β : Type} {check : α → Except ε β} {items : List α} {values : List β}
    (mapped : items.mapM check = .ok values) (value : β) :
    value ∈ values ↔ ∃ item ∈ items, check item = .ok value := by
  induction items generalizing values with
  | nil =>
      cases mapped
      simp
  | cons item rest ih =>
      rw [List.mapM_cons] at mapped
      cases checked : check item with
      | error problem =>
          rw [checked] at mapped
          cases mapped
      | ok own =>
          rw [checked] at mapped
          cases others : rest.mapM check with
          | error problem =>
              rw [others] at mapped
              cases mapped
          | ok left =>
              rw [others] at mapped
              cases mapped
              rw [List.mem_cons, List.exists_mem_cons_iff, ih others, checked, Except.ok.injEq,
                eq_comm]

/-- The other workspaces that a name is a dependency of have names themselves. -/
theorem Registry.Sound.findPath_of_dependent {project : Project} {registry : Registry}
    (sound : registry.Sound project) {name dependent : String}
    (member : dependent ∈ registry.dependentsOf name) : (registry.findPath dependent).isSome := by
  rw [Registry.dependentsOf, mem_sortTexts, List.mem_map] at member
  obtain ⟨entry, kept, rfl⟩ := member
  refine sound.dependenciesNamed _ (Table.mem_keys_iff.mp ?_)
  exact List.mem_map_of_mem (List.mem_filter.mp kept).1

section

variable {ε : Type} {answer : Answering ε} {project : Project} {full : Prop}
  {pre : Engine → Prop} (quiet : Quiet answer) (lasting : Lasting project full pre)

namespace Routine

include quiet lasting

theorem steadily_readObject (path : String) :
    Steadily answer project full pre (readObject path) fun _ => pre := by
  refine Steadily.bind _ (steadily_ask quiet lasting _) fun given => ?_
  refine steadily_ofExcept (fun _ _ _ => id) fun problem found => ?_
  unfold objectOf at found
  split at found <;> cases found <;> exact fun _ => rfl

theorem steadily_readObject? (path : String) :
    Steadily answer project full pre (readObject? path) fun _ => pre := by
  refine Steadily.bind _ (steadily_ask quiet lasting _) fun given => ?_
  split
  · exact steadily_pure fun _ => id
  · refine Steadily.bind (fun _ => pre)
      (steadily_ofExcept (fun _ _ _ => id) fun problem found => ?_)
      fun _ => steadily_pure fun _ => id
    unfold objectOf at found
    split at found <;> cases found <;> exact fun _ => rfl

theorem steadily_writeDocument (path : String) (document : Document) :
    Steadily answer project full pre (writeDocument path document) fun _ => pre := by
  refine Steadily.bind _ (steadily_ask quiet lasting _) fun given => ?_
  exact steadily_ofExcept (fun _ _ _ => id) fun _ _ _ => rfl

/-- Writing a document and saying so. -/
theorem steadily_written (path message : String) (document : Document) :
    Steadily answer project full pre
      (do writeDocument path document; log .info message; return true) fun _ => pre := by
  refine Steadily.bind _ (steadily_writeDocument quiet lasting path document) fun _ => ?_
  refine Steadily.bind _ (steadily_log lasting.log) fun _ => ?_
  exact steadily_pure fun _ => id

end Routine

namespace Update

theorem targetAliases_eq_error {registry : Registry} {workspace : String} {names : List String}
    {problem : Fault}
    (failed : targetAliases project registry workspace names = .error problem) :
    problem = .emptyPath := by
  unfold targetAliases at failed
  generalize ([] : Table String) = aliases at failed
  generalize sortTexts (distinct names) = ordered at failed
  induction ordered generalizing aliases with
  | nil => cases failed
  | cons name rest ih =>
      rw [List.foldlM_cons] at failed
      cases path : registry.findPath name with
      | none => simp only [path] at failed; exact ih _ failed
      | some found =>
          cases reference : project.referencePath? found (some workspace) with
          | none =>
              simp only [path, reference] at failed
              cases failed
              rfl
          | some written => simp only [path, reference] at failed; exact ih _ failed

theorem rootReferences_eq_error {workspaces : List String} {problem : Fault}
    (failed : rootReferences project workspaces = .error problem) : problem = .emptyPath := by
  obtain ⟨workspace, _, fails⟩ := mapM_eq_error failed
  cases reference : project.referencePath? workspace none with
  | none =>
      simp only [reference] at fails
      cases fails
      rfl
  | some written =>
      simp only [reference] at fails
      cases fails

include quiet lasting

theorem steadily_references (workspace : String) (names : List String) :
    Steadily answer project full pre (references project workspace names)
      fun _ => pre := by
  refine steadily_anyRegistry fun registry => ?_
  refine Steadily.bind (fun _ => pre)
    (steadily_ofExcept (fun _ _ _ => id) fun problem failed _ => ?_) fun aliases => ?_
  · rw [id, targetAliases_eq_error failed]
    rfl
  refine Steadily.bind _ (steadily_readObject? quiet lasting _) fun found => ?_
  refine Steadily.bind (fun _ => pre)
    (steadily_ofExcept (fun _ _ _ => id) fun _ _ _ => rfl) fun updated => ?_
  cases updated with
  | none => exact steadily_pure fun _ => id
  | some updated => exact steadily_written quiet lasting _ _ _

theorem steadily_aliases (workspace : String) (renamed : Option (String × String)) :
    Steadily answer project full pre (aliases project workspace renamed)
      fun _ => pre := by
  refine steadily_anyRegistry fun registry => ?_
  refine Steadily.bind (fun _ => pre)
    (steadily_ofExcept (fun _ _ _ => id) fun problem failed _ => ?_) fun _ => ?_
  · rw [id, targetAliases_eq_error failed]
    rfl
  refine Steadily.bind _ (steadily_readObject? quiet lasting _) fun found => ?_
  cases found with
  | none => exact steadily_pure fun _ => id
  | some config =>
      refine Steadily.bind (fun _ => pre)
        (steadily_ofExcept (fun _ _ _ => id) fun _ _ _ => rfl) fun updated => ?_
      cases updated with
      | none => exact steadily_pure fun _ => id
      | some updated => exact steadily_written quiet lasting _ _ _

theorem steadily_dependencies (workspace : String) (missing redundant : List String) :
    Steadily answer project full pre (dependencies workspace missing redundant)
      fun _ => pre := by
  refine steadily_anyRegistry fun registry => ?_
  refine Steadily.bind _ (steadily_readObject quiet lasting _) fun found => ?_
  split
  · exact steadily_pure fun _ => id
  · exact steadily_written quiet lasting _ _ _

theorem steadily_dependencyName (workspace old new : String) :
    Steadily answer project full pre (dependencyName workspace old new)
      fun _ => pre := by
  refine steadily_anyRegistry fun registry => ?_
  refine Steadily.bind _ (steadily_readObject quiet lasting _) fun found => ?_
  split
  · exact steadily_pure fun _ => id
  · exact steadily_written quiet lasting _ _ _

/-- The names that depend on another one are those of workspaces. -/
theorem steadily_name (old new : String) :
    Steadily answer project full pre (name project old new) fun _ => pre := by
  refine steadily_registry fun engine orderly holds => ?_
  refine Steadily.bind (fun _ => pre)
    (steadily_ofExcept (fun _ _ _ same => same ▸ holds) fun problem failed _ => ?_) fun workspaces => ?_
  · obtain ⟨dependent, member, fails⟩ := mapM_eq_error failed
    obtain ⟨path, found⟩ :=
      Option.isSome_iff_exists.mp (orderly.sound.findPath_of_dependent member)
    rw [Registry.pathOf, found] at fails
    cases fails
  have each (workspace : String) : Steadily answer project full pre
      (do
        let _ ← dependencyName workspace old new
        aliases project workspace (some (old, new))) fun _ => pre :=
    Steadily.bind _ (steadily_dependencyName quiet lasting workspace old new) fun _ =>
      steadily_aliases quiet lasting workspace _
  refine Steadily.bind _ (steadily_forAll lasting fun workspace _ =>
    (each workspace).weaken fun _ _ _ => trivial) fun _ => ?_
  · exact steadily_pure fun _ => id

theorem steadily_configure (workspace : String) (force : Bool) :
    Steadily answer project full pre (configure workspace force) fun _ => pre := by
  refine Steadily.bind _ (steadily_ask quiet lasting _) fun jsx => ?_
  refine Steadily.bind (fun _ => pre)
    (steadily_ofExcept (fun _ _ _ => id) fun _ _ _ => rfl) fun jsx => ?_
  refine Steadily.bind _ (steadily_readObject? quiet lasting _) fun found => ?_
  have written (updated : Document) : Steadily answer project full pre
      (do
        writeDocument (Workspace.configPath workspace) updated
        log .info ("Configured " ++ label (← registry) workspace ++ " tsconfig.json")
        return true) fun _ => pre := by
    refine Steadily.bind _ (steadily_writeDocument quiet lasting _ _) fun _ => ?_
    refine steadily_anyRegistry fun registry => ?_
    refine Steadily.bind _ (steadily_log lasting.log) fun _ => ?_
    exact steadily_pure fun _ => id
  cases found with
  | none => exact written _
  | some config =>
      dsimp only
      cases Config.configure? config jsx force with
      | none => exact steadily_pure fun _ => id
      | some updated => exact written updated

theorem steadily_root (workspaces : List String) :
    Steadily answer project full pre (root project workspaces) fun _ => pre := by
  refine Steadily.bind _ (steadily_readObject? quiet lasting _) fun found => ?_
  refine Steadily.bind (fun _ => pre)
    (steadily_ofExcept (fun _ _ _ => id) fun problem failed _ => ?_) fun target => ?_
  · rw [id, rootReferences_eq_error failed]
    rfl
  refine Steadily.bind (fun _ => pre)
    (steadily_ofExcept (fun _ _ _ => id) fun _ _ _ => rfl) fun updated => ?_
  cases updated with
  | none => exact steadily_pure fun _ => id
  | some updated => exact steadily_written quiet lasting _ _ _

end Update

end

end RefSync
