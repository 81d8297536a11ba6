/-
Updates of documents while others update other ones. An update replaces its own document
alone, if anything; it finds that document as it was, as nobody else replaces it, and ends
with it as it should be.
-/

import RefSync.Proofs.Config.References
import RefSync.Proofs.Disk.Documents
import RefSync.Proofs.Manifest.Dependencies
import RefSync.Proofs.Routine.Group
import RefSync.Proofs.Workspace.Places
import RefSync.Update

namespace RefSync

open Routine Path

namespace Update

/-! ### Targets -/

/-- Takes up the reference to the workspace of a name. -/
def addTarget (project : Project) (registry : Registry) (workspace : String)
    (aliases : Table String) (name : String) : Except Fault (Table String) :=
  match registry.findPath name with
  | none => .ok aliases
  | some path =>
      match project.referencePath? path (some workspace) with
      | some reference => .ok (aliases.set reference name)
      | none => .error .emptyPath

theorem targetAliases_eq (project : Project) (registry : Registry) (workspace : String)
    (names : List String) :
    targetAliases project registry workspace names
      = (sortTexts (distinct names)).foldlM (addTarget project registry workspace) [] :=
  rfl

/-- Whether a path is the reference of a workspace to one of some names. -/
def IsTarget (project : Project) (registry : Registry) (workspace : String) (names : List String)
    (reference : String) : Prop :=
  ∃ name ∈ names, ∃ path, registry.findPath name = some path
    ∧ project.referencePath? path (some workspace) = some reference

theorem isTarget_eq (project : Project) {before after : Registry} (same : after.paths = before.paths)
    (workspace : String) (names : List String) :
    IsTarget project after workspace names = IsTarget project before workspace names := by
  unfold IsTarget Registry.findPath
  rw [same]

/-- Names that were resolved have become the reference paths of their workspaces. -/
theorem targetAliases_keys {project : Project} {registry : Registry} {workspace : String}
    {names : List String} {aliases : Table String}
    (resolved : targetAliases project registry workspace names = .ok aliases) (reference : String) :
    reference ∈ aliases.keys ↔ IsTarget project registry workspace names reference := by
  have folded (names : List String) (before : Table String)
      (same : names.foldlM (addTarget project registry workspace) before = .ok aliases) :
      reference ∈ aliases.keys
        ↔ reference ∈ before.keys ∨ IsTarget project registry workspace names reference := by
    induction names generalizing before with
    | nil =>
        cases same
        exact (or_iff_left fun ⟨_, member, _⟩ => nomatch member).symm
    | cons name rest ih =>
        have targets : IsTarget project registry workspace (name :: rest) reference
            ↔ (∃ path, registry.findPath name = some path
                ∧ project.referencePath? path (some workspace) = some reference)
              ∨ IsTarget project registry workspace rest reference := by
          unfold IsTarget
          rw [List.exists_mem_cons_iff]
        rw [List.foldlM_cons, addTarget] at same
        cases place : registry.findPath name with
        | none =>
            rw [place] at same
            rw [ih before same, targets, place]
            simp
        | some path =>
            rw [place] at same
            cases written : project.referencePath? path (some workspace) with
            | none =>
                simp only [written] at same
                cases same
            | some own =>
                simp only [written] at same
                have first : reference ∈ (before.set own name).keys
                    ↔ reference = own ∨ reference ∈ before.keys := by
                  rw [Table.mem_keys_iff, Table.mem_keys_iff, Table.get?_set]
                  split
                  · rename_i equal
                    exact ⟨fun _ => Or.inl equal, fun _ => rfl⟩
                  · rename_i differs
                    exact (or_iff_right differs).symm
                have here : (∃ place, some path = some place
                    ∧ project.referencePath? place (some workspace) = some reference)
                      ↔ reference = own := by
                  simp [written, eq_comm]
                rw [ih _ same, targets, first, place, here, or_assoc, or_left_comm]
  have none : reference ∉ Table.keys ([] : Table String) := List.not_mem_nil
  rw [folded _ [] ((targetAliases_eq ..).symm.trans resolved), or_iff_right none]
  unfold IsTarget
  simp only [mem_sortTexts, mem_distinct]

/-- Every name of a workspace has a reference path. -/
theorem targetAliases_ok {project : Project} {registry : Registry}
    (filled : ∀ name path, registry.findPath name = some path → path ≠ "") (workspace : String)
    (names : List String) :
    ∃ aliases, targetAliases project registry workspace names = .ok aliases
      ∧ ∀ reference, reference ∈ aliases.keys ↔ IsTarget project registry workspace names reference := by
  have folded (names : List String) (before : Table String) :
      ∃ aliases, names.foldlM (addTarget project registry workspace) before = .ok aliases := by
    induction names generalizing before with
    | nil => exact ⟨before, rfl⟩
    | cons name rest ih =>
        rw [List.foldlM_cons, addTarget]
        cases place : registry.findPath name with
        | none => exact ih before
        | some path =>
            obtain ⟨reference, written⟩ : ∃ reference,
                project.referencePath? path (some workspace) = some reference := by
              unfold Project.referencePath?
              rw [if_neg (fun empty => filled name path place (String.isEmpty_iff.mp empty))]
              exact ⟨_, rfl⟩
            simp only [written]
            exact ih _
  obtain ⟨aliases, same⟩ := folded (sortTexts (distinct names)) []
  have resolved := (targetAliases_eq project registry workspace names).trans same
  exact ⟨aliases, resolved, targetAliases_keys resolved⟩

/-! ### Who replaces which documents -/

/-- What an update may do: files in its own places become others, and the registry stays. An
idle one does nothing to the disk. -/
structure Brings (own : Place → Prop) (idle : Prop) (before after : Engine × Disk) : Prop where
  registry : after.1.registry = before.1.registry
  project : after.2.project = before.2.project
  files : FileTree.Alters own before.2.files after.2.files
  disk : idle → after.2 = before.2

theorem brings_refl (own : Place → Prop) (idle : Prop) (state : Engine × Disk) :
    Brings own idle state state :=
  ⟨rfl, rfl, FileTree.Alters.refl own _, fun _ => rfl⟩

def bringing (own : Place → Prop) (idle : Prop) : Conduct Disk where
  allows := Brings own idle
  refl := brings_refl own idle
  trans first second :=
    { registry := second.registry.trans first.registry
      project := second.project.trans first.project
      files := first.files.trans second.files
      disk := fun rests => (second.disk rests).trans (first.disk rests) }

section

variable {theirs own : Place → Prop} {idle still : Prop} {before after : Engine × Disk}
  {path : String}

theorem Brings.wider {more : Place → Prop} {fewer : Prop} (brings : Brings own idle before after)
    (wider : ∀ place, own place → more place) (idles : fewer → idle) :
    Brings more fewer before after :=
  { brings with
    files := brings.files.weaken wider
    disk := fun rests => brings.disk (idles rests) }

/-- What others leave alone is read as before. -/
theorem Brings.read {value : Json} (brings : Brings theirs idle before after)
    (reads : before.2.read path = .ok value) (apart : ¬theirs (before.2.project.resolved path)) :
    after.2.read path = .ok value :=
  Disk.read_keeps brings.project brings.files.keeps reads apart

theorem Brings.logs (brings : Brings own idle before after) (log : List LogRecord) :
    Brings own idle before ({ after.1 with log := log }, after.2) :=
  { brings with }

end

/-- A document that others leave alone, and what there is in its place. -/
structure Owned (theirs : Place → Prop) (path : String) (state : Engine × Disk) (value : Json)
    (entry : Option Entry) : Prop where
  read : state.2.read path = .ok value
  held : state.2.files.get? (state.2.project.resolved path) = entry
  apart : ¬theirs (state.2.project.resolved path)

theorem Owned.later {theirs : Place → Prop} {idle : Prop} {path : String} {value : Json}
    {entry : Option Entry} {state later : Engine × Disk}
    (owned : Owned theirs path state value entry) (brings : Brings theirs idle state later) :
    Owned theirs path later value entry where
  read := brings.read owned.read owned.apart
  held := by rw [brings.project, brings.files.apart owned.apart]; exact owned.held
  apart := by rw [brings.project]; exact owned.apart

/-- What there is in a place once a document was written there, if one was. -/
def rewritten (update : Option Document) (entry : Option Entry) : Option Entry :=
  match update with
  | none => entry
  | some document => some (.file (.text (Json.obj document).contents))

section

variable {α : Type} {theirs own : Place → Prop} {idle still : Prop} {start now : Engine × Disk}
  {path : String} {document : Document} {entry : Option Entry} {ending : Ending α Disk}
  (began : Brings own still start now) (owned : Owned theirs path now (.obj document) entry)

include began owned

theorem meets_readObject {rest : Document → Routine α}
    (goesOn : ∀ resumes, Brings theirs idle now resumes →
      Meets Disk.alone (rest document) (bringing theirs idle) (bringing own still) resumes resumes
        ending) :
    Meets Disk.alone (readObject path >>= rest) (bringing theirs idle) (bringing own still) start now
      ending := by
  refine ⟨began, fun asks asking => ⟨brings_refl own still asks, fun resumes resuming => ?_⟩⟩
  have reads : (Disk.alone (.read path) asks).1 = .ok (.obj document) := (owned.later asking).read
  rw [reads]
  exact goesOn resumes ((bringing theirs idle).trans asking resuming)

theorem meets_readObject? {rest : Option Document → Routine α}
    (goesOn : ∀ resumes, Brings theirs idle now resumes →
      Meets Disk.alone (rest (some document)) (bringing theirs idle) (bringing own still) resumes
        resumes ending) :
    Meets Disk.alone (readObject? path >>= rest) (bringing theirs idle) (bringing own still) start
      now ending := by
  refine ⟨began, fun asks asking => ⟨brings_refl own still asks, fun resumes resuming => ?_⟩⟩
  have reads : (Disk.alone (.read path) asks).1 = .ok (.obj document) := (owned.later asking).read
  rw [reads]
  exact goesOn resumes ((bringing theirs idle).trans asking resuming)

/-- A document is found as it was written, whatever others do meanwhile. -/
theorem meets_writeDocument {name : String} (last : (parts path).getLast? = some name)
    (named : name ≠ "..") (mine : own (now.2.project.resolved path)) (busy : ¬still)
    {updated : Document} (clean : Document.Clean updated) {rest : Unit → Routine α}
    (goesOn : ∀ resumes, resumes.1.registry = now.1.registry →
      Owned theirs path resumes (.obj updated) (rewritten (some updated) entry) →
      Meets Disk.alone (rest ()) (bringing theirs idle) (bringing own still) resumes resumes ending) :
    Meets Disk.alone (writeDocument path updated >>= rest) (bringing theirs idle)
      (bringing own still) start now ending := by
  refine (meets_ask (.write path updated) _ _).mpr ⟨began, fun asks asking => ?_⟩
  have ownedThen := owned.later asking
  rcases Disk.read_eq_ok.mp ownedThen.read with ⟨content, _, holds, _⟩
  have written : (asks.2.write path updated).1 = .ok () := by
    rw [Disk.write_of_holds holds last named]
  have alters : FileTree.Alters own asks.2.files (asks.2.write path updated).2.files := by
    rw [Disk.write_of_holds holds last named]
    exact FileTree.alters_put (asking.project ▸ mine) holds.found _
  have held : (asks.2.write path updated).2.files.get? (asks.2.project.resolved path)
      = rewritten (some updated) entry := by
    rw [Disk.write_of_holds holds last named]
    refine (FileTree.get?_put _ _ _ _ fun top => ?_).trans (if_pos rfl)
    have found := holds.found
    rw [top] at found
    cases found
  have reads := Disk.read_write holds last named clean
  have project : (asks.2.write path updated).2.project = asks.2.project :=
    asks.2.answer_project (.write path updated)
  rw [Disk.alone_write]
  generalize asks.2.write path updated = made at written alters held reads project ⊢
  rw [written]
  constructor
  · exact ⟨rfl, project, alters, fun rests => absurd rests busy⟩
  · intro resumes resuming
    have ownedNow : Owned theirs path (asks.1, made.2) (.obj updated) (rewritten (some updated) entry) := by
      refine ⟨reads, ?_, ?_⟩
      · rw [project]
        exact held
      · rw [project]
        exact ownedThen.apart
    exact goesOn resumes (resuming.registry.trans asking.registry) (ownedNow.later resuming)

end

/-! ### Single updates -/

/-- What an update leaves: its document as it should be, and the registry as it was. -/
structure Brought (theirs : Place → Prop) (path : String) (registry : Registry)
    (document : Document) (entry : Option Entry) (state : Engine × Disk) : Prop where
  owned : Owned theirs path state (.obj document) entry
  registry : state.1.registry = registry

/-- How an update of a document ends. -/
def brought (theirs own : Place → Prop) (idle still : Prop) (path : String) (registry : Registry)
    (document : Document) (entry : Option Entry) : Ending Bool Disk :=
  lasting (bringing theirs idle) (bringing own still)
    (endsWith (fun _ => Brought theirs path registry document entry) False fun _ => False)

section

variable {theirs own : Place → Prop} {idle still : Prop} {start now : Engine × Disk}
  {path : String} {document : Document} {entry : Option Entry}

theorem brought_done (value : Bool) (began : Brings own still start now)
    (owned : Owned theirs path now (.obj document) entry) {registry : Registry}
    (same : now.1.registry = registry) :
    brought theirs own idle still path registry document entry (.ok value) start now :=
  ⟨began, fun _ reached => ⟨owned.later reached, reached.registry.trans same⟩⟩

theorem meets_written {name : String} (began : Brings own still start now)
    (owned : Owned theirs path now (.obj document) entry) (last : (parts path).getLast? = some name)
    (named : name ≠ "..") (mine : own (now.2.project.resolved path)) (busy : ¬still)
    {updated : Document} (clean : Document.Clean updated) (message : String) :
    Meets Disk.alone (do writeDocument path updated; log .info message; return true)
      (bringing theirs idle) (bringing own still) start now
      (brought theirs own idle still path now.1.registry updated (rewritten (some updated) entry)) := by
  refine meets_writeDocument began owned last named mine busy clean fun resumes same ownedNow => ?_
  rw [meets_log, meets_pure]
  refine brought_done true ((brings_refl own still resumes).logs _) ⟨?_, ?_, ?_⟩ same
  · exact ownedNow.read
  · exact ownedNow.held
  · exact ownedNow.apart

end

section

variable {theirs own : Place → Prop} {idle still : Prop} {now : Engine × Disk}
  {project : Project} {workspace : String} {document : Document} {entry : Option Entry}

theorem meets_dependencies (missing redundant : List String)
    (owned : Owned theirs (Workspace.manifestPath workspace) now (.obj document) entry)
    (mine : own (now.2.project.resolved (Workspace.manifestPath workspace))) (busy : ¬still) :
    Meets Disk.alone (dependencies workspace missing redundant) (bringing theirs idle)
      (bringing own still) now now
      (brought theirs own idle still (Workspace.manifestPath workspace) now.1.registry
        ((Manifest.updateDependencies? document missing redundant).getD document)
        (rewritten (Manifest.updateDependencies? document missing redundant) entry)) := by
  have clean := (Manifest.adjusted_update (Document.clean_obj.mp (Disk.clean_of_read owned.read))
    missing redundant).2
  unfold dependencies
  rw [meets_registry]
  refine meets_readObject (brings_refl own still now) owned fun resumes reached => ?_
  have ownedNow := owned.later reached
  cases update : Manifest.updateDependencies? document missing redundant with
  | none => exact brought_done false (brings_refl own still resumes) ownedNow reached.registry
  | some updated =>
      rw [← reached.registry]
      exact meets_written (brings_refl own still resumes) ownedNow (Workspace.last_manifestPath workspace)
        (by decide) (reached.project ▸ mine) busy (clean updated update) _

theorem meets_references {names : List String} {aliases : Table String}
    (targets : targetAliases project now.1.registry workspace names = .ok aliases)
    {update : Option Document}
    (updates : Config.updateReferences? document aliases.keys aliases.get? = .ok update)
    (clean : ∀ updated, update = some updated → Document.Clean updated)
    (owned : Owned theirs (Workspace.configPath workspace) now (.obj document) entry)
    (mine : own (now.2.project.resolved (Workspace.configPath workspace)))
    (busy : update.isSome → ¬still) :
    Meets Disk.alone (references project workspace names) (bringing theirs idle)
      (bringing own still) now now
      (brought theirs own idle still (Workspace.configPath workspace) now.1.registry
        (update.getD document) (rewritten update entry)) := by
  unfold references
  rw [meets_registry, targets, meets_ok]
  refine meets_readObject? (brings_refl own still now) owned fun resumes reached => ?_
  have ownedNow := owned.later reached
  dsimp only [Option.getD_some]
  rw [updates, meets_ok]
  cases update with
  | none => exact brought_done false (brings_refl own still resumes) ownedNow reached.registry
  | some updated =>
      rw [← reached.registry]
      exact meets_written (brings_refl own still resumes) ownedNow (Workspace.last_configPath workspace)
        (by decide) (reached.project ▸ mine) (busy rfl) (clean updated rfl) _

end

end Update
end RefSync
