/-
Manifests that stay valid. Updating or renaming dependencies touches neither the name nor the
globs of a manifest, and the versions that it writes are texts. What was valid before is valid
afterwards and has the same name.
-/

import RefSync.Manifest.Basic
import RefSync.Proofs.Manifest.Dependencies
import RefSync.Proofs.Validation

namespace RefSync.Manifest

open Validation

/-- Whether every version in a table is a text. -/
def Texts (table : Document) : Prop :=
  ∀ entry ∈ table, ∃ version, entry.2 = .str version

theorem checkTable_obj (members : Document) :
    (∃ entries, checkTable (some (.obj members)) = .ok entries) ↔ Texts members := by
  simp only [checkTable, every_eq_ok_iff]
  constructor
  · rintro ⟨entries, checked⟩ entry member
    have found := List.mem_map_of_mem (f := fun entry : String × Json =>
      within (.field entry.1) ((text entry.2).map fun version => (entry.1, version))) member
    rw [checked, List.mem_map] at found
    obtain ⟨pair, _, same⟩ := found
    obtain ⟨version, held, _⟩ := map_eq_ok_iff.mp (within_eq_ok_iff.mp same.symm)
    cases value : entry.2 with
    | str other => exact ⟨other, rfl⟩
    | _ =>
        rw [value] at held
        cases held
  · intro texts
    induction members with
    | nil => exact ⟨[], rfl⟩
    | cons entry rest ih =>
        obtain ⟨version, held⟩ := texts entry List.mem_cons_self
        obtain ⟨entries, checked⟩ := ih fun other member => texts other (List.mem_cons_of_mem _ member)
        refine ⟨(entry.1, version) :: entries, ?_⟩
        rw [List.map_cons, List.map_cons, checked, held]
        rfl

section

variable {table : Document} (texts : Texts table)

include texts

theorem Texts.erase (key : String) : Texts (table.erase key) :=
  fun entry member => texts entry (List.mem_filter.mp member).1

theorem Texts.foldl_erase (names : List String) : Texts (names.foldl Table.erase table) := by
  induction names generalizing table with
  | nil => exact texts
  | cons name rest ih => exact ih (texts.erase name)

theorem Texts.set (key version : String) : Texts (table.set key (.str version)) := by
  induction table with
  | nil =>
      intro entry member
      rw [List.mem_singleton.mp member]
      exact ⟨version, rfl⟩
  | cons first rest ih =>
      have others : Texts rest := fun entry member => texts entry (List.mem_cons_of_mem _ member)
      intro entry member
      rw [Table.set] at member
      split at member
      · rcases List.mem_cons.mp member with rfl | inRest
        · exact ⟨version, rfl⟩
        · exact others entry inRest
      · rcases List.mem_cons.mp member with rfl | inRest
        · exact texts entry List.mem_cons_self
        · exact ih others entry inRest

theorem Texts.setDefault (key version : String) : Texts (table.setDefault key (.str version)) := by
  unfold Table.setDefault
  split
  · exact texts
  · exact texts.set key version

theorem Texts.foldl_setDefault (names : List String) (version : String) :
    Texts (names.foldl (fun table name => Table.setDefault table name (.str version)) table) := by
  induction names generalizing table with
  | nil => exact texts
  | cons name rest ih => exact ih (texts.setDefault name version)

theorem Texts.sortKeys : Texts table.sortKeys :=
  fun entry member => texts entry (mem_sortBy.mp member)

theorem Texts.renameIn (old new : String) : Texts (renameIn old new table) := by
  unfold Manifest.renameIn
  split
  · rename_i version found
    obtain ⟨spelled, held⟩ := texts (old, version) (Table.mem_of_get? found)
    dsimp only at held
    rw [held]
    exact ((texts.erase old).set new spelled).sortKeys
  · exact texts

end

theorem texts_nil : Texts [] :=
  fun _ member => nomatch member

/-- Whether a field holds what a dependency table may be. -/
def Fits (value : Option Json) : Prop :=
  ∃ entries, checkTable value = .ok entries

theorem fits_obj {members : Document} : Fits (some (.obj members)) ↔ Texts members :=
  checkTable_obj members

theorem validate_eq_ok_iff {document : Document} {manifest : Manifest} :
    validate (.obj document) = .ok manifest ↔
      checkName (document.get? "name") = .ok manifest.name
        ∧ checkTable (document.get? "dependencies") = .ok manifest.dependencies
        ∧ checkTable (lookup document "devDependencies" "dev_dependencies")
          = .ok manifest.devDependencies
        ∧ checkGlobs (document.get? "workspaces") = .ok manifest.workspaces
        ∧ manifest.extras = document.keys.filter (!(knownFields document).contains ·) := by
  simp only [validate, checkDocument, mapError_eq_ok_iff, map_eq_ok_iff, Prod.exists, both_eq_ok_iff,
    within_eq_ok_iff]
  constructor
  · rintro ⟨name, dependencies, devDependencies, workspaces, checked, rfl⟩
    exact ⟨checked.1, checked.2.1, checked.2.2.1, checked.2.2.2, rfl⟩
  · rintro ⟨name, dependencies, devDependencies, workspaces, extras⟩
    refine ⟨_, _, _, _, ⟨name, dependencies, devDependencies, workspaces⟩, ?_⟩
    rw [← extras]

/-- The keys of a table that was checked are those of the table that was declared. -/
theorem keys_of_checkTable {document : Document} {field : String} {entries : List (String × String)}
    (checked : checkTable (document.get? field) = .ok entries) :
    entries.map (·.1) = (declared document field).keys := by
  unfold declared table?
  cases held : document.get? field with
  | none =>
      rw [held] at checked
      cases checked
      rfl
  | some value =>
      rw [held] at checked
      cases value with
      | null =>
          cases checked
          rfl
      | obj members =>
          change entries.map (·.1) = members.map (·.1)
          simp only [checkTable, every_eq_ok_iff] at checked
          clear held
          induction members generalizing entries with
          | nil =>
              rw [List.map_eq_nil_iff.mp checked.symm]
              rfl
          | cons member rest ih =>
              cases entries with
              | nil => cases checked
              | cons entry others =>
                  obtain ⟨first, same⟩ := List.cons.inj checked
                  obtain ⟨version, _, rfl⟩ := map_eq_ok_iff.mp (within_eq_ok_iff.mp first)
                  rw [List.map_cons, List.map_cons, ih same]
      | _ => cases checked

/-- The table that is read in place of the development dependencies where they are absent. -/
def otherSpelling (document : Document) : Document :=
  if document.contains "devDependencies" then [] else declared document "dev_dependencies"

theorem mem_keys_devDependencies {document : Document} {entries : List (String × String)}
    (checked : checkTable (lookup document "devDependencies" "dev_dependencies") = .ok entries)
    {name : String} : name ∈ entries.map (·.1) ↔
      name ∈ (declared document "devDependencies").keys ∨ name ∈ (otherSpelling document).keys := by
  unfold lookup at checked
  unfold otherSpelling
  cases held : document.get? "devDependencies" with
  | none =>
      have absent : ¬document.contains "devDependencies" = true := by
        rw [Table.contains_iff, held]
        exact Bool.false_ne_true
      have none : declared document "devDependencies" = [] := by
        rw [declared, table?, held]
        rfl
      rw [held, Option.none_or] at checked
      rw [if_neg absent, none, keys_of_checkTable checked]
      exact (or_iff_right List.not_mem_nil).symm
  | some value =>
      have present : document.contains "devDependencies" = true := by
        rw [Table.contains_iff, held]
        rfl
      rw [held, Option.some_or, ← held] at checked
      rw [if_pos present, keys_of_checkTable checked]
      exact (or_iff_left List.not_mem_nil).symm

/-- The workspaces that a valid manifest declares. -/
theorem mem_workspaceDependencies_iff {document : Document} {manifest : Manifest}
    (valid : validate (.obj document) = .ok manifest) (known : List String) {name : String} :
    name ∈ manifest.workspaceDependencies known ↔
      name ∈ known ∧ (Declares document name ∨ name ∈ (otherSpelling document).keys) := by
  obtain ⟨_, dependencies, devDependencies, _, _⟩ := validate_eq_ok_iff.mp valid
  rw [workspaceDependencies, List.mem_filter, List.contains_iff_mem, List.mem_eraseDups,
    List.map_append, List.mem_append, keys_of_checkTable dependencies,
    mem_keys_devDependencies devDependencies, declares_iff, or_assoc, and_comm]

/-- The workspaces that a valid manifest declares, where it keeps to the first spelling. -/
theorem mem_workspaceDependencies {document : Document} {manifest : Manifest}
    (valid : validate (.obj document) = .ok manifest)
    (plain : document.get? "dev_dependencies" = none) (known : List String) {name : String} :
    name ∈ manifest.workspaceDependencies known ↔ name ∈ known
      ∧ (name ∈ (declared document "dependencies").keys
        ∨ name ∈ (declared document "devDependencies").keys) := by
  have unused : otherSpelling document = [] := by
    rw [otherSpelling, declared, table?, plain]
    exact ite_self []
  rw [mem_workspaceDependencies_iff valid, unused, declares_iff]
  exact and_congr_right fun _ => or_iff_left List.not_mem_nil

/-- With a name a document is valid where nothing but its name was wrong. -/
theorem validate_named {document : Document} {manifest : Manifest}
    (valid : validate (.obj (document.erase "name")) = .ok manifest) {name : String}
    (filled : isBlankText name = false) :
    ∃ named, validate (.obj (document.set "name" (.str name))) = .ok named
      ∧ named.name = some name := by
  have same {key : String} (other : key ≠ "name") :
      (document.set "name" (.str name)).get? key = (document.erase "name").get? key := by
    rw [Table.get?_set, if_neg other, Table.get?_erase, if_neg other]
  obtain ⟨_, dependencies, devDependencies, workspaces, _⟩ := validate_eq_ok_iff.mp valid
  refine ⟨⟨some name, manifest.dependencies, manifest.devDependencies, manifest.workspaces, _⟩,
    validate_eq_ok_iff.mpr ⟨?_, ?_, ?_, ?_, rfl⟩, rfl⟩
  · rw [Table.get?_set, if_pos rfl, checkName, filled, if_neg (by decide)]
  · rw [same (by decide)]
    exact dependencies
  · rw [lookup, same (by decide), same (by decide)]
    exact devDependencies
  · rw [same (by decide)]
    exact workspaces

/-- A document with the same name and globs, and with tables that fit. -/
structure KeepsValid (before after : Document) : Prop where
  name : after.get? "name" = before.get? "name"
  globs : after.get? "workspaces" = before.get? "workspaces"
  dependencies : Fits (before.get? "dependencies") → Fits (after.get? "dependencies")
  devDependencies : Fits (before.get? "devDependencies") → Fits (after.get? "devDependencies")
  present : (after.get? "devDependencies").isSome = (before.get? "devDependencies").isSome
  other : after.get? "dev_dependencies" = before.get? "dev_dependencies"

theorem KeepsValid.refl (document : Document) : KeepsValid document document :=
  ⟨rfl, rfl, id, id, rfl, rfl⟩

theorem KeepsValid.trans {first second third : Document} (one : KeepsValid first second)
    (two : KeepsValid second third) : KeepsValid first third where
  name := two.name.trans one.name
  globs := two.globs.trans one.globs
  dependencies fits := two.dependencies (one.dependencies fits)
  devDependencies fits := two.devDependencies (one.devDependencies fits)
  present := two.present.trans one.present
  other := two.other.trans one.other

theorem KeepsValid.validate {before after : Document} (keeps : KeepsValid before after)
    {manifest : Manifest} (valid : Manifest.validate (.obj before) = .ok manifest) :
    ∃ later, Manifest.validate (.obj after) = .ok later ∧ later.name = manifest.name := by
  obtain ⟨name, dependencies, devDependencies, workspaces, _⟩ := validate_eq_ok_iff.mp valid
  obtain ⟨tables, checked⟩ := keeps.dependencies ⟨_, dependencies⟩
  have dev : Fits (lookup after "devDependencies" "dev_dependencies") := by
    unfold lookup at devDependencies ⊢
    rw [keeps.other]
    have present := keeps.present
    cases held : before.get? "devDependencies" with
    | none =>
        rw [held] at devDependencies present
        rw [Option.isSome_eq_false_iff.mp present |> Option.isNone_iff_eq_none.mp]
        exact ⟨_, devDependencies⟩
    | some value =>
        rw [held] at devDependencies present
        have fits := keeps.devDependencies (held ▸ ⟨_, devDependencies⟩)
        obtain ⟨later, laterHeld⟩ := Option.isSome_iff_exists.mp present
        rw [laterHeld] at fits ⊢
        exact fits
  obtain ⟨devTables, devChecked⟩ := dev
  refine ⟨{ name := manifest.name, dependencies := tables, devDependencies := devTables
            workspaces := manifest.workspaces
            extras := after.keys.filter (!(knownFields after).contains ·) }, ?_, rfl⟩
  apply validate_eq_ok_iff.mpr
  exact ⟨keeps.name ▸ name, checked, devChecked, keeps.globs ▸ workspaces, rfl⟩

/-- A change of the tables that makes no text into anything else. -/
theorem keepsValid_mapTables (manifest : Document) {change : Document → Document}
    (texts : ∀ table, Texts table → Texts (change table)) :
    KeepsValid manifest (mapTables manifest change) := by
  have fits {field : String} (known : field ∈ dependencyFields)
      (before : Fits (Table.get? manifest field)) :
      Fits (Table.get? (mapTables manifest change) field) := by
    rw [get?_mapTables_field _ _ known]
    cases found : table? manifest field with
    | none => exact before
    | some table =>
        rw [table?_eq_some_iff.mp found] at before
        exact fits_obj.mpr (texts table (fits_obj.mp before))
  refine ⟨get?_mapTables _ _ (by decide), get?_mapTables _ _ (by decide), fits (by decide),
    fits (by decide), ?_, get?_mapTables _ _ (by decide)⟩
  rw [get?_mapTables_field _ _ (by decide)]
  cases found : table? manifest "devDependencies" with
  | none => rfl
  | some table =>
      rw [table?_eq_some_iff.mp found]
      rfl

theorem keepsValid_addDependencies (manifest : Document) (names : List String) :
    KeepsValid manifest (addDependencies manifest names) := by
  unfold addDependencies
  split
  · exact KeepsValid.refl manifest
  · have others {key : String} (other : key ≠ "dependencies") (table : Document) :
        Table.get? (Table.set manifest "dependencies" (.obj table)) key = Table.get? manifest key := by
      rw [Table.get?_set, if_neg other]
    refine ⟨others (by decide) _, others (by decide) _, fun fits => ?_, ?_, ?_, others (by decide) _⟩
    · rw [Table.get?_set, if_pos rfl]
      apply fits_obj.mpr
      apply Texts.foldl_setDefault
      cases found : table? manifest "dependencies" with
      | none => exact texts_nil
      | some table =>
          rw [table?_eq_some_iff.mp found] at fits
          exact fits_obj.mp fits
    · rw [others (by decide)]
      exact id
    · rw [others (by decide)]

theorem keepsValid_update {manifest updated : Document} {missing redundant : List String}
    (update : updateDependencies? manifest missing redundant = some updated) :
    KeepsValid manifest updated := by
  rw [update_eq_sorted update]
  apply KeepsValid.trans _ (keepsValid_mapTables _ fun table texts => texts.sortKeys)
  apply (keepsValid_addDependencies manifest _).trans
  exact keepsValid_mapTables _ fun table texts => texts.foldl_erase redundant

theorem keepsValid_rename {manifest updated : Document} {old new : String}
    (update : renameDependency? manifest old new = some updated) : KeepsValid manifest updated := by
  rw [rename_eq_mapTables update]
  exact keepsValid_mapTables _ fun table texts => texts.renameIn old new

end RefSync.Manifest
