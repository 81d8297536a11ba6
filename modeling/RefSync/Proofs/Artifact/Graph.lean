/-
The program graph of an artifact. Reading gives each index one entry, so looking an index
up and finding an entry for it are the same, and the names that local files refer to are
those at the end of a chain of entries: file, pair, list, file.
-/

import Mathlib.Data.List.Nodup
import RefSync.Artifact
import RefSync.Proofs.Validation

namespace RefSync.Artifact

open Validation

/-! ### One entry for each index -/

/-- Every index has one entry at most. -/
def KeysDistinct {α : Type} (entries : List (Int × α)) : Prop :=
  (entries.map (·.1)).Nodup

theorem lookup_eq_some_iff {α : Type} {entries : List (Int × α)} (distinct : KeysDistinct entries)
    (key : Int) (value : α) : entries.lookup key = some value ↔ (key, value) ∈ entries := by
  unfold KeysDistinct at distinct
  induction entries with
  | nil => simp only [List.lookup_nil, List.not_mem_nil, reduceCtorEq]
  | cons head rest ih =>
      obtain ⟨first, present⟩ := head
      rw [List.map_cons, List.nodup_cons] at distinct
      by_cases same : key = first
      · subst same
        rw [List.lookup_cons_self, Option.some.injEq, List.mem_cons, Prod.mk.injEq]
        constructor
        · intro equal
          exact Or.inl ⟨rfl, equal.symm⟩
        · intro found
          rcases found with atHead | inRest
          · exact atHead.2.symm
          · exact absurd (List.mem_map_of_mem inRest) distinct.1
      · rw [List.lookup_cons, beq_false_of_ne same, ih distinct.2, List.mem_cons, Prod.mk.injEq]
        constructor
        · exact Or.inr
        · intro found
          exact found.resolve_left fun atHead => same atHead.1

private theorem keys_setEntry {α : Type} (key : Int) (value : α) (entries : List (Int × α)) :
    (setEntry key value entries).map (·.1)
      = if key ∈ entries.map (·.1) then entries.map (·.1) else entries.map (·.1) ++ [key] := by
  induction entries with
  | nil => rfl
  | cons head rest ih =>
      obtain ⟨first, present⟩ := head
      by_cases same : first = key
      · subst same
        have present : first ∈ ((first, present) :: rest).map (·.1) := List.mem_cons_self
        rw [if_pos present, setEntry, if_pos rfl]
        rfl
      · have differs : key ≠ first := fun equal => same equal.symm
        rw [setEntry, if_neg same, List.map_cons, ih, List.map_cons]
        by_cases inRest : key ∈ rest.map (·.1)
        · rw [if_pos inRest, if_pos (List.mem_cons_of_mem _ inRest)]
        · rw [if_neg inRest, if_neg fun member => inRest (List.mem_of_ne_of_mem differs member)]
          rfl

private theorem keysDistinct_setEntry {α : Type} {entries : List (Int × α)}
    (distinct : KeysDistinct entries) (key : Int) (value : α) :
    KeysDistinct (setEntry key value entries) := by
  unfold KeysDistinct at *
  rw [keys_setEntry]
  split
  · exact distinct
  · rename_i absent
    rw [List.nodup_append]
    refine ⟨distinct, List.nodup_singleton key, ?_⟩
    intro other present same member
    rw [List.mem_singleton] at member
    intro equal
    exact absent (by rw [← member, ← equal]; exact present)

theorem keysDistinct_collapse {α : Type} (entries : List (Int × α)) :
    KeysDistinct (collapse entries) := by
  have general : ∀ (rest before : List (Int × α)), KeysDistinct before →
      KeysDistinct (rest.foldl (fun table entry => setEntry entry.1 entry.2 table) before) := by
    intro rest
    induction rest with
    | nil => intro before distinct; exact distinct
    | cons head others ih =>
        intro before distinct
        exact ih _ (keysDistinct_setEntry distinct head.1 head.2)
  exact general entries [] List.nodup_nil

theorem keysDistinct_positions {α : Type} (values : List α) :
    KeysDistinct (values.mapIdx fun index value => ((index : Int), value)) := by
  unfold KeysDistinct List.Nodup
  rw [List.pairwise_iff_getElem]
  intro left right leftBound rightBound before
  rw [List.getElem_map, List.getElem_map, List.getElem_mapIdx, List.getElem_mapIdx]
  simp only [ne_eq, Int.natCast_inj]
  omega

theorem keysDistinct_table {α : Type} {check : Json → Checked α} {value : Json}
    {entries : List (Int × α)} (checked : table check value = .ok entries) :
    KeysDistinct entries := by
  cases value with
  | arr values =>
      obtain ⟨found, _, rfl⟩ := map_eq_ok_iff.mp checked
      exact keysDistinct_positions found
  | obj members =>
      obtain ⟨found, _, rfl⟩ := map_eq_ok_iff.mp checked
      exact keysDistinct_collapse found
  | _ => cases checked

/-- Reading a document gives each index one file name and one list. -/
theorem keysDistinct_of_validate {value : Json} {artifact : Artifact}
    (validated : validate value = .ok artifact) :
    KeysDistinct artifact.fileNames ∧ KeysDistinct artifact.fileIdsList := by
  have checked := mapError_eq_ok_iff.mp validated
  cases value with
  | obj document =>
      have program := within_eq_ok_iff.mp checked
      cases found : Table.get? document "program" with
      | none => rw [found] at program; cases program
      | some field =>
          rw [found] at program
          cases field with
          | obj members =>
              obtain ⟨⟨fileNames, referencedMap, fileIdsList⟩, parts, rfl⟩ :=
                map_eq_ok_iff.mp program
              obtain ⟨names, others⟩ := both_eq_ok_iff.mp parts
              obtain ⟨_, lists⟩ := both_eq_ok_iff.mp others
              constructor
              · have checkedNames := within_eq_ok_iff.mp names
                cases given : lookup members "fileNames" "file_names" with
                | none => rw [given] at checkedNames; cases checkedNames
                | some value => rw [given] at checkedNames; exact keysDistinct_table checkedNames
              · have checkedLists := within_eq_ok_iff.mp lists
                cases given : lookup members "fileIdsList" "file_ids_list" with
                | none =>
                    rw [given] at checkedLists
                    cases checkedLists
                    exact List.nodup_nil
                | some value => rw [given] at checkedLists; exact keysDistinct_table checkedLists
          | _ => cases program
  | _ => cases checked

/-! ### Following the entries -/

theorem mem_listIdsFor {artifact : Artifact} {index list : Int} :
    list ∈ artifact.listIdsFor index ↔ (index + 1, list) ∈ artifact.referencedMap := by
  rw [listIdsFor, List.mem_filterMap]
  constructor
  · rintro ⟨⟨file, other⟩, member, found⟩
    by_cases same : file = index + 1
    · simp only [if_pos same, Option.some.injEq] at found
      rw [← same, ← found]
      exact member
    · simp only [if_neg same] at found
      cases found
  · intro member
    exact ⟨(index + 1, list), member, if_pos rfl⟩

theorem mem_fileIdsIn {artifact : Artifact} (distinct : KeysDistinct artifact.fileIdsList)
    {lists : List Int} {file : Int} :
    file ∈ artifact.fileIdsIn lists ↔
      ∃ list ∈ lists, ∃ files, (list - 1, files) ∈ artifact.fileIdsList ∧ file ∈ files := by
  rw [fileIdsIn, List.mem_eraseDups, List.mem_flatMap]
  constructor
  · rintro ⟨list, member, inList⟩
    cases found : artifact.fileIdsList.lookup (list - 1) with
    | none => rw [found] at inList; cases inList
    | some files =>
        rw [found] at inList
        exact ⟨list, member, files, (lookup_eq_some_iff distinct _ _).mp found, inList⟩
  · rintro ⟨list, member, files, present, inFiles⟩
    refine ⟨list, member, ?_⟩
    rw [(lookup_eq_some_iff distinct _ _).mpr present]
    exact inFiles

theorem mem_namesOf {artifact : Artifact} (distinct : KeysDistinct artifact.fileNames)
    {files : List Int} {name : String} :
    name ∈ artifact.namesOf files ↔
      ∃ file ∈ files, (file - 1, name) ∈ artifact.fileNames ∧ name ≠ "" := by
  rw [namesOf, List.mem_eraseDups, List.mem_filter, List.mem_filterMap, bne_iff_ne]
  constructor
  · rintro ⟨⟨file, member, found⟩, filled⟩
    exact ⟨file, member, (lookup_eq_some_iff distinct _ _).mp found, filled⟩
  · rintro ⟨file, member, present, filled⟩
    exact ⟨⟨file, member, (lookup_eq_some_iff distinct _ _).mpr present⟩, filled⟩

theorem mem_localIndices {artifact : Artifact} {index : Int} :
    index ∈ artifact.localIndices ↔
      ∃ name, (index, name) ∈ artifact.fileNames ∧ isLocal name = true := by
  rw [localIndices, List.mem_map]
  constructor
  · rintro ⟨⟨_, name⟩, kept, rfl⟩
    obtain ⟨member, isLocal⟩ := List.mem_filter.mp kept
    exact ⟨name, member, isLocal⟩
  · rintro ⟨name, member, isLocal⟩
    exact ⟨(index, name), List.mem_filter.mpr ⟨member, isLocal⟩, rfl⟩

/-- A local file at `index` refers to the file name `name` through some pair and list. -/
structure RefersTo (artifact : Artifact) (name : String) : Prop where
  chain : ∃ index file list files id,
    (index, file) ∈ artifact.fileNames ∧ isLocal file = true
      ∧ (index + 1, list) ∈ artifact.referencedMap
      ∧ (list - 1, files) ∈ artifact.fileIdsList ∧ id ∈ files
      ∧ (id - 1, name) ∈ artifact.fileNames
  filled : name ≠ ""

theorem mem_referencedNames {artifact : Artifact} (names : KeysDistinct artifact.fileNames)
    (lists : KeysDistinct artifact.fileIdsList) {name : String} :
    name ∈ artifact.referencedNames ↔ artifact.RefersTo name := by
  rw [referencedNames, List.mem_eraseDups, List.mem_flatMap]
  constructor
  · rintro ⟨index, isLocalIndex, member⟩
    obtain ⟨file, present, isLocal⟩ := mem_localIndices.mp isLocalIndex
    obtain ⟨id, inLists, named, filled⟩ := (mem_namesOf names).mp member
    obtain ⟨list, paired, files, listed, inFiles⟩ := (mem_fileIdsIn lists).mp inLists
    exact ⟨⟨index, file, list, files, id, present, isLocal, mem_listIdsFor.mp paired, listed,
      inFiles, named⟩, filled⟩
  · rintro ⟨⟨index, file, list, files, id, present, isLocal, paired, listed, inFiles, named⟩, filled⟩
    refine ⟨index, mem_localIndices.mpr ⟨file, present, isLocal⟩, ?_⟩
    refine (mem_namesOf names).mpr ⟨id, ?_, named, filled⟩
    exact (mem_fileIdsIn lists).mpr ⟨list, mem_listIdsFor.mpr paired, files, listed, inFiles⟩

end RefSync.Artifact
