/-
What a rename of a dependency comes to. The version moves to the new name in each table that
declared the old one, everything else stays, and a rename to a name that was not declared can
be taken back.
-/

import RefSync.Proofs.Manifest.Dependencies

namespace RefSync.Manifest

theorem keys_mapTables (manifest : Document) (change : Document → Document) :
    Table.keys (mapTables manifest change) = Table.keys manifest := by
  have each (before : Document) (field : String) :
      Table.keys (changeTable change before field) = Table.keys before := by
    unfold changeTable
    cases found : table? before field with
    | none => rfl
    | some table =>
        have present : field ∈ Table.keys before := by
          rw [Table.mem_keys_iff, table?_eq_some_iff.mp found]
          rfl
        rw [Table.keys_set, if_pos present]
  rw [mapTables_eq, each, each]

variable {old new : String}

/-! ### One table -/

theorem renameIn_of_absent {table : Document} (absent : table.get? old = none) :
    renameIn old new table = table := by
  unfold renameIn
  rw [absent]

theorem renameIn_sorted {table : Document} {version : Json}
    (present : table.get? old = some version) :
    (Table.keys (renameIn old new table)).Pairwise (· ≤ ·) := by
  unfold renameIn
  rw [present]
  exact Table.sortKeys_sorted _

theorem get?_renameIn_of_present {table : Document} (distinct : table.keys.Nodup) {version : Json}
    (present : table.get? old = some version) (key : String) :
    (renameIn old new table).get? key =
      if key = new then some version else if key = old then none else table.get? key := by
  rw [get?_renameIn distinct, present]

/-- A rename to a new name can be taken back, up to the order of the entries. -/
theorem renameIn_back {table : Document} (clean : Document.Clean table)
    (fresh : table.get? new = none) :
    List.Perm (renameIn new old (renameIn old new table)) table := by
  cases present : table.get? old with
  | none => rw [renameIn_of_absent present, renameIn_of_absent fresh]
  | some version =>
      have cleanRenamed : Document.Clean (renameIn old new table) := clean_renameIn clean
      -- In between the new name has the version of the old one, which is what goes back.
      have moved := @get?_renameIn_of_present _ new _ clean.distinct _ present
      refine Table.perm_of_get? (clean_renameIn cleanRenamed).distinct clean.distinct fun key => ?_
      rw [get?_renameIn_of_present cleanRenamed.distinct ((moved new).trans (if_pos rfl)), moved]
      by_cases isOld : key = old
      · rw [if_pos isOld, isOld, present]
      · by_cases isNew : key = new
        · rw [if_neg isOld, if_pos isNew, isNew, fresh]
        · rw [if_neg isOld, if_neg isNew, if_neg isNew, if_neg isOld]

/-! ### Both tables -/

/-- What a rename changes of a manifest, and that it changes nothing else. -/
structure Moves (manifest renamed : Document) (old new : String) : Prop where
  keys : renamed.keys = manifest.keys
  moved field table version : field ∈ dependencyFields → table? manifest field = some table →
    table.get? old = some version →
    ∃ sorted, table? renamed field = some sorted ∧ sorted.keys.Pairwise (· ≤ ·)
      ∧ sorted.get? old = none ∧ sorted.get? new = some version
      ∧ ∀ key, key ≠ old → key ≠ new → sorted.get? key = table.get? key
  /-- A table without the old name stays, order included. -/
  others key : (key ∈ dependencyFields → (declared manifest key).get? old = none) →
    renamed.get? key = manifest.get? key

/-- Whether two manifests differ at most in the order of the entries of the tables. -/
structure Reordered (manifest other : Document) : Prop where
  keys : other.keys = manifest.keys
  tables field table : field ∈ dependencyFields → table? manifest field = some table →
    ∃ order, table? other field = some order ∧ List.Perm order table
  others key : (key ∈ dependencyFields → table? manifest key = none) →
    other.get? key = manifest.get? key

theorem rename_eq_none_iff {manifest : Document} :
    renameDependency? manifest old new = none ↔ ¬Declares manifest old := by
  rw [renameDependency?_eq_none, Declares]
  simp only [Table.get?_eq_none_iff, not_exists, not_and]

theorem reordered_back {manifest : Document} (clean : Document.Clean manifest)
    (fresh : ¬Declares manifest new) :
    Reordered manifest
      (mapTables (mapTables manifest (renameIn old new)) (renameIn new old)) := by
  constructor
  · rw [keys_mapTables, keys_mapTables]
  · intro field table known found
    refine ⟨renameIn new old (renameIn old new table), ?_, ?_⟩
    · rw [table?_mapTables _ _ known, table?_mapTables _ _ known, found]
      rfl
    · apply renameIn_back (clean_table clean found)
      refine Table.get?_eq_none_iff.mpr fun there => fresh ⟨field, known, ?_⟩
      rw [declared, found]
      exact there
  · intro key plain
    by_cases known : key ∈ dependencyFields
    · have once : table? (mapTables manifest (renameIn old new)) key = none := by
        rw [table?_mapTables _ _ known, plain known]
        rfl
      rw [(mapTables_shape _ _ key).2 once, (mapTables_shape _ _ key).2 (plain known)]
    · rw [get?_mapTables _ _ known, get?_mapTables _ _ known]

section

variable {manifest : Document} (clean : Document.Clean manifest) (differs : old ≠ new)

include clean differs

theorem moves_rename : Moves manifest (mapTables manifest (renameIn old new)) old new := by
  constructor
  · exact keys_mapTables manifest _
  · intro field table version known found present
    have distinct := (clean_table clean found).distinct
    refine ⟨renameIn old new table, ?_, renameIn_sorted present, ?_, ?_, fun key notOld notNew => ?_⟩
    · rw [table?_mapTables manifest _ known, found]
      rfl
    · rw [get?_renameIn_of_present distinct present, if_neg differs, if_pos rfl]
    · rw [get?_renameIn_of_present distinct present, if_pos rfl]
    · rw [get?_renameIn_of_present distinct present, if_neg notNew, if_neg notOld]
  · intro key absent
    by_cases known : key ∈ dependencyFields
    · rw [get?_mapTables_field manifest _ known]
      cases found : table? manifest key with
      | none => rfl
      | some table =>
          have unmoved := absent known
          rw [declared, found, Option.getD_some] at unmoved
          simp only [renameIn_of_absent unmoved, table?_eq_some_iff.mp found]
    · exact get?_mapTables manifest _ known

theorem declares_renamed {renamed : Document}
    (made : renameDependency? manifest old new = some renamed) : Declares renamed new := by
  have held : Declares manifest old := by
    by_contra absent
    rw [rename_eq_none_iff.mpr absent] at made
    cases made
  obtain ⟨field, known, there⟩ := held
  obtain ⟨version, present⟩ := Option.isSome_iff_exists.mp (Table.mem_keys_iff.mp there)
  have moved := (renamed_rename differs clean).1.moved field version known present
  rw [made, Option.getD_some] at moved
  exact ⟨field, known, Table.mem_keys_iff.mpr (moved ▸ rfl)⟩

/-- A rename has nothing to do exactly where neither table declares the old name. Otherwise it moves
the version, and the rename back gives the same manifest if neither table declared the new name. -/
theorem rename_moves :
    (renameDependency? manifest old new = none ↔ ¬Declares manifest old)
      ∧ ∀ renamed, renameDependency? manifest old new = some renamed →
        Moves manifest renamed old new
          ∧ (¬Declares manifest new → ∃ restored,
            renameDependency? renamed new old = some restored ∧ Reordered manifest restored) := by
  refine ⟨rename_eq_none_iff, fun renamed made => ?_⟩
  have moves := moves_rename clean differs
  rw [← rename_eq_mapTables made] at moves
  refine ⟨moves, fun fresh => ?_⟩
  cases back : renameDependency? renamed new old with
  | none => exact absurd (declares_renamed clean differs made) (rename_eq_none_iff.mp back)
  | some restored =>
      refine ⟨restored, rfl, ?_⟩
      rw [rename_eq_mapTables back, rename_eq_mapTables made]
      exact reordered_back clean fresh

end

theorem renamed_manifest_is_restored :
    let manifest : Document :=
      [("name", .str "app"), ("dependencies", .obj [("zod", .str "^3"), ("a", .str "^1")]),
        ("devDependencies", .null)]
    let renamed : Document :=
      [("name", .str "app"), ("dependencies", .obj [("b", .str "^1"), ("zod", .str "^3")]),
        ("devDependencies", .null)]
    Document.Clean manifest ∧ renameDependency? manifest "a" "b" = some renamed
      ∧ Moves manifest renamed "a" "b"
      ∧ ∃ restored, renameDependency? renamed "b" "a" = some restored
        ∧ Reordered manifest restored := by
  intro manifest renamed
  have dependencies : Document.Clean [("zod", .str "^3"), ("a", .str "^1")] :=
    (Document.clean_empty.set "zod" (.str "^3")).set "a" (.str "^1")
  have clean : Document.Clean manifest :=
    ((Document.clean_empty.set "name" (.str "app")).set "dependencies"
      (Document.clean_obj.mpr dependencies)).set "devDependencies" .null
  have fresh : ¬Declares manifest "b" := by
    rw [declares_iff]
    decide
  have differs : "a" ≠ "b" := by decide
  obtain ⟨_, steps⟩ := rename_moves clean differs
  obtain ⟨moves, back⟩ := steps renamed rfl
  exact ⟨clean, rfl, moves, back fresh⟩

end RefSync.Manifest
