/-
What updates make of the dependency tables of a manifest. Every name that was missing is
declared, every redundant one is not, and nothing else changes: where nothing is written
that holds already.
-/

import RefSync.Manifest.Dependencies
import RefSync.Proofs.Json.Same

namespace RefSync.Manifest

/-- The dependencies that a table declares, none where there is no table. -/
def declared (manifest : Document) (field : String) : Document :=
  (table? manifest field).getD []

/-- Whether one of the two tables declares a name. -/
def Declares (manifest : Document) (name : String) : Prop :=
  ∃ field ∈ dependencyFields, name ∈ (declared manifest field).keys

theorem declares_iff {manifest : Document} {name : String} :
    Declares manifest name ↔ name ∈ (declared manifest "dependencies").keys
      ∨ name ∈ (declared manifest "devDependencies").keys := by
  simp [Declares, dependencyFields]

theorem table?_eq_some_iff {manifest : Document} {field : String} {table : Document} :
    table? manifest field = some table ↔ Table.get? manifest field = some (.obj table) := by
  unfold table?
  cases Table.get? manifest field with
  | none => exact ⟨nofun, nofun⟩
  | some value =>
      cases value with
      | obj members => exact ⟨fun same => by cases same; rfl, fun same => by cases same; rfl⟩
      | _ => exact ⟨nofun, nofun⟩

/-- Changes one dependency table, if it is an object. -/
def changeTable (change : Document → Document) (manifest : Document) (field : String) : Document :=
  match table? manifest field with
  | some table => manifest.set field (.obj (change table))
  | none => manifest

theorem mapTables_eq (manifest : Document) (change : Document → Document) :
    mapTables manifest change
      = changeTable change (changeTable change manifest "dependencies") "devDependencies" :=
  rfl

section

variable (manifest : Document) (change : Document → Document)

theorem table?_set (field other : String) (table : Document) :
    table? (Table.set manifest field (.obj table)) other
      = if other = field then some table else table? manifest other := by
  unfold table?
  rw [Table.get?_set]
  split <;> rfl

theorem table?_changeTable (field other : String) :
    table? (changeTable change manifest field) other
      = if other = field then (table? manifest other).map change else table? manifest other := by
  unfold changeTable
  split
  · rename_i table found
    rw [table?_set]
    by_cases same : other = field
    · rw [if_pos same, if_pos same, same, found]
      rfl
    · rw [if_neg same, if_neg same]
  · rename_i none
    by_cases same : other = field
    · rw [if_pos same, same, none]
      rfl
    · rw [if_neg same]

theorem get?_changeTable {field key : String} (other : key ≠ field) :
    Table.get? (changeTable change manifest field) key = Table.get? manifest key := by
  unfold changeTable
  split
  · rw [Table.get?_set, if_neg other]
  · rfl

theorem table?_mapTables {field : String} (known : field ∈ dependencyFields) :
    table? (mapTables manifest change) field = (table? manifest field).map change := by
  rw [mapTables_eq, table?_changeTable, table?_changeTable]
  rcases List.mem_cons.mp known with rfl | known
  · rw [if_neg (by decide), if_pos rfl]
  · rw [List.mem_singleton.mp known, if_pos rfl, if_neg (by decide)]

theorem get?_mapTables_field {field : String} (known : field ∈ dependencyFields) :
    Table.get? (mapTables manifest change) field =
      match table? manifest field with
      | some table => some (.obj (change table))
      | none => Table.get? manifest field := by
  have changed (document : Document) (key : String) :
      Table.get? (changeTable change document key) key =
        match table? document key with
        | some table => some (.obj (change table))
        | none => Table.get? document key := by
    cases found : table? document key with
    | none => simp only [changeTable, found]
    | some table => simp only [changeTable, found, Table.get?_set, if_true]
  rw [mapTables_eq]
  rcases List.mem_cons.mp known with rfl | known
  · rw [get?_changeTable _ _ (by decide), changed]
  · rw [List.mem_singleton.mp known, changed, table?_changeTable, if_neg (by decide),
      get?_changeTable _ _ (by decide)]

theorem get?_mapTables {key : String} (other : key ∉ dependencyFields) :
    Table.get? (mapTables manifest change) key = Table.get? manifest key := by
  have notFirst : key ≠ "dependencies" := fun same => other (same ▸ by decide)
  have notSecond : key ≠ "devDependencies" := fun same => other (same ▸ by decide)
  rw [mapTables_eq, get?_changeTable _ _ notSecond, get?_changeTable _ _ notFirst]

end

section

variable {manifest : Document} (clean : Document.Clean manifest)

include clean

theorem clean_table {field : String} {table : Document}
    (found : table? manifest field = some table) : Document.Clean table :=
  Document.clean_obj.mp (clean.get? (table?_eq_some_iff.mp found))

theorem clean_declared (field : String) : Document.Clean (declared manifest field) := by
  unfold declared
  cases found : table? manifest field with
  | none => exact Document.clean_empty
  | some table => exact clean_table clean found

theorem clean_changeTable {change : Document → Document}
    (kept : ∀ table, Document.Clean table → Document.Clean (change table)) (field : String) :
    Document.Clean (changeTable change manifest field) := by
  unfold changeTable
  split
  · rename_i table found
    exact clean.set field (Document.clean_obj.mpr (kept table (clean_table clean found)))
  · exact clean

theorem clean_mapTables {change : Document → Document}
    (kept : ∀ table, Document.Clean table → Document.Clean (change table)) :
    Document.Clean (mapTables manifest change) := by
  rw [mapTables_eq]
  exact clean_changeTable (clean_changeTable clean kept _) kept _

end

/-! ### Documents that are the same declare the same -/

theorem same_table? {left right : Document} (clean : Document.Clean left)
    (same : Document.same left right = true) (field : String) :
    (∃ one other, table? left field = some one ∧ table? right field = some other
        ∧ Document.same one other = true)
      ∨ table? left field = none ∧ table? right field = none := by
  unfold table?
  cases found : Table.get? left field with
  | none =>
      have absent : Table.get? right field = none := Table.get?_eq_none_iff.mpr fun there =>
        Table.get?_eq_none_iff.mp found ((Document.same_keys clean same field).mpr there)
      rw [absent]
      exact Or.inr ⟨rfl, rfl⟩
  | some value =>
      rcases ((Document.same_iff clean).mp same).2 field value found with ⟨other, there, sames⟩
      rw [there]
      rcases Json.same_members? sames with ⟨one, others, rfl, rfl, sameTables⟩ | none
      · exact Or.inl ⟨one, others, rfl, rfl, sameTables⟩
      · exact Or.inr none

theorem same_declared {left right : Document} (clean : Document.Clean left)
    (same : Document.same left right = true) (field name : String) :
    name ∈ (declared left field).keys ↔ name ∈ (declared right field).keys := by
  unfold declared
  rcases same_table? clean same field with ⟨one, other, found, there, sames⟩ | ⟨found, there⟩
  · rw [found, there]
    exact Document.same_keys (clean_table clean found) sames name
  · rw [found, there]

/-! ### Adding and dropping -/

/-- A manifest with some names added and some dropped, and otherwise as it was. A name that is
declared in either table is not added. -/
structure Adjusted (before after : Document) (missing redundant : List String) : Prop where
  dependencies name : (declared after "dependencies").get? name
    = if name ∈ redundant then none
      else ((declared before "dependencies").get? name).or
        (if name ∈ missing ∧ name ∉ (declared before "devDependencies").keys
          then some (.str workspaceVersion) else none)
  devDependencies name : (declared after "devDependencies").get? name
    = if name ∈ redundant then none else (declared before "devDependencies").get? name
  others key : key ∉ dependencyFields → after.get? key = before.get? key

section

variable {manifest : Document} (clean : Document.Clean manifest) (missing redundant : List String)

include clean

theorem clean_addDependencies : Document.Clean (addDependencies manifest missing) := by
  unfold addDependencies
  split
  · exact clean
  · refine clean.set _ (Document.clean_obj.mpr ?_)
    have each (names : List String) (table : Document) (cleanTable : Document.Clean table) :
        Document.Clean (names.foldl (fun table name =>
          Table.setDefault table name (.str workspaceVersion)) table) := by
      induction names generalizing table with
      | nil => exact cleanTable
      | cons name rest ih =>
          refine ih (Table.setDefault table name (.str workspaceVersion)) ?_
          unfold Table.setDefault
          split
          · exact cleanTable
          · exact cleanTable.set name (.str _)
    exact each missing _ (clean_declared clean "dependencies")

theorem clean_withDependencies : Document.Clean (withDependencies manifest missing redundant) := by
  refine clean_mapTables (clean_addDependencies clean _) fun table cleanTable => ?_
  induction redundant generalizing table with
  | nil => exact cleanTable
  | cons name rest ih => exact ih _ (cleanTable.erase name)

end

theorem declared_mapTables {manifest : Document} {change : Document → Document}
    (empty : change [] = []) {field : String} (known : field ∈ dependencyFields) :
    declared (mapTables manifest change) field = change (declared manifest field) := by
  unfold declared
  rw [table?_mapTables manifest change known]
  cases table? manifest field with
  | none => exact empty.symm
  | some table => rfl

private theorem declared_addDependencies (manifest : Document) (missing : List String)
    (name : String) :
    Table.get? (declared (addDependencies manifest missing) "dependencies") name
      = (Table.get? (declared manifest "dependencies") name).or
        (if name ∈ missing then some (.str workspaceVersion) else none) := by
  unfold addDependencies
  split
  · rename_i none
    rw [List.isEmpty_iff.mp none, if_neg List.not_mem_nil, Option.or_none]
  · unfold declared
    rw [table?_set, if_pos rfl]
    exact Table.get?_foldl_setDefault missing _ _ name

theorem get?_addDependencies (manifest : Document) (missing : List String) {key : String}
    (other : key ≠ "dependencies") :
    Table.get? (addDependencies manifest missing) key = Table.get? manifest key := by
  unfold addDependencies
  split
  · rfl
  · exact (Table.get?_set _ _ _ _).trans (if_neg other)

private theorem foldl_erase_empty (names : List String) :
    names.foldl Table.erase ([] : Document) = [] := by
  induction names with
  | nil => rfl
  | cons name rest ih => exact ih

theorem adjusted_withDependencies (manifest : Document) (missing redundant : List String) :
    Adjusted manifest (withDependencies manifest missing redundant) missing redundant := by
  unfold withDependencies
  have dev (missing : List String) : declared (addDependencies manifest missing) "devDependencies"
      = declared manifest "devDependencies" := by
    unfold declared table?
    rw [get?_addDependencies manifest missing (by decide)]
  constructor
  · intro name
    rw [declared_mapTables (foldl_erase_empty redundant) (by decide), Table.get?_foldl_erase,
      declared_addDependencies]
    have absent : name ∈ missing.filter (!((table? manifest "devDependencies").getD []).contains ·)
        ↔ name ∈ missing ∧ name ∉ (declared manifest "devDependencies").keys := by
      rw [List.mem_filter, Bool.not_eq_true', ← Bool.not_eq_true, Table.contains_iff,
        ← Table.mem_keys_iff]
      rfl
    rw [if_congr absent rfl rfl]
  · intro name
    rw [declared_mapTables (foldl_erase_empty redundant) (by decide), Table.get?_foldl_erase, dev]
  · intro key other
    rw [get?_mapTables _ _ other]
    exact get?_addDependencies _ _ fun same => other (same ▸ by decide)

section

variable {before after : Document} {missing redundant : List String}
  (adjusted : Adjusted before after missing redundant) {name : String}

include adjusted

theorem Adjusted.declares (added : name ∈ missing) (stays : name ∉ redundant) :
    name ∈ (declared after "dependencies").keys ∨ name ∈ (declared after "devDependencies").keys := by
  rw [Table.mem_keys_iff, Table.mem_keys_iff, adjusted.dependencies, adjusted.devDependencies,
    if_neg stays, if_neg stays, ← @Table.mem_keys_iff _ (declared before "devDependencies")]
  by_cases dev : name ∈ (declared before "devDependencies").keys
  · exact Or.inr dev
  · rw [if_pos ⟨added, dev⟩, Option.isSome_or]
    exact Or.inl (Bool.or_true _)

theorem Adjusted.drops (dropped : name ∈ redundant) {field : String}
    (known : field ∈ dependencyFields) : name ∉ (declared after field).keys := by
  rw [Table.mem_keys_iff]
  rcases List.mem_cons.mp known with rfl | known
  · rw [adjusted.dependencies, if_pos dropped]
    decide
  · rw [List.mem_singleton.mp known, adjusted.devDependencies, if_pos dropped]
    decide

/-- An entry stays, that of a missing name if the name was declared. -/
theorem Adjusted.keeps_declared (stays : name ∉ redundant) {field : String}
    (known : field ∈ dependencyFields)
    (there : field = "dependencies" → name ∈ missing → Declares before name) :
    (declared after field).get? name = (declared before field).get? name := by
  rcases List.mem_cons.mp known with rfl | known
  · rw [adjusted.dependencies, if_neg stays]
    by_cases added : name ∈ missing ∧ name ∉ (declared before "devDependencies").keys
    · have present := (declares_iff.mp (there rfl added.1)).resolve_right added.2
      obtain ⟨version, held⟩ := Option.isSome_iff_exists.mp (Table.mem_keys_iff.mp present)
      rw [held, Option.some_or]
    · rw [if_neg added, Option.or_none]
  · rw [List.mem_singleton.mp known, adjusted.devDependencies, if_neg stays]

theorem Adjusted.keeps (other : name ∉ missing) (stays : name ∉ redundant) {field : String}
    (known : field ∈ dependencyFields) :
    (declared after field).get? name = (declared before field).get? name :=
  adjusted.keeps_declared stays known fun _ added => absurd added other

theorem Adjusted.declares_iff :
    Declares after name ↔ name ∉ redundant ∧ (Declares before name ∨ name ∈ missing) := by
  constructor
  · rintro ⟨field, known, there⟩
    have stays : name ∉ redundant := fun dropped => adjusted.drops dropped known there
    by_cases added : name ∈ missing
    · exact ⟨stays, Or.inr added⟩
    · rw [Table.mem_keys_iff, adjusted.keeps added stays known, ← Table.mem_keys_iff] at there
      exact ⟨stays, Or.inl ⟨field, known, there⟩⟩
  · rintro ⟨stays, ⟨field, known, there⟩ | added⟩
    · refine ⟨field, known, ?_⟩
      rwa [Table.mem_keys_iff, adjusted.keeps_declared stays known fun _ _ => ⟨field, known, there⟩,
        ← Table.mem_keys_iff]
    · exact Manifest.declares_iff.mpr (adjusted.declares added stays)

end

theorem adjusted_refl (manifest : Document) : Adjusted manifest manifest [] [] := by
  constructor
  · intro name
    rw [if_neg List.not_mem_nil, if_neg (fun both => List.not_mem_nil both.1), Option.or_none]
  · intro name
    rw [if_neg List.not_mem_nil]
  · exact fun _ _ => rfl

/-- What would change to the same document has been adjusted before. -/
theorem Adjusted.of_same {manifest updated : Document} {missing redundant : List String}
    (adjusted : Adjusted manifest updated missing redundant) (clean : Document.Clean updated)
    (same : Document.same updated manifest = true) :
    Adjusted manifest manifest missing redundant := by
  have gone (field name : String) (absent : (declared updated field).get? name = none) :
      (declared manifest field).get? name = none :=
    Table.get?_eq_none_iff.mpr fun there =>
      Table.get?_eq_none_iff.mp absent ((same_declared clean same field name).mpr there)
  constructor
  · intro name
    have there := adjusted.dependencies name
    by_cases dropped : name ∈ redundant
    · rw [if_pos dropped] at there ⊢
      exact gone _ name there
    · rw [if_neg dropped] at there ⊢
      by_cases added : name ∈ missing ∧ name ∉ (declared manifest "devDependencies").keys
      · rw [if_pos added] at there ⊢
        cases held : (declared manifest "dependencies").get? name with
        | some version => rfl
        | none =>
            rw [held] at there
            have keys := same_declared clean same "dependencies" name
            rw [Table.mem_keys_iff, Table.mem_keys_iff, there, held] at keys
            exact absurd (keys.mp rfl) (by decide)
      · rw [if_neg added, Option.or_none]
  · intro name
    have there := adjusted.devDependencies name
    by_cases dropped : name ∈ redundant
    · rw [if_pos dropped] at there ⊢
      exact gone _ name there
    · rw [if_neg dropped]
  · exact fun _ _ => rfl

theorem update_eq_sorted {manifest updated : Document} {missing redundant : List String}
    (made : updateDependencies? manifest missing redundant = some updated) :
    updated = mapTables (withDependencies manifest missing redundant) Table.sortKeys := by
  unfold updateDependencies? at made
  dsimp only at made
  split at made
  · cases made
  · exact (Option.some.inj made).symm

/-- An update adjusts the manifest, whether it has something to write or not. -/
theorem adjusted_update {manifest : Document} (clean : Document.Clean manifest)
    (missing redundant : List String) :
    Adjusted manifest ((updateDependencies? manifest missing redundant).getD manifest) missing
        redundant
      ∧ ∀ updated, updateDependencies? manifest missing redundant = some updated →
        Document.Clean updated := by
  have adjusted := adjusted_withDependencies manifest missing redundant
  have cleanUpdated := clean_withDependencies clean missing redundant
  unfold updateDependencies?
  dsimp only
  split
  · rename_i same
    exact ⟨adjusted.of_same cleanUpdated same, nofun⟩
  · constructor
    · rw [Option.getD_some]
      have sorted {field : String} (known : field ∈ dependencyFields) (name : String) :
          (declared (mapTables (withDependencies manifest missing redundant) Table.sortKeys)
            field).get? name
            = (declared (withDependencies manifest missing redundant) field).get? name := by
        rw [declared_mapTables rfl known]
        exact Table.get?_sortKeys (clean_declared cleanUpdated field).distinct name
      constructor
      · exact fun name => (sorted (by decide) name).trans (adjusted.dependencies name)
      · exact fun name => (sorted (by decide) name).trans (adjusted.devDependencies name)
      · exact fun key other => (get?_mapTables _ _ other).trans (adjusted.others key other)
    · rintro updated ⟨rfl⟩
      exact clean_mapTables cleanUpdated fun table cleanTable => cleanTable.sortKeys

/-! ### Renaming a dependency -/

/-- What a rename leaves of the tables: the version of the old name is that of the new one, in the
table that it was in. -/
structure Renamed (before after : Document) (old new : String) : Prop where
  gone field : field ∈ dependencyFields → (declared after field).get? old = none
  moved field version : field ∈ dependencyFields →
    (declared before field).get? old = some version → (declared after field).get? new = some version
  kept field key : field ∈ dependencyFields → key ≠ old →
    (key = new → (declared before field).get? old = none) →
    (declared after field).get? key = (declared before field).get? key
  others key : key ∉ dependencyFields → after.get? key = before.get? key

theorem renameDependency?_eq_none {manifest : Document} {old new : String} :
    renameDependency? manifest old new = none ↔
      ∀ field ∈ dependencyFields, (declared manifest field).get? old = none := by
  unfold renameDependency?
  split
  · rename_i some
    obtain ⟨field, known, held⟩ := List.any_eq_true.mp some
    refine ⟨nofun, fun absent => ?_⟩
    have missing : ((table? manifest field).getD []).get? old = none := absent field known
    rw [Table.contains_iff, missing] at held
    cases held
  · rename_i none
    rw [Bool.not_eq_true, List.any_eq_false] at none
    refine ⟨fun _ field known => ?_, fun _ => rfl⟩
    have absent := none field known
    rwa [Table.contains_iff, Option.not_isSome_iff_eq_none] at absent

theorem rename_eq_mapTables {manifest renamed : Document} {old new : String}
    (made : renameDependency? manifest old new = some renamed) :
    renamed = mapTables manifest (renameIn old new) := by
  unfold renameDependency? at made
  split at made
  · exact (Option.some.inj made).symm
  · cases made

section

variable {old new : String}

theorem get?_renameIn {table : Document} (distinct : table.keys.Nodup) (key : String) :
    (renameIn old new table).get? key =
      match table.get? old with
      | some version => if key = new then some version else if key = old then none else table.get? key
      | none => table.get? key := by
  unfold renameIn
  cases found : table.get? old with
  | none => rfl
  | some version =>
      have once : (Table.set (Table.erase table old) new version).keys.Nodup :=
        Table.nodup_keys_set (Table.nodup_keys_erase distinct old) new version
      refine (Table.get?_sortKeys once key).trans ?_
      rw [Table.get?_set, Table.get?_erase]

theorem clean_renameIn {table : Document} (clean : Document.Clean table) :
    Document.Clean (renameIn old new table) := by
  unfold renameIn
  split
  · rename_i version found
    exact ((clean.erase old).set new (clean.get? found)).sortKeys
  · exact clean

/-- A table stays one, and what is no table stays as it is. -/
theorem mapTables_shape (manifest : Document) (change : Document → Document) (field : String) :
    (table? (mapTables manifest change) field).isSome = (table? manifest field).isSome
      ∧ (table? manifest field = none →
        Table.get? (mapTables manifest change) field = Table.get? manifest field) := by
  by_cases known : field ∈ dependencyFields
  · refine ⟨?_, fun plain => ?_⟩
    · rw [table?_mapTables manifest change known, Option.isSome_map]
    · rw [get?_mapTables_field manifest change known, plain]
  · have same := get?_mapTables manifest change known
    refine ⟨?_, fun _ => same⟩
    unfold table?
    rw [same]

theorem rename_shape (manifest : Document) (field : String) :
    (table? ((renameDependency? manifest old new).getD manifest) field).isSome
        = (table? manifest field).isSome
      ∧ (table? manifest field = none →
        Table.get? ((renameDependency? manifest old new).getD manifest) field
          = Table.get? manifest field) := by
  unfold renameDependency?
  split
  · exact mapTables_shape manifest _ field
  · exact ⟨rfl, fun _ => rfl⟩

variable (differs : old ≠ new)

include differs

/-- A rename is complete, whether it has something to write or not. -/
theorem renamed_rename {manifest : Document} (clean : Document.Clean manifest) :
    Renamed manifest ((renameDependency? manifest old new).getD manifest) old new
      ∧ ∀ updated, renameDependency? manifest old new = some updated → Document.Clean updated := by
  cases update : renameDependency? manifest old new with
  | none =>
      have absent := renameDependency?_eq_none.mp update
      refine ⟨⟨absent, fun field version known held => ?_, fun _ _ _ _ _ => rfl, fun _ _ => rfl⟩, nofun⟩
      rw [absent field known] at held
      cases held
  | some updated =>
      obtain rfl := rename_eq_mapTables update
      have after {field : String} (known : field ∈ dependencyFields) (key : String) :
          (declared (mapTables manifest (renameIn old new)) field).get? key =
            match (declared manifest field).get? old with
            | some version =>
                if key = new then some version
                else if key = old then none else (declared manifest field).get? key
            | none => (declared manifest field).get? key := by
        rw [declared_mapTables rfl known]
        exact get?_renameIn (clean_declared clean field).distinct key
      refine ⟨⟨fun field known => ?_, fun field version known held => ?_,
        fun field key known other unmoved => ?_, fun key other => get?_mapTables _ _ other⟩, ?_⟩
      · rw [Option.getD_some, after known]
        cases found : (declared manifest field).get? old with
        | none => rfl
        | some version => exact (if_neg differs).trans (if_pos rfl)
      · rw [Option.getD_some, after known, held]
        exact if_pos rfl
      · rw [Option.getD_some, after known]
        cases found : (declared manifest field).get? old with
        | none => rfl
        | some version =>
            refine (if_neg fun same => ?_).trans (if_neg other)
            rw [unmoved same] at found
            cases found
      · rintro _ ⟨rfl⟩
        exact clean_mapTables clean fun table => clean_renameIn

/-- There is nothing left to rename. -/
theorem rename_again {manifest : Document} (clean : Document.Clean manifest) :
    renameDependency? ((renameDependency? manifest old new).getD manifest) old new = none :=
  renameDependency?_eq_none.mpr (renamed_rename differs clean).1.gone

end

end RefSync.Manifest
