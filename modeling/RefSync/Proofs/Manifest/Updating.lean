/-
What an update of the dependencies comes to. The missing names are declared and the redundant
ones are not; every other entry stays, and so does every member beside the two tables, in its
position. Nothing is written exactly where that holds already.
-/

import RefSync.Proofs.Manifest.Dependencies

namespace RefSync.Manifest

/-- The missing names that the development dependencies do not declare. -/
def wanted (manifest : Document) (missing : List String) : List String :=
  missing.filter (!((table? manifest "devDependencies").getD []).contains ·)

theorem withDependencies_eq (manifest : Document) (missing redundant : List String) :
    withDependencies manifest missing redundant
      = mapTables (addDependencies manifest (wanted manifest missing))
          fun table => redundant.foldl Table.erase table :=
  rfl

/-! ### Members beside the tables -/

/-- Whether all members but the two tables are in the same positions. -/
def Beside (before after : Document) : Prop :=
  ∀ (position : Nat) key value, key ∉ dependencyFields →
    (after[position]? = some (key, value) ↔ before[position]? = some (key, value))

theorem Beside.trans {first second third : Document} (one : Beside first second)
    (two : Beside second third) : Beside first third :=
  fun position key value other => (two position key value other).trans (one position key value other)

theorem beside_refl (manifest : Document) : Beside manifest manifest :=
  fun _ _ _ _ => Iff.rfl

theorem beside_set (manifest : Document) {field : String} (known : field ∈ dependencyFields)
    (value : Json) : Beside manifest (Table.set manifest field value) := by
  intro position key held other
  have differ : key ≠ field := fun same => other (same.symm ▸ known)
  exact Table.getElem?_set differ manifest value held position

theorem beside_mapTables (manifest : Document) (change : Document → Document) :
    Beside manifest (mapTables manifest change) := by
  have each (before : Document) {field : String} (known : field ∈ dependencyFields) :
      Beside before (changeTable change before field) := by
    unfold changeTable
    split
    · exact beside_set before known _
    · exact beside_refl before
  exact (each manifest (by decide)).trans (each _ (by decide))

theorem beside_addDependencies (manifest : Document) (names : List String) :
    Beside manifest (addDependencies manifest names) := by
  unfold addDependencies
  split
  · exact beside_refl manifest
  · exact beside_set manifest (by decide) _

theorem beside_update (manifest : Document) (missing redundant : List String) :
    Beside manifest ((updateDependencies? manifest missing redundant).getD manifest) := by
  cases made : updateDependencies? manifest missing redundant with
  | none => exact beside_refl manifest
  | some updated =>
      rw [Option.getD_some, update_eq_sorted made, withDependencies_eq]
      exact ((beside_addDependencies manifest _).trans (beside_mapTables _ _)).trans
        (beside_mapTables _ _)

/-! ### Nothing to do -/

theorem changeTable_eq_self {manifest : Document} {change : Document → Document} {field : String}
    (still : change (declared manifest field) = declared manifest field) :
    changeTable change manifest field = manifest := by
  unfold changeTable
  cases found : table? manifest field with
  | none => rfl
  | some table =>
      rw [declared, found, Option.getD_some] at still
      exact Table.set_of_get? (still.symm ▸ table?_eq_some_iff.mp found)

theorem addDependencies_eq_self {manifest : Document} {names : List String}
    (present : ∀ name ∈ names, name ∈ (declared manifest "dependencies").keys) :
    addDependencies manifest names = manifest := by
  unfold addDependencies
  split
  · rfl
  · rename_i some
    cases found : table? manifest "dependencies" with
    | none =>
        rw [declared, found] at present
        exact absurd (List.isEmpty_iff.mpr (List.eq_nil_iff_forall_not_mem.mpr fun name member =>
          List.not_mem_nil (present name member))) some
    | some table =>
        rw [declared, found] at present
        have still := Table.foldl_setDefault_of_mem (Json.str workspaceVersion) present
        exact Table.set_of_get? (still.symm ▸ table?_eq_some_iff.mp found)

theorem add_wanted_eq_self {manifest : Document} {missing : List String}
    (present : ∀ name ∈ missing, Declares manifest name) :
    addDependencies manifest (wanted manifest missing) = manifest := by
  apply addDependencies_eq_self
  intro name member
  obtain ⟨isMissing, notDev⟩ := List.mem_filter.mp member
  refine (declares_iff.mp (present name isMissing)).resolve_right fun dev => ?_
  have there : ((table? manifest "devDependencies").getD []).contains name = true :=
    Table.contains_iff.mpr (Table.mem_keys_iff.mp dev)
  rw [there] at notDev
  cases notDev

theorem withDependencies_eq_self {manifest : Document} {missing redundant : List String}
    (present : ∀ name ∈ missing, Declares manifest name)
    (absent : ∀ name ∈ redundant, ¬Declares manifest name) :
    withDependencies manifest missing redundant = manifest := by
  have still (field : String) (known : field ∈ dependencyFields) :
      redundant.foldl Table.erase (declared manifest field) = declared manifest field :=
    Table.foldl_erase_of_not_mem fun name member there => absent name member ⟨field, known, there⟩
  have first : changeTable (fun table => redundant.foldl Table.erase table) manifest "dependencies"
      = manifest := changeTable_eq_self (still "dependencies" (by decide))
  rw [withDependencies_eq, add_wanted_eq_self present, mapTables_eq, first]
  exact changeTable_eq_self (still "devDependencies" (by decide))

/-! ### Updates -/

/-- Whether a manifest came out of an update with some names missing and some redundant. -/
structure Fulfills (manifest result : Document) (missing redundant : List String) : Prop where
  declares name : name ∈ missing → Declares result name
  /-- A name that neither table declared is among the dependencies. -/
  added name : name ∈ missing → ¬Declares manifest name →
    (declared result "dependencies").get? name = some (.str workspaceVersion)
  dropped name : name ∈ redundant → ¬Declares result name
  /-- Any other entry stays, that of a missing name which was declared among them. -/
  kept field name : field ∈ dependencyFields → name ∉ redundant →
    (field = "dependencies" → name ∈ missing → Declares manifest name) →
    (declared result field).get? name = (declared manifest field).get? name
  /-- A table stays one, also where nothing is left in it. -/
  tables field : (table? manifest field).isSome → (table? result field).isSome
  /-- What is no table stays as it is, unless dependencies go there. -/
  plain field : table? manifest field = none →
    (field = "dependencies" → ∀ name ∈ missing, Declares manifest name) →
    result.get? field = manifest.get? field
  others : Beside manifest result

theorem update_tables {manifest : Document} {missing redundant : List String} {field : String}
    (table : (table? manifest field).isSome) :
    (table? ((updateDependencies? manifest missing redundant).getD manifest) field).isSome := by
  cases made : updateDependencies? manifest missing redundant with
  | none => exact table
  | some updated =>
      rw [Option.getD_some, update_eq_sorted made, (mapTables_shape _ _ field).1,
        withDependencies_eq, (mapTables_shape _ _ field).1]
      unfold addDependencies
      split
      · exact table
      · rw [table?_set]
        split
        · rfl
        · exact table

theorem update_plain {manifest : Document} {missing redundant : List String} {field : String}
    (plain : table? manifest field = none)
    (unused : field = "dependencies" → ∀ name ∈ missing, Declares manifest name) :
    Table.get? ((updateDependencies? manifest missing redundant).getD manifest) field
      = Table.get? manifest field := by
  have added : Table.get? (addDependencies manifest (wanted manifest missing)) field
      = Table.get? manifest field := by
    -- Where every missing name is declared nothing is wanted, so that no table is made for it.
    by_cases first : field = "dependencies"
    · rw [add_wanted_eq_self (unused first)]
    · exact get?_addDependencies manifest _ first
  have plainAdded : table? (addDependencies manifest (wanted manifest missing)) field = none := by
    rw [table?, added]
    exact plain
  cases made : updateDependencies? manifest missing redundant with
  | none => rfl
  | some updated =>
      have dropped : Table.get? (withDependencies manifest missing redundant) field
          = Table.get? manifest field := ((mapTables_shape _ _ field).2 plainAdded).trans added
      have plainDropped : table? (withDependencies manifest missing redundant) field = none := by
        rw [table?, dropped]
        exact plain
      rw [Option.getD_some, update_eq_sorted made]
      exact ((mapTables_shape _ _ field).2 plainDropped).trans dropped

section

variable {manifest : Document} (clean : Document.Clean manifest) {missing redundant : List String}
  (disjoint : ∀ name ∈ missing, name ∉ redundant)

include clean disjoint

theorem fulfills_update : Fulfills manifest
    ((updateDependencies? manifest missing redundant).getD manifest) missing redundant := by
  have adjusted := (adjusted_update clean missing redundant).1
  constructor
  · intro name member
    exact declares_iff.mpr (adjusted.declares member (disjoint name member))
  · intro name member unknown
    rw [declares_iff, not_or, ← Table.get?_eq_none_iff] at unknown
    rw [adjusted.dependencies, if_neg (disjoint name member), unknown.1, if_pos ⟨member, unknown.2⟩]
    rfl
  · rintro name member ⟨field, known, there⟩
    exact adjusted.drops member known there
  · exact fun field name known stays there => adjusted.keeps_declared stays known there
  · exact fun field table => update_tables table
  · exact fun field plain unused => update_plain plain unused
  · exact beside_update manifest missing redundant

theorem updateDependencies?_eq_none_iff :
    updateDependencies? manifest missing redundant = none ↔
      (∀ name ∈ missing, Declares manifest name) ∧ ∀ name ∈ redundant, ¬Declares manifest name := by
  constructor
  · intro settled
    have fulfills := fulfills_update clean disjoint
    rw [settled, Option.getD_none] at fulfills
    exact ⟨fulfills.declares, fulfills.dropped⟩
  · rintro ⟨present, absent⟩
    unfold updateDependencies?
    dsimp only
    rw [withDependencies_eq_self present absent, if_pos (Document.same_refl clean)]

theorem update_again :
    updateDependencies? ((updateDependencies? manifest missing redundant).getD manifest) missing
      redundant = none := by
  have fulfills := fulfills_update clean disjoint
  refine (updateDependencies?_eq_none_iff ?_ disjoint).mpr ⟨fulfills.declares, fulfills.dropped⟩
  cases made : updateDependencies? manifest missing redundant with
  | none => exact clean
  | some updated => exact (adjusted_update clean missing redundant).2 updated made

/-- An update declares the missing names, drops the redundant ones and leaves all else, sorts the
tables if it has something to write, has nothing to write exactly where all that holds already, and
leaves nothing for a second one to do. -/
theorem update_fulfills :
    Fulfills manifest ((updateDependencies? manifest missing redundant).getD manifest) missing
        redundant
      ∧ (∀ updated, updateDependencies? manifest missing redundant = some updated →
        ∀ field ∈ dependencyFields, (declared updated field).keys.Pairwise (· ≤ ·))
      ∧ (updateDependencies? manifest missing redundant = none ↔
        (∀ name ∈ missing, Declares manifest name) ∧ ∀ name ∈ redundant, ¬Declares manifest name)
      ∧ updateDependencies? ((updateDependencies? manifest missing redundant).getD manifest) missing
        redundant = none := by
  refine ⟨fulfills_update clean disjoint, fun updated made field known => ?_,
    updateDependencies?_eq_none_iff clean disjoint, update_again clean disjoint⟩
  rw [update_eq_sorted made, declared_mapTables rfl known]
  exact Table.sortKeys_sorted _

end

theorem unsorted_manifest_is_updated :
    let manifest : Document :=
      [("name", .str "a"), ("dependencies", .obj [("zod", .str "^3"), ("old", .str "*")]),
        ("private", .bool true), ("devDependencies", .obj [("b", .str "^1")])]
    let updated : Document :=
      [("name", .str "a"), ("dependencies", .obj [("c", .str "*"), ("zod", .str "^3")]),
        ("private", .bool true), ("devDependencies", .obj [("b", .str "^1")])]
    Document.Clean manifest ∧ updateDependencies? manifest ["c", "b"] ["old"] = some updated
      ∧ Fulfills manifest updated ["c", "b"] ["old"]
      ∧ updateDependencies? updated ["c", "b"] ["old"] = none := by
  intro manifest updated
  have dependencies : Document.Clean [("zod", .str "^3"), ("old", .str "*")] :=
    (Document.clean_empty.set "zod" (.str "^3")).set "old" (.str "*")
  have dev : Document.Clean [("b", .str "^1")] := Document.clean_empty.set "b" (.str "^1")
  have clean : Document.Clean manifest :=
    (((Document.clean_empty.set "name" (.str "a")).set "dependencies"
      (Document.clean_obj.mpr dependencies)).set "private" (.bool true)).set "devDependencies"
      (Document.clean_obj.mpr dev)
  have disjoint : ∀ name ∈ ["c", "b"], name ∉ ["old"] := by decide
  obtain ⟨fulfills, _, _, settled⟩ := update_fulfills clean disjoint
  exact ⟨clean, rfl, fulfills, settled⟩

end RefSync.Manifest
