/-
The root config as an aggregate. It lists each of the paths it is given once and has no
sources of its own, whatever it was before; one that is like that already needs no update.
-/

import RefSync.Proofs.Config.Usable

namespace RefSync.Config

/-- Whether a config aggregates exactly some paths: it lists each of them once, and has no
sources of its own. -/
structure Aggregates (config : Document) (wanted : String → Prop) : Prop where
  files : config.get? "files" = some (.arr [])
  noInclude : config.get? "include" = none
  noExclude : config.get? "exclude" = none
  lists : ∃ entries, Lists config entries ∧ entries.keys.Nodup
    ∧ ∀ path, path ∈ entries.keys ↔ wanted path

theorem Aggregates.congr {config : Document} {wanted asked : String → Prop}
    (aggregates : Aggregates config wanted) (same : ∀ path, wanted path ↔ asked path) :
    Aggregates config asked := by
  obtain ⟨entries, lists, once, items⟩ := aggregates.lists
  exact { aggregates with
    lists := ⟨entries, lists, once, fun path => (items path).trans (same path)⟩ }

/-- What is missing is missing from a config that is the same. -/
theorem absent_of_same {updated config : Document} (clean : Document.Clean updated)
    (same : Document.same updated config = true) {key : String}
    (absent : updated.get? key = none) : config.get? key = none := by
  cases found : config.get? key with
  | none => rfl
  | some value =>
      obtain ⟨other, held, _⟩ := Document.same_get? clean same found
      rw [absent] at held
      cases held

theorem Aggregates.of_same {updated config : Document} {wanted : String → Prop}
    (aggregates : Aggregates updated wanted) (clean : Document.Clean updated)
    (same : Document.same updated config = true) : Aggregates config wanted := by
  obtain ⟨entries, lists, once, items⟩ := aggregates.lists
  obtain ⟨others, listsOther, keys⟩ := lists_of_same lists clean same
  refine ⟨?_, absent_of_same clean same aggregates.noInclude,
    absent_of_same clean same aggregates.noExclude, others, listsOther, keys ▸ once, ?_⟩
  · obtain ⟨value, held, sames⟩ := ((Document.same_iff clean).mp same).2 _ _ aggregates.files
    obtain ⟨items, rfl, each⟩ := Json.same_arr sames
    cases each
    exact held
  · rw [keys]
    exact items

section

variable {config : Document} {target : List String}

/-- The config without sources of its own. -/
def bare (config : Document) : Document :=
  ((config.erase "include").erase "exclude").set "files" (.arr [])

theorem aggregates_setReferences {updated : Document}
    (made : setReferences (bare config) (target.map .str) = .ok updated) :
    (Document.Clean config → Document.Clean updated) ∧ Aggregates updated (· ∈ target) := by
  obtain ⟨entries, lists, once, items⟩ := lists_setReferences made
  have revises : Revises (bare config) updated := by
    refine revises_setReferences (fun _ path member => ?_) (fun path member => ?_) made
    all_goals obtain ⟨text, _, rfl⟩ := List.mem_map.mp member
    · exact .str text
    · rfl
  refine ⟨fun clean => revises.clean ((bare_keepsReferences config).clean clean), ?_⟩
  rcases setReferences_cases (bare config) (target.map .str) with ⟨_, _, failed⟩ | ⟨_, _, _, _, set⟩
  · rw [failed] at made
    cases made
  · rw [set] at made
    refine ⟨?_, ?_, ?_, entries, lists, once, items⟩
    all_goals rw [← Except.ok.inj made, bare]
    · rw [Table.get?_set, if_neg (by decide), Table.get?_set, if_pos rfl]
    · rw [Table.get?_set, if_neg (by decide), Table.get?_set, if_neg (by decide), Table.get?_erase,
        if_neg (by decide), Table.get?_erase, if_pos rfl]
    · rw [Table.get?_set, if_neg (by decide), Table.get?_set, if_neg (by decide), Table.get?_erase,
        if_pos rfl]

/-- An update puts the list into the config without sources of its own, unless that is the same. -/
theorem updateRoot?_eq_ok {update : Option Document}
    (updates : updateRoot? config target = .ok update) :
    ∃ updated, setReferences (bare config) (target.map .str) = .ok updated
      ∧ update = if updated.same config then none else some updated := by
  unfold updateRoot? at updates
  cases given : scalarPaths config with
  | error problem =>
      rw [given] at updates
      cases updates
  | ok current =>
      rw [given] at updates
      replace updates : (setReferences (bare config) (target.map .str) >>= fun updated =>
        Except.ok (if updated.same config then none else some updated)) = .ok update := updates
      cases made : setReferences (bare config) (target.map .str) with
      | error problem =>
          rw [made] at updates
          cases updates
      | ok updated =>
          rw [made] at updates
          exact ⟨updated, rfl, (Except.ok.inj updates).symm⟩

/-- A config that needs no update to aggregate some paths aggregates them, and an update makes it
do so. -/
theorem aggregates_updateRoot (clean : Document.Clean config) {update : Option Document}
    (updates : updateRoot? config target = .ok update) :
    (∀ updated, update = some updated → Document.Clean updated)
      ∧ Aggregates (update.getD config) (· ∈ target) := by
  obtain ⟨updated, made, chosen⟩ := updateRoot?_eq_ok updates
  obtain ⟨cleans, aggregates⟩ := aggregates_setReferences made
  rw [chosen]
  split
  · rename_i same
    exact ⟨nofun, aggregates.of_same (cleans clean) same⟩
  · refine ⟨?_, aggregates⟩
    rintro _ ⟨rfl⟩
    exact cleans clean

theorem updateRoot?_ok {entries : Table Json} (lists : Lists config entries)
    (clean : Document.Clean config) (target : List String) :
    ∃ update, updateRoot? config target = .ok update
      ∧ (∀ updated, update = some updated → Document.Clean updated)
      ∧ Aggregates (update.getD config) (· ∈ target) := by
  cases updates : updateRoot? config target with
  | error problem =>
      have unusable := updateRoot?_eq_error updates
      rw [scalarPaths_of_lists lists] at unusable
      cases unusable
  | ok update => exact ⟨update, rfl, aggregates_updateRoot clean updates⟩

/-- A config that aggregates exactly some paths passes for one that does. -/
theorem Aggregates.satisfies (aggregates : Aggregates config (· ∈ target)) (once : target.Nodup) :
    isRootSatisfactory config target = .ok true := by
  obtain ⟨entries, lists, entriesOnce, items⟩ := aggregates.lists
  have absent {key : String} (none : config.get? key = none) : config.contains key = false := by
    rw [← Bool.not_eq_true, Table.contains_iff, none]
    decide
  have same : entries.keys.length = target.length ∧ sameItems entries.keys target = true := by
    have arrangement := sameArrangement_iff.mpr
      ⟨((List.perm_ext_iff_of_nodup entriesOnce once).mpr items).length_eq, items⟩
    rw [sameArrangement, Bool.and_eq_true, beq_iff_eq] at arrangement
    exact arrangement
  unfold isRootSatisfactory
  rw [aggregates.files, absent aggregates.noInclude, absent aggregates.noExclude,
    referencePaths_of_lists lists, scalarPaths_of_lists lists]
  change (if (entries.keys.map Json.str).length != target.length then Except.ok false
    else .ok (sameItems (entries.keys.map Json.str) (target.map Json.str))) = _
  rw [List.length_map, same.1, sameItems_map str_beq, same.2, if_neg (by simp)]

end

end RefSync.Config
