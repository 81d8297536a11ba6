/-
Configs whose references can be worked with. The updates of a config fail for no other
reason than its references, and what they make of a config that can be worked with is one
again, whatever its aliases and options are.
-/

import Mathlib.Data.Set.List
import RefSync.Proofs.Config.References
import RefSync.Update

namespace RefSync

namespace Config

/-- Whether the paths that a config references can be looked up. -/
def Usable (config : Document) : Prop :=
  ∃ paths, scalarPaths config = .ok paths

instance (config : Document) : Decidable (Usable config) :=
  match paths : scalarPaths config with
  | .ok given => .isTrue ⟨given, paths⟩
  | .error _ => .isFalse fun ⟨_, given⟩ => by rw [paths] at given; cases given

/-- An update that leaves a clean config clean, a usable one usable, and one that has what a build
needs with that. -/
structure Revises (before after : Document) : Prop where
  clean : Document.Clean before → Document.Clean after
  usable : Usable before → Usable after
  satisfactory : Satisfactory before → Satisfactory after

variable {config updated : Document} {problem : ReferenceFault}

/-! ### The reference list -/

theorem references_congr {before after : Document}
    (same : after.get? "references" = before.get? "references") :
    references after = references before := by
  rw [references, references, same]

theorem scalarPaths_congr {before after : Document}
    (same : after.get? "references" = before.get? "references") :
    scalarPaths after = scalarPaths before := by
  rw [scalarPaths, scalarPaths, referencePaths, referencePaths, references_congr same]

theorem KeepsReferences.revises {before after : Document} (keeps : KeepsReferences before after) :
    Revises before after :=
  ⟨keeps.clean, fun ⟨paths, given⟩ => ⟨paths, (scalarPaths_congr keeps.references).trans given⟩,
    keeps.satisfactory⟩

theorem scalarPaths_eq_ok {paths : List Json} :
    scalarPaths config = .ok paths ↔ ∃ present, references config = .ok present
      ∧ present.map (·.1) = paths ∧ ∀ path ∈ paths, isScalar path = true := by
  unfold scalarPaths referencePaths
  cases listed : references config with
  | error problem =>
      constructor
      · nofun
      · rintro ⟨_, ⟨⟩, _⟩
  | ok present =>
      change (if (present.map (·.1)).all isScalar then Except.ok (present.map (·.1))
        else .error ReferenceFault.pathNotScalar) = .ok paths ↔ _
      constructor
      · intro given
        split at given
        · rename_i scalar
          cases given
          exact ⟨present, rfl, rfl, List.all_eq_true.mp scalar⟩
        · cases given
      · rintro ⟨_, ⟨rfl⟩, rfl, scalar⟩
        rw [if_pos (List.all_eq_true.mpr scalar)]

/-- What is the same as a path that can be looked up can be looked up. -/
theorem isScalar_of_same {one other : Json} (same : (one == other) = true)
    (scalar : isScalar other = true) : isScalar one = true := by
  cases one with
  | arr items => cases other <;> first | cases same | cases scalar
  | obj members => cases other <;> first | cases same | cases scalar
  | _ => rfl

/-- The references of a config are objects in its list. -/
theorem mem_references {present : List (Json × Json)} (listed : references config = .ok present)
    {path entry : Json} (member : (path, entry) ∈ present) :
    ∃ items members, config.get? "references" = some (.arr items) ∧ entry ∈ items
      ∧ entry = .obj members ∧ Table.get? members "path" = some path := by
  unfold references at listed
  split at listed
  · rename_i items found
    cases listed
    obtain ⟨item, inItems, made⟩ := List.mem_filterMap.mp member
    cases item with
    | obj members =>
        obtain ⟨_, held, ⟨rfl, rfl⟩⟩ := Option.map_eq_some_iff.mp made
        exact ⟨items, members, found, inItems, rfl, held⟩
    | _ => cases made
  · cases listed
    cases member
  · cases listed
    cases member
  · cases listed
    cases member
  · split at listed
    · cases listed
    · cases listed
      cases member

/-- The entry of a path is a reference of the config, to the same, or a new one. -/
theorem entryFor_cases (present : List (Json × Json)) (path : Json) :
    (∃ same entry, (same, entry) ∈ present ∧ (same == path) = true
        ∧ entryFor present path = entry)
      ∨ entryFor present path = .obj [("path", path)] := by
  unfold entryFor
  cases found : present.reverse.find? (·.1 == path) with
  | none => exact Or.inr rfl
  | some entry =>
      left
      have same := List.find?_some found
      exact ⟨entry.1, entry.2, List.mem_reverse.mp (List.mem_of_find?_eq_some found), same, rfl⟩

theorem mem_of_mem_distinct {α : Type} [BEq α] {item : α} {items : List α}
    (member : item ∈ distinct items) : item ∈ items := by
  induction items with
  | nil => exact member
  | cons head rest ih =>
      rcases List.mem_cons.mp member with same | inRest
      · rw [same]
        exact List.mem_cons_self
      · exact List.mem_cons_of_mem head (ih (List.mem_filter.mp inRest).1)

/-- Replacing the list fails only where it cannot be read, and lists the paths or what it
listed before. -/
theorem setReferences_cases (config : Document) (target : List Json) :
    (∃ problem, references config = .error problem
        ∧ setReferences config target = .error problem)
      ∨ ∃ (present : List (Json × Json)) (ordered : List Json), references config = .ok present
        ∧ (∀ path ∈ ordered, path ∈ target ∨ ∃ entry, (path, entry) ∈ present)
        ∧ setReferences config target
          = .ok (config.set "references" (.arr (ordered.map (entryFor present)))) := by
  unfold setReferences
  cases listed : references config with
  | error problem => exact Or.inl ⟨problem, rfl, rfl⟩
  | ok present =>
      refine Or.inr ⟨present, _, rfl, ?_, rfl⟩
      intro path member
      split at member
      · obtain ⟨entry, inPresent, rfl⟩ := List.mem_map.mp member
        exact Or.inr ⟨entry.2, inPresent⟩
      · exact Or.inl (mem_of_mem_distinct member)

theorem revises_setReferences {target : List Json}
    (clean : Document.Clean config → ∀ path ∈ target, path.Clean)
    (scalar : ∀ path ∈ target, isScalar path = true)
    (made : setReferences config target = .ok updated) : Revises config updated := by
  rcases setReferences_cases config target with ⟨_, _, failed⟩ | ⟨present, ordered, listed, from_, set⟩
  · rw [failed] at made
    cases made
  rw [set] at made
  cases made
  refine ⟨?_, ?_, fun satisfactory => ?_⟩
  · intro cleanConfig
    apply cleanConfig.set
    apply Json.Clean.arr
    intro item member
    obtain ⟨path, inOrdered, rfl⟩ := List.mem_map.mp member
    have cleanItems {given entry : Json} (inPresent : (given, entry) ∈ present) :
        given.Clean ∧ entry.Clean := by
      obtain ⟨items, members, found, inItems, rfl, held⟩ := mem_references listed inPresent
      have cleanList := cleanConfig.get? found
      cases cleanList with
      | arr _ each =>
          have cleanEntry := each _ inItems
          exact ⟨(Document.clean_obj.mp cleanEntry).get? held, cleanEntry⟩
    rcases entryFor_cases present path with ⟨same, entry, inPresent, _, made⟩ | made
    · rw [made]
      exact (cleanItems inPresent).2
    · have cleanPath : path.Clean := by
        rcases from_ path inOrdered with inTarget | ⟨entry, inPresent⟩
        · exact clean cleanConfig path inTarget
        · exact (cleanItems inPresent).1
      rw [made]
      refine .obj _ (List.nodup_singleton _) fun entry member => ?_
      rw [List.mem_singleton.mp member]
      exact cleanPath
  · rintro ⟨paths, given⟩
    obtain ⟨before, beforeListed, rfl, scalars⟩ := scalarPaths_eq_ok.mp given
    rw [listed] at beforeListed
    cases beforeListed
    have orderedScalar : ∀ path ∈ ordered, isScalar path = true := by
      intro path member
      rcases from_ path member with inTarget | ⟨entry, inPresent⟩
      · exact scalar path inTarget
      · exact scalars path (List.mem_map_of_mem inPresent)
    have after : references (config.set "references" (.arr (ordered.map (entryFor present))))
        = .ok ((ordered.map (entryFor present)).filterMap reference?) := by
      rw [references, Table.get?_set, if_pos rfl]
    refine ⟨_, scalarPaths_eq_ok.mpr ⟨_, after, rfl, ?_⟩⟩
    intro path member
    obtain ⟨reference, inReferences, rfl⟩ := List.mem_map.mp member
    obtain ⟨item, inItems, made⟩ := List.mem_filterMap.mp inReferences
    obtain ⟨wanted, inOrdered, rfl⟩ := List.mem_map.mp inItems
    rcases entryFor_cases present wanted with ⟨same, entry, inPresent, sames, isEntry⟩ | isNew
    · obtain ⟨items, members, found, _, rfl, held⟩ := mem_references listed inPresent
      rw [isEntry, reference?, held] at made
      cases made
      exact isScalar_of_same sames (orderedScalar wanted inOrdered)
    · rw [isNew] at made
      cases made
      exact orderedScalar wanted inOrdered
  · rw [Satisfactory, Table.get?_set, if_neg (by decide)]
    exact satisfactory

theorem setReferences_eq_error {target : List Json}
    (failed : setReferences config target = .error problem) :
    scalarPaths config = .error problem := by
  rcases setReferences_cases config target with ⟨_, listed, same⟩ | ⟨_, _, _, _, set⟩
  · rw [same] at failed
    cases failed
    rw [scalarPaths, referencePaths, listed]
    rfl
  · rw [set] at failed
    cases failed

/-- The target paths are texts, in whichever order they are listed. -/
private theorem texts_of_arrangement (current : List Json) (target : List String) :
    ∃ paths : List String, paths.Nodup ∧ (∀ path, path ∈ paths ↔ path ∈ target)
      ∧ (if sameArrangement current (distinct (target.map Json.str)) then current
        else distinct (target.map Json.str)) = paths.map .str := by
  rw [distinct_map str_beq]
  split
  · rename_i same
    have each : current ∈ Set.range (List.map Json.str) := by
      rw [Set.range_list_map]
      intro path member
      rw [sameArrangement, Bool.and_eq_true, sameItems, Bool.and_eq_true] at same
      have within := List.all_eq_true.mp same.2.1 path member
      rw [List.contains_eq_any_beq, List.any_eq_true] at within
      obtain ⟨wanted, inTarget, equal⟩ := within
      obtain ⟨text, _, rfl⟩ := List.mem_map.mp inTarget
      exact ⟨text, (beq_str.mp equal).symm⟩
    obtain ⟨texts, rfl⟩ := each
    rw [sameArrangement_map str_beq] at same
    refine ⟨arranged texts target, arranged_nodup texts target, fun _ => mem_arranged, ?_⟩
    rw [arranged, if_pos same]
  · exact ⟨distinct target, distinct_nodup target, fun _ => mem_distinct, rfl⟩

/-- A list that was replaced lists the target paths once each, whatever it was before. -/
theorem lists_setReferences {target : List String}
    (made : setReferences config (target.map .str) = .ok updated) :
    ∃ entries, Lists updated entries ∧ entries.keys.Nodup ∧ ∀ path, path ∈ entries.keys ↔ path ∈ target := by
  unfold setReferences at made
  cases listed : references config with
  | error problem =>
      rw [listed] at made
      cases made
  | ok present =>
      rw [listed] at made
      obtain ⟨paths, once, items, ordered⟩ := texts_of_arrangement (present.map (·.1)) target
      let entries : Table Json := paths.map fun path => (path, entryFor present (.str path))
      have keys : entries.keys = paths := by
        rw [Table.keys, List.map_map]
        exact List.map_id _
      have same : updated = config.set "references" (.arr (entries.map (·.2))) := by
        have chosen := Except.ok.inj made
        rw [← chosen, ordered, List.map_map, List.map_map]
        rfl
      refine ⟨entries, ⟨fun entry member => ?_, Or.inl ?_⟩, keys ▸ once, fun path => ?_⟩
      · obtain ⟨path, _, rfl⟩ := List.mem_map.mp member
        rcases entryFor_cases present (.str path) with ⟨given, entry, inPresent, equal, isEntry⟩ | isNew
        · obtain ⟨_, members, _, _, rfl, held⟩ := mem_references listed inPresent
          rw [beq_str.mp equal] at held
          exact ⟨members, isEntry, held⟩
        · exact ⟨_, isNew, rfl⟩
      · rw [same, Table.get?_set, if_pos rfl]
      · rw [keys]
        exact items path

/-! ### The updates -/

private theorem str_targets (target : List String) :
    (∀ path ∈ target.map Json.str, path.Clean) ∧ ∀ path ∈ target.map Json.str, isScalar path = true := by
  constructor
  · intro path member
    obtain ⟨text, _, rfl⟩ := List.mem_map.mp member
    exact .str text
  · intro path member
    obtain ⟨text, _, rfl⟩ := List.mem_map.mp member
    rfl

/-- A new list, or the update before it if there is none and none is needed. -/
private theorem withReferences_cases {aliasFor : String → Option String} {target : List String}
    (known : ∀ path ∈ target, (aliasFor path).isSome) :
    (∃ problem, scalarPaths config = .error problem
        ∧ withReferences config target aliasFor = .error problem)
      ∨ ∃ between, KeepsReferences config between
        ∧ ((target = [] ∧ config.get? "references" = none)
            ∧ withReferences config target aliasFor = .ok between
          ∨ withReferences config target aliasFor = setReferences between (target.map .str)) := by
  cases given : scalarPaths config with
  | error problem =>
      refine Or.inl ⟨problem, rfl, ?_⟩
      rw [withReferences, given]
      rfl
  | ok current =>
      right
      have missingKnown : ∀ path ∈ (missingItems current (target.map Json.str)).filterMap Json.str?,
          (aliasFor path).isSome := by
        intro path member
        obtain ⟨item, inMissing, text⟩ := List.mem_filterMap.mp member
        have wanted := mem_of_mem_distinct (List.mem_filter.mp inMissing).1
        obtain ⟨same, inTarget, rfl⟩ := List.mem_map.mp wanted
        cases text
        exact known _ inTarget
      obtain ⟨between, added, keeps, _⟩ := addAliases_ok _ missingKnown
        (removeAliases config (redundantItems current (target.map Json.str)))
      have removed := keepsReferences_removeAliases config
        (redundantItems current (target.map Json.str))
      have result : withReferences config target aliasFor
          = if target.isEmpty && !config.contains "references" then .ok between
            else setReferences between (target.map .str) := by
        rw [withReferences, given]
        change (addAliases _ _ aliasFor >>= fun updated =>
          if target.isEmpty && !config.contains "references" then .ok updated
          else setReferences updated (target.map Json.str)) = _
        rw [added]
        rfl
      refine ⟨between, removed.trans keeps, ?_⟩
      rw [result]
      split
      · rename_i bare
        rw [Bool.and_eq_true, List.isEmpty_iff, Bool.not_eq_true', ← Bool.not_eq_true,
          Table.contains_iff, Option.not_isSome_iff_eq_none] at bare
        exact Or.inl ⟨bare, rfl⟩
      · exact Or.inr rfl

theorem Revises.trans {before between after : Document} (first : Revises before between)
    (second : Revises between after) : Revises before after :=
  ⟨fun clean => second.clean (first.clean clean), fun usable => second.usable (first.usable usable),
    fun satisfactory => second.satisfactory (first.satisfactory satisfactory)⟩

/-- What is compared before it is written was made by an update. -/
private theorem made_of_compared {made : Except ReferenceFault Document}
    (update : (made >>= fun updated => .ok (if updated.same config then none else some updated))
      = Except.ok (some updated)) : made = .ok updated := by
  cases made with
  | error problem => cases update
  | ok document =>
      have chosen := Except.ok.inj update
      split at chosen
      · cases chosen
      · exact congrArg Except.ok (Option.some.inj chosen)

private theorem failed_of_compared {made : Except ReferenceFault Document}
    (update : (made >>= fun updated => .ok (if updated.same config then none else some updated))
      = Except.error problem) : made = .error problem := by
  cases made with
  | error given => exact congrArg Except.error (Except.error.inj update)
  | ok document => cases update

section

variable {aliasFor : String → Option String} {target : List String}

private theorem revises_withReferences (known : ∀ path ∈ target, (aliasFor path).isSome)
    (made : withReferences config target aliasFor = .ok updated) : Revises config updated := by
  rcases withReferences_cases known with ⟨_, _, failed⟩ | ⟨between, keeps, ⟨_, same⟩ | set⟩
  · rw [failed] at made
    cases made
  · rw [same] at made
    cases made
    exact keeps.revises
  · rw [set] at made
    obtain ⟨clean, scalar⟩ := str_targets target
    exact keeps.revises.trans (revises_setReferences (fun _ => clean) scalar made)

theorem revises_updateReferences (known : ∀ path ∈ target, (aliasFor path).isSome)
    (update : updateReferences? config target aliasFor = .ok (some updated)) :
    Revises config updated :=
  revises_withReferences known (made_of_compared update)

/-- An update that goes through leaves a config that lists the target paths once each, whatever it
was before. -/
theorem updateReferences?_lists (clean : Document.Clean config)
    (known : ∀ path ∈ target, (aliasFor path).isSome) {update : Option Document}
    (updates : updateReferences? config target aliasFor = .ok update) :
    ∃ entries, Lists (update.getD config) entries ∧ entries.keys.Nodup
      ∧ ∀ path, path ∈ entries.keys ↔ path ∈ target := by
  cases made : withReferences config target aliasFor with
  | error problem =>
      rw [updateReferences?, made] at updates
      cases updates
  | ok updated =>
      have lists : ∃ entries, Lists updated entries ∧ entries.keys.Nodup
          ∧ ∀ path, path ∈ entries.keys ↔ path ∈ target := by
        rcases withReferences_cases known with
          ⟨_, _, failed⟩ | ⟨between, keeps, ⟨⟨none, absent⟩, same⟩ | set⟩
        · rw [failed] at made
          cases made
        · rw [same] at made
          cases made
          rw [none]
          exact ⟨[], ⟨List.forall_mem_nil _, Or.inr ⟨keeps.references.trans absent, rfl⟩⟩, List.nodup_nil,
            fun _ => Iff.rfl⟩
        · exact lists_setReferences (set.symm.trans made)
      obtain ⟨entries, lists, once, items⟩ := lists
      have chosen : (if updated.same config then none else some updated) = update := by
        rw [updateReferences?, made] at updates
        exact Except.ok.inj updates
      rw [← chosen]
      split
      · rename_i same
        obtain ⟨others, listsConfig, keys⟩ :=
          lists_of_same lists ((revises_withReferences known made).clean clean) same
        exact ⟨others, listsConfig, keys ▸ once, fun path => keys ▸ items path⟩
      · exact ⟨entries, lists, once, items⟩

theorem updateReferences?_eq_error (known : ∀ path ∈ target, (aliasFor path).isSome)
    (failed : updateReferences? config target aliasFor = .error problem) :
    scalarPaths config = .error problem := by
  have made : withReferences config target aliasFor = .error problem := failed_of_compared failed
  rcases withReferences_cases known with ⟨_, given, same⟩ | ⟨between, keeps, ⟨_, same⟩ | set⟩
  · rw [same] at made
    cases made
    exact given
  · rw [same] at made
    cases made
  · rw [set] at made
    exact (scalarPaths_congr keeps.references).symm.trans (setReferences_eq_error made)

end

theorem keepsReferences_renameAlias {old new : String}
    (renamed : renameAlias? config old new = some updated) : KeepsReferences config updated := by
  obtain ⟨aliases, found, moved⟩ := Option.bind_eq_some_iff.mp renamed
  have cleanMoved {aliases : Document} (clean : Document.Clean aliases) (old new : String) :
      Document.Clean (moveAlias aliases old new) := by
    unfold moveAlias
    cases targets : Table.get? aliases old with
    | none => exact clean
    | some value => exact (clean.erase old).set new (clean.get? targets)
  split at moved
  · cases moved
    apply keepsReferences_setAliases
    intro clean
    exact cleanMoved (cleanMoved (clean_aliases clean found) _ _) _ _
  · cases moved

theorem moved_keepsReferences (config : Document) (renamed : Option (String × String)) :
    KeepsReferences config
      ((renamed.bind fun (old, new) => renameAlias? config old new).getD config) := by
  cases moved : renamed.bind fun (old, new) => renameAlias? config old new with
  | none => exact .refl config
  | some document =>
      obtain ⟨names, _, made⟩ := Option.bind_eq_some_iff.mp moved
      exact keepsReferences_renameAlias made

/-- Aliases are renamed in a list that is there. -/
private theorem renamedConfig?_eq (config : Document) (renamed : Option (String × String)) :
    Update.renamedConfig? config renamed = .ok none
      ∨ ∃ moved, KeepsReferences config moved ∧ Update.renamedConfig? config renamed
        = tidyReferences moved >>= fun updated =>
          .ok (if updated.same config then none else some updated) := by
  unfold Update.renamedConfig?
  cases config.contains "references" with
  | false => exact Or.inl rfl
  | true => exact Or.inr ⟨_, moved_keepsReferences config renamed, rfl⟩

theorem revises_renamedConfig {renamed : Option (String × String)}
    (update : Update.renamedConfig? config renamed = .ok (some updated)) :
    Revises config updated := by
  rcases renamedConfig?_eq config renamed with none | ⟨moved, keeps, made⟩
  · rw [none] at update
    cases update
  · rw [made] at update
    have tidied := made_of_compared update
    unfold tidyReferences at tidied
    cases given : scalarPaths moved with
    | error problem =>
        rw [given] at tidied
        cases tidied
    | ok current =>
        rw [given] at tidied
        change (if current.isEmpty && !moved.contains "references" then Except.ok moved
          else setReferences moved current) = .ok updated at tidied
        split at tidied
        · cases tidied
          exact keeps.revises
        · obtain ⟨present, listed, rfl, scalar⟩ := scalarPaths_eq_ok.mp given
          refine keeps.revises.trans (revises_setReferences (fun clean path member => ?_) scalar
            tidied)
          obtain ⟨reference, inPresent, rfl⟩ := List.mem_map.mp member
          obtain ⟨items, members, found, inItems, same, held⟩ := mem_references listed inPresent
          have cleanList := clean.get? found
          cases cleanList with
          | arr _ each =>
              have cleanEntry := each _ inItems
              rw [same] at cleanEntry
              exact (Document.clean_obj.mp cleanEntry).get? held

theorem renamedConfig?_eq_error {renamed : Option (String × String)}
    (failed : Update.renamedConfig? config renamed = .error problem) :
    scalarPaths config = .error problem := by
  rcases renamedConfig?_eq config renamed with none | ⟨moved, keeps, made⟩
  · rw [none] at failed
    cases failed
  · rw [made] at failed
    have tidied := failed_of_compared failed
    rw [← scalarPaths_congr keeps.references]
    unfold tidyReferences at tidied
    cases given : scalarPaths moved with
    | error other =>
        rw [given] at tidied
        exact congrArg Except.error (Except.error.inj tidied)
    | ok current =>
        rw [given] at tidied
        change (if current.isEmpty && !moved.contains "references" then Except.ok moved
          else setReferences moved current) = .error problem at tidied
        split at tidied
        · cases tidied
        · rw [← given]
          exact setReferences_eq_error tidied

/-- A root config without sources of its own has the references it had. -/
theorem bare_keepsReferences (config : Document) :
    KeepsReferences config (((config.erase "include").erase "exclude").set "files" (.arr [])) where
  references := by
    rw [Table.get?_set, if_neg (by decide), Table.get?_erase, if_neg (by decide),
      Table.get?_erase, if_neg (by decide)]
  clean clean := ((clean.erase _).erase _).set _ (.arr [] nofun)
  satisfactory satisfactory := by
    unfold Satisfactory
    rw [Table.get?_set, if_neg (by decide), Table.get?_erase, if_neg (by decide), Table.get?_erase,
      if_neg (by decide)]
    exact satisfactory

theorem revises_updateRoot {target : List String}
    (update : updateRoot? config target = .ok (some updated)) : Revises config updated := by
  unfold updateRoot? at update
  cases given : scalarPaths config with
  | error problem =>
      rw [given] at update
      cases update
  | ok current =>
      rw [given] at update
      have made := made_of_compared update
      obtain ⟨clean, scalar⟩ := str_targets target
      exact (bare_keepsReferences config).revises.trans
        (revises_setReferences (fun _ => clean) scalar made)

theorem updateRoot?_eq_error {target : List String}
    (failed : updateRoot? config target = .error problem) : scalarPaths config = .error problem := by
  unfold updateRoot? at failed
  cases given : scalarPaths config with
  | error other =>
      rw [given] at failed
      exact congrArg Except.error (Except.error.inj failed)
  | ok current =>
      rw [given] at failed
      have made := setReferences_eq_error (failed_of_compared failed)
      rw [scalarPaths_congr (bare_keepsReferences config).references, given] at made
      cases made

theorem revises_configure {jsx force : Bool}
    (update : configure? config jsx force = some updated) : Revises config updated := by
  have made : updated = repaired config jsx := by
    unfold configure? at update
    split at update
    · cases update
    · dsimp only at update
      split at update <;> cases update
      rfl
  rw [made]
  refine KeepsReferences.revises ⟨?_, fun clean => clean_repaired clean jsx,
    fun _ => satisfactory_repaired config jsx⟩
  rw [repaired, Table.get?_set, if_neg (by decide)]

/-! ### New configs -/

theorem clean_newWorkspace (jsx : Bool) : Document.Clean (newWorkspace jsx) := by
  have options : Document.Clean (if jsx then defaultOptions ++ [("jsx", .str "preserve")]
      else defaultOptions) := by
    cases jsx with
    | false => exact ⟨by decide, clean_defaultOptions⟩
    | true =>
        refine ⟨by decide, fun entry member => ?_⟩
        rcases List.mem_append.mp member with inDefaults | isJsx
        · exact clean_defaultOptions entry inDefaults
        · rw [List.mem_singleton.mp isJsx]
          exact .str _
  refine ⟨by cases jsx <;> decide, fun entry member => ?_⟩
  rcases List.mem_cons.mp member with rfl | inRest
  · refine .arr _ fun item inItems => ?_
    obtain ⟨text, _, rfl⟩ := List.mem_map.mp inItems
    exact .str text
  · rw [List.mem_singleton.mp inRest]
    exact Document.clean_obj.mpr options

theorem usable_newWorkspace (jsx : Bool) : Usable (newWorkspace jsx) :=
  ⟨[], by cases jsx <;> rfl⟩

theorem usable_empty : Usable [] :=
  ⟨[], rfl⟩

/-- Whether a config may have been made of one that was found in its place, or of none: it is as
good as that one was. -/
structure Made (found : Option Document) (updated : Document) : Prop where
  clean : Document.Clean updated
  usable : (∀ config, found = some config → Usable config) → Usable updated
  satisfactory config : found = some config → Satisfactory config → Satisfactory updated

theorem Revises.made {updated : Document} (revises : Revises config updated)
    (clean : Document.Clean config) : Made (some config) updated where
  clean := revises.clean clean
  usable usable := revises.usable (usable config rfl)
  satisfactory := by
    rintro _ ⟨rfl⟩
    exact revises.satisfactory

theorem Revises.makes {updated : Document} (revises : Revises config updated)
    (clean : Document.Clean config) (usable : Usable config) : Made none updated :=
  ⟨revises.clean clean, fun _ => revises.usable usable, nofun⟩

theorem made_newWorkspace (jsx : Bool) : Made none (newWorkspace jsx) :=
  ⟨clean_newWorkspace jsx, fun _ => usable_newWorkspace jsx, nofun⟩

end Config
end RefSync
