/-
Repairs and the checks that look for what they do. A repaired config passes its check, one that
passes needs no repair, and a second repair finds nothing to do. What a check does not look at is
left as it was.
-/

import RefSync.Proofs.Config.Root
import RefSync.Proofs.Config.Updated

namespace RefSync.Config

/-! ### The root config -/

/-- Whether the references of a config, if it has any, are a list in which the paths of objects are
texts. Anything else may stand among them. -/
def PathsAreTexts (config : Document) : Prop :=
  config.get? "references" = none ∨ ∃ items, config.get? "references" = some (.arr items)
    ∧ ∀ members path, .obj members ∈ items → Table.get? members "path" = some path →
      ∃ text, path = .str text

theorem PathsAreTexts.usable {config : Document} (texts : PathsAreTexts config) : Usable config := by
  rcases texts with absent | ⟨items, listed, texts⟩
  · refine ⟨[], scalarPaths_eq_ok.mpr ⟨[], ?_, rfl, nofun⟩⟩
    rw [references, absent]
  · have present : references config = .ok (items.filterMap reference?) := by
      rw [references, listed]
    refine ⟨_, scalarPaths_eq_ok.mpr ⟨_, present, rfl, fun path member => ?_⟩⟩
    obtain ⟨reference, inReferences, rfl⟩ := List.mem_map.mp member
    obtain ⟨_, members, found, inItems, isObject, held⟩ := mem_references present inReferences
    rw [listed] at found
    cases found
    obtain ⟨text, isText⟩ := texts members reference.1 (isObject ▸ inItems) held
    rw [isText]
    rfl

section

variable {config : Document} {target : List String} {update : Option Document}

/-- The keys that make a root config an aggregate. -/
def rootKeys : List String := ["files", "include", "exclude", "references"]

theorem get?_updateRoot (updates : updateRoot? config target = .ok update) {key : String}
    (other : key ∉ rootKeys) : (update.getD config).get? key = config.get? key := by
  obtain ⟨updated, made, chosen⟩ := updateRoot?_eq_ok updates
  rw [chosen]
  split
  · rfl
  · simp only [rootKeys, List.mem_cons, List.not_mem_nil, or_false, not_or] at other
    obtain ⟨notFiles, notInclude, notExclude, notReferences⟩ := other
    rcases setReferences_cases (bare config) (target.map .str) with ⟨_, _, failed⟩ | ⟨_, _, _, _, set⟩
    · rw [failed] at made
      cases made
    · rw [set] at made
      rw [← Except.ok.inj made, Option.getD_some, Table.get?_set, if_neg notReferences, bare,
        Table.get?_set, if_neg notFiles, Table.get?_erase, if_neg notExclude, Table.get?_erase,
        if_neg notInclude]

/-- A root config has a reference list afterwards, even an empty one. -/
theorem references_updateRoot (clean : Document.Clean config)
    (updates : updateRoot? config target = .ok update) :
    (update.getD config).get? "references" ≠ none := by
  obtain ⟨updated, made, chosen⟩ := updateRoot?_eq_ok updates
  have present : ∃ items, updated.get? "references" = some items := by
    rcases setReferences_cases (bare config) (target.map .str) with ⟨_, _, failed⟩ | ⟨_, _, _, _, set⟩
    · rw [failed] at made
      cases made
    · rw [set] at made
      rw [← Except.ok.inj made, Table.get?_set, if_pos rfl]
      exact ⟨_, rfl⟩
  obtain ⟨items, found⟩ := present
  rw [chosen]
  split
  · rename_i same
    obtain ⟨other, held, _⟩ := ((Document.same_iff ((aggregates_setReferences made).1 clean)).mp
      same).2 _ _ found
    rw [Option.getD_none, held]
    exact nofun
  · rw [Option.getD_some, found]
    exact nofun

theorem Aggregates.bare_eq {wanted : String → Prop} (aggregates : Aggregates config wanted) :
    bare config = config := by
  have noInclude := Table.erase_of_not_mem (Table.get?_eq_none_iff.mp aggregates.noInclude)
  have noExclude := Table.erase_of_not_mem (Table.get?_eq_none_iff.mp aggregates.noExclude)
  rw [bare, noInclude, noExclude, Table.set_of_get? aggregates.files]

/-- A config that aggregates the target paths, and says so in a list, needs no update. -/
theorem Aggregates.updateRoot? (aggregates : Aggregates config (· ∈ target))
    (clean : Document.Clean config) (listed : config.get? "references" ≠ none) :
    updateRoot? config target = .ok none := by
  obtain ⟨entries, lists, once, items⟩ := aggregates.lists
  have stored : config.get? "references" = some (.arr (entries.map (·.2))) :=
    lists.listed.resolve_right fun absent => listed absent.1
  have kept : (arranged entries.keys target).map (entryOf entries) = entries.map (·.2) := by
    have same := congrArg (List.map (·.2)) (updatedEntries_same once items)
    rw [updatedEntries, List.map_map] at same
    exact same
  have made : setReferences (bare config) (target.map .str) = .ok config := by
    rw [aggregates.bare_eq, setReferences_of_lists lists, kept, Table.set_of_get? stored]
  unfold Config.updateRoot?
  rw [scalarPaths_of_lists lists]
  change (setReferences (bare config) (target.map .str) >>= fun updated =>
    Except.ok (if updated.same config then none else some updated)) = _
  rw [made]
  change Except.ok (if config.same config = true then none else some config) = _
  rw [if_pos (Document.same_refl clean)]

end

/-! ### Repairs -/

/-- Whether a root config is one that was made to aggregate some paths. -/
structure IsRepairedRoot (config : Document) (target : List String) (result : Document) : Prop where
  satisfactory paths : paths.Perm target → isRootSatisfactory result paths = .ok true
  settled paths : paths.Perm target → updateRoot? result paths = .ok none
  others key : key ∉ rootKeys → result.get? key = config.get? key

/-- Whether a config of a workspace is one that was given what a composite build needs. -/
structure IsRepairedWorkspace (config : Document) (jsx force : Bool) (result : Document) : Prop where
  satisfactory : Satisfactory result
  settled : configure? result jsx force = none
  others key : key ≠ "compilerOptions" → result.get? key = config.get? key
  /-- What is no default stays, and `jsx` comes where it was asked for and is not there. -/
  options before : options? config = some before → ∃ after, options? result = some after
    ∧ ∀ key ∉ defaultOptions.keys, Table.get? after key = Table.get? before key
      ∨ jsx = true ∧ key = "jsx" ∧ Table.get? before key = none
        ∧ Table.get? after key = some (.str "preserve")

theorem isRepairedRoot_update {config : Document} {target : List String} {update : Option Document}
    (clean : Document.Clean config) (once : target.Nodup)
    (updates : updateRoot? config target = .ok update) :
    IsRepairedRoot config target (update.getD config) := by
  obtain ⟨cleans, aggregates⟩ := aggregates_updateRoot clean updates
  have cleanResult : Document.Clean (update.getD config) := by
    cases update with
    | none => exact clean
    | some updated => exact cleans updated rfl
  have aggregatesAny {paths : List String} (same : paths.Perm target) :
      Aggregates (update.getD config) (· ∈ paths) :=
    aggregates.congr fun path => same.mem_iff.symm
  exact
    { satisfactory := fun paths same => (aggregatesAny same).satisfies (same.nodup_iff.mpr once)
      settled := fun paths same =>
        (aggregatesAny same).updateRoot? cleanResult (references_updateRoot clean updates)
      others := fun key other => get?_updateRoot updates other }

theorem isRepairedWorkspace_repaired {config : Document} (clean : Document.Clean config)
    (jsx force : Bool) : IsRepairedWorkspace config jsx force (repaired config jsx) where
  satisfactory := satisfactory_repaired config jsx
  settled := configure?_repaired clean jsx force
  others key other := by rw [repaired, Table.get?_set, if_neg other]
  options before found := by
    refine ⟨_, options?_repaired config jsx, fun key other => ?_⟩
    rw [found, Option.getD_some, get?_withDefaults_other before jsx other]
    cases held : Table.get? before key with
    | some value => exact Or.inl rfl
    | none =>
        by_cases asked : jsx = true ∧ key = "jsx"
        · exact Or.inr ⟨asked.1, asked.2, rfl, by rw [if_pos asked]; rfl⟩
        · exact Or.inl (by rw [if_neg asked]; rfl)

theorem isRepairedWorkspace_configure {config : Document} (clean : Document.Clean config)
    (jsx force : Bool) :
    IsRepairedWorkspace config jsx force ((configure? config jsx force).getD config) := by
  rcases configure?_cases clean jsx force with made | ⟨unchanged, satisfactory⟩
  · rw [made]
    exact isRepairedWorkspace_repaired clean jsx force
  · rw [unchanged]
    exact
      { satisfactory := satisfactory
        settled := unchanged
        others := fun _ _ => rfl
        options := fun before found => ⟨before, found, fun _ _ => Or.inl rfl⟩ }

/-- Repairs make configs pass their checks, are made where these fail, touch nothing that the checks
do not look at, and are not made twice. -/
theorem repairs_pass_checks {config : Document} (clean : Document.Clean config) :
    (∀ target : List String, PathsAreTexts config → target.Nodup →
        ∃ update, updateRoot? config target = .ok update
          ∧ IsRepairedRoot config target (update.getD config))
      ∧ ∀ jsx, (configure? config jsx false = none
          ↔ isSatisfactory (config.get? "compilerOptions") = true)
        ∧ ∀ force, IsRepairedWorkspace config jsx force ((configure? config jsx force).getD config) := by
  refine ⟨fun target texts once => ?_, fun jsx => ⟨configure?_eq_none_iff clean jsx, fun force => ?_⟩⟩
  · cases updates : updateRoot? config target with
    | error problem =>
        obtain ⟨paths, given⟩ := texts.usable
        rw [updateRoot?_eq_error updates] at given
        cases given
    | ok update => exact ⟨update, rfl, isRepairedRoot_update clean once updates⟩
  · exact isRepairedWorkspace_configure clean jsx force

/-- A root config whose list has more in it than references, and whose options are half set. -/
theorem cluttered_config_is_repaired :
    let config : Document := [("include", .arr [.str "src"]),
      ("references", .arr [.int 7, .obj [("path", .str "b"), ("prepend", .bool true)], .obj []]),
      ("compilerOptions", .obj [("composite", .int 1), ("strict", .bool true)])]
    Document.Clean config ∧ PathsAreTexts config ∧ ["a", "b"].Nodup
      ∧ (∃ update, updateRoot? config ["a", "b"] = .ok update
        ∧ isRootSatisfactory (update.getD config) ["b", "a"] = .ok true
        ∧ updateRoot? (update.getD config) ["b", "a"] = .ok none)
      ∧ ∃ options, options? ((configure? config true false).getD config) = some options
        ∧ Table.get? options "strict" = some (.bool true)
        ∧ isSatisfactory (some (.obj options)) = true := by
  intro config
  have path : Document.Clean [("path", .str "b"), ("prepend", .bool true)] :=
    (Document.clean_empty.set "path" (.str "b")).set "prepend" (.bool true)
  have options : Document.Clean [("composite", .int 1), ("strict", .bool true)] :=
    (Document.clean_empty.set "composite" (.int 1)).set "strict" (.bool true)
  have clean : Document.Clean config := by
    refine ((Document.clean_empty.set "include" (.arr _ fun item member => ?_)).set "references"
      (.arr _ fun item member => ?_)).set "compilerOptions" (Document.clean_obj.mpr options)
    · rw [List.mem_singleton.mp member]
      exact .str "src"
    · simp only [List.mem_cons, List.not_mem_nil, or_false] at member
      rcases member with rfl | rfl | rfl
      · exact .int 7
      · exact Document.clean_obj.mpr path
      · exact Document.clean_obj.mpr Document.clean_empty
  have texts : PathsAreTexts config := by
    refine Or.inr ⟨_, rfl, fun members path member held => ?_⟩
    simp only [List.mem_cons, List.not_mem_nil, or_false, reduceCtorEq, Json.obj.injEq, false_or]
      at member
    rcases member with rfl | rfl
    · exact ⟨"b", (Option.some.inj held).symm⟩
    · cases held
  obtain ⟨root, workspace⟩ := repairs_pass_checks clean
  obtain ⟨update, updates, repaired⟩ := root ["a", "b"] texts (by decide)
  obtain ⟨_, configured⟩ := workspace true
  obtain ⟨after, found, kept⟩ := (configured false).options _ rfl
  have order : ["b", "a"].Perm ["a", "b"] := .swap "a" "b" []
  refine ⟨clean, texts, by decide, ⟨update, updates, repaired.satisfactory _ order,
    repaired.settled _ order⟩, after, found, ?_, ?_⟩
  · exact (kept "strict" (by decide)).resolve_right fun added => absurd added.2.1 (by decide)
  · have satisfactory := (configured false).satisfactory
    obtain ⟨value, held, isObject⟩ := Option.bind_eq_some_iff.mp found
    rw [Satisfactory, held] at satisfactory
    cases value with
    | obj members =>
        cases isObject
        exact satisfactory
    | _ => cases isObject

end RefSync.Config
