/-
What an update makes of a config as a whole: which references it lists, in which order and with
which entries, and what it leaves alone. A config is read only through its references and its
aliases, and both are put back by setting a key, so everything else is framed by the lookups.
-/

import RefSync.Proofs.Config.Aliasing

namespace RefSync.Config

/-! ### What an update leaves alone -/

/-- Whether a config has some compiler options; one without `compilerOptions` has none. -/
structure HasOptions (config options : Document) : Prop where
  held : config.get? "compilerOptions" = some (.obj options)
    ∨ config.get? "compilerOptions" = none ∧ options = []

theorem HasOptions.getD {config options : Document} (has : HasOptions config options) :
    (options? config).getD [] = options := by
  rcases has.held with held | ⟨absent, empty⟩
  · simp only [options?, held, Option.bind_some, Json.members?, Option.getD_some]
  · simp only [options?, absent, Option.bind_none, Option.getD_none, empty]

/-- Whether a config differs from another one in its references and aliases alone. -/
structure KeepsOthers (before after : Document) : Prop where
  keys (key : String) : key ≠ "references" → key ≠ "compilerOptions" →
    after.get? key = before.get? key
  options (options : Document) : HasOptions before options → ∃ others, HasOptions after others
    ∧ ∀ key, key ≠ "paths" → others.get? key = options.get? key

theorem KeepsOthers.refl (config : Document) : KeepsOthers config config where
  keys _ _ _ := rfl
  options options has := ⟨options, has, fun _ _ => rfl⟩

theorem KeepsOthers.trans {before between after : Document} (first : KeepsOthers before between)
    (second : KeepsOthers between after) : KeepsOthers before after where
  keys key notReferences notOptions :=
    (second.keys key notReferences notOptions).trans (first.keys key notReferences notOptions)
  options options has := by
    obtain ⟨middle, hasMiddle, sameMiddle⟩ := first.options options has
    obtain ⟨others, hasOthers, same⟩ := second.options middle hasMiddle
    exact ⟨others, hasOthers, fun key differs => (same key differs).trans (sameMiddle key differs)⟩

theorem keepsOthers_setAliases (config aliases : Document) :
    KeepsOthers config (setAliases config aliases) where
  keys key _ notOptions := by rw [setAliases, Table.get?_set, if_neg notOptions]
  options options has := by
    refine ⟨options.set "paths" (.obj aliases), ⟨Or.inl ?_⟩, ?_⟩
    · rw [setAliases, Table.get?_set, if_pos rfl, has.getD]
    · intro key differs
      rw [Table.get?_set, if_neg differs]

theorem keepsOthers_setReferences (config : Document) (references : Json) :
    KeepsOthers config (Table.set config "references" references) where
  keys key notReferences _ := by rw [Table.get?_set, if_neg notReferences]
  options options has := by
    refine ⟨options, ⟨?_⟩, fun _ _ => rfl⟩
    rw [Table.get?_set, if_neg (by decide)]
    exact has.held

theorem keepsOthers_removeAliases (config : Document) (redundant : List Json) :
    KeepsOthers config (removeAliases config redundant) := by
  unfold removeAliases
  cases aliases? config with
  | none => exact .refl config
  | some aliases => exact keepsOthers_setAliases config _

theorem keepsOthers_addAliases {config updated : Document} {missing : List String}
    {aliasFor : String → Option String} (added : addAliases config missing aliasFor = .ok updated) :
    KeepsOthers config updated := by
  rcases addAliases_cases added with ⟨_, rfl⟩ | ⟨aliases, _, rfl⟩
  · exact .refl updated
  · exact keepsOthers_setAliases config aliases

/-! ### The references that are listed -/

/-- The references after an update: the target paths, with the entries they had. -/
def updatedEntries (entries : Table Json) (target : List String) : Table Json :=
  (arranged entries.keys target).map fun path => (path, entryOf entries path)

theorem keys_updatedEntries (entries : Table Json) (target : List String) :
    (updatedEntries entries target).keys = arranged entries.keys target := by
  rw [updatedEntries, Table.keys, List.map_map]
  exact List.map_id _

theorem get?_updatedEntries {entries : Table Json} {target : List String} {path : String}
    (member : path ∈ target) :
    (updatedEntries entries target).get? path = some (entryOf entries path) := by
  have distinct : (updatedEntries entries target).keys.Nodup := by
    rw [keys_updatedEntries]
    exact arranged_nodup entries.keys target
  rw [Table.get?_eq_some_iff distinct]
  exact List.mem_map.mpr ⟨path, mem_arranged.mpr member, rfl⟩

/-- A list that is no arrangement of the target paths gives way to their first occurrences. -/
theorem arranged_distinct {current target : List String}
    (differs : ¬(current.Nodup ∧ ∀ path, path ∈ current ↔ path ∈ target)) :
    arranged current target = distinct target := by
  by_cases same : sameArrangement current (distinct target) = true
  · have arrangement : arranged current target = current := if_pos same
    refine absurd ⟨?_, fun path => ?_⟩ differs
    · rw [← arrangement]
      exact arranged_nodup current target
    · rw [(sameArrangement_iff.mp same).2 path]
      exact mem_distinct
  · exact if_neg same

/-- References that are listed once each, and are the target paths already, stay as they are. -/
theorem updatedEntries_same {entries : Table Json} {target : List String}
    (once : entries.keys.Nodup) (items : ∀ path, path ∈ entries.keys ↔ path ∈ target) :
    updatedEntries entries target = entries := by
  have own : ∀ entry ∈ entries, (entry.1, entryOf entries entry.1) = entry := by
    intro entry member
    have found : Table.get? entries.reverse entry.1 = some entry.2 := by
      rw [Table.get?_perm (List.reverse_perm entries) once, Table.get?_eq_some_iff once]
      exact member
    rw [entryOf, found, Option.getD_some]
  rw [updatedEntries, arranged_same once items, Table.keys, List.map_map]
  exact (List.map_congr_left own).trans (List.map_id entries)

section

variable {config : Document} {entries : Table Json} (lists : Lists config entries)
  {aliasFor : String → Option String} {target : List String}

include lists

/-- A config that has no reference list, and needs none, keeps it that way. -/
theorem updatedEntries_bare (empty : target = []) (absent : config.contains "references" = false) :
    updatedEntries entries target = entries := by
  have none : entries = [] := by
    rcases lists.listed with listed | ⟨_, none⟩
    · have present : config.contains "references" = true := by
        rw [Table.contains_iff, listed]
        rfl
      rw [absent] at present
      cases present
    · exact none
  rw [none, empty]
  rfl

/-- An update takes the aliases that go, adds those that come, and then puts back the list. -/
theorem withReferences_steps {updated : Document}
    (made : withReferences config target aliasFor = .ok updated) :
    ∃ between, addAliases (removeAliases config ((redundantItems entries.keys target).map .str))
        (missingItems entries.keys target) aliasFor = .ok between
      ∧ Lists between entries
      ∧ (updated = between ∧ updatedEntries entries target = entries
        ∨ updated = between.set "references"
          (.arr ((arranged entries.keys target).map (entryOf entries)))) := by
  rw [withReferences_of_lists lists] at made
  cases added : addAliases (removeAliases config ((redundantItems entries.keys target).map .str))
      (missingItems entries.keys target) aliasFor with
  | error fault =>
      rw [added] at made
      cases made
  | ok between =>
      have removed := lists.of_keeps
        (keepsReferences_removeAliases config ((redundantItems entries.keys target).map .str))
      have listsBetween : Lists between entries := by
        rcases addAliases_cases added with ⟨_, rfl⟩ | ⟨aliases, _, rfl⟩
        · exact removed
        · refine ⟨removed.paths, ?_⟩
          rw [setAliases, Table.get?_set, if_neg (by decide)]
          exact removed.listed
      rw [added] at made
      change (if target.isEmpty && !config.contains "references" then .ok between
        else setReferences between (target.map .str)) = .ok updated at made
      refine ⟨between, rfl, listsBetween, ?_⟩
      by_cases bare : (target.isEmpty && !config.contains "references") = true
      · rw [if_pos bare] at made
        rw [Bool.and_eq_true, Bool.not_eq_true', List.isEmpty_iff] at bare
        exact Or.inl ⟨(Except.ok.inj made).symm, updatedEntries_bare lists bare.1 bare.2⟩
      · rw [if_neg bare, setReferences_of_lists listsBetween] at made
        exact Or.inr (Except.ok.inj made).symm

/-- What is made of a config lists the target paths and has everything else as it was. -/
theorem lists_withReferences {updated : Document}
    (made : withReferences config target aliasFor = .ok updated) :
    Lists updated (updatedEntries entries target) ∧ KeepsOthers config updated := by
  obtain ⟨between, added, listsBetween, update⟩ := withReferences_steps lists made
  have keeps : KeepsOthers config between :=
    (keepsOthers_removeAliases config _).trans (keepsOthers_addAliases added)
  rcases update with ⟨rfl, same⟩ | rfl
  · rw [same]
    exact ⟨listsBetween, keeps⟩
  · exact ⟨lists_set listsBetween _, keeps.trans (keepsOthers_setReferences between _)⟩

/-- The same holds of the config itself, where it does not differ from what is made of it. -/
theorem lists_updateReferences (clean : Document.Clean config)
    (known : ∀ path ∈ target, (aliasFor path).isSome) :
    ∃ update, updateReferences? config target aliasFor = .ok update
      ∧ Document.Clean (update.getD config)
      ∧ Lists (update.getD config) (updatedEntries entries target)
      ∧ KeepsOthers config (update.getD config) := by
  obtain ⟨updated, _, made, cleans, _⟩ := withReferences_ok lists known
  obtain ⟨listsUpdated, keeps⟩ := lists_withReferences lists made
  have update : updateReferences? config target aliasFor
      = .ok (if updated.same config then none else some updated) := by
    rw [updateReferences?, made]
    rfl
  refine ⟨_, update, ?_⟩
  by_cases same : Document.same updated config = true
  · have keys := keys_of_same listsUpdated lists (cleans clean) same
    rw [keys_updatedEntries] at keys
    have once : entries.keys.Nodup := keys ▸ arranged_nodup entries.keys target
    have items : ∀ path, path ∈ entries.keys ↔ path ∈ target := by
      intro path
      rw [← keys]
      exact mem_arranged
    rw [if_pos same, Option.getD_none, updatedEntries_same once items]
    exact ⟨clean, lists, .refl config⟩
  · rw [if_neg same, Option.getD_some]
    exact ⟨cleans clean, listsUpdated, keeps⟩

end

/-! ### Configs in line with their target -/

/-- Whether a config that listed some references was brought in line with some target paths, and
what it lists then. -/
structure Aligned (entries : Table Json) (config : Document) (target : List String)
    (result : Document) (listed : Table Json) : Prop where
  lists : Lists result listed
  once : listed.keys.Nodup
  items (path : String) : path ∈ listed.keys ↔ path ∈ target
  /-- An arrangement of the target paths keeps its order. -/
  kept : entries.keys.Nodup → (∀ path, path ∈ entries.keys ↔ path ∈ target) →
    listed.keys = entries.keys
  /-- Any other list gives way to the first occurrences in the target. -/
  fresh : ¬(entries.keys.Nodup ∧ ∀ path, path ∈ entries.keys ↔ path ∈ target) →
    listed.keys = distinct target
  /-- A reference keeps its keys, those of the last entry with its path. -/
  last (path : String) (entry : Json) : path ∈ target → Table.get? entries.reverse path = some entry →
    listed.get? path = some entry
  others : KeepsOthers config result

/-- An update always succeeds, brings the config in line with the target paths, and leaves nothing
for a second one to do. -/
theorem reference_update_aligns {config : Document} {entries : Table Json}
    (clean : Document.Clean config) (lists : Lists config entries) (target : List String)
    (aliasFor : String → Option String) (total : ∀ path ∈ target, (aliasFor path).isSome) :
    ∃ update listed, updateReferences? config target aliasFor = .ok update
      ∧ Aligned entries config target (update.getD config) listed
      ∧ updateReferences? (update.getD config) target aliasFor = .ok none := by
  obtain ⟨update, updates, cleanResult, listsResult, keeps⟩ :=
    lists_updateReferences lists clean total
  have once : (updatedEntries entries target).keys.Nodup := by
    rw [keys_updatedEntries]
    exact arranged_nodup entries.keys target
  have items (path : String) : path ∈ (updatedEntries entries target).keys ↔ path ∈ target := by
    rw [keys_updatedEntries]
    exact mem_arranged
  refine ⟨update, updatedEntries entries target, updates, ?_, ?_⟩
  · exact
      { lists := listsResult
        once := once
        items := items
        kept := fun distinctPaths same => by
          rw [keys_updatedEntries, arranged_same distinctPaths same]
        fresh := fun differs => by
          rw [keys_updatedEntries]
          exact arranged_distinct differs
        last := fun path entry member found => by
          rw [get?_updatedEntries member, entryOf, found, Option.getD_some]
        others := keeps }
  · exact updateReferences?_again listsResult cleanResult once items total

/-- A reference that was listed twice keeps the keys of its second entry, and its new place. -/
theorem repeated_reference_aligns :
    let config : Document := [("compilerOptions", .obj [("strict", .bool true)]),
      ("references", .arr [.obj [("path", .str "../b")], .obj [("path", .str "../c")],
        .obj [("path", .str "../b"), ("prepend", .bool true)]])]
    ∃ update listed, updateReferences? config ["../d", "../b", "../d"] some = .ok update
      ∧ Lists (update.getD config) listed ∧ listed.keys = ["../d", "../b"]
      ∧ Table.get? listed "../b" = some (.obj [("path", .str "../b"), ("prepend", .bool true)])
      ∧ updateReferences? (update.getD config) ["../d", "../b", "../d"] some = .ok none := by
  intro config
  let entries : Table Json := [("../b", .obj [("path", .str "../b")]),
    ("../c", .obj [("path", .str "../c")]),
    ("../b", .obj [("path", .str "../b"), ("prepend", .bool true)])]
  have lists : Lists config entries := by
    refine ⟨fun entry member => ?_, Or.inl rfl⟩
    simp only [entries, List.mem_cons, List.not_mem_nil, or_false] at member
    rcases member with rfl | rfl | rfl <;> exact ⟨_, rfl, rfl⟩
  have path (text : String) : Document.Clean [("path", .str text)] :=
    Document.clean_empty.set "path" (.str text)
  have strict : Document.Clean [("strict", .bool true)] :=
    Document.clean_empty.set "strict" (.bool true)
  have clean : Document.Clean config := by
    refine (Document.clean_empty.set "compilerOptions" (Document.clean_obj.mpr strict)).set
      "references" (.arr _ fun item member => ?_)
    simp only [List.mem_cons, List.not_mem_nil, or_false] at member
    rcases member with rfl | rfl | rfl
    · exact Document.clean_obj.mpr (path "../b")
    · exact Document.clean_obj.mpr (path "../c")
    · exact Document.clean_obj.mpr ((path "../b").set "prepend" (.bool true))
  obtain ⟨update, listed, updates, aligned, again⟩ :=
    reference_update_aligns clean lists ["../d", "../b", "../d"] some fun _ _ => rfl
  have repeats : ¬entries.keys.Nodup := by decide
  refine ⟨update, listed, updates, aligned.lists, ?_, ?_, again⟩
  · rw [aligned.fresh fun arrangement => repeats arrangement.1]
    rfl
  · exact aligned.last "../b" _ (by decide) rfl

end RefSync.Config
