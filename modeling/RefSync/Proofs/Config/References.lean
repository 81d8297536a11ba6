/-
What updates make of the references of a config. Afterwards the config lists each target path
once and no other, and updating it again with the same target finds nothing to do.
-/

import RefSync.Config.References
import RefSync.Proofs.Config.Satisfactory

namespace RefSync

/-! ### Differences under another spelling -/

section

variable {α β : Type} [BEq α] [BEq β] {spell : α → β}
  (faithful : ∀ left right, (spell left == spell right) = (left == right))

include faithful

private theorem contains_map (items : List α) (item : α) :
    (items.map spell).contains (spell item) = items.contains item := by
  induction items with
  | nil => rfl
  | cons head rest ih =>
      rw [List.map_cons, List.contains_cons, List.contains_cons, faithful, ih]

theorem distinct_map (items : List α) :
    distinct (items.map spell) = (distinct items).map spell := by
  induction items with
  | nil => rfl
  | cons head rest ih =>
      rw [List.map_cons, distinct, distinct, List.map_cons, ih, List.filter_map]
      congr 2
      apply List.filter_congr
      intro item _
      simp only [Function.comp_apply, faithful]

private theorem missingItems_map (actual target : List α) :
    missingItems (actual.map spell) (target.map spell) = (missingItems actual target).map spell := by
  rw [missingItems, missingItems, distinct_map faithful, List.filter_map]
  congr 1
  apply List.filter_congr
  intro item _
  simp only [Function.comp_apply, contains_map faithful]

private theorem redundantItems_map (actual target : List α) :
    redundantItems (actual.map spell) (target.map spell)
      = (redundantItems actual target).map spell := by
  rw [redundantItems, redundantItems, distinct_map faithful, List.filter_map]
  congr 1
  apply List.filter_congr
  intro item _
  simp only [Function.comp_apply, contains_map faithful]

theorem sameItems_map (left right : List α) :
    sameItems (left.map spell) (right.map spell) = sameItems left right := by
  simp only [sameItems, List.all_map]
  congr 1
  · apply List.all_congr rfl
    intro item
    exact contains_map faithful right item
  · apply List.all_congr rfl
    intro item
    exact contains_map faithful left item

theorem sameArrangement_map (left right : List α) :
    sameArrangement (left.map spell) (right.map spell) = sameArrangement left right := by
  rw [sameArrangement, sameArrangement, sameItems_map faithful, List.length_map, List.length_map]

end

/-- Two lists with the same items are arrangements of one set where they are of one length. -/
theorem sameArrangement_iff {α : Type} [BEq α] [LawfulBEq α] {left right : List α} :
    sameArrangement left right = true
      ↔ left.length = right.length ∧ ∀ item, item ∈ left ↔ item ∈ right := by
  rw [sameArrangement, sameItems, Bool.and_eq_true, Bool.and_eq_true, beq_iff_eq, List.all_eq_true,
    List.all_eq_true]
  refine and_congr_right fun _ => ?_
  constructor
  · intro within item
    exact ⟨fun member => List.contains_iff_mem.mp (within.1 item member),
      fun member => List.contains_iff_mem.mp (within.2 item member)⟩
  · intro same
    exact ⟨fun item member => List.contains_iff_mem.mpr ((same item).mp member),
      fun item member => List.contains_iff_mem.mpr ((same item).mpr member)⟩

namespace Config

theorem str_beq (left right : String) : (Json.str left == Json.str right) = (left == right) :=
  rfl

theorem beq_str {value : Json} {text : String} : (value == .str text) = true ↔ value = .str text := by
  constructor
  · intro same
    cases value with
    | str other =>
        rw [str_beq, beq_iff_eq] at same
        rw [same]
    | _ => cases same
  · rintro rfl
    exact (str_beq text text).trans (beq_self_eq_true text)

/-! ### The references of a config -/

/-- Whether a config lists some references, given by their paths. -/
structure Lists (config : Document) (entries : Table Json) : Prop where
  paths entry : entry ∈ entries →
    ∃ members, entry.2 = .obj members ∧ Table.get? members "path" = some (.str entry.1)
  listed : config.get? "references" = some (.arr (entries.map (·.2)))
    ∨ config.get? "references" = none ∧ entries = []

/-- References with their paths, as documents. -/
def spelled (entries : Table Json) : List (Json × Json) :=
  entries.map fun entry => (.str entry.1, entry.2)

section

variable {config : Document} {entries : Table Json} (lists : Lists config entries)

include lists

theorem references_of_lists : references config = .ok (spelled entries) := by
  unfold references
  rcases lists.listed with listed | ⟨absent, rfl⟩
  · rw [listed]
    dsimp only
    congr 1
    have each := lists.paths
    clear lists listed
    induction entries with
    | nil => rfl
    | cons entry rest ih =>
        rcases each entry List.mem_cons_self with ⟨members, same, path⟩
        have found : reference? entry.2 = some (.str entry.1, entry.2) := by
          rw [same, reference?, path]
          rfl
        rw [List.map_cons, List.filterMap_cons_some found,
          ih fun other member => each other (List.mem_cons_of_mem _ member)]
        rfl
  · rw [absent]
    rfl

theorem referencePaths_of_lists : referencePaths config = .ok (entries.keys.map .str) := by
  have paths : (spelled entries).map (·.1) = entries.keys.map Json.str := by
    rw [spelled, Table.keys, List.map_map, List.map_map]
    rfl
  rw [referencePaths, references_of_lists lists, ← paths]
  rfl

theorem scalarPaths_of_lists : scalarPaths config = .ok (entries.keys.map .str) := by
  have scalar : (entries.keys.map Json.str).all isScalar = true := by
    rw [List.all_map, List.all_eq_true]
    exact fun _ _ => rfl
  rw [scalarPaths, referencePaths_of_lists lists]
  exact if_pos scalar

end

theorem lists_unique {config : Document} {one other : Table Json} (first : Lists config one)
    (second : Lists config other) : one = other := by
  have same := (references_of_lists first).symm.trans (references_of_lists second)
  have injective : Function.Injective fun entry : String × Json => (Json.str entry.1, entry.2) := by
    intro left right equal
    cases left
    cases right
    cases equal
    rfl
  exact List.map_injective_iff.mpr injective (Except.ok.inj same)

theorem clean_entries {config : Document} {entries : Table Json} (lists : Lists config entries)
    (clean : Document.Clean config) : ∀ entry ∈ entries, entry.2.Clean := by
  intro entry member
  rcases lists.listed with listed | ⟨_, rfl⟩
  · have cleanList := clean.get? listed
    cases cleanList with
    | arr items each => exact each entry.2 (List.mem_map_of_mem member)
  · cases member

/-- A config that is the same as one that lists its references lists the same paths. -/
theorem lists_of_same {left right : Document} {one : Table Json} (lists : Lists left one)
    (clean : Document.Clean left) (same : Document.same left right = true) :
    ∃ other, Lists right other ∧ other.keys = one.keys := by
  rcases lists.listed with listed | ⟨absent, rfl⟩
  · obtain ⟨value, found, sames⟩ := ((Document.same_iff clean).mp same).2 _ _ listed
    obtain ⟨items, rfl, pairs⟩ := Json.same_arr sames
    have paths := lists.paths
    have cleanOnes := clean_entries lists clean
    have spelledOut : ∃ other : Table Json, other.map (·.2) = items ∧ other.keys = one.keys
        ∧ ∀ entry ∈ other, ∃ members, entry.2 = .obj members
          ∧ Table.get? members "path" = some (.str entry.1) := by
      clear lists listed found sames same
      induction one generalizing items with
      | nil =>
          cases pairs
          exact ⟨[], rfl, rfl, nofun⟩
      | cons entry rest ih =>
          cases items with
          | nil => cases pairs
          | cons item items =>
              rw [List.map_cons, List.forall₂_cons] at pairs
              obtain ⟨other, listed, keys, each⟩ := ih items pairs.2
                (fun other member => paths other (List.mem_cons_of_mem _ member))
                fun other member => cleanOnes other (List.mem_cons_of_mem _ member)
              refine ⟨(entry.1, item) :: other, congrArg (item :: ·) listed,
                congrArg (entry.1 :: ·) keys, fun next member => ?_⟩
              rcases List.mem_cons.mp member with rfl | inOther
              · obtain ⟨members, isObject, path⟩ := paths entry List.mem_cons_self
                have head := pairs.1
                have cleanHead := cleanOnes entry List.mem_cons_self
                rw [isObject] at head cleanHead
                cases item with
                | obj others =>
                    obtain ⟨value, held, equal⟩ :=
                      ((Document.same_iff (Document.clean_obj.mp cleanHead)).mp head).2 "path" _ path
                    rw [Json.same_str.mp equal] at held
                    exact ⟨others, rfl, held⟩
                | _ => cases head
              · exact each next inOther
    obtain ⟨other, listed, keys, each⟩ := spelledOut
    exact ⟨other, ⟨each, Or.inl (listed ▸ found)⟩, keys⟩
  · refine ⟨[], ⟨nofun, Or.inr ⟨?_, rfl⟩⟩, rfl⟩
    have keys := Document.same_keys clean same "references"
    rw [Table.mem_keys_iff, Table.mem_keys_iff, absent] at keys
    cases found : right.get? "references" with
    | none => rfl
    | some value =>
        rw [found] at keys
        exact absurd (keys.mpr rfl) (by decide)

/-- Documents that are the same list the same paths. -/
theorem keys_of_same {left right : Document} {one other : Table Json} (first : Lists left one)
    (second : Lists right other) (clean : Document.Clean left)
    (same : Document.same left right = true) : one.keys = other.keys := by
  obtain ⟨entries, lists, keys⟩ := lists_of_same first clean same
  rw [lists_unique second lists, keys]

/-! ### The aliases -/

theorem clean_aliases {config aliases : Document} (clean : Document.Clean config)
    (found : aliases? config = some aliases) : Document.Clean aliases := by
  rcases Option.bind_eq_some_iff.mp found with ⟨options, held, inside⟩
  rcases Option.bind_eq_some_iff.mp inside with ⟨value, heldInside, members⟩
  exact Document.clean_members ((clean_options clean held).get? heldInside) members

theorem clean_setAliases {config aliases : Document} (clean : Document.Clean config)
    (cleanAliases : Document.Clean aliases) : Document.Clean (setAliases config aliases) := by
  have cleanOptions : Document.Clean ((options? config).getD []) := by
    cases found : options? config with
    | none => exact Document.clean_empty
    | some options => exact clean_options clean found
  refine clean.set _ (Document.clean_obj.mpr ?_)
  exact cleanOptions.set _ (Document.clean_obj.mpr cleanAliases)

/-- Putting back the aliases that are there changes nothing. -/
theorem setAliases_same {config aliases : Document} (found : aliases? config = some aliases) :
    setAliases config aliases = config := by
  rcases Option.bind_eq_some_iff.mp found with ⟨options, held, inside⟩
  rcases Option.bind_eq_some_iff.mp inside with ⟨value, heldInside, members⟩
  rcases Option.bind_eq_some_iff.mp held with ⟨outer, heldOuter, outerMembers⟩
  cases value with
  | obj others =>
      cases members
      cases outer with
      | obj outers =>
          cases outerMembers
          rw [setAliases, held, Option.getD_some, Table.set_of_get? heldInside,
            Table.set_of_get? heldOuter]
      | _ => cases outerMembers
  | _ => cases members

/-- Whether an update of the aliases leaves everything else in its place. -/
structure KeepsReferences (before after : Document) : Prop where
  references : after.get? "references" = before.get? "references"
  clean : Document.Clean before → Document.Clean after
  satisfactory : Satisfactory before → Satisfactory after

theorem KeepsReferences.refl (config : Document) : KeepsReferences config config :=
  ⟨rfl, id, id⟩

theorem KeepsReferences.trans {before between after : Document} (first : KeepsReferences before between)
    (second : KeepsReferences between after) : KeepsReferences before after where
  references := second.references.trans first.references
  clean clean := second.clean (first.clean clean)
  satisfactory satisfactory := second.satisfactory (first.satisfactory satisfactory)

theorem keepsReferences_setAliases (config aliases : Document)
    (clean : Document.Clean config → Document.Clean aliases) :
    KeepsReferences config (setAliases config aliases) where
  references := by rw [setAliases, Table.get?_set, if_neg (by decide)]
  clean given := clean_setAliases given (clean given)
  satisfactory satisfactory := satisfactory_setAliases satisfactory aliases

theorem keepsReferences_removeAliases (config : Document) (redundant : List Json) :
    KeepsReferences config (removeAliases config redundant) := by
  unfold removeAliases
  cases found : aliases? config with
  | none => exact .refl config
  | some aliases =>
      refine keepsReferences_setAliases config _ fun clean => ?_
      have cleanAliases := clean_aliases clean found
      clear found
      induction redundant generalizing aliases with
      | nil => exact cleanAliases
      | cons path rest ih =>
          refine ih (removeAlias aliases path) ?_
          unfold removeAlias
          split
          · exact (cleanAliases.erase _).erase _
          · exact cleanAliases

private theorem clean_addAlias {aliases : Document} (clean : Document.Clean aliases)
    (key path : String) : Document.Clean (addAlias aliases key path) := by
  have list (text : String) : (Json.arr [.str text]).Clean :=
    .arr _ fun item member => List.mem_singleton.mp member ▸ .str text
  exact (clean.set key (list path)).set (below key) (list (below path))

/-- Adds the alias of one path. -/
def addAliasFor (aliasFor : String → Option String) (aliases : Document) (path : String) :
    Except ReferenceFault Document :=
  match aliasFor path with
  | some key => .ok (addAlias aliases key path)
  | none => .error (.noAlias path)

theorem addAliases_cons (config : Document) (path : String) (rest : List String)
    (aliasFor : String → Option String) :
    addAliases config (path :: rest) aliasFor
      = (path :: rest).foldlM (addAliasFor aliasFor) ((aliases? config).getD []) >>= fun aliases =>
        .ok (setAliases config aliases) :=
  rfl

theorem addAllFor_cons {aliasFor : String → Option String} {aliases more : Document} {first : String}
    {rest : List String} (added : (first :: rest).foldlM (addAliasFor aliasFor) aliases = .ok more) :
    ∃ name, aliasFor first = some name
      ∧ rest.foldlM (addAliasFor aliasFor) (addAlias aliases name first) = .ok more := by
  rw [List.foldlM_cons, addAliasFor] at added
  cases named : aliasFor first with
  | none =>
      rw [named] at added
      cases added
  | some name =>
      rw [named] at added
      exact ⟨name, rfl, added⟩

/-- Aliases are added to the table that is there, unless there are none to add. -/
theorem addAliases_cases {config updated : Document} {missing : List String}
    {aliasFor : String → Option String} (added : addAliases config missing aliasFor = .ok updated) :
    missing = [] ∧ updated = config
      ∨ ∃ aliases, missing.foldlM (addAliasFor aliasFor) ((aliases? config).getD []) = .ok aliases
        ∧ updated = setAliases config aliases := by
  cases missing with
  | nil => exact Or.inl ⟨rfl, (Except.ok.inj added).symm⟩
  | cons path rest =>
      rw [addAliases_cons] at added
      cases made : (path :: rest).foldlM (addAliasFor aliasFor) ((aliases? config).getD []) with
      | error fault =>
          rw [made] at added
          cases added
      | ok aliases =>
          rw [made] at added
          exact Or.inr ⟨aliases, rfl, (Except.ok.inj added).symm⟩

/-- Every alias that is asked for is there to be added. -/
theorem addAliases_ok {aliasFor : String → Option String} (missing : List String)
    (known : ∀ path ∈ missing, (aliasFor path).isSome) (config : Document) :
    ∃ updated, addAliases config missing aliasFor = .ok updated
      ∧ KeepsReferences config updated ∧ (missing = [] → updated = config) := by
  have folded (aliases : Document) : ∃ after,
      missing.foldlM (addAliasFor aliasFor) aliases = .ok after
        ∧ (Document.Clean aliases → Document.Clean after) := by
    induction missing generalizing aliases with
    | nil => exact ⟨aliases, rfl, id⟩
    | cons path rest ih =>
        obtain ⟨key, found⟩ := Option.isSome_iff_exists.mp (known path List.mem_cons_self)
        rcases ih (fun other member => known other (List.mem_cons_of_mem _ member))
          (addAlias aliases key path) with ⟨after, goesOn, clean⟩
        refine ⟨after, ?_, fun given => clean (clean_addAlias given key path)⟩
        rw [List.foldlM_cons, addAliasFor, found]
        exact goesOn
  cases missing with
  | nil => exact ⟨config, rfl, .refl config, fun _ => rfl⟩
  | cons path rest =>
      rcases folded ((aliases? config).getD []) with ⟨aliases, added, clean⟩
      refine ⟨setAliases config aliases, ?_, keepsReferences_setAliases config aliases ?_, nofun⟩
      · rw [addAliases_cons, added]
        rfl
      · intro given
        apply clean
        cases found : aliases? config with
        | none => exact Document.clean_empty
        | some present => exact clean_aliases given found

/-! ### The reference list -/

/-- The entry that a path is given. -/
def entryOf (entries : Table Json) (path : String) : Json :=
  (Table.get? entries.reverse path).getD (.obj [("path", .str path)])

theorem entryFor_spelled (entries : Table Json) (path : String) :
    entryFor (spelled entries) (.str path) = entryOf entries path := by
  have found (entries : Table Json) : ((spelled entries).find? (·.1 == .str path)).map (·.2)
      = entries.get? path := by
    induction entries with
    | nil => rfl
    | cons entry rest ih =>
        rw [Table.get?_cons, spelled, List.map_cons, List.find?_cons]
        by_cases same : path = entry.1
        · rw [if_pos same, str_beq, beq_iff_eq.mpr same.symm]
          rfl
        · rw [if_neg same, str_beq, beq_false_of_ne (Ne.symm same)]
          exact ih
  rw [entryFor, entryOf, ← found entries.reverse, spelled, spelled, List.map_reverse]

theorem path_entryOf {config : Document} {entries : Table Json} (lists : Lists config entries)
    (path : String) : ∃ members, entryOf entries path = .obj members
      ∧ Table.get? members "path" = some (.str path) := by
  unfold entryOf
  cases found : Table.get? entries.reverse path with
  | none => exact ⟨_, rfl, rfl⟩
  | some entry => exact lists.paths (path, entry) (List.mem_reverse.mp (Table.mem_of_get? found))

theorem clean_entryOf {config : Document} {entries : Table Json} (lists : Lists config entries)
    (clean : Document.Clean config) (path : String) : (entryOf entries path).Clean := by
  unfold entryOf
  cases found : Table.get? entries.reverse path with
  | none =>
      refine .obj _ (List.nodup_singleton _) fun entry member => ?_
      rw [List.mem_singleton.mp member]
      exact .str path
  | some entry =>
      exact clean_entries lists clean (path, entry) (List.mem_reverse.mp (Table.mem_of_get? found))

/-- The order in which the target paths are listed. -/
def arranged (current target : List String) : List String :=
  if sameArrangement current (distinct target) then current else distinct target

theorem mem_arranged {current target : List String} {path : String} :
    path ∈ arranged current target ↔ path ∈ target := by
  unfold arranged
  split
  · rename_i same
    rw [(sameArrangement_iff.mp same).2 path, mem_distinct]
  · exact mem_distinct

theorem arranged_nodup (current target : List String) : (arranged current target).Nodup := by
  unfold arranged
  split
  · rename_i same
    obtain ⟨lengths, items⟩ := sameArrangement_iff.mp same
    have subset : distinct target ⊆ current := fun path member => (items path).mpr member
    have subperm := List.subperm_of_subset (distinct_nodup target) subset
    exact (subperm.perm_of_length_le (Nat.le_of_eq lengths)).nodup_iff.mp (distinct_nodup target)
  · exact distinct_nodup target

/-- A list without repetition that has the target paths already keeps its order. -/
theorem arranged_same {current target : List String} (distinctPaths : current.Nodup)
    (items : ∀ path, path ∈ current ↔ path ∈ target) : arranged current target = current := by
  have same : ∀ path, path ∈ current ↔ path ∈ distinct target := fun path =>
    (items path).trans mem_distinct.symm
  have perm := (List.perm_ext_iff_of_nodup distinctPaths (distinct_nodup target)).mpr same
  rw [arranged, if_pos (sameArrangement_iff.mpr ⟨perm.length_eq, same⟩)]

theorem setReferences_of_lists {config : Document} {entries : Table Json}
    (lists : Lists config entries) (target : List String) :
    setReferences config (target.map .str)
      = .ok (config.set "references"
          (.arr ((arranged entries.keys target).map (entryOf entries)))) := by
  have paths : (spelled entries).map (·.1) = entries.keys.map Json.str := by
    rw [spelled, Table.keys, List.map_map, List.map_map]
    rfl
  have order : (if sameArrangement (entries.keys.map Json.str) (distinct (target.map Json.str)) then
      entries.keys.map Json.str else distinct (target.map Json.str))
        = (arranged entries.keys target).map Json.str := by
    rw [distinct_map str_beq, sameArrangement_map str_beq, arranged]
    split <;> rfl
  unfold setReferences
  rw [references_of_lists lists]
  change Except.ok (config.set "references" (.arr ((if sameArrangement
    ((spelled entries).map (·.1)) (distinct (target.map Json.str)) then (spelled entries).map (·.1)
    else distinct (target.map Json.str)).map (entryFor (spelled entries))))) = _
  rw [paths, order, List.map_map]
  congr 3
  apply List.map_congr_left
  exact fun path _ => entryFor_spelled entries path

theorem lists_set {config : Document} {entries : Table Json} (lists : Lists config entries)
    (paths : List String) :
    Lists (Table.set config "references" (.arr (paths.map (entryOf entries))))
      (paths.map fun path => (path, entryOf entries path)) := by
  constructor
  · intro entry member
    obtain ⟨path, _, rfl⟩ := List.mem_map.mp member
    exact path_entryOf lists path
  · rw [Table.get?_set, if_pos rfl, List.map_map]
    exact Or.inl rfl

/-! ### Updates -/

theorem Lists.of_keeps {config updated : Document} {entries : Table Json}
    (lists : Lists config entries) (keeps : KeepsReferences config updated) :
    Lists updated entries :=
  ⟨lists.paths, by rw [keeps.references]; exact lists.listed⟩

section

variable {config : Document} {entries : Table Json} (lists : Lists config entries)
  {aliasFor : String → Option String} {target : List String}

include lists

/-- The aliases go first, and the list is only left out where there is none and none is needed. -/
theorem withReferences_of_lists (target : List String) (aliasFor : String → Option String) :
    withReferences config target aliasFor
      = addAliases (removeAliases config ((redundantItems entries.keys target).map .str))
          (missingItems entries.keys target) aliasFor >>= fun updated =>
        if target.isEmpty && !config.contains "references" then .ok updated
        else setReferences updated (target.map .str) := by
  have missing : (missingItems (entries.keys.map Json.str) (target.map Json.str)).filterMap Json.str?
      = missingItems entries.keys target := by
    rw [missingItems_map str_beq, List.filterMap_map]
    exact List.filterMap_some
  have redundant : redundantItems (entries.keys.map Json.str) (target.map Json.str)
      = (redundantItems entries.keys target).map Json.str := redundantItems_map str_beq _ _
  unfold withReferences
  rw [scalarPaths_of_lists lists]
  change (addAliases (removeAliases config (redundantItems (entries.keys.map Json.str)
    (target.map Json.str))) ((missingItems (entries.keys.map Json.str)
      (target.map Json.str)).filterMap Json.str?) aliasFor >>= fun updated =>
    if target.isEmpty && !config.contains "references" then .ok updated
    else setReferences updated (target.map Json.str)) = _
  rw [missing, redundant]

/-- An update changes the aliases, and then the list unless there is none and none is needed. -/
private theorem withReferences_eq (known : ∀ path ∈ target, (aliasFor path).isSome) :
    ∃ updated, KeepsReferences config updated
      ∧ (entries.keys.Nodup → (∀ path, path ∈ entries.keys ↔ path ∈ target) → updated = config)
      ∧ withReferences config target aliasFor
        = if target.isEmpty && !config.contains "references" then .ok updated
          else .ok (updated.set "references"
            (.arr ((arranged entries.keys target).map (entryOf entries)))) := by
  have removed := keepsReferences_removeAliases config
    ((redundantItems entries.keys target).map Json.str)
  rcases addAliases_ok (missingItems entries.keys target)
    (fun path member => known path (mem_missingItems.mp member).1)
    (removeAliases config ((redundantItems entries.keys target).map Json.str))
    with ⟨updated, added, keeps, same⟩
  have kept : KeepsReferences config updated := removed.trans keeps
  refine ⟨updated, kept, fun _ items => ?_, ?_⟩
  · have noneMissing : missingItems entries.keys target = [] := by
      apply List.eq_nil_iff_forall_not_mem.mpr
      intro path member
      obtain ⟨wanted, lacks⟩ := mem_missingItems.mp member
      exact lacks ((items path).mpr wanted)
    have noneRedundant : redundantItems entries.keys target = [] := by
      apply List.eq_nil_iff_forall_not_mem.mpr
      intro path member
      obtain ⟨present, unwanted⟩ := mem_redundantItems.mp member
      exact unwanted ((items path).mp present)
    rw [same noneMissing, noneRedundant, List.map_nil]
    unfold removeAliases
    cases found : aliases? config with
    | none => rfl
    | some aliases => exact setAliases_same found
  · rw [withReferences_of_lists lists, added]
    change (if target.isEmpty && !config.contains "references" then .ok updated
      else setReferences updated (target.map Json.str)) = _
    rw [setReferences_of_lists (lists.of_keeps kept) target]

/-- Afterwards the target paths are listed once each, and no others. -/
theorem withReferences_ok (known : ∀ path ∈ target, (aliasFor path).isSome) :
    ∃ updated after, withReferences config target aliasFor = .ok updated
      ∧ (Document.Clean config → Document.Clean updated) ∧ Lists updated after ∧ after.keys.Nodup
      ∧ ∀ path, path ∈ after.keys ↔ path ∈ target := by
  rcases withReferences_eq lists known with ⟨between, kept, _, result⟩
  by_cases bare : (target.isEmpty && !config.contains "references") = true
  · rw [if_pos bare] at result
    rw [Bool.and_eq_true, Bool.not_eq_true'] at bare
    have absent : entries = [] := by
      rcases lists.listed with listed | ⟨_, none⟩
      · have present : config.contains "references" = true := by
          rw [Table.contains_iff, listed]
          rfl
        rw [bare.2] at present
        cases present
      · exact none
    refine ⟨between, entries, result, kept.clean, lists.of_keeps kept, ?_, fun path => ?_⟩
    · rw [absent]
      exact List.nodup_nil
    · rw [absent, List.isEmpty_iff.mp bare.1]
      exact Iff.rfl
  · rw [if_neg bare] at result
    have keys : Table.keys ((arranged entries.keys target).map fun path =>
        (path, entryOf entries path)) = arranged entries.keys target := by
      rw [Table.keys, List.map_map]
      exact List.map_id _
    refine ⟨_, _, result, fun clean => ?_, lists_set (lists.of_keeps kept) _, ?_, fun path => ?_⟩
    · refine (kept.clean clean).set _ (.arr _ fun item member => ?_)
      obtain ⟨path, _, rfl⟩ := List.mem_map.mp member
      exact clean_entryOf lists clean path
    · rw [keys]
      exact arranged_nodup _ _
    · rw [keys]
      exact mem_arranged

/-- After an update the target paths are listed once each, and no others. -/
theorem updateReferences?_ok (clean : Document.Clean config)
    (known : ∀ path ∈ target, (aliasFor path).isSome) :
    ∃ update, updateReferences? config target aliasFor = .ok update
      ∧ (∀ updated, update = some updated → Document.Clean updated)
      ∧ ∃ after, Lists (update.getD config) after ∧ after.keys.Nodup
        ∧ ∀ path, path ∈ after.keys ↔ path ∈ target := by
  rcases withReferences_ok lists known with ⟨updated, after, made, cleans, listsAfter, once, items⟩
  have cleanUpdated := cleans clean
  have update : updateReferences? config target aliasFor
      = .ok (if updated.same config then none else some updated) := by
    rw [updateReferences?, made]
    rfl
  by_cases same : Document.same updated config = true
  · rw [if_pos same] at update
    have keys := keys_of_same listsAfter lists cleanUpdated same
    refine ⟨none, update, nofun, entries, lists, keys ▸ once, fun path => ?_⟩
    rw [← keys]
    exact items path
  · rw [if_neg same] at update
    refine ⟨some updated, update, ?_, after, listsAfter, once, items⟩
    rintro _ ⟨rfl⟩
    exact cleanUpdated

/-- A config that lists the target paths once each needs no update. -/
theorem updateReferences?_again (clean : Document.Clean config) (once : entries.keys.Nodup)
    (items : ∀ path, path ∈ entries.keys ↔ path ∈ target)
    (known : ∀ path ∈ target, (aliasFor path).isSome) :
    updateReferences? config target aliasFor = .ok none := by
  rcases withReferences_eq lists known with ⟨between, _, same, result⟩
  rw [same once items] at result
  have made : withReferences config target aliasFor = .ok config := by
    by_cases bare : (target.isEmpty && !config.contains "references") = true
    · rw [if_pos bare] at result
      exact result
    · rw [if_neg bare, arranged_same once items] at result
      have entry : entries.keys.map (entryOf entries) = entries.map (·.2) := by
        rw [Table.keys, List.map_map]
        apply List.map_congr_left
        intro entry member
        have found : Table.get? entries.reverse entry.1 = some entry.2 := by
          rw [Table.get?_perm (List.reverse_perm entries) once, Table.get?_eq_some_iff once]
          exact member
        rw [Function.comp_apply, entryOf, found]
        rfl
      rcases lists.listed with listed | ⟨absent, none⟩
      · rw [entry, Table.set_of_get? listed] at result
        exact result
      · refine absurd ?_ bare
        rw [Bool.and_eq_true, Bool.not_eq_true']
        constructor
        · rw [List.isEmpty_iff, List.eq_nil_iff_forall_not_mem]
          intro path wanted
          have present := (items path).mpr wanted
          rw [none] at present
          cases present
        · rw [← Bool.not_eq_true, Table.contains_iff, absent]
          decide
  rw [updateReferences?, made]
  change Except.ok (if config.same config = true then none else some config) = _
  rw [if_pos (Document.same_refl clean)]

end

end Config
end RefSync
