/-
What a rename makes of a config as a whole. The alias of the old name and the one of everything
below it move, each with its targets, and the list names each reference once; a config without
references is left alone, and so is one that was renamed before.
-/

import RefSync.Proofs.Config.Usable
import RefSync.Proofs.Config.Updated

namespace RefSync.Config

/-! ### Moved aliases -/

/-- What a name stands for after a rename. -/
def renamedAlias (aliases : Document) (old new key : String) : Option Json :=
  if key = new then (aliases.get? old).or (aliases.get? new)
  else if key = below new then (aliases.get? (below old)).or (aliases.get? (below new))
  else if key = old ∨ key = below old then none
  else aliases.get? key

theorem get?_moveAlias (aliases : Document) (old new key : String) :
    (moveAlias aliases old new).get? key
      = if key = new then (aliases.get? old).or (aliases.get? new)
        else if key = old then none
        else aliases.get? key := by
  unfold moveAlias
  cases found : aliases.get? old with
  | none =>
      by_cases isNew : key = new
      · rw [if_pos isNew, isNew, Option.none_or]
      · by_cases isOld : key = old
        · rw [if_neg isNew, if_pos isOld, isOld, found]
        · rw [if_neg isNew, if_neg isOld]
  | some targets =>
      dsimp only
      rw [Table.get?_set, Table.get?_erase, Option.some_or]

/-- Two names of which neither is the other one, or everything below it. -/
structure Apart (old new : String) : Prop where
  differs : old ≠ new
  notBelow : old ≠ below new
  notAbove : new ≠ below old

section

variable {old new : String} (apart : Apart old new)

include apart

theorem get?_moveAliases (aliases : Document) (key : String) :
    (moveAlias (moveAlias aliases old new) (below old) (below new)).get? key
      = renamedAlias aliases old new key := by
  rw [get?_moveAlias, renamedAlias]
  by_cases isNew : key = new
  · subst isNew
    rw [if_neg (below_ne key).symm, if_neg apart.notAbove, get?_moveAlias, if_pos rfl,
      if_pos rfl]
  by_cases isUnder : key = below new
  · subst isUnder
    rw [if_pos rfl, if_neg isNew, if_pos rfl, get?_moveAlias,
      get?_moveAlias, if_neg (Ne.symm apart.notAbove), if_neg (below_ne old),
      if_neg isNew, if_neg (Ne.symm apart.notBelow)]
  rw [if_neg isUnder, if_neg isNew, if_neg isUnder]
  by_cases wasUnder : key = below old
  · rw [if_pos wasUnder, if_pos (Or.inr wasUnder)]
  rw [if_neg wasUnder, get?_moveAlias, if_neg isNew]
  by_cases wasOld : key = old
  · rw [if_pos wasOld, if_pos (Or.inl wasOld)]
  · rw [if_neg wasOld, if_neg fun was => was.elim wasOld wasUnder]

omit apart in
theorem renamedAlias_absent {aliases : Document} (old_ : aliases.get? old = none)
    (under : aliases.get? (below old) = none) (key : String) :
    renamedAlias aliases old new key = aliases.get? key := by
  unfold renamedAlias
  by_cases isNew : key = new
  · rw [if_pos isNew, old_, Option.none_or, isNew]
  by_cases isUnder : key = below new
  · rw [if_neg isNew, if_pos isUnder, under, Option.none_or, isUnder]
  rw [if_neg isNew, if_neg isUnder]
  by_cases was : key = old ∨ key = below old
  · rw [if_pos was]
    rcases was with rfl | rfl
    · exact old_.symm
    · exact under.symm
  · exact if_neg was

/-- Nothing is left of the old name. -/
theorem renamedAlias_old (aliases : Document) : renamedAlias aliases old new old = none := by
  rw [renamedAlias, if_neg apart.differs, if_neg apart.notBelow, if_pos (Or.inl rfl)]

theorem renamedAlias_below_old (aliases : Document) :
    renamedAlias aliases old new (below old) = none := by
  have differs : below old ≠ below new := fun same => apart.differs (below_injective same)
  rw [renamedAlias, if_neg (Ne.symm apart.notAbove), if_neg differs, if_pos (Or.inr rfl)]

end

theorem renameAlias?_eq_none {config aliases : Document} {old new : String}
    (tables : Tables config aliases) (old_ : aliases.get? old = none)
    (under : aliases.get? (below old) = none) : renameAlias? config old new = none := by
  have absent (key : String) (missing : aliases.get? key = none) : aliases.contains key = false := by
    rw [← Bool.not_eq_true, Table.contains_iff, missing]
    decide
  unfold renameAlias?
  rcases tables.found with present | ⟨none, _⟩
  · rw [present, Option.bind_some, absent old old_, absent _ under]
    rfl
  · rw [none, Option.bind_none]

section

variable {config aliases : Document} {old new : String} (tables : Tables config aliases)
  (apart : Apart old new)

include tables apart

/-- The table after a rename, whether an alias was moved or there was none. -/
theorem tables_renameAlias :
    KeepsOthers config ((renameAlias? config old new).getD config)
      ∧ ∃ more, Tables ((renameAlias? config old new).getD config) more
        ∧ ∀ key, more.get? key = renamedAlias aliases old new key := by
  cases renamed : renameAlias? config old new with
  | some moved =>
      obtain ⟨present, found, made⟩ := Option.bind_eq_some_iff.mp renamed
      obtain rfl : present = aliases := by
        rcases tables.found with same | ⟨none, _⟩
        · exact Option.some.inj (found.symm.trans same)
        · rw [none] at found
          cases found
      split at made
      · cases made
        exact ⟨keepsOthers_setAliases config _, _, tables_setAliases config _,
          get?_moveAliases apart present⟩
      · cases made
  | none =>
      refine ⟨.refl config, aliases, tables, fun key => ?_⟩
      have absent : aliases.get? old = none ∧ aliases.get? (below old) = none := by
        rcases tables.found with present | ⟨_, rfl⟩
        · unfold renameAlias? at renamed
          rw [present, Option.bind_some] at renamed
          split at renamed
          · cases renamed
          · rename_i none
            rw [Bool.or_eq_true, Table.contains_iff, Table.contains_iff, not_or, Option.isSome_iff_ne_none,
              Option.isSome_iff_ne_none, not_not, not_not] at none
            exact none
        · exact ⟨rfl, rfl⟩
      exact (renamedAlias_absent absent.1 absent.2 key).symm

end

/-! ### Tables of configs that are the same -/

theorem same_get?_obj {left right others : Document} {key : String} (clean : Document.Clean left)
    (same : Document.same left right = true) (held : right.get? key = some (.obj others)) :
    ∃ members, left.get? key = some (.obj members) ∧ Document.Clean members
      ∧ Document.same members others = true := by
  obtain ⟨value, found, sames⟩ := Document.same_get? clean same held
  rcases Json.same_members? sames with ⟨members, _, rfl, second, sameMembers⟩ | ⟨_, none⟩
  · cases second
    exact ⟨members, found, Document.clean_obj.mp (clean.get? found), sameMembers⟩
  · cases none

/-- Configs that are the same have aliases of the same names. -/
theorem tables_of_same {left right one other : Document} (first : Tables left one)
    (second : Tables right other) (clean : Document.Clean left)
    (same : Document.same left right = true) {key : String} (absent : one.get? key = none) :
    other.get? key = none := by
  rcases second.paths with present | ⟨_, empty⟩
  · obtain ⟨rightOptions, isOptions, paths⟩ := Option.bind_eq_some_iff.mp present
    obtain ⟨value, found, members⟩ := Option.bind_eq_some_iff.mp isOptions
    cases value with
    | obj options =>
        cases members
        obtain ⟨leftOptions, leftFound, cleanOptions, sameOptions⟩ := same_get?_obj clean same found
        obtain ⟨leftPaths, leftHeld, cleanPaths, samePaths⟩ :=
          same_get?_obj cleanOptions sameOptions paths
        have leftPresent : paths? left = some (.obj leftPaths) := by
          rw [paths?, options?, leftFound, Option.bind_some, Json.members?, Option.bind_some, leftHeld]
        obtain rfl : leftPaths = one := by
          rcases first.paths with held | ⟨none, _⟩
          · rw [leftPresent] at held
            cases held
            rfl
          · rw [leftPresent] at none
            cases none
        have missing := mt (Document.same_keys cleanPaths samePaths key).mpr
        rw [Table.mem_keys_iff, Table.mem_keys_iff, absent] at missing
        exact Option.not_isSome_iff_eq_none.mp (missing Bool.false_ne_true)
    | _ => cases members
  · rw [empty]
    rfl

/-! ### Tidied references -/

theorem missingItems_self (paths : List String) : missingItems paths paths = [] := by
  apply List.eq_nil_iff_forall_not_mem.mpr
  intro path member
  obtain ⟨wanted, lacks⟩ := mem_missingItems.mp member
  exact lacks wanted

theorem redundantItems_self (paths : List String) : redundantItems paths paths = [] := by
  apply List.eq_nil_iff_forall_not_mem.mpr
  intro path member
  obtain ⟨present, unwanted⟩ := mem_redundantItems.mp member
  exact unwanted present

section

variable {config : Document} {entries : Table Json} (lists : Lists config entries)

include lists

/-- References are tidied by an update to those that are listed already. -/
theorem tidyReferences_eq (aliasFor : String → Option String) :
    tidyReferences config = withReferences config entries.keys aliasFor := by
  have removed : removeAliases config [] = config := by
    unfold removeAliases
    cases found : aliases? config with
    | none => rfl
    | some aliases => exact setAliases_same found
  rw [withReferences_of_lists lists, missingItems_self, redundantItems_self, List.map_nil, removed,
    tidyReferences, scalarPaths_of_lists lists]
  change (if (entries.keys.map Json.str).isEmpty && !config.contains "references" then Except.ok config
    else setReferences config (entries.keys.map .str))
    = if entries.keys.isEmpty && !config.contains "references" then .ok config
      else setReferences config (entries.keys.map .str)
  rw [List.isEmpty_map]

/-- Tidied references are the same paths, each of them once, and nothing else is touched. -/
theorem tidyReferences_ok {aliases : Document} (tables : Tables config aliases) :
    ∃ updated listed, tidyReferences config = .ok updated
      ∧ (Document.Clean config → Document.Clean updated)
      ∧ Lists updated listed ∧ listed.keys.Nodup ∧ (∀ path, path ∈ listed.keys ↔ path ∈ entries.keys)
      ∧ Tables updated aliases ∧ KeepsOthers config updated := by
  have known : ∀ path ∈ entries.keys, (some path).isSome := fun _ _ => rfl
  obtain ⟨updated, listed, made, clean, listsUpdated, once, items⟩ := withReferences_ok lists known
  obtain ⟨between, added, _, update⟩ := withReferences_steps lists made
  rw [missingItems_self, redundantItems_self, List.map_nil] at added
  obtain ⟨more, same, tablesBetween⟩ := (tables.removeAliases []).addAliases added
  obtain rfl : aliases = more := Except.ok.inj same
  refine ⟨updated, listed, (tidyReferences_eq lists some).trans made, clean, listsUpdated, once, items,
    ?_, (lists_withReferences lists made).2⟩
  rcases update with ⟨rfl, _⟩ | rfl
  · exact tablesBetween
  · exact tablesBetween.set_references _

end

/-! ### Renamed configs -/

/-- What a rename makes of a config that lists references. -/
structure Renamed (old new : String) (entries : Table Json) (aliases : Document)
    (before after : Document) : Prop where
  listed : ∃ listed, Lists after listed ∧ ∀ path, path ∈ listed.keys ↔ path ∈ entries.keys
  aliases : ∃ more, Tables after more ∧ ∀ key, more.get? key = renamedAlias aliases old new key
  others : KeepsOthers before after

theorem renamedConfig?_bare {config : Document} (absent : config.get? "references" = none)
    (renamed : Option (String × String)) : Update.renamedConfig? config renamed = .ok none := by
  have lacks : config.contains "references" = false := by
    rw [← Bool.not_eq_true, Table.contains_iff, absent]
    decide
  rw [Update.renamedConfig?, lacks]
  rfl

theorem renamedConfig?_listed {config : Document} (present : config.get? "references" ≠ none)
    (old new : String) :
    Update.renamedConfig? config (some (old, new))
      = tidyReferences ((renameAlias? config old new).getD config) >>= fun updated =>
        .ok (if updated.same config then none else some updated) := by
  have has : config.contains "references" = true := by
    rw [Table.contains_iff]
    exact Option.isSome_iff_ne_none.mpr present
  rw [Update.renamedConfig?, has]
  rfl

/-- There is nothing to do where no alias of the old name is left and each reference is listed once. -/
theorem renamedConfig?_settled {config aliases : Document} {entries : Table Json} {old new : String}
    (clean : Document.Clean config) (lists : Lists config entries) (once : entries.keys.Nodup)
    (tables : Tables config aliases) (gone : aliases.get? old = none)
    (goneBelow : aliases.get? (below old) = none) :
    Update.renamedConfig? config (some (old, new)) = .ok none := by
  by_cases absent : config.get? "references" = none
  · exact renamedConfig?_bare absent _
  · have known : ∀ path ∈ entries.keys, (some path).isSome := fun _ _ => rfl
    rw [renamedConfig?_listed absent, renameAlias?_eq_none tables gone goneBelow, Option.getD_none,
      tidyReferences_eq lists some]
    exact updateReferences?_again lists clean once (fun _ => Iff.rfl) known

/-- A rename goes through, and leaves nothing for a second one to do. -/
theorem renamedConfig?_renames {config aliases : Document} {entries : Table Json} {old new : String}
    (clean : Document.Clean config) (lists : Lists config entries) (tables : Tables config aliases)
    (apart : Apart old new) (present : config.get? "references" ≠ none) :
    ∃ update, Update.renamedConfig? config (some (old, new)) = .ok update
      ∧ Renamed old new entries aliases config (update.getD config)
      ∧ Update.renamedConfig? (update.getD config) (some (old, new)) = .ok none := by
  have kept : KeepsReferences config ((renameAlias? config old new).getD config) :=
    moved_keepsReferences config (some (old, new))
  obtain ⟨movedOthers, more, tablesMoved, lookups⟩ := tables_renameAlias tables apart
  obtain ⟨updated, listed, made, cleans, listsUpdated, once, items, tablesUpdated, others⟩ :=
    tidyReferences_ok (lists.of_keeps kept) tablesMoved
  have cleanUpdated := cleans (kept.clean clean)
  have gone : more.get? old = none := (lookups old).trans (renamedAlias_old apart aliases)
  have goneBelow : more.get? (below old) = none :=
    (lookups (below old)).trans (renamedAlias_below_old apart aliases)
  have update : Update.renamedConfig? config (some (old, new))
      = .ok (if updated.same config then none else some updated) := by
    rw [renamedConfig?_listed present, made]
    rfl
  refine ⟨_, update, ?_⟩
  by_cases same : Document.same updated config = true
  · have keys := keys_of_same listsUpdated lists cleanUpdated same
    have goneBefore := tables_of_same tablesUpdated tables cleanUpdated same gone
    have goneBelowBefore := tables_of_same tablesUpdated tables cleanUpdated same goneBelow
    rw [if_pos same, Option.getD_none]
    constructor
    · exact
        { listed := ⟨entries, lists, fun _ => Iff.rfl⟩
          aliases := ⟨aliases, tables, fun key =>
            (renamedAlias_absent goneBefore goneBelowBefore key).symm⟩
          others := .refl config }
    · exact renamedConfig?_settled clean lists (keys ▸ once) tables goneBefore goneBelowBefore
  · rw [if_neg same, Option.getD_some]
    constructor
    · exact
        { listed := ⟨listed, listsUpdated, items⟩
          aliases := ⟨more, tablesUpdated, lookups⟩
          others := movedOthers.trans others }
    · exact renamedConfig?_settled cleanUpdated listsUpdated once tablesUpdated gone goneBelow

end RefSync.Config
