/-
Aliases after an update, one at a time. Aliases are added for the references that come; those of
the references that were listed before are never added or changed, and they are only lost where
a reference that goes is found under them.
-/

import RefSync.Proofs.Config.Updated

namespace RefSync.Config

/-! ### The alias of one path -/

/-- Whether a table points a name, and everything below it, at a path. -/
structure HasAlias (aliases : Document) (name path : String) : Prop where
  exactly : aliases.get? name = some (.arr [.str path])
  under : aliases.get? (below name) = some (.arr [.str (below path)])

theorem hasAlias_addAlias (aliases : Document) (name path : String) :
    HasAlias (addAlias aliases name path) name path where
  exactly := by
    rw [addAlias, Table.get?_set, if_neg (below_ne name).symm, Table.get?_set, if_pos rfl]
  under := by rw [addAlias, Table.get?_set, if_pos rfl]

theorem get?_addAlias {aliases : Document} {name path key : String} (other : key ≠ name)
    (notUnder : key ≠ below name) :
    (addAlias aliases name path).get? key = aliases.get? key := by
  rw [addAlias, Table.get?_set, if_neg notUnder, Table.get?_set, if_neg other]

/-! ### References that go -/

theorem get?_removeAlias (aliases : Document) (path : Json) (key : String) :
    (removeAlias aliases path).get? key = none
      ∨ (removeAlias aliases path).get? key = aliases.get? key := by
  unfold removeAlias
  cases findAlias aliases path with
  | none => exact Or.inr rfl
  | some found =>
      dsimp only
      rw [Table.get?_erase, Table.get?_erase]
      by_cases removed : key = below found ∨ key = found
      · rcases removed with under | exactly
        · exact Or.inl (if_pos under)
        · rw [if_pos exactly, ite_self]
          exact Or.inl rfl
      · rw [not_or] at removed
        rw [if_neg removed.1, if_neg removed.2]
        exact Or.inr rfl

theorem get?_removeAll (redundant : List Json) (aliases : Document) (key : String) :
    Table.get? (redundant.foldl removeAlias aliases) key = none
      ∨ Table.get? (redundant.foldl removeAlias aliases) key = aliases.get? key := by
  induction redundant generalizing aliases with
  | nil => exact Or.inr rfl
  | cons path rest ih =>
      rcases ih (removeAlias aliases path) with absent | same
      · exact Or.inl absent
      · rcases get?_removeAlias aliases path key with gone | kept
        · exact Or.inl (same.trans gone)
        · exact Or.inr (same.trans kept)

theorem nodup_removeAlias {aliases : Document} (distinct : aliases.keys.Nodup) (path : Json) :
    (removeAlias aliases path).keys.Nodup := by
  unfold removeAlias
  cases findAlias aliases path with
  | none => exact distinct
  | some found => exact Table.nodup_keys_erase (Table.nodup_keys_erase distinct _) _

/-- An alias is found for its own path only. -/
theorem HasAlias.removeAlias {aliases : Document} {name path other : String}
    (has : HasAlias aliases name path) (distinct : aliases.keys.Nodup)
    (plain : ∀ key, name ≠ below key) (differs : other ≠ path) (notUnder : other ≠ below path) :
    HasAlias (removeAlias aliases (.str other)) name path := by
  unfold Config.removeAlias
  cases found : findAlias aliases (.str other) with
  | none => exact has
  | some key =>
      obtain ⟨items, member, listed⟩ := mem_of_findAlias found
      have held : aliases.get? key = some (.arr items) :=
        (Table.get?_eq_some_iff distinct).mpr member
      rw [mem_of_contains] at listed
      have notExactly : name ≠ key := by
        intro same
        subst same
        rw [has.exactly] at held
        cases held
        exact differs (Json.str.inj (List.mem_singleton.mp listed))
      have notBelow : below name ≠ key := by
        intro same
        subst same
        rw [has.under] at held
        cases held
        exact notUnder (Json.str.inj (List.mem_singleton.mp listed))
      dsimp only
      constructor
      · rw [Table.get?_erase, if_neg (plain key), Table.get?_erase, if_neg notExactly]
        exact has.exactly
      · rw [Table.get?_erase, if_neg fun same => notExactly (below_injective same),
          Table.get?_erase, if_neg notBelow]
        exact has.under

theorem HasAlias.removeAll {aliases : Document} {name path : String} {redundant : List String}
    (has : HasAlias aliases name path) (distinct : aliases.keys.Nodup)
    (plain : ∀ key, name ≠ below key) (stays : path ∉ redundant) (apart : below path ∉ redundant) :
    HasAlias ((redundant.map Json.str).foldl Config.removeAlias aliases) name path := by
  induction redundant generalizing aliases with
  | nil => exact has
  | cons other rest ih =>
      rw [List.mem_cons, not_or] at stays apart
      have removed := has.removeAlias distinct plain (Ne.symm stays.1) (Ne.symm apart.1)
      exact ih removed (nodup_removeAlias distinct _) stays.2 apart.2

/-! ### References that come -/

/-- Names of different paths, none of which is the `/*` alias of another one. -/
structure Naming.Distinct (naming : Naming) : Prop where
  injective {path other name : String} :
    naming path = some name → naming other = some name → path = other
  apart {path other name : String} : naming path = some name → naming other ≠ some (below name)

section

variable {naming : Naming} {aliases more : Document} {missing : List String}

/-- What is no name of a path that comes stays as it is. -/
theorem get?_addAll (added : missing.foldlM (addAliasFor naming) aliases = .ok more) {key : String}
    (unused : ∀ path ∈ missing, ∀ name, naming path = some name → key ≠ name ∧ key ≠ below name) :
    more.get? key = aliases.get? key := by
  induction missing generalizing aliases with
  | nil =>
      cases added
      rfl
  | cons first rest ih =>
      obtain ⟨name, named, goesOn⟩ := addAllFor_cons added
      obtain ⟨other, notUnder⟩ := unused first List.mem_cons_self name named
      have later := ih goesOn fun path member => unused path (List.mem_cons_of_mem _ member)
      exact later.trans (get?_addAlias other notUnder)

theorem hasAlias_addAll (distinct : naming.Distinct)
    (added : missing.foldlM (addAliasFor naming) aliases = .ok more) {path name : String}
    (member : path ∈ missing) (named : naming path = some name) : HasAlias more name path := by
  induction missing generalizing aliases with
  | nil => cases member
  | cons first rest ih =>
      obtain ⟨own, firstNamed, goesOn⟩ := addAllFor_cons added
      by_cases again : path ∈ rest
      · exact ih goesOn again
      · obtain rfl : path = first := (List.mem_cons.mp member).resolve_right again
        obtain rfl : own = name := Option.some.inj (firstNamed.symm.trans named)
        -- The paths after it go by other names, so what was added for it stays.
        have unused : ∀ other ∈ rest, ∀ second, naming other = some second →
            own ≠ second ∧ own ≠ below second ∧ below own ≠ second ∧ below own ≠ below second := by
          intro other inRest second secondNamed
          have differs : own ≠ second := by
            intro same
            subst same
            exact again (distinct.injective named secondNamed ▸ inRest)
          refine ⟨differs, ?_, ?_, fun same => differs (below_injective same)⟩
          · exact fun same => distinct.apart secondNamed (same ▸ named)
          · exact fun same => distinct.apart named (same ▸ secondNamed)
        have has := hasAlias_addAlias aliases own path
        constructor
        · rw [get?_addAll goesOn fun other inRest second its =>
            ⟨(unused other inRest second its).1, (unused other inRest second its).2.1⟩]
          exact has.exactly
        · rw [get?_addAll goesOn fun other inRest second its =>
            ⟨(unused other inRest second its).2.2.1, (unused other inRest second its).2.2.2⟩]
          exact has.under

end

/-! ### Updates -/

/-- What an update makes of the aliases of its target paths. -/
structure Realiased (entries : Table Json) (naming : Naming) (target : List String)
    (aliases more : Document) : Prop where
  /-- A reference that comes has its alias. -/
  added (path name : String) : path ∈ target → path ∉ entries.keys → naming path = some name →
    HasAlias more name path
  /-- The aliases of a reference that was listed may go but are never new. -/
  listed (path name key : String) : path ∈ target → path ∈ entries.keys → naming path = some name →
    key = name ∨ key = below name → more.get? key = none ∨ more.get? key = aliases.get? key
  /-- They stay where they are in place and not looked for in the place of others. -/
  kept (path name : String) : path ∈ target → path ∈ entries.keys → naming path = some name →
    (∀ key, name ≠ below key) → below path ∉ entries.keys → HasAlias aliases name path →
    HasAlias more name path

section

variable {config aliases : Document} {entries : Table Json} {naming : Naming} {target : List String}

theorem realiased_withReferences (clean : Document.Clean config) (lists : Lists config entries)
    (tables : Tables config aliases) (distinct : naming.Distinct) {updated : Document}
    (made : withReferences config target naming = .ok updated) :
    ∃ more, Tables updated more ∧ Realiased entries naming target aliases more := by
  obtain ⟨between, added, _, update⟩ := withReferences_steps lists made
  obtain ⟨more, folded, tablesBetween⟩ :=
    (tables.removeAliases ((redundantItems entries.keys target).map .str)).addAliases added
  have tablesAfter : Tables updated more := by
    rcases update with ⟨rfl, _⟩ | rfl
    · exact tablesBetween
    · exact tablesBetween.set_references _
  have distinctKeys : aliases.keys.Nodup := by
    rcases tables.found with present | ⟨_, rfl⟩
    · exact (clean_aliases clean present).distinct
    · exact List.nodup_nil
  -- Nothing is added under the names of a reference that was listed.
  have unused {path name key : String} (present : path ∈ entries.keys) (named : naming path = some name)
      (used : key = name ∨ key = below name) : ∀ other ∈ missingItems entries.keys target,
        ∀ second, naming other = some second → key ≠ second ∧ key ≠ below second := by
    intro other member second secondNamed
    have differs : name ≠ second := by
      intro same
      subst same
      exact (mem_missingItems.mp member).2 (distinct.injective named secondNamed ▸ present)
    rcases used with rfl | rfl
    · exact ⟨differs, fun same => distinct.apart secondNamed (same ▸ named)⟩
    · exact ⟨fun same => distinct.apart named (same ▸ secondNamed),
        fun same => differs (below_injective same)⟩
  refine ⟨more, tablesAfter, ?_⟩
  exact
    { added := fun path name member absent named =>
        hasAlias_addAll distinct folded (mem_missingItems.mpr ⟨member, absent⟩) named
      listed := fun path name key _ present named used => by
        rw [get?_addAll folded (unused present named used)]
        exact get?_removeAll _ aliases key
      kept := fun path name member present named plain apart has => by
        have stays : path ∉ redundantItems entries.keys target :=
          fun goes => (mem_redundantItems.mp goes).2 member
        have remains := has.removeAll distinctKeys plain stays
          fun goes => apart (mem_redundantItems.mp goes).1
        constructor
        · rw [get?_addAll folded (unused present named (Or.inl rfl))]
          exact remains.exactly
        · rw [get?_addAll folded (unused present named (Or.inr rfl))]
          exact remains.under }

/-- Where an update finds nothing to do, every target path was listed already. -/
theorem realiased_updateReferences (clean : Document.Clean config) (lists : Lists config entries)
    (tables : Tables config aliases) (distinct : naming.Distinct)
    (known : ∀ path ∈ target, (naming path).isSome) :
    ∃ update, updateReferences? config target naming = .ok update
      ∧ (∀ updated, update = some updated → Document.Clean updated)
      ∧ ∃ more, Tables (update.getD config) more ∧ Realiased entries naming target aliases more := by
  obtain ⟨updated, _, made, cleans, _⟩ := withReferences_ok lists known
  obtain ⟨more, tablesAfter, realiased⟩ := realiased_withReferences clean lists tables distinct made
  have update : updateReferences? config target naming
      = .ok (if updated.same config then none else some updated) := by
    rw [updateReferences?, made]
    rfl
  refine ⟨_, update, ?_⟩
  by_cases same : Document.same updated config = true
  · have keys := keys_of_same (lists_withReferences lists made).1 lists (cleans clean) same
    rw [keys_updatedEntries] at keys
    have present {path : String} (member : path ∈ target) : path ∈ entries.keys := by
      rw [← keys]
      exact mem_arranged.mpr member
    rw [if_pos same]
    refine ⟨(fun _ impossible => by cases impossible), aliases, tables, ?_⟩
    exact
      { added := fun path name member absent _ => absurd (present member) absent
        listed := fun _ _ _ _ _ _ _ => Or.inr rfl
        kept := fun _ _ _ _ _ _ _ has => has }
  · rw [if_neg same]
    refine ⟨?_, more, tablesAfter, realiased⟩
    intro other some_
    exact Option.some.inj some_ ▸ cleans clean

end

end RefSync.Config
