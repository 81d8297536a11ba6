/-
The stands table of a config over any history of updates and renames. Aliases are added for the
references that come and searched for by the references that go, so nothing computes the table
as a whole: that it holds the user's own entries, the aliases of the present references and
nothing else is an invariant of the history (`aliases_follow_references`).
-/

import RefSync.Proofs.Config.References

namespace RefSync.Config

/-! ### The table of a config -/

/-- The `paths` of the compiler options, whatever they are. -/
def paths? (config : Document) : Option Json :=
  (options? config).bind (·.get? "paths")

/-- Whether a config has a table of aliases; one without `paths` has the empty one. -/
structure Tables (config aliases : Document) : Prop where
  paths : paths? config = some (.obj aliases) ∨ paths? config = none ∧ aliases = []

theorem aliases?_eq (config : Document) : aliases? config = (paths? config).bind Json.members? :=
  (Option.bind_assoc _ _ _).symm

theorem tables_setAliases (config aliases : Document) : Tables (setAliases config aliases) aliases := by
  refine ⟨Or.inl ?_⟩
  rw [paths?, options?, setAliases, Table.get?_set, if_pos rfl, Option.bind_some, Json.members?,
    Option.bind_some, Table.get?_set, if_pos rfl]

section

variable {config aliases : Document} (tables : Tables config aliases)

include tables

theorem Tables.found : aliases? config = some aliases ∨ aliases? config = none ∧ aliases = [] := by
  rcases tables.paths with present | ⟨absent, empty⟩
  · left
    rw [aliases?_eq, present]
    rfl
  · right
    rw [aliases?_eq, absent]
    exact ⟨rfl, empty⟩

theorem Tables.getD : (aliases? config).getD [] = aliases := by
  rcases tables.found with present | ⟨absent, empty⟩
  · rw [present, Option.getD_some]
  · rw [absent, Option.getD_none, empty]

theorem Tables.set_references (value : Json) : Tables (Table.set config "references" value) aliases := by
  have same : paths? (Table.set config "references" value) = paths? config := by
    rw [paths?, options?, Table.get?_set, if_neg (by decide), ← options?, ← paths?]
  exact ⟨same ▸ tables.paths⟩

theorem Tables.removeAliases (redundant : List Json) :
    Tables (removeAliases config redundant) (redundant.foldl removeAlias aliases) := by
  unfold Config.removeAliases
  rcases tables.found with present | ⟨absent, empty⟩
  · rw [present]
    exact tables_setAliases config _
  · have nothing : redundant.foldl removeAlias ([] : Document) = [] := by
      induction redundant with
      | nil => rfl
      | cons path rest ih => exact ih
    rw [absent, empty, nothing, ← empty]
    exact tables

theorem Tables.addAliases {missing : List String} {aliasFor : String → Option String}
    {updated : Document} (added : addAliases config missing aliasFor = .ok updated) :
    ∃ more, missing.foldlM (addAliasFor aliasFor) aliases = .ok more ∧ Tables updated more := by
  rcases addAliases_cases added with ⟨rfl, rfl⟩ | ⟨more, made, rfl⟩
  · exact ⟨aliases, rfl, tables⟩
  · rw [tables.getD] at made
    exact ⟨more, made, tables_setAliases config more⟩

end

/-! ### Namings -/

/-- The names that reference paths go by. -/
abbrev Naming := String → Option String

/-- The naming under which a path goes by another name. -/
def Naming.renamed (naming : Naming) (path new : String) : Naming :=
  fun other => if other = path then some new else naming other

/-- Whether an entry of a table is an alias of a path: the exact one or that of everything below. -/
def IsAlias (naming : Naming) (path key : String) (targets : Json) : Prop :=
  ∃ name, naming path = some name
    ∧ (key = name ∧ targets = .arr [.str path] ∨ key = below name ∧ targets = .arr [.str (below path)])

/-- Names and paths that get neither into each other's way nor into that of the user's entries. -/
structure Naming.Fits (naming : Naming) (user : Document) : Prop where
  injective {path other name : String} :
    naming path = some name → naming other = some name → path = other
  names {path other name} : naming path = some name → naming other ≠ some (below name)
  paths {path : String} : (naming path).isSome → naming (below path) = none
  keys {path name : String} : naming path = some name →
    user.get? name = none ∧ user.get? (below name) = none
  targets {path key : String} {items : List Json} : (naming path).isSome →
    user.get? key = some (.arr items) → .str path ∉ items

/-- Whether a table holds the user's entries, the aliases of some paths and nothing else. -/
structure Follows (naming : Naming) (user : Document) (present : String → Prop) (aliases : Document) :
    Prop where
  distinct : aliases.keys.Nodup
  named path : present path → (naming path).isSome
  entries key targets : aliases.get? key = some targets
    ↔ user.get? key = some targets ∨ ∃ path, present path ∧ IsAlias naming path key targets

theorem below_injective {left right : String} (same : below left = below right) : left = right := by
  have lists := congrArg String.toList same
  rw [below, below, String.toList_append, String.toList_append] at lists
  exact String.toList_injective (List.append_cancel_right lists)

theorem below_ne (key : String) : below key ≠ key := by
  intro same
  have lengths := congrArg (·.toList.length) same
  simp only [below, String.toList_append, List.length_append] at lengths
  have suffix : "/*".toList.length = 2 := by decide
  omega

theorem mem_of_contains {items : List Json} {path : String} :
    items.contains (.str path) = true ↔ .str path ∈ items := by
  induction items with
  | nil => exact ⟨nofun, nofun⟩
  | cons head rest ih =>
      have first : (Json.str path == head) = true ↔ Json.str path = head :=
        Json.same_str.trans eq_comm
      rw [List.contains_cons, Bool.or_eq_true, List.mem_cons, ih, first]

section

variable {naming : Naming} {user : Document} (fits : naming.Fits user) {path other name key : String}
  {targets others : Json}

include fits

/-- An alias belongs to one path only. -/
theorem IsAlias.apart (mine : IsAlias naming path key targets)
    (its : IsAlias naming other key others) : path = other := by
  obtain ⟨name, named, at_⟩ := mine
  obtain ⟨second, secondNamed, secondAt⟩ := its
  rcases at_ with ⟨rfl, _⟩ | ⟨rfl, _⟩ <;> rcases secondAt with ⟨same, _⟩ | ⟨same, _⟩
  · exact fits.injective named (same ▸ secondNamed)
  · exact absurd (same ▸ named) (fits.names secondNamed)
  · exact absurd (same ▸ secondNamed) (fits.names named)
  · exact fits.injective named (below_injective same ▸ secondNamed)

/-- The user has no entries under the names of a path. -/
theorem Naming.Fits.unused (named : naming path = some name) (used : key = name ∨ key = below name) :
    user.get? key = none := by
  rcases used with rfl | rfl
  · exact (fits.keys named).1
  · exact (fits.keys named).2

/-- An alias is found under the names of its own path and under no others. -/
theorem IsAlias.key_iff (mine : IsAlias naming path key targets) (named : naming other = some name) :
    key = name ∨ key = below name ↔ path = other := by
  constructor
  · rintro (rfl | rfl)
    · exact mine.apart fits ⟨key, named, Or.inl ⟨rfl, rfl⟩⟩
    · exact mine.apart fits ⟨name, named, Or.inr ⟨rfl, rfl⟩⟩
  · rintro rfl
    obtain ⟨second, secondNamed, at_⟩ := mine
    obtain rfl : second = name := Option.some.inj (secondNamed.symm.trans named)
    exact at_.imp And.left And.left

/-- Neither the user's entries nor the aliases of other paths are under the names of a path. -/
theorem not_listed {present : String → Prop} (absent : ¬present path) (named : naming path = some name)
    (used : key = name ∨ key = below name) :
    ¬(user.get? key = some targets ∨ ∃ other, present other ∧ IsAlias naming other key targets) := by
  rintro (mine | ⟨other, among, stands⟩)
  · rw [fits.unused named used] at mine
    cases mine
  · exact absent ((stands.key_iff fits named).mp used ▸ among)

end

section

variable {naming : Naming} {path name : String} {targets : Json} (named : naming path = some name)

include named

theorem isAlias_name : IsAlias naming path name targets ↔ .arr [.str path] = targets := by
  constructor
  · rintro ⟨second, secondNamed, ⟨_, rfl⟩ | ⟨same, _⟩⟩
    · rfl
    · obtain rfl : second = name := Option.some.inj (secondNamed.symm.trans named)
      exact absurd same.symm (below_ne second)
  · rintro rfl
    exact ⟨name, named, Or.inl ⟨rfl, rfl⟩⟩

theorem isAlias_below :
    IsAlias naming path (below name) targets ↔ .arr [.str (below path)] = targets := by
  constructor
  · rintro ⟨second, secondNamed, ⟨same, _⟩ | ⟨_, rfl⟩⟩
    · obtain rfl : second = name := Option.some.inj (secondNamed.symm.trans named)
      exact absurd same (below_ne second)
    · rfl
  · rintro rfl
    exact ⟨name, named, Or.inr ⟨rfl, rfl⟩⟩

end

/-! ### One reference that goes or comes -/

theorem Follows.congr {naming : Naming} {user aliases : Document} {present others : String → Prop}
    (follows : Follows naming user present aliases) (same : ∀ path, present path ↔ others path) :
    Follows naming user others aliases := by
  obtain rfl : present = others := funext fun path => propext (same path)
  exact follows

/-- How a path is named does not matter as long as it has no aliases. -/
theorem Follows.renamed {naming : Naming} {user aliases : Document} {present : String → Prop}
    {path : String} (follows : Follows naming user present aliases) (absent : ¬present path)
    (new : String) : Follows (naming.renamed path new) user present aliases := by
  have same {other : String} (among : present other) :
      naming.renamed path new other = naming other := by
    refine if_neg ?_
    rintro rfl
    exact absent among
  refine ⟨follows.distinct, fun other among => ?_, fun key targets => ?_⟩
  · rw [same among]
    exact follows.named other among
  · rw [follows.entries key targets]
    refine or_congr_right (exists_congr fun other => and_congr_right fun among => ?_)
    rw [IsAlias, IsAlias, same among]

theorem mem_of_findAlias {aliases : Document} {path : Json} {key : String}
    (found : findAlias aliases path = some key) :
    ∃ items, (key, Json.arr items) ∈ aliases ∧ items.contains path = true := by
  induction aliases with
  | nil => cases found
  | cons entry rest ih =>
      obtain ⟨first, targets⟩ := entry
      have later (search : findAlias rest path = some key) :
          ∃ items, (key, Json.arr items) ∈ (first, targets) :: rest ∧ items.contains path = true := by
        obtain ⟨items, member, lists⟩ := ih search
        exact ⟨items, List.mem_cons_of_mem _ member, lists⟩
      cases targets with
      | arr items =>
          rw [findAlias] at found
          split at found
          · rename_i lists
            cases found
            exact ⟨items, List.mem_cons_self, lists⟩
          · exact later found
      | _ => exact later found

theorem findAlias_isSome {aliases : Document} {path : Json} {key : String} {items : List Json}
    (member : (key, Json.arr items) ∈ aliases) (lists : items.contains path = true) :
    (findAlias aliases path).isSome = true := by
  induction aliases with
  | nil => cases member
  | cons entry rest ih =>
      obtain ⟨first, targets⟩ := entry
      rcases List.mem_cons.mp member with same | inRest
      · cases same
        rw [findAlias, if_pos lists]
        rfl
      · have later := ih inRest
        cases targets with
        | arr others =>
            rw [findAlias]
            split
            · rfl
            · exact later
        | _ => exact later

section

variable {naming : Naming} {user aliases : Document} {present : String → Prop} {path name : String}
  (fits : naming.Fits user) (follows : Follows naming user present aliases)

include follows

theorem Follows.get?_name (here : present path) (named : naming path = some name) :
    aliases.get? name = some (.arr [.str path]) :=
  (follows.entries _ _).mpr (Or.inr ⟨path, here, (isAlias_name named).mpr rfl⟩)

theorem Follows.get?_below (here : present path) (named : naming path = some name) :
    aliases.get? (below name) = some (.arr [.str (below path)]) :=
  (follows.entries _ _).mpr (Or.inr ⟨path, here, (isAlias_below named).mpr rfl⟩)

include fits

/-- The names of a path without aliases are free. -/
theorem Follows.get?_of_absent {key : String} (absent : ¬present path)
    (named : naming path = some name) (used : key = name ∨ key = below name) :
    aliases.get? key = none := by
  cases found : aliases.get? key with
  | none => rfl
  | some targets =>
      exact absurd ((follows.entries key targets).mp found) (not_listed fits absent named used)

/-- The first alias that lists a path is the exact one of that path. -/
theorem Follows.findAlias (here : present path) (named : naming path = some name) :
    findAlias aliases (.str path) = some name := by
  have isSome := findAlias_isSome (Table.mem_of_get? (follows.get?_name here named))
    (mem_of_contains.mpr (List.mem_singleton_self (Json.str path)))
  obtain ⟨key, found⟩ := Option.isSome_iff_exists.mp isSome
  obtain ⟨items, member, lists⟩ := mem_of_findAlias found
  have lists := mem_of_contains.mp lists
  have some : (naming path).isSome := follows.named path here
  rcases (follows.entries key _).mp ((Table.get?_eq_some_iff follows.distinct).mpr member) with
    mine | ⟨other, _, second, secondNamed, ⟨rfl, targets⟩ | ⟨rfl, targets⟩⟩
  · exact absurd lists (fits.targets some mine)
  · cases targets
    cases List.mem_singleton.mp lists
    rw [found, ← secondNamed, named]
  · cases targets
    cases List.mem_singleton.mp lists
    have none := fits.paths (Option.isSome_iff_exists.mpr ⟨second, secondNamed⟩)
    rw [none] at some
    cases some

theorem Follows.removeAlias (here : present path) :
    Follows naming user (fun other => present other ∧ other ≠ path) (removeAlias aliases (.str path)) := by
  obtain ⟨name, named⟩ := Option.isSome_iff_exists.mp (follows.named path here)
  rw [Config.removeAlias, follows.findAlias fits here named]
  refine ⟨Table.nodup_keys_erase (Table.nodup_keys_erase follows.distinct _) _,
    fun other among => follows.named other among.1, fun key targets => ?_⟩
  have gone (used : key = name ∨ key = below name) :
      ¬(user.get? key = some targets
        ∨ ∃ other, (present other ∧ other ≠ path) ∧ IsAlias naming other key targets) :=
    not_listed fits (fun among => among.2 rfl) named used
  dsimp only
  rw [Table.get?_erase, Table.get?_erase]
  by_cases glob : key = below name
  · rw [if_pos glob]
    exact ⟨nofun, fun holds => absurd holds (gone (Or.inr glob))⟩
  · rw [if_neg glob]
    by_cases exact_ : key = name
    · rw [if_pos exact_]
      exact ⟨nofun, fun holds => absurd holds (gone (Or.inl exact_))⟩
    · rw [if_neg exact_, follows.entries key targets]
      refine or_congr_right (exists_congr fun other => and_congr_left fun stands => ?_)
      have differs : other ≠ path := fun same =>
        ((stands.key_iff fits named).mpr same).elim exact_ glob
      exact ⟨fun among => ⟨among, differs⟩, And.left⟩

theorem Follows.addAlias (named : naming path = some name) :
    Follows naming user (fun other => present other ∨ other = path) (addAlias aliases name path) := by
  refine ⟨Table.nodup_keys_set (Table.nodup_keys_set follows.distinct _ _) _ _, ?_, fun key targets => ?_⟩
  · rintro other (among | rfl)
    · exact follows.named other among
    · exact Option.isSome_iff_exists.mpr ⟨name, named⟩
  -- Under the names of the path there is its own alias only.
  have only (used : key = name ∨ key = below name) :
      (user.get? key = some targets
        ∨ ∃ other, (present other ∨ other = path) ∧ IsAlias naming other key targets)
      ↔ IsAlias naming path key targets := by
    constructor
    · rintro (mine | ⟨other, _, stands⟩)
      · rw [fits.unused named used] at mine
        cases mine
      · exact (stands.key_iff fits named).mp used ▸ stands
    · exact fun stands => Or.inr ⟨path, Or.inr rfl, stands⟩
  rw [Config.addAlias, Table.get?_set, Table.get?_set]
  by_cases glob : key = below name
  · rw [if_pos glob, only (Or.inr glob), glob, isAlias_below named, Option.some.injEq]
  · rw [if_neg glob]
    by_cases exact_ : key = name
    · rw [if_pos exact_, only (Or.inl exact_), exact_, isAlias_name named, Option.some.injEq]
    · rw [if_neg exact_, follows.entries key targets]
      refine or_congr_right (exists_congr fun other => and_congr_left fun stands => ?_)
      have differs : other ≠ path := fun same =>
        ((stands.key_iff fits named).mpr same).elim exact_ glob
      exact ⟨Or.inl, fun among => among.resolve_right differs⟩

end

/-! ### Updates -/

section

variable {naming : Naming} {user : Document} (fits : naming.Fits user)

include fits

theorem Follows.removeAll {aliases : Document} {present : String → Prop}
    (follows : Follows naming user present aliases) {redundant : List String}
    (once : redundant.Nodup) (here : ∀ path ∈ redundant, present path) :
    Follows naming user (fun path => present path ∧ path ∉ redundant)
      ((redundant.map Json.str).foldl Config.removeAlias aliases) := by
  induction redundant generalizing aliases present with
  | nil => exact follows.congr fun path => ⟨fun among => ⟨among, List.not_mem_nil⟩, And.left⟩
  | cons first rest ih =>
      obtain ⟨absent, once⟩ := List.nodup_cons.mp once
      have removed := follows.removeAlias fits (here first List.mem_cons_self)
      refine (ih removed once fun path member => ⟨here path (List.mem_cons_of_mem _ member), ?_⟩).congr
        fun path => ?_
      · rintro rfl
        exact absent member
      · rw [List.mem_cons, not_or, and_assoc]

theorem Follows.addAll {aliases more : Document} {present : String → Prop}
    (follows : Follows naming user present aliases) {missing : List String}
    (added : missing.foldlM (addAliasFor naming) aliases = .ok more) :
    Follows naming user (fun path => present path ∨ path ∈ missing) more := by
  induction missing generalizing aliases present with
  | nil =>
      cases added
      exact follows.congr fun path => ⟨Or.inl, fun among => among.resolve_right List.not_mem_nil⟩
  | cons first rest ih =>
      obtain ⟨name, named, goesOn⟩ := addAllFor_cons added
      refine (ih (follows.addAlias fits named) goesOn).congr fun path => ?_
      rw [List.mem_cons, or_assoc]

/-- Whether the table of a config holds the user's entries, the aliases of its references and
nothing else. -/
def InStep (naming : Naming) (user config : Document) : Prop :=
  ∃ entries aliases, Lists config entries ∧ Tables config aliases
    ∧ Follows naming user (· ∈ Table.keys entries) aliases

theorem inStep_update {config : Document} (inStep : InStep naming user config) {target : List String}
    (named : ∀ path ∈ target, (naming path).isSome) :
    ∃ update, updateReferences? config target naming = .ok update
      ∧ InStep naming user (update.getD config) := by
  obtain ⟨entries, aliases, lists, tables, follows⟩ := inStep
  obtain ⟨updated, listed, made, _, listsAfter, _, items⟩ := withReferences_ok lists named
  have update : updateReferences? config target naming
      = .ok (if updated.same config then none else some updated) := by
    rw [updateReferences?, made]
    rfl
  refine ⟨_, update, ?_⟩
  split
  · exact ⟨entries, aliases, lists, tables, follows⟩
  -- What was written has the target paths, whose aliases were kept or added.
  rw [withReferences_of_lists lists] at made
  cases added : addAliases (Config.removeAliases config ((redundantItems entries.keys target).map .str))
      (missingItems entries.keys target) naming with
  | error fault =>
      rw [added] at made
      cases made
  | ok between =>
      obtain ⟨more, folded, tablesBetween⟩ :=
        (tables.removeAliases ((redundantItems entries.keys target).map .str)).addAliases added
      have tablesAfter : Tables updated more := by
        rw [added] at made
        change (if target.isEmpty && !config.contains "references" then .ok between
          else setReferences between (target.map .str)) = .ok updated at made
        split at made
        · cases made
          exact tablesBetween
        · unfold setReferences at made
          cases present : references between with
          | error fault =>
              rw [present] at made
              cases made
          | ok present =>
              rw [present] at made
              cases made
              exact tablesBetween.set_references _
      have once : (redundantItems entries.keys target).Nodup := (distinct_nodup _).filter _
      have followsAfter := (follows.removeAll fits once
        fun path member => (mem_redundantItems.mp member).1).addAll fits folded
      refine ⟨listed, more, listsAfter, tablesAfter, followsAfter.congr fun path => ?_⟩
      rw [items path, mem_redundantItems, mem_missingItems]
      tauto

/-! ### Renames -/

omit fits in
/-- To move both aliases of a path is to remove them and to add those of the new name. -/
theorem moveAlias_both {aliases : Document} {path old new : String}
    (held : aliases.get? old = some (.arr [.str path]))
    (heldBelow : aliases.get? (below old) = some (.arr [.str (below path)])) (fresh : new ≠ below old) :
    moveAlias (moveAlias aliases old new) (below old) (below new)
      = addAlias ((aliases.erase old).erase (below old)) new path := by
  have first : moveAlias aliases old new = (aliases.erase old).set new (.arr [.str path]) := by
    rw [moveAlias, held]
  have second : (moveAlias aliases old new).get? (below old) = some (.arr [.str (below path)]) := by
    rw [first, Table.get?_set, if_neg fresh.symm, Table.get?_erase, if_neg (below_ne old), heldBelow]
  rw [moveAlias, second, first, addAlias]
  dsimp only
  rw [Table.erase_set fresh]

/-- The aliases of a renamed path go and come back under its new name. -/
theorem Follows.moveAliases {aliases : Document} {present : String → Prop} {path old new : String}
    (follows : Follows naming user present aliases) (here : present path)
    (named : naming path = some old) (fresh : new ≠ below old)
    (fitsThen : (naming.renamed path new).Fits user) :
    Follows (naming.renamed path new) user present
      (moveAlias (moveAlias aliases old new) (below old) (below new)) := by
  have removed : Config.removeAlias aliases (.str path) = (aliases.erase old).erase (below old) := by
    rw [Config.removeAlias, follows.findAlias fits here named]
  rw [moveAlias_both (follows.get?_name here named) (follows.get?_below here named) fresh, ← removed]
  have absent : ¬(present path ∧ path ≠ path) := fun among => among.2 rfl
  have without := (follows.removeAlias fits here).renamed absent new
  refine (without.addAlias fitsThen (if_pos rfl)).congr fun other => ?_
  constructor
  · rintro (⟨among, _⟩ | rfl)
    · exact among
    · exact here
  · exact fun among => (em (other = path)).symm.imp_left fun differs => ⟨among, differs⟩

/-- A rename moves the aliases of a referenced path. Without a reference to it there are none. -/
theorem inStep_rename {config : Document} (inStep : InStep naming user config) {path old new : String}
    (named : naming path = some old) (fresh : new ≠ below old)
    (fitsThen : (naming.renamed path new).Fits user) :
    InStep (naming.renamed path new) user ((renameAlias? config old new).getD config) := by
  obtain ⟨entries, aliases, lists, tables, follows⟩ := inStep
  by_cases here : path ∈ Table.keys entries
  · have held := follows.get?_name here named
    have present : aliases? config = some aliases := by
      refine tables.found.resolve_right fun ⟨_, empty⟩ => ?_
      rw [empty] at held
      cases held
    have contains : aliases.contains old = true := by
      rw [Table.contains_iff, held]
      rfl
    rw [renameAlias?, present, Option.bind_some, contains, Bool.true_or, if_pos rfl, Option.getD_some]
    refine ⟨entries, _, ⟨lists.paths, ?_⟩, tables_setAliases config _,
      follows.moveAliases fits here named fresh fitsThen⟩
    rw [setAliases, Table.get?_set, if_neg (by decide)]
    exact lists.listed
  · have contains (key : String) (used : key = old ∨ key = below old) :
        aliases.contains key = false := by
      rw [← Bool.not_eq_true, Table.contains_iff, follows.get?_of_absent fits here named used]
      decide
    have kept : renameAlias? config old new = none := by
      rw [renameAlias?]
      rcases tables.found with present | ⟨none, _⟩
      · rw [present, Option.bind_some, contains old (Or.inl rfl), contains _ (Or.inr rfl)]
        rfl
      · rw [none, Option.bind_none]
    rw [kept, Option.getD_none]
    exact ⟨entries, aliases, lists, tables, follows.renamed here new⟩

end

/-! ### Histories -/

/-- What happens to a config: it is brought in line with some target paths, or a path gets another
name. -/
inductive Change where
  | update (target : List String)
  | rename (path new : String)

/-- The naming after a change. -/
def Change.naming (naming : Naming) : Change → Naming
  | .update _ => naming
  | .rename path new => naming.renamed path new

/-- The config after a change; without an update it stays. -/
def Change.apply (naming : Naming) (config : Document) : Change → Except ReferenceFault Document
  | .update target => return (← updateReferences? config target naming).getD config
  | .rename path new =>
      return ((naming path).bind fun old => renameAlias? config old new).getD config

/-- Target paths have names. A path with a name gets one that no path has, that is no `/*` alias,
and with which names and paths fit together as before. -/
def Change.Permitted (user : Document) (naming : Naming) : Change → Prop
  | .update target => ∀ path ∈ target, (naming path).isSome
  | .rename path new =>
      (naming path).isSome
        ∧ (∀ other name, naming other = some name → new ≠ name ∧ new ≠ below name)
        ∧ (naming.renamed path new).Fits user

/-- The config after some changes. -/
def history (naming : Naming) (config : Document) : List Change → Except ReferenceFault Document
  | [] => return config
  | change :: rest => do history (change.naming naming) (← change.apply naming config) rest

def Permitted (user : Document) : Naming → List Change → Prop
  | _, [] => True
  | naming, change :: rest => change.Permitted user naming ∧ Permitted user (change.naming naming) rest

/-- A change keeps the aliases in step. -/
theorem inStep_change {user : Document} {naming : Naming} (fits : naming.Fits user) {config : Document}
    (inStep : InStep naming user config) {change : Change} (permitted : change.Permitted user naming) :
    ∃ after, change.apply naming config = .ok after ∧ (change.naming naming).Fits user
      ∧ InStep (change.naming naming) user after := by
  cases change with
  | update target =>
      obtain ⟨update, updates, inStep⟩ := inStep_update fits inStep permitted
      refine ⟨_, ?_, fits, inStep⟩
      rw [Change.apply, updates]
      rfl
  | rename path new =>
      obtain ⟨named, fresh, fitsThen⟩ := permitted
      obtain ⟨old, named⟩ := Option.isSome_iff_exists.mp named
      refine ⟨_, rfl, fitsThen, ?_⟩
      rw [named]
      exact inStep_rename fits inStep named (fresh path old named).2 fitsThen

/-- A whole history keeps the aliases in step. -/
theorem inStep_history {user : Document} {changes : List Change} {naming : Naming}
    (fits : naming.Fits user) {config : Document} (inStep : InStep naming user config)
    (permitted : Permitted user naming changes) :
    ∃ after, history naming config changes = .ok after
      ∧ InStep (changes.foldl Change.naming naming) user after := by
  induction changes generalizing naming config with
  | nil => exact ⟨config, rfl, inStep⟩
  | cons change rest ih =>
      obtain ⟨between, applied, fitsThen, inStepThen⟩ := inStep_change fits inStep permitted.1
      rw [history, applied]
      exact ih fitsThen inStepThen permitted.2

/-- From a config that lists no references, whose `paths` are the user's, any history leads to a config
whose `paths` are the user's with the aliases of the references that it then has, and no others. -/
theorem aliases_follow_references {user config : Document} {naming : Naming} (fits : naming.Fits user)
    (distinct : user.keys.Nodup) (bare : Lists config []) (tables : Tables config user)
    {changes : List Change} (permitted : Permitted user naming changes) :
    ∃ after, history naming config changes = .ok after
      ∧ ∃ entries aliases, Lists after entries ∧ Tables after aliases
        ∧ (∀ path ∈ Table.keys entries, (changes.foldl Change.naming naming path).isSome)
        ∧ ∀ key targets, aliases.get? key = some targets
          ↔ user.get? key = some targets
            ∨ ∃ path ∈ Table.keys entries,
              IsAlias (changes.foldl Change.naming naming) path key targets := by
  have begins : InStep naming user config := by
    refine ⟨[], user, bare, tables, distinct, nofun, fun key targets => ?_⟩
    exact ⟨Or.inl, fun holds => holds.resolve_right nofun⟩
  obtain ⟨after, ends, entries, aliases, lists, tablesAfter, follows⟩ :=
    inStep_history fits begins permitted
  exact ⟨after, ends, entries, aliases, lists, tablesAfter, follows.named, follows.entries⟩

/-- A path that gets another name, goes and comes back leaves nothing of its old name. -/
theorem renamed_alias_is_gone :
    ∃ after aliases, history (fun path => if path = "../a" then some "a" else none)
        [("compilerOptions", .obj [("paths", .obj [("own", .arr [.str "./own"])])])]
        [.update ["../a"], .rename "../a" "new", .update [], .update ["../a"]] = .ok after
      ∧ Tables after aliases ∧ aliases.get? "a" = none
      ∧ aliases.get? "own" = some (.arr [.str "./own"]) := by
  let naming : Naming := fun path => if path = "../a" then some "a" else none
  let user : Document := [("own", .arr [.str "./own"])]
  have only {path name : String} (named : naming path = some name) : path = "../a" ∧ "a" = name := by
    dsimp only [naming] at named
    split at named
    · exact ⟨‹_›, Option.some.inj named⟩
    · cases named
  have onlyThen {path name : String} (named : naming.renamed "../a" "new" path = some name) :
      path = "../a" ∧ "new" = name := by
    rw [Naming.renamed] at named
    split at named
    · exact ⟨‹_›, Option.some.inj named⟩
    · rename_i differs
      exact absurd (only named).1 differs
  -- One path with one name cannot get into its own way.
  have fits (some : Naming) (one : String) (used : one ≠ "own" ∧ below one ≠ "own")
      (sole : ∀ {path name}, some path = .some name → path = "../a" ∧ one = name) : some.Fits user := by
    refine ⟨fun first second => (sole first).1.trans (sole second).1.symm, fun first second => ?_,
      fun {path} present => ?_, fun named => ?_, fun {path key items} present found => ?_⟩
    · exact below_ne _ ((sole second).2.symm.trans (sole first).2)
    · obtain ⟨name, named⟩ := Option.isSome_iff_exists.mp present
      cases glob : some (below path) with
      | none => rfl
      | some other => exact absurd ((sole glob).1.trans (sole named).1.symm) (below_ne path)
    · rw [← (sole named).2, Table.get?_cons, Table.get?_cons, if_neg used.1, if_neg used.2]
      exact ⟨rfl, rfl⟩
    · obtain ⟨name, named⟩ := Option.isSome_iff_exists.mp present
      rw [Table.get?_cons] at found
      split at found
      · cases found
        rw [(sole named).1]
        exact fun member => absurd (Json.str.inj (List.mem_singleton.mp member)) (by decide)
      · cases found
  have bare : Lists [("compilerOptions", .obj [("paths", .obj user)])] [] := ⟨nofun, Or.inr ⟨rfl, rfl⟩⟩
  have permitted : Permitted user naming
      [.update ["../a"], .rename "../a" "new", .update [], .update ["../a"]] := by
    refine ⟨?_, ⟨rfl, fun other name named => ?_, fits _ "new" (by decide) onlyThen⟩, nofun, ?_, trivial⟩
    · intro path member
      rw [List.mem_singleton.mp member]
      rfl
    · rw [← (only named).2]
      decide
    · intro path member
      rw [List.mem_singleton.mp member]
      rfl
  obtain ⟨after, ends, _, aliases, _, tables, _, entries⟩ :=
    aliases_follow_references (fits naming "a" (by decide) only) (by decide) bare ⟨Or.inl rfl⟩ permitted
  refine ⟨after, aliases, ends, tables, ?_, (entries _ _).mpr (Or.inl rfl)⟩
  cases found : aliases.get? "a" with
  | none => rfl
  | some targets =>
      rcases (entries _ _).mp found with mine | ⟨path, _, name, named, ⟨same, _⟩ | ⟨same, _⟩⟩
      · cases mine
      · rw [← (onlyThen named).2] at same
        exact absurd same (by decide)
      · rw [← (onlyThen named).2] at same
        exact absurd same (by decide)

end RefSync.Config
