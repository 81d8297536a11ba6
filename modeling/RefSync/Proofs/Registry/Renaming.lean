/-
A rename is a substitution. Where the new name is known nowhere, it stands wherever the old one
stood, whatever depends on what, and a rename back puts every table back.
-/

import RefSync.Proofs.Registry.Operations

namespace RefSync.Registry

/-- Whether names and paths are inverse to each other, and dependencies are known of exactly the
names in use. -/
structure Consistent (registry : Registry) : Prop where
  inverse : registry.Inverse
  known name : (registry.dependencies.get? name).isSome ↔ (registry.findPath name).isSome
  once : registry.dependencies.keys.Nodup

/-- A name, or the new one for the old one. -/
def substituted (old new name : String) : String :=
  if name = old then new else name

theorem mem_substitute_iff {old new item : String} {set : TextSet} :
    item ∈ substitute old new set ↔ item ∈ set.map (substituted old new) := by
  have image : item ∈ set.map (substituted old new)
      ↔ item ∈ set ∧ item ≠ old ∨ old ∈ set ∧ item = new := by
    rw [List.mem_map]
    constructor
    · rintro ⟨former, member, rfl⟩
      unfold substituted
      split
      · rename_i isOld
        exact Or.inr ⟨isOld ▸ member, rfl⟩
      · rename_i other
        exact Or.inl ⟨member, other⟩
    · rintro (⟨member, other⟩ | ⟨member, rfl⟩)
      · exact ⟨item, member, if_neg other⟩
      · exact ⟨old, member, if_pos rfl⟩
  rw [image]
  unfold substitute
  split
  · rename_i present
    rw [TextSet.mem_insert, TextSet.mem_remove, and_iff_right (List.contains_iff_mem.mp present)]
    exact Or.comm
  · rename_i absent
    have lacks : old ∉ set := fun member => absent (List.contains_iff_mem.mpr member)
    constructor
    · intro member
      exact Or.inl ⟨member, fun isOld => lacks (isOld ▸ member)⟩
    · rintro (⟨member, _⟩ | ⟨member, _⟩)
      · exact member
      · exact absurd member lacks

/-- A name that stands nowhere is put for another one and taken away again. -/
theorem mem_substitute_back {old new item : String} {set : TextSet} (unknown : new ∉ set) :
    item ∈ substitute new old (substitute old new set) ↔ item ∈ set := by
  have back {former : String} (member : former ∈ set) :
      substituted new old (substituted old new former) = former := by
    unfold substituted
    by_cases isOld : former = old
    · rw [if_pos isOld, if_pos rfl, isOld]
    · rw [if_neg isOld, if_neg fun isNew : former = new => unknown (isNew ▸ member)]
  rw [mem_substitute_iff, List.mem_map]
  constructor
  · rintro ⟨between, member, rfl⟩
    obtain ⟨former, inSet, rfl⟩ := List.mem_map.mp (mem_substitute_iff.mp member)
    rw [back inSet]
    exact inSet
  · intro member
    exact ⟨_, mem_substitute_iff.mpr (List.mem_map_of_mem member), back member⟩

variable {registry : Registry}

/-- Tables with the same pairs, read from either side. -/
theorem inverse_of_swap (swapped : registry.names = registry.paths.map Prod.swap)
    (names : registry.names.keys.Nodup) (paths : registry.paths.keys.Nodup) : registry.Inverse := by
  intro path name
  rw [findName, findPath, Table.get?_eq_some_iff names, Table.get?_eq_some_iff paths, swapped,
    List.mem_map]
  constructor
  · rintro ⟨entry, member, same⟩
    cases same
    exact member
  · exact fun member => ⟨_, member, rfl⟩

/-- Whether a registry is another one in which a new name stands for an old one. -/
structure Substitutes (old new : String) (before after : Registry) : Prop where
  nameOf path : after.nameOf path = (before.nameOf path).map (substituted old new)
  pathOf name : name ≠ new → after.pathOf (substituted old new name) = before.pathOf name
  /-- What the name itself depends on is not touched. -/
  own : ∃ set, before.dependenciesOf old = .ok set ∧ after.dependenciesOf new = .ok set
  others name : (before.findPath name).isSome → name ≠ old → ∃ set renamed,
    before.dependenciesOf name = .ok set ∧ after.dependenciesOf name = .ok renamed
      ∧ ∀ item, item ∈ renamed ↔ item ∈ set.map (substituted old new)
  dependents name : name ∈ after.dependentsOf new ↔ name ∈ before.dependentsOf old
  unregistered : after.pathOf old = .error (.unregistered (.pathOf old))
  unknown : after.dependenciesOf old = .error (.unregistered (.dependenciesOf old))
  rest : after = { before with
    names := after.names, paths := after.paths, dependencies := after.dependencies }

/-- Whether two registries tell the same of every path and every name. -/
structure Alike (first second : Registry) : Prop where
  findName path : second.findName path = first.findName path
  findPath name : second.findPath name = first.findPath name
  dependencies name : Option.Rel (fun one other => ∀ item, item ∈ one ↔ item ∈ other)
    (second.dependencies.get? name) (first.dependencies.get? name)
  rest : second = { first with
    names := second.names, paths := second.paths, dependencies := second.dependencies }

theorem rename_of_free {path old new : String} (named : registry.findName path = some old)
    (free : registry.findPath new = none) : ∃ after, registry.rename path new = .ok (after, old) := by
  cases renamed : registry.rename path new with
  | ok result =>
      obtain ⟨after, name⟩ := result
      have found := (rename_eq_ok renamed).findOld
      rw [named] at found
      cases found
      exact ⟨after, rfl⟩
  | error fault =>
      have isNamed : (registry.findName path).isSome := by
        rw [named]
        rfl
      obtain ⟨holder, _, held, _⟩ := rename_eq_error renamed isNamed
      rw [free] at held
      cases held

/-! ### Renaming -/

/-- Whether a path may get a name of which nothing is known. -/
structure Free (registry : Registry) (path old new : String) : Prop where
  named : registry.findName path = some old
  free : registry.findPath new = none
  unknown name set : registry.dependencies.get? name = some set → new ∉ set

section

variable {path old new : String} {after back : Registry} (consistent : registry.Consistent)
  (free : registry.Free path old new)

include consistent free

theorem Free.differ : new ≠ old := by
  rintro rfl
  have held := (consistent.inverse path new).mp free.named
  rw [free.free] at held
  cases held

/-- The old name has dependencies, the new one has none. -/
theorem Free.dependencies :
    (∃ set, registry.dependencies.get? old = some set) ∧ registry.dependencies.get? new = none := by
  constructor
  · refine Option.isSome_iff_exists.mp ((consistent.known old).mpr ?_)
    rw [(consistent.inverse path old).mp free.named]
    rfl
  · rw [← Option.not_isSome_iff_eq_none, consistent.known new, free.free]
    decide

section

variable (renames : Renames path old new registry after)

include renames

theorem Renames.dependents (name : String) :
    name ∈ after.dependentsOf new ↔ name ∈ registry.dependentsOf old := by
  rw [renames.mem_dependentsOf_iff consistent.once (Free.dependencies consistent free).2 free.unknown,
    Registry.mem_dependentsOf_iff consistent.once]

theorem Renames.substitutes : Substitutes old new registry after := by
  have differ := Free.differ consistent free
  obtain ⟨⟨own, stored⟩, _⟩ := Free.dependencies consistent free
  have held := (consistent.inverse path old).mp free.named
  have dependenciesOf (name : String) {set : TextSet} {given : Registry}
      (found : given.dependencies.get? name = some set) : given.dependenciesOf name = .ok set := by
    rw [Registry.dependenciesOf, found]
  refine
    { nameOf := fun other => ?_
      pathOf := fun name notNew => ?_
      own := ⟨own, dependenciesOf old stored, dependenciesOf new ?_⟩
      others := fun name registered notOld => ?_
      dependents := Renames.dependents consistent free renames
      unregistered := ?_
      unknown := ?_
      rest := renames.rest }
  · unfold Registry.nameOf
    rw [renames.findName]
    by_cases isPath : other = path
    · rw [if_pos isPath, isPath, free.named]
      exact congrArg Except.ok (if_pos rfl).symm
    · rw [if_neg isPath]
      cases named : registry.findName other with
      | none => rfl
      | some name =>
          have notOld : name ≠ old := by
            rintro rfl
            exact isPath (consistent.inverse.one_path named free.named)
          exact congrArg Except.ok (if_neg notOld).symm
  · unfold Registry.pathOf substituted
    by_cases isOld : name = old
    · rw [if_pos isOld, renames.findPath, if_pos rfl, isOld, held]
    · rw [if_neg isOld, renames.findPath, if_neg notNew, if_neg isOld]
  · rw [renames.dependencies, if_pos rfl, stored]
    rfl
  · obtain ⟨set, found⟩ := Option.isSome_iff_exists.mp ((consistent.known name).mpr registered)
    have notNew : name ≠ new := by
      rintro rfl
      rw [free.free] at registered
      cases registered
    refine ⟨set, _, dependenciesOf name found, dependenciesOf name ?_, fun item => mem_substitute_iff⟩
    rw [renames.dependencies, if_neg notNew, if_neg notOld, found]
    rfl
  · rw [Registry.pathOf, renames.findPath, if_neg differ.symm, if_pos rfl]
  · rw [Registry.dependenciesOf, renames.dependencies, if_neg differ.symm, if_pos rfl]

/-- Renaming back puts the old name for the new one. -/
theorem Renames.undone (undoes : Renames path new old after back) : Alike registry back := by
  have differ := Free.differ consistent free
  obtain ⟨⟨own, stored⟩, absent⟩ := Free.dependencies consistent free
  have held := (consistent.inverse path old).mp free.named
  refine ⟨fun other => ?_, fun name => ?_, fun name => ?_, ?_⟩
  · rw [undoes.findName, renames.findName]
    by_cases isPath : other = path
    · rw [if_pos isPath, isPath, free.named]
    · rw [if_neg isPath, if_neg isPath]
  · rw [undoes.findPath, renames.findPath]
    by_cases isOld : name = old
    · rw [if_pos isOld, isOld, held]
    · rw [if_neg isOld, if_neg isOld]
      by_cases isNew : name = new
      · rw [if_pos isNew, isNew, free.free]
      · rw [if_neg isNew, if_neg isNew]
  · rw [undoes.dependencies, renames.dependencies, renames.dependencies]
    by_cases isOld : name = old
    · rw [if_pos isOld, if_pos rfl, isOld, stored]
      exact .some fun _ => Iff.rfl
    · rw [if_neg isOld]
      by_cases isNew : name = new
      · rw [if_pos isNew, isNew, absent]
        exact .none
      · rw [if_neg isNew, if_neg isNew, if_neg isOld]
        cases found : registry.dependencies.get? name with
        | none => exact .none
        | some set => exact .some fun _ => mem_substitute_back (free.unknown name set found)
  · rw [undoes.rest, renames.rest]

end

end

/-- A rename puts the new name wherever the old one stood, and a rename back puts it back. -/
theorem rename_substitutes {path old new : String} (consistent : registry.Consistent)
    (free : registry.Free path old new) :
    ∃ after, registry.rename path new = .ok (after, old) ∧ Substitutes old new registry after
      ∧ ∃ back, after.rename path old = .ok (back, new) ∧ Alike registry back := by
  obtain ⟨after, renamed⟩ := rename_of_free free.named free.free
  have renames := rename_eq_ok renamed
  have named : after.findName path = some new := by
    rw [renames.findName, if_pos rfl]
  have absent : after.findPath old = none := by
    rw [renames.findPath, if_neg (Free.differ consistent free).symm, if_pos rfl]
  obtain ⟨back, undone⟩ := rename_of_free named absent
  exact ⟨after, renamed, Renames.substitutes consistent free renames, back, undone,
    Renames.undone consistent free renames (rename_eq_ok undone)⟩

/-- Three workspaces in a circle, the first of which depends on itself. -/
def circularRegistry : Registry :=
  { names := [("p", "a"), ("q", "b"), ("r", "c")]
    paths := [("a", "p"), ("b", "q"), ("c", "r")]
    dependencies := [("a", ["a", "b"]), ("b", ["a", "c"]), ("c", ["a"])] }

/-- What a workspace says of itself keeps the old name, what the others say of it does not. -/
theorem circular_rename_is_undone :
    circularRegistry.Consistent ∧ circularRegistry.Free "p" "a" "z"
      ∧ ∃ after, circularRegistry.rename "p" "z" = .ok (after, "a")
        ∧ after.dependenciesOf "z" = .ok ["a", "b"]
        ∧ (∃ set, after.dependenciesOf "b" = .ok set ∧ "z" ∈ set ∧ "a" ∉ set)
        ∧ ∃ back, after.rename "p" "a" = .ok (back, "z") ∧ Alike circularRegistry back := by
  have consistent : circularRegistry.Consistent := by
    have keys : circularRegistry.dependencies.keys = circularRegistry.paths.keys := rfl
    refine ⟨inverse_of_swap rfl (by decide) (by decide), fun name => ?_, by decide⟩
    rw [← Table.mem_keys_iff, keys]
    exact Table.mem_keys_iff
  have free : circularRegistry.Free "p" "a" "z" := by
    refine ⟨by decide, by decide, fun name set found => ?_⟩
    have member := Table.mem_of_get? found
    simp only [circularRegistry, List.mem_cons, List.not_mem_nil, or_false, Prod.mk.injEq] at member
    rcases member with ⟨_, rfl⟩ | ⟨_, rfl⟩ | ⟨_, rfl⟩ <;> decide
  obtain ⟨after, renamed, substitutes, back, undone, alike⟩ := rename_substitutes consistent free
  obtain ⟨own, stored, kept⟩ := substitutes.own
  obtain ⟨set, others, given, renames, items⟩ := substitutes.others "b" (by decide) (by decide)
  cases stored
  cases given
  exact ⟨consistent, free, after, renamed, kept, ⟨others, renames, (items "z").mpr (by decide),
    fun member => absurd ((items "a").mp member) (by decide)⟩, back, undone, alike⟩

end RefSync.Registry
