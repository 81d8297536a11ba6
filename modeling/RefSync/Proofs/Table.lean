/-
Keys of tables and members of sets. A key is one of a table's keys where looking it up
finds something, and the operations keep the keys of a table distinct.
-/

import Mathlib.Data.List.Nodup
import RefSync.Registry
import RefSync.Table

namespace RefSync

namespace Table

variable {α : Type}

theorem mem_keys_iff {table : Table α} {key : String} :
    key ∈ table.keys ↔ (table.get? key).isSome := by
  rw [← contains_iff, contains, keys, List.mem_map, List.any_eq_true]
  constructor
  · rintro ⟨entry, member, rfl⟩
    exact ⟨entry, member, beq_self_eq_true entry.1⟩
  · rintro ⟨entry, member, same⟩
    exact ⟨entry, member, eq_of_beq same⟩

theorem get?_eq_none_iff {table : Table α} {key : String} :
    table.get? key = none ↔ key ∉ table.keys := by
  rw [mem_keys_iff, Option.not_isSome_iff_eq_none]

theorem mem_of_get? {table : Table α} {key : String} {value : α}
    (found : table.get? key = some value) : (key, value) ∈ table := by
  induction table with
  | nil => cases found
  | cons entry rest ih =>
      rw [get?_cons] at found
      split at found
      · rename_i same
        cases found
        rw [same]
        exact List.mem_cons_self
      · exact List.mem_cons_of_mem _ (ih found)

theorem get?_eq_some_iff {table : Table α} (distinct : table.keys.Nodup) {key : String}
    {value : α} : table.get? key = some value ↔ (key, value) ∈ table := by
  constructor
  · exact mem_of_get?
  · intro member
    induction table with
    | nil => cases member
    | cons entry rest ih =>
        rw [keys, List.map_cons, List.nodup_cons] at distinct
        rw [get?_cons]
        rcases List.mem_cons.mp member with rfl | inRest
        · rw [if_pos rfl]
        · have differs : key ≠ entry.1 := by
            intro same
            exact distinct.1 (same ▸ List.mem_map_of_mem (f := (·.1)) inRest)
          rw [if_neg differs]
          exact ih distinct.2 inRest

theorem get?_map {β : Type} (change : String → α → β) (table : Table α) (key : String) :
    get? (table.map fun (name, value) => (name, change name value)) key
      = (table.get? key).map (change key) := by
  induction table with
  | nil => rfl
  | cons entry rest ih =>
      obtain ⟨name, value⟩ := entry
      rw [List.map_cons, get?_cons, get?_cons, ih]
      by_cases same : key = name
      · subst same
        rw [if_pos rfl, if_pos rfl]
        rfl
      · rw [if_neg same, if_neg same]

theorem keys_set (table : Table α) (key : String) (value : α) :
    (table.set key value).keys
      = if key ∈ table.keys then table.keys else table.keys ++ [key] := by
  induction table with
  | nil => rfl
  | cons entry rest ih =>
      by_cases same : entry.1 = key
      · have present : key ∈ keys (entry :: rest) := by
          rw [← same]
          exact List.mem_cons_self
        rw [if_pos present, set, if_pos (by simpa using same), keys, List.map_cons, keys,
          List.map_cons, same]
      · have notFirst : ¬(entry.1 == key) = true := by simpa using same
        have inRest : key ∈ keys (entry :: rest) ↔ key ∈ keys rest := by
          rw [keys, List.map_cons, List.mem_cons]
          exact or_iff_right fun equal => same equal.symm
        rw [set, if_neg notFirst, keys, List.map_cons, ← keys, ih]
        by_cases member : key ∈ keys rest
        · rw [if_pos member, if_pos (inRest.mpr member)]
          rfl
        · rw [if_neg member, if_neg (mt inRest.mp member)]
          rfl

/-- A new key goes to the end. -/
theorem set_of_not_mem {table : Table α} {key : String} (absent : key ∉ table.keys) (value : α) :
    table.set key value = table ++ [(key, value)] := by
  induction table with
  | nil => rfl
  | cons entry rest ih =>
      rw [keys, List.map_cons, List.mem_cons, not_or] at absent
      have notFirst : ¬(entry.1 == key) = true := by
        rw [beq_iff_eq]
        exact fun same => absent.1 same.symm
      rw [set, if_neg notFirst, ih absent.2]
      rfl

theorem nodup_keys_set {table : Table α} (distinct : table.keys.Nodup) (key : String)
    (value : α) : (table.set key value).keys.Nodup := by
  rw [keys_set]
  split
  · exact distinct
  · rename_i absent
    rw [List.nodup_append]
    refine ⟨distinct, List.nodup_singleton key, ?_⟩
    intro other present same member
    rw [List.mem_singleton.mp member]
    rintro rfl
    exact absent present

theorem nodup_keys_erase {table : Table α} (distinct : table.keys.Nodup) (key : String) :
    (table.erase key).keys.Nodup :=
  distinct.sublist (List.filter_sublist.map _)

/-- Two keys are set in either order, as long as one of them is there. -/
theorem set_comm {table : Table α} {key other : String} (differ : key ≠ other)
    (known : key ∈ table.keys) (value later : α) :
    (table.set key value).set other later = (table.set other later).set key value := by
  induction table with
  | nil => cases known
  | cons entry rest ih =>
      by_cases first : entry.1 = key
      · simp only [set, beq_iff_eq, first, if_true, if_neg differ]
      · by_cases second : entry.1 = other
        · simp only [set, beq_iff_eq, second, if_true, if_neg (Ne.symm differ)]
        · have inRest : key ∈ keys rest := (List.mem_cons.mp known).resolve_left (Ne.symm first)
          simp only [set, beq_iff_eq, if_neg first, if_neg second, ih inRest]

/-- One key is set and another erased in either order. -/
theorem erase_set {table : Table α} {key other : String} (differ : key ≠ other) (value : α) :
    (table.set key value).erase other = (table.erase other).set key value := by
  induction table with
  | nil => simp [set, erase, differ]
  | cons entry rest ih =>
      by_cases same : entry.1 = key
      · simp [set, erase, same, differ]
      · by_cases gone : entry.1 = other
        · simpa [set, erase, same, gone, differ.symm] using ih
        · simpa [set, erase, same, gone] using ih

/-- Setting what is there changes nothing. -/
theorem set_of_get? {table : Table α} {key : String} {value : α}
    (found : table.get? key = some value) : table.set key value = table := by
  induction table with
  | nil => cases found
  | cons entry rest ih =>
      rw [get?_cons] at found
      rw [set]
      split at found
      · rename_i same
        cases found
        rw [if_pos (beq_iff_eq.mpr same.symm), same]
      · rename_i differs
        rw [if_neg (fun same => differs (eq_of_beq same).symm), ih found]

/-- The other entries keep their positions. -/
theorem getElem?_set {key other : String} (differ : other ≠ key) (table : Table α) (value held : α)
    (position : Nat) :
    (table.set key value)[position]? = some (other, held) ↔ table[position]? = some (other, held) := by
  have elsewhere {first : α} : some (key, first) ≠ some (other, held) := fun same =>
    differ (Prod.mk.inj (Option.some.inj same)).1.symm
  induction table generalizing position with
  | nil =>
      cases position with
      | zero => exact ⟨fun found => absurd found elsewhere, nofun⟩
      | succ position => exact Iff.rfl
  | cons entry rest ih =>
      rw [set]
      split
      · rename_i same
        cases position with
        | zero =>
            obtain ⟨name, first⟩ := entry
            obtain rfl : name = key := eq_of_beq same
            exact ⟨fun found => absurd found elsewhere, fun found => absurd found elsewhere⟩
        | succ position => exact Iff.rfl
      · cases position with
        | zero => exact Iff.rfl
        | succ position => exact ih position

theorem erase_of_not_mem {table : Table α} {key : String} (absent : key ∉ table.keys) :
    table.erase key = table := by
  refine List.filter_eq_self.mpr fun entry member => bne_iff_ne.mpr fun same => absent ?_
  rw [← same]
  exact List.mem_map_of_mem member

theorem foldl_erase_of_not_mem {names : List String} {table : Table α}
    (absent : ∀ name ∈ names, name ∉ table.keys) : names.foldl erase table = table := by
  induction names with
  | nil => rfl
  | cons name rest ih =>
      rw [List.foldl_cons, erase_of_not_mem (absent name List.mem_cons_self)]
      exact ih fun other member => absent other (List.mem_cons_of_mem _ member)

theorem get?_foldl_erase (names : List String) (table : Table α) (key : String) :
    (names.foldl erase table).get? key = if key ∈ names then none else table.get? key := by
  induction names generalizing table with
  | nil => rw [List.foldl_nil, if_neg List.not_mem_nil]
  | cons name rest ih =>
      rw [List.foldl_cons, ih, get?_erase]
      by_cases first : key = name
      · rw [if_pos first, ite_self, if_pos (first ▸ List.mem_cons_self)]
      · have inRest : key ∈ name :: rest ↔ key ∈ rest := by
          rw [List.mem_cons]
          exact or_iff_right first
        rw [if_neg first, if_congr inRest rfl rfl]

theorem get?_setDefault (table : Table α) (key other : String) (value : α) :
    (table.setDefault key value).get? other
      = (table.get? other).or (if other = key then some value else none) := by
  unfold setDefault
  by_cases asked : other = key
  · subst asked
    rw [if_pos rfl]
    split
    · rename_i present
      obtain ⟨held, found⟩ := Option.isSome_iff_exists.mp (contains_iff.mp present)
      rw [found]
      rfl
    · rename_i absent
      rw [contains_iff, Option.not_isSome_iff_eq_none] at absent
      rw [get?_set, if_pos rfl, absent]
      rfl
  · rw [if_neg asked, Option.or_none]
    split
    · rfl
    · rw [get?_set, if_neg asked]

theorem get?_foldl_setDefault (names : List String) (table : Table α) (value : α)
    (key : String) :
    (names.foldl (fun table name => table.setDefault name value) table).get? key
      = (table.get? key).or (if key ∈ names then some value else none) := by
  induction names generalizing table with
  | nil => rw [List.foldl_nil, if_neg List.not_mem_nil, Option.or_none]
  | cons name rest ih =>
      rw [List.foldl_cons, ih, get?_setDefault, Option.or_assoc]
      congr 1
      by_cases first : key = name
      · have inAll : key ∈ name :: rest := first ▸ List.mem_cons_self
        rw [if_pos first, if_pos inAll]
        rfl
      · have inRest : key ∈ name :: rest ↔ key ∈ rest := by
          rw [List.mem_cons]
          exact or_iff_right first
        rw [if_neg first, if_congr inRest rfl rfl]
        rfl

theorem foldl_setDefault_of_mem {names : List String} {table : Table α} (value : α)
    (present : ∀ name ∈ names, name ∈ table.keys) :
    names.foldl (fun table name => table.setDefault name value) table = table := by
  induction names with
  | nil => rfl
  | cons name rest ih =>
      have there : table.contains name = true :=
        contains_iff.mpr (mem_keys_iff.mp (present name List.mem_cons_self))
      rw [List.foldl_cons, setDefault, if_pos there]
      exact ih fun other member => present other (List.mem_cons_of_mem _ member)

/-- The order of entries does not count. -/
theorem get?_perm {left right : Table α} (same : List.Perm left right)
    (distinct : right.keys.Nodup) (key : String) : left.get? key = right.get? key := by
  have leftDistinct : left.keys.Nodup := (same.map _).nodup_iff.mpr distinct
  apply Option.ext
  intro value
  rw [get?_eq_some_iff leftDistinct, get?_eq_some_iff distinct, same.mem_iff]

/-- Tables that mean the same differ in their order alone. -/
theorem perm_of_get? {left right : Table α} (distinct : left.keys.Nodup)
    (distinctRight : right.keys.Nodup) (same : ∀ key, left.get? key = right.get? key) :
    List.Perm left right := by
  have once : left.Nodup := .of_map _ distinct
  have onceRight : right.Nodup := .of_map _ distinctRight
  refine (List.perm_ext_iff_of_nodup once onceRight).mpr fun entry => ?_
  rw [← get?_eq_some_iff distinct, ← get?_eq_some_iff distinctRight, same]

theorem get?_sortKeys {table : Table α} (distinct : table.keys.Nodup) (key : String) :
    table.sortKeys.get? key = table.get? key :=
  get?_perm (sortBy_perm table) distinct key

theorem sortKeys_sorted (table : Table α) : table.sortKeys.keys.Pairwise (· ≤ ·) := by
  have transitive (first second third : String × α) (one : decide (first.1 ≤ second.1) = true)
      (two : decide (second.1 ≤ third.1) = true) : decide (first.1 ≤ third.1) = true :=
    decide_eq_true (String.le_trans (of_decide_eq_true one) (of_decide_eq_true two))
  have total (first second : String × α) :
      decide (first.1 ≤ second.1) = true ∨ decide (second.1 ≤ first.1) = true :=
    (String.le_total first.1 second.1).imp decide_eq_true decide_eq_true
  exact List.pairwise_map.mpr ((sortBy_pairwise transitive total table).imp of_decide_eq_true)

theorem keys_map {β : Type} (change : String → α → β) (table : Table α) :
    keys (table.map fun (name, value) => (name, change name value)) = table.keys := by
  rw [keys, keys, List.map_map]
  rfl

end Table

namespace TextSet

theorem mem_insert {set : TextSet} {item other : String} :
    other ∈ set.insert item ↔ other = item ∨ other ∈ set := by
  unfold insert
  split
  · rename_i present
    constructor
    · exact Or.inr
    · rintro (rfl | member)
      · exact List.contains_iff_mem.mp present
      · exact member
  · rw [List.mem_append, List.mem_singleton]
    exact Or.comm

theorem mem_remove {set : TextSet} {item other : String} :
    other ∈ set.remove item ↔ other ∈ set ∧ other ≠ item := by
  rw [remove, List.mem_filter, bne_iff_ne]

end TextSet
end RefSync
