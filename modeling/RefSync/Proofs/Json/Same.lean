/-
Documents that are the same for whoever writes. A clean value is the same as itself, and of
two objects that are the same each has the members of the other, the same ones.
-/

import RefSync.Config.Aliases
import RefSync.Proofs.Json.Clean

namespace RefSync

namespace Json

theorem sameNumber_refl (number : Int ⊕ Binary64) : sameNumber number number = true := by
  cases number with
  | inl value => exact beq_self_eq_true value
  | inr value =>
      cases value with
      | nan => decide
      | infinite negative => cases negative <;> decide
      | finite negative significand exponent =>
          change ((significand == 0 && significand == 0) || _) = true
          rw [beq_self_eq_true, beq_self_eq_true, Bool.true_and, Bool.or_true]

theorem sameItems_iff (left right : List Json) :
    sameItems left right = true ↔ List.Forall₂ (fun one other => one.same other = true) left right := by
  induction left generalizing right with
  | nil => cases right <;> simp [sameItems]
  | cons item rest ih =>
      cases right with
      | nil => simp [sameItems]
      | cons other others => simp [sameItems, ih]

theorem sameMembers_iff (left : List (String × Json)) (right : Document) :
    sameMembers left right = true ↔ ∀ entry ∈ left, ∃ other,
      Table.get? right entry.1 = some other ∧ entry.2.same other = true := by
  induction left with
  | nil => simp [sameMembers]
  | cons entry rest ih =>
      obtain ⟨key, value⟩ := entry
      rw [sameMembers, Bool.and_eq_true, ih, List.forall_mem_cons]
      refine and_congr_left fun _ => ?_
      rw [show right.lookup key = Table.get? right key from rfl]
      cases found : Table.get? right key with
      | none => simp
      | some other => simp

theorem same_refl {value : Json} (clean : value.Clean) : value.same value = true := by
  induction clean with
  | null => rfl
  | bool value => cases value <;> rfl
  | int value => exact sameNumber_refl (.inl value)
  | real value _ => exact sameNumber_refl (.inr value)
  | str value => exact beq_self_eq_true value
  | arr items _ each =>
      change sameItems items items = true
      rw [sameItems_iff]
      exact List.forall₂_same.mpr each
  | obj members distinct _ each =>
      change (members.length == members.length && sameMembers members members) = true
      rw [beq_self_eq_true, Bool.true_and, sameMembers_iff]
      intro entry member
      exact ⟨entry.2, (Table.get?_eq_some_iff distinct).mpr member, each entry member⟩

theorem same_str {text : String} {value : Json} :
    (Json.str text).same value = true ↔ value = .str text := by
  cases value with
  | str other =>
      change (text == other) = true ↔ _
      rw [beq_iff_eq]
      constructor
      · rintro rfl; rfl
      · intro same; cases same; rfl
  | null => exact ⟨nofun, nofun⟩
  | bool value => exact ⟨nofun, nofun⟩
  | int value => exact ⟨nofun, nofun⟩
  | real value => exact ⟨nofun, nofun⟩
  | arr items => exact ⟨nofun, nofun⟩
  | obj members => exact ⟨nofun, nofun⟩

theorem same_arr {items : List Json} {value : Json} (same : (Json.arr items).same value = true) :
    ∃ others, value = .arr others
      ∧ List.Forall₂ (fun one other => one.same other = true) items others := by
  cases value with
  | arr others => exact ⟨others, rfl, (sameItems_iff items others).mp same⟩
  | _ => cases same

/-- An object is the same as objects alone. -/
theorem same_members? {left right : Json} (same : left.same right = true) :
    (∃ members others, left = .obj members ∧ right = .obj others
        ∧ Document.same members others = true)
      ∨ left.members? = none ∧ right.members? = none := by
  cases left with
  | obj members =>
      cases right with
      | obj others => exact Or.inl ⟨members, others, rfl, rfl, same⟩
      | _ => cases same
  | _ =>
      cases right with
      | obj others => cases same
      | _ => exact Or.inr ⟨rfl, rfl⟩

end Json

/-- Two clean documents with the same members, whatever their order. -/
theorem Document.same_iff {left right : Document} (leftClean : Document.Clean left) :
    Document.same left right = true ↔ left.length = right.length
      ∧ ∀ key value, Table.get? left key = some value →
        ∃ other, Table.get? right key = some other ∧ value.same other = true := by
  change (left.length == right.length && Json.sameMembers left right) = true ↔ _
  rw [Bool.and_eq_true, beq_iff_eq, Json.sameMembers_iff]
  refine and_congr_right fun _ => ?_
  constructor
  · intro each key value found
    exact each _ (Table.mem_of_get? found)
  · intro each entry member
    exact each entry.1 entry.2 ((Table.get?_eq_some_iff leftClean.distinct).mpr member)

theorem Document.same_refl {document : Document} (clean : Document.Clean document) :
    Document.same document document = true :=
  Json.same_refl (Document.clean_obj.mpr clean)

section

variable {left right : Document} (leftClean : Document.Clean left)
  (same : Document.same left right = true)

include leftClean same

theorem Document.same_keys (key : String) :
    key ∈ Table.keys left ↔ key ∈ Table.keys right := by
  obtain ⟨lengths, members⟩ := (Document.same_iff leftClean).mp same
  have within : Table.keys left ⊆ Table.keys right := by
    intro key present
    obtain ⟨value, found⟩ := Option.isSome_iff_exists.mp (Table.mem_keys_iff.mp present)
    obtain ⟨other, there, _⟩ := members key value found
    rw [Table.mem_keys_iff, there]
    rfl
  have perm : List.Perm (Table.keys left) (Table.keys right) := by
    have subperm := List.subperm_of_subset leftClean.distinct within
    refine subperm.perm_of_length_le ?_
    rw [Table.keys, Table.keys, List.length_map, List.length_map, lengths]
  exact perm.mem_iff

/-- A member of the second one is a member of the first. -/
theorem Document.same_get? {key : String} {other : Json}
    (found : Table.get? right key = some other) :
    ∃ value, Table.get? left key = some value ∧ value.same other = true := by
  have present : key ∈ Table.keys right := by
    rw [Table.mem_keys_iff, found]
    rfl
  have there := (Document.same_keys leftClean same key).mpr present
  obtain ⟨value, held⟩ := Option.isSome_iff_exists.mp (Table.mem_keys_iff.mp there)
  obtain ⟨given, givenFound, sames⟩ := ((Document.same_iff leftClean).mp same).2 key value held
  rw [found] at givenFound
  cases givenFound
  exact ⟨value, held, sames⟩

end

end RefSync
