/-
When checks succeed. A group of checks yields a value exactly when each of its members
yields its part.
-/

import RefSync.Validation

namespace RefSync

/-- What a test found of a value. -/
theorem ok_of_any {ε α : Type} {outcome : Except ε α} {check : α → Bool}
    (checks : outcome.toOption.any check = true) :
    ∃ value, outcome = .ok value ∧ check value = true := by
  cases outcome with
  | error fault => cases checks
  | ok value => exact ⟨value, rfl, checks⟩

namespace Validation

variable {α β : Type}

theorem within_eq_ok_iff {step : Step} {check : Checked α} {value : α} :
    within step check = .ok value ↔ check = .ok value := by
  cases check with
  | ok found => exact Iff.rfl
  | error issues =>
      constructor
      · intro impossible; cases impossible
      · intro impossible; cases impossible

theorem both_eq_ok_iff {left : Checked α} {right : Checked β} {first : α} {second : β} :
    both left right = .ok (first, second) ↔ left = .ok first ∧ right = .ok second := by
  cases left with
  | error issues =>
      cases right <;> exact ⟨fun impossible => (by cases impossible), fun pair => (by cases pair.1)⟩
  | ok leftValue =>
      cases right with
      | error issues => exact ⟨fun impossible => (by cases impossible), fun pair => (by cases pair.2)⟩
      | ok rightValue =>
          rw [both, Except.ok.injEq, Except.ok.injEq, Except.ok.injEq, Prod.mk.injEq]

theorem map_eq_ok_iff {ε : Type} {change : α → β} {check : Except ε α} {value : β} :
    check.map change = .ok value ↔ ∃ found, check = .ok found ∧ change found = value := by
  cases check with
  | error issues =>
      constructor
      · intro impossible; cases impossible
      · rintro ⟨_, impossible, _⟩; cases impossible
  | ok found =>
      constructor
      · intro same
        exact ⟨found, rfl, Except.ok.inj same⟩
      · rintro ⟨_, same, changed⟩
        rw [← changed, ← Except.ok.inj same]
        rfl

theorem mapError_eq_ok_iff {ε δ : Type} {change : ε → δ} {check : Except ε α} {value : α} :
    check.mapError change = .ok value ↔ check = .ok value := by
  cases check with
  | error issues =>
      constructor
      · intro impossible; cases impossible
      · intro impossible; cases impossible
  | ok found =>
      constructor
      · intro same; exact congrArg Except.ok (Except.ok.inj same)
      · intro same; exact congrArg Except.ok (Except.ok.inj same)

theorem every_eq_ok_iff {checks : List (Checked α)} {values : List α} :
    every checks = .ok values ↔ checks = values.map .ok := by
  induction checks generalizing values with
  | nil =>
      rw [every, Except.ok.injEq]
      constructor
      · rintro rfl; rfl
      · intro same; exact (List.map_eq_nil_iff.mp same.symm).symm
  | cons check rest ih =>
      rw [every, map_eq_ok_iff]
      constructor
      · rintro ⟨⟨value, others⟩, made, rfl⟩
        obtain ⟨checked, restChecked⟩ := both_eq_ok_iff.mp made
        rw [checked, ih.mp restChecked]
        rfl
      · intro same
        cases values with
        | nil => cases same
        | cons value others =>
            obtain ⟨rfl, restSame⟩ := List.cons.inj same
            exact ⟨(value, others), both_eq_ok_iff.mpr ⟨rfl, ih.mpr restSame⟩, rfl⟩

end Validation
end RefSync
