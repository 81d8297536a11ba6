/-
Groups over a list of items. A group yields what its members yield, in the order of the
items, or the faults of those that failed.
-/

import Mathlib.Data.List.Forall2
import Mathlib.Data.List.Nodup
import RefSync.Proofs.Routine.Conduct

universe u

namespace RefSync.Routine

private theorem collect_cons {α : Type} (result : Except Failure α)
    (results : List (Except Failure α)) :
    collect (result :: results) =
      match result, collect results with
      | .ok value, .ok values => .ok (value :: values)
      | .ok _, .error failure => .error failure
      | .error failure, .ok _ => .error failure
      | .error failure, .error others => .error (failure ++ others) := rfl

/-- Either each member has yielded something, or the faults are those of members. -/
theorem collect_cases {α : Type} (results : List (Except Failure α)) :
    (∃ values, results = values.map .ok ∧ collect results = .ok values)
      ∨ ∃ failure, collect results = .error failure
          ∧ (∃ part, .error part ∈ results)
          ∧ ∀ fault ∈ failure, ∃ part, .error part ∈ results ∧ fault ∈ part := by
  induction results with
  | nil => exact Or.inl ⟨[], rfl, rfl⟩
  | cons result rest ih =>
      rcases ih with ⟨values, rfl, collected⟩ | ⟨failure, collected, ⟨failed, failedIn⟩, from_⟩
      · cases result with
        | ok value =>
            exact Or.inl ⟨value :: values, rfl, by rw [collect_cons, collected]⟩
        | error failure =>
            refine Or.inr ⟨failure, by rw [collect_cons, collected], ⟨failure, List.mem_cons_self⟩, ?_⟩
            intro fault member
            exact ⟨failure, List.mem_cons_self, member⟩
      · have others : ∀ fault ∈ failure, ∃ part, .error part ∈ result :: rest ∧ fault ∈ part := by
          intro fault member
          obtain ⟨part, inRest, inPart⟩ := from_ fault member
          exact ⟨part, List.mem_cons_of_mem _ inRest, inPart⟩
        cases result with
        | ok value =>
            refine Or.inr ⟨failure, by rw [collect_cons, collected], ?_, others⟩
            exact ⟨failed, List.mem_cons_of_mem _ failedIn⟩
        | error own =>
            refine Or.inr ⟨own ++ failure, by rw [collect_cons, collected],
              ⟨own, List.mem_cons_self⟩, ?_⟩
            intro fault member
            rcases List.mem_append.mp member with inOwn | inOthers
            · exact ⟨own, List.mem_cons_self, inOwn⟩
            · exact others fault inOthers

/-- How a member ends: with a good value, or, if that is conceded, with bearable faults. -/
def endsWith {β ε : Type} (good : β → Engine × ε → Prop) (mayFail : Prop)
    (bearable : Fault → Prop) : Except Failure β → Engine × ε → Prop
  | .ok value, state => good value state
  | .error failure, _ => mayFail ∧ ∀ fault ∈ failure, bearable fault

section

variable {ε : Type} {answer : Answering ε} {α : Type u} {β : Type} {others own : Conduct ε}
  {start now : Engine × ε} {ending : Ending (List β) ε}

/-- A group in which each member has terms of its own. -/
theorem meets_forAll {items : List α} {routine : α → Routine β}
    (expects does : Fin items.length → Conduct ε) (together : Conduct ε)
    (good : Fin items.length → β → Engine × ε → Prop) (mayFail : Prop) (bearable : Fault → Prop)
    (kept : own.allows start now)
    (fromOutside : ∀ index before after, others.allows before after →
      (expects index).allows before after)
    (fromInside : ∀ index other before after, index ≠ other →
      (does other).allows before after → (expects index).allows before after)
    (outside : ∀ before after, others.allows before after → together.allows before after)
    (inside : ∀ index before after, (does index).allows before after →
      together.allows before after ∧ own.allows before after)
    (each : ∀ index begins, (expects index).allows now begins →
      Meets answer (routine items[index]) (expects index) (does index) begins begins
        (lasting (expects index) (does index) (endsWith (good index) mayFail bearable)))
    (joined : ∀ joins values, together.allows now joins →
      (∀ index : Fin items.length, ∃ value, values[index.val]? = some value ∧ good index value joins) →
      values.length = items.length → ending (.ok values) joins joins)
    (failed : mayFail → ∀ joins failure, together.allows now joins →
      (∀ fault ∈ failure, bearable fault) → ending (.error failure) joins joins) :
    Meets answer (forAll items routine) others own start now ending := by
  let terms : Terms β ε items.length :=
    { expects, does, together
      ends := fun index => endsWith (good index) mayFail bearable }
  refine ⟨kept, terms, ?_, each, fun results joins reached ends => ?_⟩
  · exact
      { fromOutside := fromOutside _ _ _
        fromInside := fromInside _ _ _ _
        outside := outside _ _
        inside := fun kept => (inside _ _ _ kept).1
        own := fun kept => (inside _ _ _ kept).2
        cancels := fun failing => ⟨failing.1, fun _ member => by cases member⟩ }
  · dsimp only
    rcases collect_cases (List.ofFn results) with ⟨values, same, collected⟩ | failing
    · have length : values.length = items.length := by
        have lengths := congrArg List.length same
        rw [List.length_ofFn, List.length_map] at lengths
        exact lengths.symm
      rw [collected]
      refine joined joins values reached (fun index => ?_) length
      have entry := congrArg (·[index.val]?) same
      simp only [List.getElem?_ofFn, index.isLt, dif_pos, List.getElem?_map] at entry
      cases found : values[index.val]? with
      | none => rw [found] at entry; cases entry
      | some value =>
          rw [found, Option.map_some, Option.some.injEq] at entry
          have good := ends index
          rw [entry] at good
          exact ⟨value, rfl, good⟩
    · obtain ⟨failure, collected, ⟨part, partIn⟩, faults⟩ := failing
      rw [collected]
      have bears : ∀ part, .error part ∈ List.ofFn results →
          mayFail ∧ ∀ fault ∈ part, bearable fault := by
        intro part member
        obtain ⟨index, atIndex⟩ := List.mem_ofFn.mp member
        have ended := ends index
        rw [atIndex] at ended
        exact ended
      refine failed (bears part partIn).1 joins failure reached fun fault member => ?_
      obtain ⟨part, inResults, inPart⟩ := faults fault member
      exact (bears part inResults).2 fault inPart

theorem exists_of_forall₂ {related : α → β → Prop} {items : List α} {values : List β}
    (all : List.Forall₂ related items values) {value : β} (member : value ∈ values) :
    ∃ item ∈ items, related item value := by
  obtain ⟨index, inside, rfl⟩ := List.getElem_of_mem member
  exact ⟨_, List.getElem_mem (all.length_eq ▸ inside), (List.forall₂_iff_get.mp all).2 index _ inside⟩

/-- A group over distinct items, each of which has terms of its own. -/
theorem meets_forAll_distinct {items : List α} {routine : α → Routine β} (once : items.Nodup)
    (expects does : α → Conduct ε) (together : Conduct ε) (good : α → β → Engine × ε → Prop)
    (mayFail : Prop) (bearable : Fault → Prop) (kept : own.allows start now)
    (fromOutside : ∀ item ∈ items, ∀ before after, others.allows before after →
      (expects item).allows before after)
    (fromInside : ∀ item ∈ items, ∀ other ∈ items, item ≠ other → ∀ before after,
      (does other).allows before after → (expects item).allows before after)
    (outside : ∀ before after, others.allows before after → together.allows before after)
    (inside : ∀ item ∈ items, ∀ before after, (does item).allows before after →
      together.allows before after ∧ own.allows before after)
    (each : ∀ item ∈ items, ∀ begins, (expects item).allows now begins →
      Meets answer (routine item) (expects item) (does item) begins begins
        (lasting (expects item) (does item) (endsWith (good item) mayFail bearable)))
    (joined : ∀ joins values, together.allows now joins →
      List.Forall₂ (fun item value => good item value joins) items values →
      ending (.ok values) joins joins)
    (failed : mayFail → ∀ joins failure, together.allows now joins →
      (∀ fault ∈ failure, bearable fault) → ending (.error failure) joins joins) :
    Meets answer (forAll items routine) others own start now ending := by
  have member (index : Fin items.length) : items[index] ∈ items := List.getElem_mem index.isLt
  refine meets_forAll (fun index => expects items[index]) (fun index => does items[index]) together
    (fun index => good items[index]) mayFail bearable kept
    (fun index => fromOutside _ (member index)) (fun index other before after differs => ?_) outside
    (fun index => inside _ (member index)) (fun index => each _ (member index)) ?_ failed
  · refine fromInside _ (member index) _ (member other) (fun same => differs ?_) before after
    exact List.nodup_iff_injective_get.mp once same
  · intro joins values reached goodAt length
    refine joined joins values reached ?_
    rw [List.forall₂_iff_get]
    refine ⟨length.symm, fun index inItems inValues => ?_⟩
    obtain ⟨value, found, good⟩ := goodAt ⟨index, inItems⟩
    obtain ⟨_, rfl⟩ := List.getElem?_eq_some_iff.mp found
    exact good

/-- A group in which all members keep to the same conduct. -/
theorem meets_forAll_same {items : List α} {routine : α → Routine β} (conduct : Conduct ε)
    (good : α → β → Engine × ε → Prop) (mayFail : Prop) (bearable : Fault → Prop)
    (kept : own.allows start now)
    (outside : ∀ before after, others.allows before after → conduct.allows before after)
    (inside : ∀ before after, conduct.allows before after → own.allows before after)
    (each : ∀ item ∈ items, ∀ begins, conduct.allows now begins →
      Meets answer (routine item) conduct conduct begins begins
        (lasting conduct conduct (endsWith (good item) mayFail bearable)))
    (joined : ∀ joins values, conduct.allows now joins →
      List.Forall₂ (fun item value => good item value joins) items values →
      ending (.ok values) joins joins)
    (failed : mayFail → ∀ joins failure, conduct.allows now joins →
      (∀ fault ∈ failure, bearable fault) → ending (.error failure) joins joins) :
    Meets answer (forAll items routine) others own start now ending := by
  refine meets_forAll (fun _ => conduct) (fun _ => conduct) conduct
    (fun index => good items[index]) mayFail bearable kept
    (fun _ => outside) (fun _ _ _ _ _ => id) outside
    (fun _ before after kept => ⟨kept, inside before after kept⟩)
    (fun index => each items[index] (List.getElem_mem index.isLt)) ?_ failed
  intro joins values reached goodAt length
  refine joined joins values reached ?_
  rw [List.forall₂_iff_get]
  refine ⟨length.symm, fun index inItems inValues => ?_⟩
  obtain ⟨value, found, good⟩ := goodAt ⟨index, inItems⟩
  obtain ⟨_, rfl⟩ := List.getElem?_eq_some_iff.mp found
  exact good

/-- A group of one. -/
theorem meets_single {routine : α → Routine β} {item : α} (expects does : Conduct ε)
    (good : β → Engine × ε → Prop) (kept : own.allows start now)
    (outside : ∀ before after, others.allows before after →
      expects.allows before after ∧ does.allows before after)
    (inside : ∀ before after, does.allows before after → own.allows before after)
    (meets : ∀ begins, expects.allows now begins → Meets answer (routine item) expects does begins
      begins (lasting expects does (endsWith good False fun _ => False)))
    (joined : ∀ joins value, does.allows now joins → good value joins →
      ending (.ok [value]) joins joins) :
    Meets answer (forAll [item] routine) others own start now ending := by
  refine meets_forAll (fun _ => expects) (fun _ => does) does (fun _ => good) False (fun _ => False)
    kept (fun _ before after reached => (outside before after reached).1) ?_
    (fun before after reached => (outside before after reached).2)
    (fun _ before after reached => ⟨reached, inside before after reached⟩) ?_ ?_ nofun
  · intro index other before after differs
    exact absurd (Subsingleton.elim (α := Fin 1) index other) differs
  · intro index begins reached
    obtain rfl : index = (0 : Fin 1) := Subsingleton.elim (α := Fin 1) index 0
    exact meets begins reached
  · intro joins values reached each length
    obtain ⟨value, found, holds⟩ := each (0 : Fin 1)
    obtain ⟨_, rfl⟩ := List.length_eq_one_iff.mp length
    cases found
    exact joined joins value reached holds

/-- A group of two, each of which may do what the other one expects. -/
theorem meets_pair {routine : α → Routine β} {first second : α} (left right together : Conduct ε)
    (goodLeft goodRight : β → Engine × ε → Prop) (kept : own.allows start now)
    (outside : ∀ before after, others.allows before after →
      left.allows before after ∧ right.allows before after)
    (insideLeft : ∀ before after, left.allows before after →
      together.allows before after ∧ own.allows before after)
    (insideRight : ∀ before after, right.allows before after →
      together.allows before after ∧ own.allows before after)
    (meetsLeft : ∀ begins, right.allows now begins → Meets answer (routine first) right left begins
      begins (lasting right left (endsWith goodLeft False fun _ => False)))
    (meetsRight : ∀ begins, left.allows now begins → Meets answer (routine second) left right begins
      begins (lasting left right (endsWith goodRight False fun _ => False)))
    (joined : ∀ joins one other, together.allows now joins → goodLeft one joins →
      goodRight other joins → ending (.ok [one, other]) joins joins) :
    Meets answer (forAll [first, second] routine) others own start now ending := by
  have bySide {motive : Fin 2 → Prop} (zero : motive 0) (one : motive 1) (index : Fin 2) :
      motive index := by
    rcases index with ⟨_ | _ | more, bound⟩
    · exact zero
    · exact one
    · omega
  refine meets_forAll (fun index : Fin 2 => if index = 0 then right else left)
    (fun index : Fin 2 => if index = 0 then left else right) together
    (fun index : Fin 2 => if index = 0 then goodLeft else goodRight) False (fun _ => False) kept
    ?_ ?_ (fun before after reached => (insideLeft before after (outside before after reached).1).1)
    ?_ ?_ ?_ nofun
  · refine bySide (fun before after reached => (outside before after reached).2) ?_
    exact fun before after reached => (outside before after reached).1
  · refine bySide (bySide (fun _ _ differs => absurd rfl differs) fun _ _ _ => id)
      (bySide (fun _ _ _ => id) fun _ _ differs => absurd rfl differs)
  · exact bySide insideLeft insideRight
  · exact bySide meetsLeft meetsRight
  · intro joins values reached each length
    obtain ⟨one, other, rfl⟩ := List.length_eq_two.mp length
    obtain ⟨value, found, holds⟩ := each (0 : Fin 2)
    obtain ⟨next, nextFound, nextHolds⟩ := each (1 : Fin 2)
    cases found
    cases nextFound
    exact joined joins one other reached holds nextHolds

end

end RefSync.Routine
