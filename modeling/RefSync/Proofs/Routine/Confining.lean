/-
Routines that are confined, whatever others do between their stages: each of their own stages
keeps to a conduct. What others do plays no part, so there is nothing to know of the state either.
-/

import RefSync.Proofs.Routine.Group

universe u

namespace RefSync.Routine

/-- Whether every stage of a routine keeps to a conduct. -/
def Confined {ε α : Type} (answer : Answering ε) (conduct : Conduct ε) (routine : Routine α) : Prop :=
  ∀ start now, conduct.allows start now →
    Meets answer routine .any conduct start now fun _ start now => conduct.allows start now

section

variable {ε α β : Type} {answer : Answering ε} {conduct : Conduct ε}

/-- A whole run of a confined routine keeps to the conduct of its stages. -/
theorem Confined.finishes {routine : Routine α} (confined : Confined answer conduct routine)
    {before after : Engine × ε} {result : Except Failure α}
    (finishes : Finishes answer routine before result after) : conduct.allows before after := by
  have keeps : Keeps answer routine .none conduct before fun _ _ => True := by
    rintro _ ⟨rfl⟩
    have meets := (confined before before (conduct.refl before)).relax .none conduct
      (fun _ _ _ => trivial) fun _ _ => id
    exact meets.weaken fun _ _ _ kept => ⟨kept, fun _ _ => trivial⟩
  exact (keeps.finishes finishes).1

theorem confined_pure (value : α) : Confined answer conduct (pure value) :=
  fun _ _ kept => kept

theorem confined_throw (fault : Fault) : Confined answer conduct (throw fault : Routine α) :=
  fun _ _ kept => kept

theorem confined_ofExcept {κ : Type} (toFault : κ → Fault) (outcome : Except κ α) :
    Confined answer conduct (ofExcept toFault outcome) := by
  cases outcome with
  | ok value => exact confined_pure value
  | error problem => exact confined_throw (toFault problem)

theorem Confined.bind {routine : Routine α} {rest : α → Routine β}
    (first : Confined answer conduct routine) (second : ∀ value, Confined answer conduct (rest value)) :
    Confined answer conduct (routine >>= rest) := by
  intro start now kept
  apply (meets_bind routine rest _).mpr
  apply (first start now kept).weaken
  intro result start now ended
  cases result with
  | ok value => exact second value start now ended
  | error failure => exact ended

theorem confined_ask (asked : Request) (keeps : ∀ state, conduct.allows state (answer asked state).2) :
    Confined answer conduct (ask asked) :=
  fun _ _ kept => ⟨kept, fun asks _ => ⟨keeps asks, fun resumes _ => conduct.refl resumes⟩⟩

theorem confined_registry {rest : Registry → Routine β}
    (each : ∀ registry, Confined answer conduct (rest registry)) :
    Confined answer conduct (registry >>= rest) :=
  fun start now kept => each now.1.registry start now kept

theorem confined_modify {change : Engine → Engine}
    (keeps : ∀ state : Engine × ε, conduct.allows state (change state.1, state.2)) :
    Confined answer conduct (modify change) :=
  fun _ now kept => conduct.trans kept (keeps now)

theorem confined_onlyIf {condition : Bool} {routine : Routine Unit}
    (done : Confined answer conduct routine) : Confined answer conduct (onlyIf condition routine) := by
  cases condition with
  | true => exact done
  | false => exact confined_pure ()

theorem confined_forAll {κ : Type u} {items : List κ} {routine : κ → Routine β}
    (each : ∀ item ∈ items, Confined answer conduct (routine item)) :
    Confined answer conduct (forAll items routine) := by
  intro start now kept
  apply meets_forAll (fun _ => .any) (fun _ => conduct) .any (fun _ _ _ => True) True (fun _ => True)
    kept
  · exact fun _ _ _ _ => trivial
  · exact fun _ _ _ _ _ _ => trivial
  · exact fun _ _ _ => trivial
  · exact fun _ _ _ does => ⟨trivial, does⟩
  · intro index begins _
    apply (each _ (List.getElem_mem index.isLt) begins begins (conduct.refl begins)).weaken
    intro result start now ended
    refine ⟨ended, fun later _ => ?_⟩
    cases result with
    | ok value => trivial
    | error failure => exact ⟨trivial, fun _ _ => trivial⟩
  · exact fun joins _ _ _ _ => conduct.refl joins
  · exact fun _ joins _ _ _ => conduct.refl joins

end

end RefSync.Routine
