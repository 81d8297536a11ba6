/-
Playing a schedule. A place in a routine is told by the members that lead there, and one step is
made at a place; what is played that way is what some schedule does.
-/

import RefSync.Routine.Schedule

namespace RefSync.Routine

/-- Makes the step that is due at a place, where it is one of the routine itself or of a member. -/
def stepAt {ε : Type} (answer : Answering ε) :
    {α : Type} → List Nat → Routine α → Engine × ε → Option (Progress α ε)
  | _, [], .request asked next, state => some (next (answer asked state).1, (answer asked state).2)
  | _, [], routine, state =>
      if routine.isPending then
        some ((routine.advance state.1).1, ((routine.advance state.1).2, state.2))
      else none
  | _, index :: place, @Routine.group _ _ size members next, state =>
      if inside : index < size then
        (stepAt answer place (members ⟨index, inside⟩) state).map fun (moved, after) =>
          (.group (Function.update members ⟨index, inside⟩ moved) next, after)
      else none
  | _, _ :: _, _, _ => none

theorem step_of_stepAt {ε α : Type} {answer : Answering ε} {place : List Nat}
    {routine moved : Routine α} {state after : Engine × ε}
    (plays : stepAt answer place routine state = some (moved, after)) :
    Step answer routine state moved after := by
  induction place generalizing α with
  | nil =>
      have goesOn (pending : routine.isPending = true)
          (same : ((routine.advance state.1).1, ((routine.advance state.1).2, state.2))
            = (moved, after)) : Step answer routine state moved after := by
        cases same
        exact .goesOn routine pending state.1 state.2
      cases routine with
      | request asked next =>
          cases plays
          exact .answered asked next state
      | get next => exact goesOn rfl (Option.some.inj plays)
      | put engine next => exact goesOn rfl (Option.some.inj plays)
      | done value => cases plays
      | fail failure => cases plays
      | group members next => cases plays
  | cons index place ih =>
      cases routine with
      | group members next =>
          unfold stepAt at plays
          split at plays
          · rename_i inside
            obtain ⟨⟨member, later⟩, stepped, same⟩ := Option.map_eq_some_iff.mp plays
            cases same
            exact .member members next ⟨index, inside⟩ (ih stepped)
          · cases plays
      | _ => cases plays

end RefSync.Routine
