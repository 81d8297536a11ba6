/-
Routines with their group members interleaved. A routine goes on without a break from one
request to the next; what its members do in between is up to whoever schedules them. A
request is carried out in one step and its routine goes on in a later one. Once a member
failed, those that are not through may be cancelled where they are.

Running the members one after another is one such schedule (`run_finishes`).
-/

import Mathlib.Logic.Function.Basic
import Mathlib.Logic.Relation
import RefSync.Routine.Run

namespace RefSync.Routine

/-- Goes on to the next request, to a group, or to the end. -/
def advance {α : Type} : Routine α → Engine → Routine α × Engine
  | .get next, engine => (next engine).advance engine
  | .put engine next, _ => next.advance engine
  | .done value, engine => (.done value, engine)
  | .fail failure, engine => (.fail failure, engine)
  | .request asked next, engine => (.request asked next, engine)
  | .group members next, engine => (.group members next, engine)

/-- Whether a routine can go on with nothing but the engine. -/
def isPending {α : Type} : Routine α → Bool
  | .get _ | .put _ _ => true
  | _ => false

/-- A routine that is through. -/
def through {α : Type} : Except Failure α → Routine α
  | .ok value => .done value
  | .error failure => .fail failure

inductive Step {ε : Type} (answer : Answering ε) :
    {α : Type} → Routine α → Engine × ε → Routine α → Engine × ε → Prop where
  | goesOn {α : Type} (routine : Routine α) (pending : routine.isPending = true)
      (engine : Engine) (world : ε) :
      Step answer routine (engine, world) (routine.advance engine).1
        ((routine.advance engine).2, world)
  | answered {α : Type} (asked : Request) (next : asked.Answer → Routine α)
      (state : Engine × ε) :
      Step answer (.request asked next) state (next (answer asked state).1) (answer asked state).2
  | member {α β : Type} {size : Nat} (members : Fin size → Routine β)
      (next : List (Except Failure β) → Routine α) (index : Fin size) {state after : Engine × ε}
      {moved : Routine β} (moves : Step answer (members index) state moved after) :
      Step answer (.group members next) state
        (.group (Function.update members index moved) next) after
  | cancelled {α β : Type} {size : Nat} (members : Fin size → Routine β)
      (next : List (Except Failure β) → Routine α) (index other : Fin size) {failure : Failure}
      (failed : members other = .fail failure)
      (unfinished : ∀ result, members index ≠ through result) (state : Engine × ε) :
      Step answer (.group members next) state
        (.group (Function.update members index (.fail [])) next) state
  | joined {α β : Type} {size : Nat} (results : Fin size → Except Failure β)
      (next : List (Except Failure β) → Routine α) (state : Engine × ε) :
      Step answer (.group (fun index => through (results index)) next) state
        (next (List.ofFn results)) state

/-- A routine with the state it has come to. -/
abbrev Progress (α ε : Type) := Routine α × (Engine × ε)

def Steps {ε : Type} (answer : Answering ε) {α : Type} : Progress α ε → Progress α ε → Prop :=
  Relation.ReflTransGen fun before after =>
    Step answer before.1 before.2 after.1 after.2

/-- Whether a schedule takes a routine to a result. -/
def Finishes {ε : Type} (answer : Answering ε) {α : Type} (routine : Routine α)
    (before : Engine × ε) (result : Except Failure α) (after : Engine × ε) : Prop :=
  Steps answer (routine, before) (through result, after)

end RefSync.Routine
