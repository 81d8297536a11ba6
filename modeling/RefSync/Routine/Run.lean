/-
Running a routine with its group members one after another. Each request is answered at
once by a function that may change the engine too, as work of others does. The run of a
composed routine is composed of the runs of its parts (`run_bind`, `run_recover`).
-/

import RefSync.Routine.Basic

namespace RefSync.Routine

/-- Makes some steps in order and keeps their results. -/
def inOrder {σ ρ : Type} {size : Nat} (step : Fin size → σ → ρ × σ) (state : σ) : List ρ × σ :=
  let (results, state) := (List.finRange size).foldl (fun (results, state) index =>
    let (result, state) := step index state
    (result :: results, state)) ([], state)
  (results.reverse, state)

/-- Answers requests, with the engine and an environment as they then are. -/
abbrev Answering (ε : Type) :=
  (request : Request) → Engine × ε → request.Answer × (Engine × ε)

def run {ε : Type} (answer : Answering ε) {α : Type} :
    Routine α → Engine × ε → Except Failure α × (Engine × ε)
  | .done value, state => (.ok value, state)
  | .fail failure, state => (.error failure, state)
  | .get next, state => (next state.1).run answer state
  | .put engine next, state => next.run answer (engine, state.2)
  | .request asked next, state =>
      let (given, state) := answer asked state
      (next given).run answer state
  | .group members next, state =>
      let (results, state) := inOrder (fun index => (members index).run answer) state
      (next results).run answer state

/-- Goes on after a run that yielded something. -/
def proceed {ε α β : Type} (rest : α → Engine × ε → Except Failure β × (Engine × ε)) :
    Except Failure α × (Engine × ε) → Except Failure β × (Engine × ε)
  | (.ok value, state) => rest value state
  | (.error failure, state) => (.error failure, state)

/-- Goes on after a run that failed. -/
def rescue {ε α : Type} (handler : Failure → Engine × ε → Except Failure α × (Engine × ε)) :
    Except Failure α × (Engine × ε) → Except Failure α × (Engine × ε)
  | (.ok value, state) => (.ok value, state)
  | (.error failure, state) => handler failure state

theorem run_bind {ε α β : Type} (answer : Answering ε) (routine : Routine α)
    (rest : α → Routine β) (state : Engine × ε) :
    (routine.bind rest).run answer state
      = proceed (fun value => (rest value).run answer) (routine.run answer state) := by
  induction routine generalizing state with
  | done value => rfl
  | fail failure => rfl
  | get next ih => exact ih state.1 rest state
  | put engine next ih => exact ih rest (engine, state.2)
  | request asked next ih => exact ih _ rest _
  | group members next _ ih => exact ih _ rest _

theorem run_recover {ε α : Type} (answer : Answering ε) (routine : Routine α)
    (handler : Failure → Routine α) (state : Engine × ε) :
    (routine.recover handler).run answer state
      = rescue (fun failure => (handler failure).run answer) (routine.run answer state) := by
  induction routine generalizing state with
  | done value => rfl
  | fail failure => rfl
  | get next ih => exact ih state.1 handler state
  | put engine next ih => exact ih handler (engine, state.2)
  | request asked next ih => exact ih _ handler _
  | group members next _ ih => exact ih _ handler _

end RefSync.Routine
