/-
What the handlers keep to while several of them are at work. Between two stages the engine
is orderly: its registry is sound, nothing is in it while the engine is inactive, and a
named workspace has its dependencies, at least from the time its artifact is watched. A
routine that keeps the engine orderly, and takes no workspace's dependencies away, is steady.

With `full`, every named workspace has its dependencies, and then no lookup fails.
-/

import RefSync.Proofs.Registry.Sound
import RefSync.Proofs.Routine.Group

universe u

namespace RefSync

/-- An engine between two stages. The workspaces in `adding` may have a name already and
their dependencies later. -/
structure Engine.Orderly (project : Project) (full : Prop) (adding : List String)
    (engine : Engine) : Prop where
  sound : engine.registry.Sound project
  settled workspace : workspace ∉ adding →
    full ∨ Workspace.artifactPath workspace ∈ engine.registry.artifacts →
    engine.registry.Settled workspace
  idle : engine.active = false → engine.registry = .empty

/-- An engine is orderly whatever it has logged. -/
theorem Engine.Orderly.logged {project : Project} {full : Prop} {engine : Engine}
    (orderly : engine.Orderly project full []) (log : List LogRecord) :
    Engine.Orderly project full [] { engine with log := log } :=
  { orderly with }

namespace Routine

/-- A stage of a steady routine, so far. -/
structure Stage (project : Project) (full : Prop) (start now : Engine) : Prop where
  began : start.Orderly project full []
  orderly : now.Orderly project full []
  settled workspace : start.registry.Settled workspace → now.registry.Settled workspace

theorem Stage.refl {project : Project} {full : Prop} {engine : Engine}
    (orderly : engine.Orderly project full []) : Stage project full engine engine :=
  ⟨orderly, orderly, fun _ => id⟩

theorem Stage.logged {project : Project} {full : Prop} {engine : Engine}
    (orderly : engine.Orderly project full []) (log : List LogRecord) :
    Stage project full engine { engine with log := log } :=
  ⟨orderly, orderly.logged log, fun _ => id⟩

def steady (ε : Type) (project : Project) (full : Prop) : Conduct ε where
  allows before after := before.1.Orderly project full [] → Stage project full before.1 after.1
  refl _ orderly := .refl orderly
  trans first second orderly :=
    let one := first orderly
    let two := second one.orderly
    ⟨orderly, two.orderly, fun workspace settled => two.settled workspace (one.settled workspace settled)⟩

/-- A fault that does not end the process, where no lookup may fail. -/
def Harmless (full : Prop) (fault : Fault) : Prop :=
  full → fault.isFatal = false

/-- Whether answering a request leaves the engine alone. -/
def Quiet {ε : Type} (answer : Answering ε) : Prop :=
  ∀ asked state, (answer asked state).2.1 = state.1

/-- What holds at the end of a steady routine. -/
def steadyEnd {α : Type} (ε : Type) (project : Project) (full : Prop) (post : α → Engine → Prop) :
    Ending α ε :=
  fun result start now => Stage project full start.1 now.1 ∧
    match result with
    | .ok value => post value now.1
    | .error failure => ∀ fault ∈ failure, Harmless full fault

/-- A routine that keeps the engine orderly, among others that do. -/
def Steadily {ε α : Type} (answer : Answering ε) (project : Project) (full : Prop)
    (pre : Engine → Prop) (routine : Routine α) (post : α → Engine → Prop) : Prop :=
  ∀ start now : Engine × ε, Stage project full start.1 now.1 → pre now.1 →
    Meets answer routine (steady ε project full) (steady ε project full) start now
      (steadyEnd ε project full post)

/-- What others that are steady do not undo. -/
def Lasting (project : Project) (full : Prop) (holds : Engine → Prop) : Prop :=
  ∀ before after, Stage project full before after → holds before → holds after

section

variable {ε α β : Type} {answer : Answering ε} {project : Project} {full : Prop}
  {pre : Engine → Prop}

theorem Stage.lift {start now later : Engine} (stage : Stage project full start now)
    (rest : Stage project full now later) : Stage project full start later :=
  ⟨stage.began, rest.orderly, fun workspace settled =>
    rest.settled workspace (stage.settled workspace settled)⟩

/-- A change of the registry that is not empty before. -/
theorem stage_of_change {engine : Engine} (orderly : engine.Orderly project full [])
    {after : Registry} (sound : after.Sound project)
    (settled : ∀ workspace, engine.registry.Settled workspace → after.Settled workspace)
    (artifacts : ∀ path ∈ after.artifacts, path ∈ engine.registry.artifacts)
    (some : engine.registry ≠ .empty) :
    Stage project full engine { engine with registry := after } := by
  refine ⟨orderly, ⟨sound, fun workspace absent due => ?_, fun inactive => ?_⟩, settled⟩
  · exact settled workspace (orderly.settled workspace absent (due.imp_right (artifacts _)))
  · exact absurd (orderly.idle inactive) some

theorem lasting_true : Lasting project full fun _ => True :=
  fun _ _ _ _ => trivial

theorem lasting_settled (project : Project) (full : Prop) (workspace : String) :
    Lasting project full fun engine => engine.registry.Settled workspace :=
  fun _ _ stage => stage.settled workspace

theorem Steadily.weaken {routine : Routine α} {post weaker : α → Engine → Prop}
    (steadily : Steadily answer project full pre routine post)
    (implies : ∀ value engine, post value engine → weaker value engine) :
    Steadily answer project full pre routine weaker := by
  intro start now stage holds
  refine (steadily start now stage holds).weaken fun result start now ended => ⟨ended.1, ?_⟩
  cases result with
  | ok value => exact implies value now.1 ended.2
  | error failure => exact ended.2

theorem Steadily.strengthen {routine : Routine α} {post : α → Engine → Prop}
    {stronger : Engine → Prop} (steadily : Steadily answer project full pre routine post)
    (implies : ∀ engine, stronger engine → pre engine) :
    Steadily answer project full stronger routine post :=
  fun start now stage holds => steadily start now stage (implies now.1 holds)

theorem steadily_pure {value : α} {post : α → Engine → Prop}
    (holds : ∀ engine, pre engine → post value engine) :
    Steadily answer project full pre (pure value) post :=
  fun _ now stage before => ⟨stage, holds now.1 before⟩

theorem steadily_fail {failure : Failure} {post : α → Engine → Prop}
    (harmless : ∀ fault ∈ failure, Harmless full fault) :
    Steadily answer project full pre (.fail failure) post :=
  fun _ _ stage _ => ⟨stage, harmless⟩

theorem steadily_throw {fault : Fault} {post : α → Engine → Prop} (harmless : Harmless full fault) :
    Steadily answer project full pre (throw fault) post :=
  steadily_fail fun _ member => List.mem_singleton.mp member ▸ harmless

theorem steadily_ofExcept {κ : Type} {toFault : κ → Fault} {outcome : Except κ α}
    {post : α → Engine → Prop}
    (holds : ∀ value engine, outcome = .ok value → pre engine → post value engine)
    (harmless : ∀ problem, outcome = .error problem → Harmless full (toFault problem)) :
    Steadily answer project full pre (ofExcept toFault outcome) post := by
  cases outcome with
  | ok value => exact steadily_pure fun engine before => holds value engine rfl before
  | error problem => exact steadily_throw (harmless problem rfl)

theorem Steadily.bind {routine : Routine α} {rest : α → Routine β} (middle : α → Engine → Prop)
    {post : β → Engine → Prop} (first : Steadily answer project full pre routine middle)
    (second : ∀ value, Steadily answer project full (middle value) (rest value) post) :
    Steadily answer project full pre (routine >>= rest) post := by
  intro start now stage holds
  refine (meets_bind routine rest _).mpr ?_
  refine (first start now stage holds).weaken fun result start now ended => ?_
  cases result with
  | ok value => exact second value start now ended.1 ended.2
  | error failure => exact ended

theorem steadily_ask (quiet : Quiet answer) (lasting : Lasting project full pre)
    (asked : Request) : Steadily answer project full pre (ask asked) fun _ => pre := by
  intro start now stage holds
  refine ⟨fun _ => stage, fun asks reached => ?_⟩
  have asking := reached stage.orderly
  have same : (answer asked asks).2.1 = asks.1 := quiet asked asks
  refine ⟨fun orderly => by rw [same]; exact .refl orderly, ?_⟩
  intro resumes resumed
  have resuming := resumed (by rw [same]; exact asking.orderly)
  rw [same] at resuming
  exact ⟨.refl resuming.orderly, lasting _ _ (asking.lift resuming) holds⟩

theorem steadily_engine {rest : Engine → Routine β} {post : β → Engine → Prop}
    (each : ∀ engine, engine.Orderly project full [] → pre engine →
      Steadily answer project full (· = engine) (rest engine) post) :
    Steadily answer project full pre (engine >>= rest) post :=
  fun start now stage holds => each now.1 stage.orderly holds start now stage rfl

theorem steadily_registry {rest : Registry → Routine β} {post : β → Engine → Prop}
    (each : ∀ engine, engine.Orderly project full [] → pre engine →
      Steadily answer project full (· = engine) (rest engine.registry) post) :
    Steadily answer project full pre (registry >>= rest) post :=
  fun start now stage holds => each now.1 stage.orderly holds start now stage rfl

/-- Where it does not matter what the registry holds. -/
theorem steadily_anyRegistry {rest : Registry → Routine β} {post : β → Engine → Prop}
    (each : ∀ registry, Steadily answer project full pre (rest registry) post) :
    Steadily answer project full pre (registry >>= rest) post :=
  steadily_registry fun engine _ holds =>
    (each engine.registry).strengthen fun _ same => same ▸ holds

theorem steadily_modifyRegistry {change : Registry → Registry} {post : Unit → Engine → Prop}
    (kept : ∀ engine, engine.Orderly project full [] → pre engine →
      Stage project full engine { engine with registry := change engine.registry }
        ∧ post () { engine with registry := change engine.registry }) :
    Steadily answer project full pre (modifyRegistry change) post := by
  intro start now stage holds
  obtain ⟨changed, after⟩ := kept now.1 stage.orderly holds
  exact ⟨stage.lift changed, after⟩

theorem steadily_modify {change : Engine → Engine} {post : Unit → Engine → Prop}
    (kept : ∀ engine, engine.Orderly project full [] → pre engine →
      Stage project full engine (change engine) ∧ post () (change engine)) :
    Steadily answer project full pre (modify change) post := by
  intro start now stage holds
  obtain ⟨changed, after⟩ := kept now.1 stage.orderly holds
  exact ⟨stage.lift changed, after⟩

theorem Lasting.log (lasting : Lasting project full pre) {engine : Engine}
    (orderly : engine.Orderly project full []) (holds : pre engine) (log : List LogRecord) :
    pre { engine with log := log } :=
  lasting engine _ (.logged orderly log) holds

/-- Logging changes nothing that matters. -/
theorem steadily_log {level : Level} {message : String}
    (kept : ∀ {engine : Engine}, engine.Orderly project full [] → pre engine →
      ∀ log, pre { engine with log := log }) :
    Steadily answer project full pre (log level message) fun _ => pre :=
  steadily_modify fun _ orderly holds => ⟨.logged orderly _, kept orderly holds _⟩

theorem steadily_onlyIf {condition : Bool} {routine : Routine Unit} {post : Unit → Engine → Prop}
    (done : condition = true → Steadily answer project full pre routine post)
    (skipped : ∀ engine, condition = false → pre engine → post () engine) :
    Steadily answer project full pre (onlyIf condition routine) post := by
  cases condition with
  | true => exact done rfl
  | false => exact steadily_pure fun engine => skipped engine rfl

theorem steadily_forAll {κ : Type u} {items : List κ} {routine : κ → Routine β}
    (lasting : Lasting project full pre)
    (each : ∀ item ∈ items, Steadily answer project full pre (routine item) fun _ _ => True) :
    Steadily answer project full pre (forAll items routine) fun _ => pre := by
  intro start now stage holds
  refine meets_forAll_same (steady ε project full) (fun _ _ _ => True) True
    (Harmless full) (fun _ => stage) (fun _ _ => id) (fun _ _ => id) ?_ ?_ ?_
  · intro item member begins reached
    have beginning := reached stage.orderly
    refine (each item member begins begins (.refl beginning.orderly)
      (lasting _ _ beginning holds)).weaken ?_
    intro result start now ended
    refine ⟨fun _ => ended.1, fun later _ => ?_⟩
    cases result with
    | ok value => trivial
    | error failure => exact ⟨trivial, ended.2⟩
  · intro joins values reached _
    have joining := reached stage.orderly
    exact ⟨.refl joining.orderly, lasting _ _ joining holds⟩
  · intro _ joins failure reached harmless
    have joining := reached stage.orderly
    exact ⟨.refl joining.orderly, harmless⟩

end

end Routine
end RefSync
