/-
What a routine keeps to while others are at work. A routine is given what the others may do
between its stages and is held to what it does in a stage; a group gives each member its own
terms. `Meets` follows the routine down to its end, and every schedule of a routine that
meets its terms keeps to them (`Keeps.step`, `Keeps.finishes`).
-/

import RefSync.Routine.Schedule

namespace RefSync.Routine

/-- Changes that may follow one another: doing nothing is one of them. -/
structure Conduct (ε : Type) where
  allows : Engine × ε → Engine × ε → Prop
  refl (state : Engine × ε) : allows state state
  trans {first second third : Engine × ε} :
    allows first second → allows second third → allows first third

namespace Conduct

variable {ε : Type}

/-- Nobody does anything. -/
def none : Conduct ε where
  allows before after := before = after
  refl _ := rfl
  trans := Eq.trans

/-- Anything goes. -/
def any : Conduct ε where
  allows _ _ := True
  refl _ := trivial
  trans _ _ := trivial

/-- Whatever holds goes on to hold. -/
def preserving (holds : Engine × ε → Prop) : Conduct ε where
  allows before after := holds before → holds after
  refl _ := id
  trans first second := second ∘ first

/-- What both allow. -/
def both (left right : Conduct ε) : Conduct ε where
  allows before after := left.allows before after ∧ right.allows before after
  refl state := ⟨left.refl state, right.refl state⟩
  trans first second := ⟨left.trans first.1 second.1, right.trans first.2 second.2⟩

end Conduct

/-- The terms of a group: what each member may expect and what it is held to, what all of
them together may do, and how each one ends. -/
structure Terms (β ε : Type) (size : Nat) where
  expects : Fin size → Conduct ε
  does : Fin size → Conduct ε
  together : Conduct ε
  ends : Fin size → Except Failure β → Engine × ε → Prop

/-- A member may expect what others outside and inside the group do. Where some member may
fail, any other one may end by being cancelled. -/
structure Terms.Fit {β ε : Type} {size : Nat} (terms : Terms β ε size) (others own : Conduct ε) :
    Prop where
  fromOutside {index : Fin size} {before after : Engine × ε} :
    others.allows before after → (terms.expects index).allows before after
  fromInside {index other : Fin size} {before after : Engine × ε} :
    index ≠ other → (terms.does other).allows before after →
      (terms.expects index).allows before after
  outside {before after : Engine × ε} :
    others.allows before after → terms.together.allows before after
  inside {index : Fin size} {before after : Engine × ε} :
    (terms.does index).allows before after → terms.together.allows before after
  own {index : Fin size} {before after : Engine × ε} :
    (terms.does index).allows before after → own.allows before after
  cancels {index other : Fin size} {failure : Failure} {state later : Engine × ε} :
    terms.ends other (.error failure) state → terms.ends index (.error []) later

/-- What is to hold at the end of a routine, of the state its last stage started from and
the present one. -/
abbrev Ending (α ε : Type) := Except Failure α → Engine × ε → Engine × ε → Prop

/-- An ending that others cannot undo, after a stage that keeps to its conduct. -/
def lasting {α ε : Type} (others own : Conduct ε)
    (ends : Except Failure α → Engine × ε → Prop) : Ending α ε :=
  fun result start now => own.allows start now
    ∧ ∀ later, others.allows now later → ends result later

/-- Whether a routine in the middle of a stage, which began at `start` and has come to `now`,
keeps to its conduct and ends as it should. -/
def Meets {ε : Type} (answer : Answering ε) : {α : Type} → Routine α →
    (others own : Conduct ε) → (start now : Engine × ε) → Ending α ε → Prop
  | _, .done value, _, _, start, now, ending => ending (.ok value) start now
  | _, .fail failure, _, _, start, now, ending => ending (.error failure) start now
  | _, .get next, others, own, start, now, ending =>
      Meets answer (next now.1) others own start now ending
  | _, .put engine next, others, own, start, now, ending =>
      Meets answer next others own start (engine, now.2) ending
  | _, .request asked next, others, own, start, now, ending =>
      own.allows start now
        ∧ ∀ asks, others.allows now asks →
            own.allows asks (answer asked asks).2
              ∧ ∀ resumes, others.allows (answer asked asks).2 resumes →
                  Meets answer (next (answer asked asks).1) others own resumes resumes ending
  | _, @Routine.group _ β size members next, others, own, start, now, ending =>
      own.allows start now
        ∧ ∃ terms : Terms β ε size, terms.Fit others own
          ∧ (∀ index begins, (terms.expects index).allows now begins →
              Meets answer (members index) (terms.expects index) (terms.does index) begins begins
                (lasting (terms.expects index) (terms.does index) (terms.ends index)))
          ∧ ∀ results joins, terms.together.allows now joins →
              (∀ index, terms.ends index (results index) joins) →
              Meets answer (next (List.ofFn results)) others own joins joins ending

section

variable {ε α β : Type} {answer : Answering ε} {others own : Conduct ε} {start now : Engine × ε}

theorem Meets.weaken {routine : Routine α} {ending weaker : Ending α ε}
    (meets : Meets answer routine others own start now ending)
    (implies : ∀ result start now, ending result start now → weaker result start now) :
    Meets answer routine others own start now weaker := by
  induction routine generalizing start now with
  | done value => exact implies _ _ _ meets
  | fail failure => exact implies _ _ _ meets
  | get next ih => exact ih now.1 meets implies
  | put engine next ih => exact ih meets implies
  | request asked next ih =>
      refine ⟨meets.1, fun asks reached => ?_⟩
      obtain ⟨kept, goesOn⟩ := meets.2 asks reached
      exact ⟨kept, fun resumes later => ih _ (goesOn resumes later) implies⟩
  | group members next _ ih =>
      obtain ⟨kept, terms, fit, each, joined⟩ := meets
      refine ⟨kept, terms, fit, each, fun results joins away ends => ?_⟩
      exact ih _ (joined results joins away ends) implies

/-- Where less is to be expected of others, and more may be done. -/
theorem Meets.relax {routine : Routine α} {ending : Ending α ε}
    (meets : Meets answer routine others own start now ending) (fewer more : Conduct ε)
    (fewerThan : ∀ before after, fewer.allows before after → others.allows before after)
    (moreThan : ∀ before after, own.allows before after → more.allows before after) :
    Meets answer routine fewer more start now ending := by
  induction routine generalizing start now with
  | done value => exact meets
  | fail failure => exact meets
  | get next ih => exact ih now.1 meets
  | put engine next ih => exact ih meets
  | request asked next ih =>
      refine ⟨moreThan _ _ meets.1, fun asks reached => ?_⟩
      obtain ⟨kept, goesOn⟩ := meets.2 asks (fewerThan _ _ reached)
      exact ⟨moreThan _ _ kept, fun resumes later => ih _ (goesOn resumes (fewerThan _ _ later))⟩
  | group members next _ ih =>
      obtain ⟨kept, terms, fit, each, joined⟩ := meets
      refine ⟨moreThan _ _ kept, terms, ?_, each, fun results joins away ends => ?_⟩
      · exact { fit with
          fromOutside := fun does => fit.fromOutside (fewerThan _ _ does)
          outside := fun does => fit.outside (fewerThan _ _ does)
          own := fun does => moreThan _ _ (fit.own does) }
      · exact ih _ (joined results joins away ends)

/-- Where anything may be done, a stage may have begun anywhere. -/
theorem Meets.began {routine : Routine α} {ending : Ending α ε} {elsewhere : Engine × ε}
    (meets : Meets answer routine others .any start now ending)
    (forgets : ∀ result now, ending result start now → ending result elsewhere now) :
    Meets answer routine others .any elsewhere now ending := by
  induction routine generalizing now with
  | done value => exact forgets _ _ meets
  | fail failure => exact forgets _ _ meets
  | get next ih => exact ih now.1 meets forgets
  | put engine next ih => exact ih meets forgets
  | request asked next _ => exact ⟨trivial, meets.2⟩
  | group members next _ _ => exact ⟨trivial, meets.2⟩

theorem bind_assoc {γ : Type} (routine : Routine α) (middle : α → Routine β) (rest : β → Routine γ) :
    (routine.bind middle).bind rest = routine.bind fun value => (middle value).bind rest := by
  induction routine with
  | done value => rfl
  | fail failure => rfl
  | get next ih => exact congrArg Routine.get (funext fun engine => ih engine middle)
  | put engine next ih => exact congrArg (Routine.put engine) (ih middle)
  | request asked next ih =>
      exact congrArg (Routine.request asked) (funext fun given => ih given middle)
  | group members next _ ih =>
      exact congrArg (Routine.group members) (funext fun results => ih results middle)

/-- A routine with more to do meets its terms where the first part ends in a way that the
rest can go on from. -/
theorem meets_bind (routine : Routine α) (rest : α → Routine β) (ending : Ending β ε) :
    Meets answer (routine.bind rest) others own start now ending
      ↔ Meets answer routine others own start now fun result start now =>
          match result with
          | .ok value => Meets answer (rest value) others own start now ending
          | .error failure => ending (.error failure) start now := by
  induction routine generalizing start now with
  | done value => exact Iff.rfl
  | fail failure => exact Iff.rfl
  | get next ih => exact ih now.1 rest
  | put engine next ih => exact ih rest
  | request asked next ih =>
      refine and_congr_right fun _ => forall_congr' fun asks => imp_congr_right fun _ => ?_
      refine and_congr_right fun _ => forall_congr' fun resumes => imp_congr_right fun _ => ?_
      exact ih _ rest
  | group members next _ ih =>
      refine and_congr_right fun _ => exists_congr fun terms => and_congr_right fun _ => ?_
      refine and_congr_right fun _ => forall_congr' fun results => forall_congr' fun joins => ?_
      refine imp_congr_right fun _ => imp_congr_right fun _ => ?_
      exact ih _ rest

theorem meets_recover (routine : Routine α) (handler : Failure → Routine α)
    (ending : Ending α ε) :
    Meets answer (routine.recover handler) others own start now ending
      ↔ Meets answer routine others own start now fun result start now =>
          match result with
          | .ok value => ending (.ok value) start now
          | .error failure => Meets answer (handler failure) others own start now ending := by
  induction routine generalizing start now with
  | done value => exact Iff.rfl
  | fail failure => exact Iff.rfl
  | get next ih => exact ih now.1 handler ending
  | put engine next ih => exact ih handler ending
  | request asked next ih =>
      refine and_congr_right fun _ => forall_congr' fun asks => imp_congr_right fun _ => ?_
      refine and_congr_right fun _ => forall_congr' fun resumes => imp_congr_right fun _ => ?_
      exact ih _ handler ending
  | group members next _ ih =>
      refine and_congr_right fun _ => exists_congr fun terms => and_congr_right fun _ => ?_
      refine and_congr_right fun _ => forall_congr' fun results => forall_congr' fun joins => ?_
      refine imp_congr_right fun _ => imp_congr_right fun _ => ?_
      exact ih _ handler ending

end

/-! ### What takes no time -/

section

variable {ε α β : Type} {answer : Answering ε} {others own : Conduct ε} {start now : Engine × ε}

theorem meets_pure (value : α) (ending : Ending α ε) :
    Meets answer (pure value) others own start now ending ↔ ending (.ok value) start now :=
  Iff.rfl

theorem meets_engine (rest : Engine → Routine β) (ending : Ending β ε) :
    Meets answer (engine >>= rest) others own start now ending
      ↔ Meets answer (rest now.1) others own start now ending :=
  Iff.rfl

theorem meets_registry (rest : Registry → Routine β) (ending : Ending β ε) :
    Meets answer (registry >>= rest) others own start now ending
      ↔ Meets answer (rest now.1.registry) others own start now ending :=
  Iff.rfl

theorem meets_modifyRegistry (change : Registry → Registry) (rest : Unit → Routine β)
    (ending : Ending β ε) :
    Meets answer (modifyRegistry change >>= rest) others own start now ending
      ↔ Meets answer (rest ()) others own start
          ({ now.1 with registry := change now.1.registry }, now.2) ending :=
  Iff.rfl

theorem meets_log (level : Level) (message : String) (rest : Unit → Routine β)
    (ending : Ending β ε) :
    Meets answer (log level message >>= rest) others own start now ending
      ↔ Meets answer (rest ()) others own start
          ({ now.1 with log := now.1.log ++ [⟨level, message⟩] }, now.2) ending :=
  Iff.rfl

theorem meets_ok (value : α) {κ : Type} (toFault : κ → Fault) (rest : α → Routine β)
    (ending : Ending β ε) :
    Meets answer (ofExcept toFault (.ok value) >>= rest) others own start now ending
      ↔ Meets answer (rest value) others own start now ending :=
  Iff.rfl

theorem meets_onlyIf {condition : Bool} {routine : Routine Unit} {rest : Unit → Routine β}
    {ending : Ending β ε}
    (done : condition = true → Meets answer (routine >>= rest) others own start now ending)
    (skipped : condition = false → Meets answer (rest ()) others own start now ending) :
    Meets answer (onlyIf condition routine >>= rest) others own start now ending := by
  cases condition with
  | true => exact done rfl
  | false => exact skipped rfl

/-- A request and what follows it. -/
theorem meets_ask (asked : Request) (rest : asked.Answer → Routine β) (ending : Ending β ε) :
    Meets answer (ask asked >>= rest) others own start now ending
      ↔ own.allows start now
        ∧ ∀ asks, others.allows now asks →
            own.allows asks (answer asked asks).2
              ∧ ∀ resumes, others.allows (answer asked asks).2 resumes →
                  Meets answer (rest (answer asked asks).1) others own resumes resumes ending :=
  Iff.rfl

end

/-! ### Every schedule keeps to the terms -/

theorem meets_advance {ε α : Type} {answer : Answering ε} {others own : Conduct ε}
    {start : Engine × ε} {ending : Ending α ε} (routine : Routine α) (engine : Engine) (world : ε) :
    Meets answer routine others own start (engine, world) ending
      ↔ Meets answer (routine.advance engine).1 others own start
          ((routine.advance engine).2, world) ending := by
  induction routine generalizing engine with
  | done value => exact Iff.rfl
  | fail failure => exact Iff.rfl
  | get next ih => exact ih engine engine
  | put changed next ih => exact ih changed
  | request asked next _ => exact Iff.rfl
  | group members next _ _ => exact Iff.rfl

/-- Whether a routine that is about to go on keeps to its conduct and ends as it should,
whatever others do before it goes on. -/
def Keeps {ε α : Type} (answer : Answering ε) (routine : Routine α) (others own : Conduct ε)
    (state : Engine × ε) (ends : Except Failure α → Engine × ε → Prop) : Prop :=
  ∀ begins, others.allows state begins →
    Meets answer routine others own begins begins (lasting others own ends)

section

variable {ε α : Type} {answer : Answering ε} {others own : Conduct ε}
  {ends : Except Failure α → Engine × ε → Prop}

theorem Keeps.later {routine : Routine α} {state later : Engine × ε}
    (keeps : Keeps answer routine others own state ends) (reached : others.allows state later) :
    Keeps answer routine others own later ends :=
  fun begins begun => keeps begins (others.trans reached begun)

theorem Keeps.ended (result : Except Failure α) {state : Engine × ε}
    (keeps : Keeps answer (through result) others own state ends) : ends result state := by
  have meets := keeps state (others.refl state)
  cases result with
  | ok value => exact meets.2 state (others.refl state)
  | error failure => exact meets.2 state (others.refl state)

/-- At the end of a stage the routine waits, or is through. -/
private theorem keeps_of_not_pending {routine : Routine α} {start now : Engine × ε}
    (waits : routine.isPending = false)
    (meets : Meets answer routine others own start now (lasting others own ends)) :
    own.allows start now ∧ Keeps answer routine others own now ends := by
  cases routine with
  | done value =>
      exact ⟨meets.1, fun begins begun =>
        ⟨own.refl begins, fun later reached => meets.2 later (others.trans begun reached)⟩⟩
  | fail failure =>
      exact ⟨meets.1, fun begins begun =>
        ⟨own.refl begins, fun later reached => meets.2 later (others.trans begun reached)⟩⟩
  | get next => cases waits
  | put engine next => cases waits
  | request asked next =>
      refine ⟨meets.1, fun begins begun => ⟨own.refl begins, fun asks reached => ?_⟩⟩
      exact meets.2 asks (others.trans begun reached)
  | group members next =>
      obtain ⟨kept, terms, fit, each, joined⟩ := meets
      refine ⟨kept, fun begins begun => ⟨own.refl begins, terms, fit, ?_, ?_⟩⟩
      · intro index later reached
        exact each index later ((terms.expects index).trans (fit.fromOutside begun) reached)
      · intro results joins reached
        exact joined results joins (terms.together.trans (fit.outside begun) reached)

private theorem not_pending_advance (routine : Routine α) (engine : Engine) :
    (routine.advance engine).1.isPending = false := by
  induction routine generalizing engine with
  | done value => rfl
  | fail failure => rfl
  | get next ih => exact ih engine engine
  | put changed next ih => exact ih changed
  | request asked next _ => rfl
  | group members next _ _ => rfl

/-- A stage of a routine that keeps to its terms is within them, and leaves a routine that goes
on keeping to them. -/
theorem Meets.goesOn {routine : Routine α} {start : Engine × ε} {engine : Engine} {world : ε}
    (meets : Meets answer routine others own start (engine, world) (lasting others own ends)) :
    own.allows start ((routine.advance engine).2, world)
      ∧ Keeps answer (routine.advance engine).1 others own ((routine.advance engine).2, world) ends :=
  keeps_of_not_pending (not_pending_advance routine engine)
    ((meets_advance routine engine world).mp meets)

end

/-- A step of a routine that keeps to its terms is within them, and leaves a routine that
goes on keeping to them. -/
theorem Keeps.step {ε : Type} {answer : Answering ε} {α : Type} {routine moved : Routine α}
    {state after : Engine × ε} (moves : Step answer routine state moved after)
    {others own : Conduct ε} {ends : Except Failure α → Engine × ε → Prop}
    (keeps : Keeps answer routine others own state ends) :
    own.allows state after ∧ Keeps answer moved others own after ends := by
  induction moves generalizing others own with
  | goesOn routine pending engine world =>
      exact (keeps (engine, world) (others.refl _)).goesOn
  | answered asked next state =>
      have meets := keeps state (others.refl state)
      exact meets.2 state (others.refl state)
  | @member _ _ _ members next index state after moved _ ih =>
      obtain ⟨_, terms, fit, each, joined⟩ := keeps state (others.refl state)
      obtain ⟨done, goesOn⟩ := ih (each index)
      refine ⟨fit.own done, fun begins begun => ⟨own.refl begins, terms, fit, ?_, ?_⟩⟩
      · intro other later reached
        by_cases same : other = index
        · subst same
          rw [Function.update_self]
          exact goesOn later ((terms.expects other).trans (fit.fromOutside begun) reached)
        · rw [Function.update_of_ne same]
          refine each other later ((terms.expects other).trans (fit.fromInside same done) ?_)
          exact (terms.expects other).trans (fit.fromOutside begun) reached
      · intro results joins reached
        refine joined results joins (terms.together.trans (fit.inside done) ?_)
        exact terms.together.trans (fit.outside begun) reached
  | @cancelled _ _ _ members next index other failure failed _ state =>
      obtain ⟨_, terms, fit, each, joined⟩ := keeps state (others.refl state)
      have failing : terms.ends other (.error failure) state := by
        have stopped := each other
        rw [failed] at stopped
        exact Keeps.ended (.error failure) stopped
      refine ⟨own.refl state, fun begins begun => ⟨own.refl begins, terms, fit, ?_, ?_⟩⟩
      · intro member later reached
        by_cases same : member = index
        · subst same
          rw [Function.update_self]
          exact ⟨(terms.does member).refl later, fun _ _ => fit.cancels failing⟩
        · rw [Function.update_of_ne same]
          exact each member later ((terms.expects member).trans (fit.fromOutside begun) reached)
      · intro results joins reached
        exact joined results joins (terms.together.trans (fit.outside begun) reached)
  | joined results next state =>
      obtain ⟨_, terms, fit, each, joined⟩ := keeps state (others.refl state)
      refine ⟨own.refl state, fun begins begun => ?_⟩
      refine joined results begins (fit.outside begun) fun index => ?_
      have through := Keeps.later (each index) (fit.fromOutside begun)
      exact through.ended _

/-- With nobody else at work, a schedule that takes a routine to its end ends as the
routine's terms say. -/
theorem Keeps.finishes {ε α : Type} {answer : Answering ε} {routine : Routine α}
    {own : Conduct ε} {ends : Except Failure α → Engine × ε → Prop} {before after : Engine × ε}
    {result : Except Failure α} (keeps : Keeps answer routine .none own before ends)
    (finishes : Finishes answer routine before result after) :
    own.allows before after ∧ ends result after := by
  suffices steps : ∀ progress, Steps answer (routine, before) progress →
      own.allows before progress.2 ∧ Keeps answer progress.1 .none own progress.2 ends by
    obtain ⟨kept, goesOn⟩ := steps _ finishes
    exact ⟨kept, goesOn.ended _⟩
  intro progress reached
  induction reached with
  | refl => exact ⟨own.refl before, keeps⟩
  | tail _ moves ih =>
      obtain ⟨kept, goesOn⟩ := Keeps.step moves ih.2
      exact ⟨own.trans ih.1 kept, goesOn⟩

theorem Meets.finishes {ε α : Type} {answer : Answering ε} {routine : Routine α}
    {before after : Engine × ε} {result : Except Failure α}
    {ends : Except Failure α → Engine × ε → Prop}
    (meets : Meets answer routine .none .any before before fun result _ now => ends result now)
    (finishes : Finishes answer routine before result after) : ends result after := by
  have keeps : Keeps answer routine .none .any before ends := by
    rintro _ rfl
    refine meets.weaken fun result start now ended => ⟨trivial, ?_⟩
    rintro _ rfl
    exact ended
  exact (keeps.finishes finishes).2

end RefSync.Routine
