/-
Routines that keep to the conduct of those around them. A routine that starts from a state
with some property ends with another one, as long as the others do nothing that they may not
do. The rules follow the routine part by part; a property that has to last while the routine
waits is one that the conduct does not undo.

Two accounts of one routine make one account (`Meets.both`), so each property may be followed
through a routine on its own.
-/

import RefSync.Proofs.Routine.Group

universe u

namespace RefSync.Routine

/-- What the others do not undo. -/
def Endures {ε : Type} (conduct : Conduct ε) (holds : Engine × ε → Prop) : Prop :=
  ∀ before after, conduct.allows before after → holds before → holds after

/-- The end of a routine that has kept to its conduct since its beginning, with faults that
are borne with. Where none is, the routine does not fail. -/
def abidingEnd {α ε : Type} (conduct : Conduct ε) (bearable : Fault → Prop)
    (post : α → Engine × ε → Prop) (origin : Engine × ε) : Ending α ε :=
  fun result start now => conduct.allows origin now ∧ conduct.allows start now ∧
    match result with
    | .ok value => post value now
    | .error failure => (∃ fault, bearable fault) ∧ ∀ fault ∈ failure, bearable fault

/-- Whether a routine keeps to the conduct of the others. -/
def Abides {ε α : Type} (answer : Answering ε) (conduct : Conduct ε) (bearable : Fault → Prop)
    (pre : Engine × ε → Prop) (routine : Routine α) (post : α → Engine × ε → Prop) : Prop :=
  ∀ origin start now, conduct.allows origin now → conduct.allows start now → pre now →
    Meets answer routine conduct conduct start now (abidingEnd conduct bearable post origin)

section

variable {ε α β : Type} {answer : Answering ε} {conduct : Conduct ε} {bearable : Fault → Prop}
  {pre : Engine × ε → Prop}

theorem endures_and {left right : Engine × ε → Prop} (first : Endures conduct left)
    (second : Endures conduct right) : Endures conduct fun state => left state ∧ right state :=
  fun before after allowed holds =>
    ⟨first before after allowed holds.1, second before after allowed holds.2⟩

theorem endures_true : Endures conduct fun _ => True :=
  fun _ _ _ _ => trivial

theorem Abides.weaken {routine : Routine α} {post weaker : α → Engine × ε → Prop}
    (abides : Abides answer conduct bearable pre routine post)
    (implies : ∀ value state, post value state → weaker value state) :
    Abides answer conduct bearable pre routine weaker := by
  intro origin start now far kept holds
  apply (abides origin start now far kept holds).weaken
  intro result start now ended
  cases result with
  | ok value => exact ⟨ended.1, ended.2.1, implies value now ended.2.2⟩
  | error failure => exact ended

theorem Abides.strengthen {routine : Routine α} {post : α → Engine × ε → Prop}
    {stronger : Engine × ε → Prop} (abides : Abides answer conduct bearable pre routine post)
    (implies : ∀ state, stronger state → pre state) :
    Abides answer conduct bearable stronger routine post :=
  fun origin start now far kept holds => abides origin start now far kept (implies now holds)

theorem abides_pure {value : α} {post : α → Engine × ε → Prop}
    (holds : ∀ state, pre state → post value state) :
    Abides answer conduct bearable pre (pure value) post :=
  fun _ _ now far kept before => ⟨far, kept, holds now before⟩

theorem abides_throw {fault : Fault} {post : α → Engine × ε → Prop} (borne : bearable fault) :
    Abides answer conduct bearable pre (throw fault) post :=
  fun _ _ _ far kept _ => ⟨far, kept, ⟨fault, borne⟩, fun _ member =>
    List.mem_singleton.mp member ▸ borne⟩

theorem abides_ofExcept {κ : Type} {toFault : κ → Fault} {outcome : Except κ α}
    {post : α → Engine × ε → Prop}
    (holds : ∀ value state, outcome = .ok value → pre state → post value state)
    (borne : ∀ problem, outcome = .error problem → bearable (toFault problem)) :
    Abides answer conduct bearable pre (ofExcept toFault outcome) post := by
  cases outcome with
  | ok value => exact abides_pure fun state before => holds value state rfl before
  | error problem => exact abides_throw (borne problem rfl)

theorem Abides.bind {routine : Routine α} {rest : α → Routine β}
    (middle : α → Engine × ε → Prop) {post : β → Engine × ε → Prop}
    (first : Abides answer conduct bearable pre routine middle)
    (second : ∀ value, Abides answer conduct bearable (middle value) (rest value) post) :
    Abides answer conduct bearable pre (routine >>= rest) post := by
  intro origin start now far kept holds
  apply (meets_bind routine rest _).mpr
  apply (first origin start now far kept holds).weaken
  intro result start now ended
  cases result with
  | ok value => exact second value origin start now ended.1 ended.2.1 ended.2.2
  | error failure => exact ended

/-- What the others do not undo, the routine does not undo either. -/
theorem Abides.frame {routine : Routine α} {post : α → Engine × ε → Prop} {fact : Engine × ε → Prop}
    (abides : Abides answer conduct bearable pre routine post) (lasting : Endures conduct fact) :
    Abides answer conduct bearable (fun state => pre state ∧ fact state) routine
      fun value state => post value state ∧ fact state := by
  intro origin start now far kept holds
  apply (abides now start now (conduct.refl now) kept holds.1).weaken
  intro result start later ended
  refine ⟨conduct.trans far ended.1, ended.2.1, ?_⟩
  cases result with
  | ok value => exact ⟨ended.2.2, lasting _ _ ended.1 holds.2⟩
  | error failure => exact ended.2.2

theorem Abides.or {other : Engine × ε → Prop} {routine : Routine α} {post : α → Engine × ε → Prop}
    (first : Abides answer conduct bearable pre routine post)
    (second : Abides answer conduct bearable other routine post) :
    Abides answer conduct bearable (fun state => pre state ∨ other state) routine post :=
  fun origin start now far kept holds => holds.elim (first origin start now far kept)
    (second origin start now far kept)

theorem Abides.some {κ : Sort u} {some : κ → Engine × ε → Prop} {routine : Routine α}
    {post : α → Engine × ε → Prop}
    (each : ∀ item, Abides answer conduct bearable (some item) routine post) :
    Abides answer conduct bearable (fun state => ∃ item, some item state) routine post :=
  fun origin start now far kept ⟨item, holds⟩ => each item origin start now far kept holds

/-- What does not depend on the state is known from then on. -/
theorem Abides.given {fact : Prop} {routine : Routine α} {post : α → Engine × ε → Prop}
    (abides : fact → Abides answer conduct bearable pre routine post) :
    Abides answer conduct bearable (fun state => pre state ∧ fact) routine post :=
  fun origin start now far kept holds => abides holds.2 origin start now far kept holds.1

/-- A routine that yields something of which more is known than of the state. -/
theorem Abides.follow {routine : Routine α} {rest : α → Routine β} {yields : α → Prop}
    {post : β → Engine × ε → Prop}
    (first : Abides answer conduct bearable pre routine fun value state => pre state ∧ yields value)
    (second : ∀ value, yields value → Abides answer conduct bearable pre (rest value) post) :
    Abides answer conduct bearable pre (routine >>= rest) post :=
  first.bind _ fun value => Abides.given fun known => second value known

/-- A request that may be made. What is known of the answer is the state it was given in. -/
theorem abides_ask (asked : Request) (endures : Endures conduct pre)
    (permitted : ∀ state, pre state → conduct.allows state (answer asked state).2) :
    Abides answer conduct bearable pre (ask asked) fun given now =>
      pre now ∧ ∃ asks, pre asks ∧ given = (answer asked asks).1
        ∧ conduct.allows (answer asked asks).2 now := by
  intro origin start now far kept holds
  refine ⟨kept, fun asks asking => ?_⟩
  have before := endures _ _ asking holds
  have done := permitted asks before
  refine ⟨done, fun resumes resuming => ?_⟩
  have reached := conduct.trans (conduct.trans far asking) (conduct.trans done resuming)
  refine ⟨reached, conduct.refl resumes, ?_, asks, before, rfl, resuming⟩
  exact endures _ _ resuming (endures _ _ done before)

theorem abides_engine {rest : Engine → Routine β} {post : β → Engine × ε → Prop}
    (each : ∀ state, pre state →
      Abides answer conduct bearable (· = state) (rest state.1) post) :
    Abides answer conduct bearable pre (engine >>= rest) post :=
  fun origin start now far kept holds => each now holds origin start now far kept rfl

theorem abides_registry {rest : Registry → Routine β} {post : β → Engine × ε → Prop}
    (each : ∀ state, pre state →
      Abides answer conduct bearable (· = state) (rest state.1.registry) post) :
    Abides answer conduct bearable pre (registry >>= rest) post :=
  fun origin start now far kept holds => each now holds origin start now far kept rfl

/-- Where it does not matter what the engine is like. -/
theorem abides_anyEngine {rest : Engine → Routine β} {post : β → Engine × ε → Prop}
    (each : ∀ engine, Abides answer conduct bearable pre (rest engine) post) :
    Abides answer conduct bearable pre (engine >>= rest) post :=
  fun origin start now far kept holds => each now.1 origin start now far kept holds

/-- Where it does not matter what the registry holds. -/
theorem abides_anyRegistry {rest : Registry → Routine β} {post : β → Engine × ε → Prop}
    (each : ∀ registry, Abides answer conduct bearable pre (rest registry) post) :
    Abides answer conduct bearable pre (registry >>= rest) post :=
  fun origin start now far kept holds => each now.1.registry origin start now far kept holds

theorem abides_modify {change : Engine → Engine} {post : Unit → Engine × ε → Prop}
    (changes : ∀ state, pre state → conduct.allows state (change state.1, state.2)
      ∧ post () (change state.1, state.2)) :
    Abides answer conduct bearable pre (modify change) post := by
  intro origin start now far kept holds
  obtain ⟨changed, after⟩ := changes now holds
  exact ⟨conduct.trans far changed, conduct.trans kept changed, after⟩

theorem abides_onlyIf {condition : Bool} {routine : Routine Unit} {post : Unit → Engine × ε → Prop}
    (done : condition = true → Abides answer conduct bearable pre routine post)
    (skipped : ∀ state, condition = false → pre state → post () state) :
    Abides answer conduct bearable pre (onlyIf condition routine) post := by
  cases condition with
  | true => exact done rfl
  | false => exact abides_pure fun state => skipped state rfl

/-- A part that yields nothing of note, before another one. -/
theorem abides_then {routine : Routine α} {rest : α → Routine β}
    (first : Abides answer conduct bearable pre routine fun _ => pre)
    (second : ∀ value, Abides answer conduct bearable pre (rest value) fun _ => pre) :
    Abides answer conduct bearable pre (routine >>= rest) fun _ => pre :=
  first.bind _ second

theorem abides_whenever {condition : Bool} {routine : Routine Unit}
    (done : Abides answer conduct bearable pre routine fun _ => pre) :
    Abides answer conduct bearable pre (onlyIf condition routine) fun _ => pre :=
  abides_onlyIf (fun _ => done) fun _ _ => id

/-- A group, of which each member leaves something that the others do not undo. -/
theorem abides_forAll {κ : Type u} {items : List κ} {routine : κ → Routine β}
    {post : κ → β → Engine × ε → Prop} (endures : Endures conduct pre)
    (lasting : ∀ item value, Endures conduct (post item value))
    (each : ∀ item ∈ items, Abides answer conduct bearable pre (routine item) (post item)) :
    Abides answer conduct bearable pre (forAll items routine) fun values now =>
      pre now ∧ List.Forall₂ (fun item value => post item value now) items values := by
  intro origin start now far kept holds
  apply meets_forAll_same conduct post (∃ fault, bearable fault) bearable kept
    (fun _ _ => id) (fun _ _ => id)
  · intro item member begins reached
    have begun := endures _ _ reached holds
    apply (each item member begins begins begins (conduct.refl begins) (conduct.refl begins)
      begun).weaken
    intro result start now ended
    refine ⟨ended.2.1, fun later away => ?_⟩
    cases result with
    | ok value => exact lasting item value _ _ away ended.2.2
    | error failure => exact ended.2.2
  · intro joins values reached ends
    exact ⟨conduct.trans far reached, conduct.refl joins, endures _ _ reached holds, ends⟩
  · intro some joins failure reached borne
    exact ⟨conduct.trans far reached, conduct.refl joins, some, borne⟩

/-- A group, of which it does not matter what the members yield. -/
theorem abides_all {κ : Type u} {items : List κ} {routine : κ → Routine β}
    {post : κ → Engine × ε → Prop} (endures : Endures conduct pre)
    (lasting : ∀ item, Endures conduct (post item))
    (each : ∀ item ∈ items, Abides answer conduct bearable pre (routine item) fun _ => post item) :
    Abides answer conduct bearable pre (forAll items routine) fun _ now =>
      pre now ∧ ∀ item ∈ items, post item now := by
  apply (abides_forAll endures (fun item _ => lasting item) each).weaken
  rintro values now ⟨holds, ends⟩
  refine ⟨holds, fun item member => ?_⟩
  obtain ⟨index, bound, rfl⟩ := List.getElem_of_mem member
  obtain ⟨length, at_⟩ := List.forall₂_iff_get.mp ends
  exact at_ index bound (length ▸ bound)

/-- A group of which nothing is asked but to keep to its conduct. -/
theorem abides_group {κ : Type u} {items : List κ} {routine : κ → Routine β}
    (endures : Endures conduct pre)
    (each : ∀ item ∈ items, Abides answer conduct bearable pre (routine item) fun _ _ => True) :
    Abides answer conduct bearable pre (forAll items routine) fun _ => pre :=
  (abides_forAll endures (fun _ _ => endures_true) each).weaken fun _ _ holds => holds.1

end

/-! ### Two accounts of one routine -/

/-- The terms of a group under which each member keeps to two accounts at once. -/
def Terms.both {β ε : Type} {size : Nat} (left right : Terms β ε size) : Terms β ε size where
  expects index := (left.expects index).both (right.expects index)
  does index := (left.does index).both (right.does index)
  together := left.together.both right.together
  ends index result state := left.ends index result state ∧ right.ends index result state

theorem Terms.Fit.both {β ε : Type} {size : Nat} {left right : Terms β ε size}
    {others own more done : Conduct ε} (first : left.Fit others own) (second : right.Fit more done) :
    (left.both right).Fit (others.both more) (own.both done) where
  fromOutside away := ⟨first.fromOutside away.1, second.fromOutside away.2⟩
  fromInside differs does := ⟨first.fromInside differs does.1, second.fromInside differs does.2⟩
  outside away := ⟨first.outside away.1, second.outside away.2⟩
  inside does := ⟨first.inside does.1, second.inside does.2⟩
  own does := ⟨first.own does.1, second.own does.2⟩
  cancels failing := ⟨first.cancels failing.1, second.cancels failing.2⟩

theorem Meets.both {ε α : Type} {answer : Answering ε} {routine : Routine α}
    {others own more done : Conduct ε} {start now : Engine × ε} {ending also : Ending α ε}
    (first : Meets answer routine others own start now ending)
    (second : Meets answer routine more done start now also) :
    Meets answer routine (others.both more) (own.both done) start now
      fun result start now => ending result start now ∧ also result start now := by
  induction routine generalizing others own more done start now with
  | done value => exact ⟨first, second⟩
  | fail failure => exact ⟨first, second⟩
  | get next ih => exact ih now.1 first second
  | put engine next ih => exact ih first second
  | request asked next ih =>
      refine ⟨⟨first.1, second.1⟩, fun asks asking => ?_⟩
      obtain ⟨kept, goesOn⟩ := first.2 asks asking.1
      obtain ⟨alsoKept, alsoGoesOn⟩ := second.2 asks asking.2
      refine ⟨⟨kept, alsoKept⟩, fun resumes resuming => ?_⟩
      exact ih _ (goesOn resumes resuming.1) (alsoGoesOn resumes resuming.2)
  | group members next inside ih =>
      obtain ⟨kept, terms, fit, each, joined⟩ := first
      obtain ⟨alsoKept, alsoTerms, alsoFit, alsoEach, alsoJoined⟩ := second
      refine ⟨⟨kept, alsoKept⟩, terms.both alsoTerms, fit.both alsoFit, ?_, ?_⟩
      · intro index begins reached
        apply (inside index (each index begins reached.1) (alsoEach index begins reached.2)).weaken
        intro result start now ended
        exact ⟨⟨ended.1.1, ended.2.1⟩, fun later away =>
          ⟨ended.1.2 later away.1, ended.2.2 later away.2⟩⟩
      · intro results joins reached ends
        exact ih _ (joined results joins reached.1 fun index => (ends index).1)
          (alsoJoined results joins reached.2 fun index => (ends index).2)

/-! ### Routines with nobody else at work -/

/-- What a routine leads to with nobody else at work, from a state it is in the middle of a
stage in. -/
def Leads {ε α : Type} (answer : Answering ε) (routine : Routine α) (now : Engine × ε)
    (post : Except Failure α → Engine × ε → Prop) : Prop :=
  ∀ start, Meets answer routine .none .any start now fun result _ later => post result later

section

variable {ε α β : Type} {answer : Answering ε} {now : Engine × ε}

theorem Leads.weaken {routine : Routine α} {post weaker : Except Failure α → Engine × ε → Prop}
    (leads : Leads answer routine now post)
    (implies : ∀ result later, post result later → weaker result later) :
    Leads answer routine now weaker :=
  fun start => (leads start).weaken fun result _ later => implies result later

theorem Leads.finishes {routine : Routine α} {post : Except Failure α → Engine × ε → Prop}
    {result : Except Failure α} {after : Engine × ε} (leads : Leads answer routine now post)
    (finishes : Finishes answer routine now result after) : post result after :=
  Meets.finishes (leads now) finishes

theorem Leads.both {routine : Routine α} {post also : Except Failure α → Engine × ε → Prop}
    (first : Leads answer routine now post) (second : Leads answer routine now also) :
    Leads answer routine now fun result later => post result later ∧ also result later := by
  intro start
  apply ((first start).both (second start)).relax
  · rintro before _ rfl
    exact ⟨rfl, rfl⟩
  · exact fun _ _ _ => trivial

/-- One part of a routine after the other. -/
theorem Leads.bind {routine : Routine α} {rest : α → Routine β}
    {middle : Except Failure α → Engine × ε → Prop} {post : Except Failure β → Engine × ε → Prop}
    (first : Leads answer routine now middle)
    (goesOn : ∀ value later, middle (.ok value) later → Leads answer (rest value) later post)
    (fails : ∀ failure later, middle (.error failure) later → post (.error failure) later) :
    Leads answer (routine >>= rest) now post := by
  intro start
  apply (meets_bind routine rest _).mpr
  apply (first start).weaken
  intro result start later ended
  cases result with
  | ok value => exact goesOn value later ended start
  | error failure => exact fails failure later ended

theorem Leads.recover {routine : Routine α} {handler : Failure → Routine α}
    {middle post : Except Failure α → Engine × ε → Prop} (first : Leads answer routine now middle)
    (goesOn : ∀ value later, middle (.ok value) later → post (.ok value) later)
    (handles : ∀ failure later, middle (.error failure) later →
      Leads answer (handler failure) later post) :
    Leads answer (routine.recover handler) now post := by
  intro start
  apply (meets_recover routine handler _).mpr
  apply (first start).weaken
  intro result start later ended
  cases result with
  | ok value => exact goesOn value later ended
  | error failure => exact handles failure later ended start

/-- What a routine that abides by a conduct leads to: nobody else is there to break it. -/
theorem Abides.leads {conduct : Conduct ε} {bearable : Fault → Prop} {pre : Engine × ε → Prop}
    {routine : Routine α} {post : α → Engine × ε → Prop}
    (abides : Abides answer conduct bearable pre routine post) (holds : pre now) :
    Leads answer routine now fun result later => conduct.allows now later ∧
      match result with
      | .ok value => post value later
      | .error failure => (∃ fault, bearable fault) ∧ ∀ fault ∈ failure, bearable fault := by
  intro start
  have meets := abides now now now (conduct.refl now) (conduct.refl now) holds
  have alone := meets.relax .none .any
    (fun before after same => same ▸ conduct.refl before) fun _ _ _ => trivial
  exact (alone.weaken fun _ _ _ ended => ⟨ended.1, ended.2.2⟩).began fun _ _ => id

end

end RefSync.Routine
