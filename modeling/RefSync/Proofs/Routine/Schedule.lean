/-
Every schedule comes to an end: a routine that is not through can always make a step, and
none can make steps forever. Running the members of each group one after another is a
schedule, so there is one.
-/

import Mathlib.Data.DFinsupp.WellFounded
import RefSync.Routine.Schedule

namespace RefSync.Routine

section

variable {ε : Type} (answer : Answering ε)

/-! ### What only answers change -/

theorem Step.keeps_world {α : Type} {routine moved : Routine α} {before after : Engine × ε}
    {holds : ε → Prop} (kept : ∀ asked state, holds state.2 → holds (answer asked state).2.2)
    (moves : Step answer routine before moved after) (held : holds before.2) : holds after.2 := by
  induction moves with
  | goesOn _ _ _ _ => exact held
  | answered asked next state => exact kept asked state held
  | member _ _ _ _ ih => exact ih held
  | cancelled _ _ _ _ _ _ _ => exact held
  | joined _ _ _ => exact held

theorem Finishes.keeps_world {α : Type} {routine : Routine α} {before after : Engine × ε}
    {result : Except Failure α} {holds : ε → Prop}
    (kept : ∀ asked state, holds state.2 → holds (answer asked state).2.2)
    (finishes : Finishes answer routine before result after) (held : holds before.2) :
    holds after.2 := by
  have every : ∀ progress, Steps answer (routine, before) progress → holds progress.2.2 := by
    intro progress reached
    induction reached with
    | refl => exact held
    | tail _ moves ih => exact moves.keeps_world answer kept ih
  exact every _ finishes

/-! ### Schedules end -/

/-- What a routine may have become after a step. -/
def Follows {α : Type} (later earlier : Routine α) : Prop :=
  ∃ before after, Step answer earlier before later after

/-- A routine is through, or it can make a step. -/
theorem through_or_step {α : Type} (routine : Routine α) (state : Engine × ε) :
    (∃ result, routine = through result) ∨ ∃ moved after, Step answer routine state moved after := by
  induction routine generalizing state with
  | done value => exact Or.inl ⟨.ok value, rfl⟩
  | fail failure => exact Or.inl ⟨.error failure, rfl⟩
  | get next _ => exact Or.inr ⟨_, _, .goesOn _ rfl state.1 state.2⟩
  | put engine next _ => exact Or.inr ⟨_, _, .goesOn _ rfl state.1 state.2⟩
  | request asked next _ => exact Or.inr ⟨_, _, .answered asked next state⟩
  | group members next each _ =>
      right
      by_cases all : ∀ index, ∃ result, members index = through result
      · obtain ⟨results, finished⟩ := Classical.axiomOfChoice all
        obtain rfl : members = fun index => through (results index) := funext finished
        exact ⟨_, _, .joined results next state⟩
      · obtain ⟨index, unfinished⟩ := not_forall.mp all
        obtain ⟨moved, after, moves⟩ := (each index state).resolve_left unfinished
        exact ⟨_, _, .member members next index moves⟩

/-- What a member may have become after a step of its group. -/
private def MemberFollows {β : Type} (later earlier : Routine β) : Prop :=
  Follows answer later earlier ∨ later = .fail [] ∧ ∀ result, earlier ≠ through result

private theorem not_follows_through {α : Type} (result : Except Failure α) (later : Routine α) :
    ¬Follows answer later (through result) := by
  rintro ⟨before, after, moves⟩
  cases result with
  | ok value =>
      cases moves
      rename_i pending
      cases pending
  | error failure =>
      cases moves
      rename_i pending
      cases pending

private theorem member_acc {β : Type} {routine : Routine β} (ends : Acc (Follows answer) routine) :
    Acc (MemberFollows answer) routine := by
  induction ends with
  | intro routine _ ih =>
      refine ⟨routine, fun later follows => ?_⟩
      rcases follows with steps | ⟨rfl, _⟩
      · exact ih later steps
      · refine ⟨_, fun other after => ?_⟩
        rcases after with steps | ⟨_, unfinished⟩
        · exact absurd steps (not_follows_through answer (.error []) other)
        · exact absurd rfl (unfinished (.error []))

private theorem group_acc {α β : Type} {size : Nat} (next : List (Except Failure β) → Routine α)
    (rest : ∀ results, Acc (Follows answer) (next results))
    (members : Fin size → {member : Routine β // Acc (MemberFollows answer) member}) :
    Acc (Follows answer) (.group (fun index => (members index).val) next) := by
  have wellFounded : WellFounded fun later earlier :
      {member : Routine β // Acc (MemberFollows answer) member} =>
      MemberFollows answer later.val earlier.val :=
    ⟨fun ⟨member, ends⟩ => by
      induction ends with
      | intro member earlier ih => exact ⟨_, fun later follows => ih later.val follows⟩⟩
  have order : WellFounded (Pi.Lex (fun (left right : Fin size) => left < right)
      (fun {_} (later earlier : {member : Routine β // Acc (MemberFollows answer) member}) =>
        MemberFollows answer later.val earlier.val)) :=
    Pi.Lex.wellFounded _ fun _ => wellFounded
  induction members using order.induction with
  | _ members ih =>
  have moved (index : Fin size) (later : Routine β)
      (follows : MemberFollows answer later (members index).val) :
      Acc (Follows answer)
        (.group (Function.update (fun index => (members index).val) index later) next) := by
    let changed := Function.update members index ⟨later, (members index).property.inv follows⟩
    have values : Function.update (fun index => (members index).val) index later
        = fun index => (changed index).val := by
      funext other
      by_cases same : other = index
      · subst same
        simp only [changed, Function.update_self]
      · simp only [changed, Function.update_of_ne same]
    rw [values]
    refine ih changed ⟨index, fun other before => ?_, ?_⟩
    · exact Function.update_of_ne before.ne _ _
    · simp only [changed, Function.update_self]
      exact follows
  refine ⟨_, fun later follows => ?_⟩
  obtain ⟨before, after, moves⟩ := follows
  generalize same : Routine.group (fun index => (members index).val) next = routine at moves
  cases moves with
  | goesOn _ pending => subst same; cases pending
  | answered => cases same
  | member others next index moves =>
      cases same
      exact moved index _ (Or.inl ⟨_, _, moves⟩)
  | cancelled others next index other failed unfinished =>
      cases same
      exact moved index _ (Or.inr ⟨rfl, unfinished⟩)
  | joined results others =>
      obtain ⟨rfl, sizes, _, nexts⟩ := Routine.group.inj same
      cases sizes
      cases nexts
      exact rest _

private theorem advance_acc {α : Type} {routine : Routine α}
    (ends : Acc (Follows answer) routine) (engine : Engine) (world : ε) :
    Acc (Follows answer) (routine.advance engine).1 := by
  cases waits : routine.isPending with
  | true => exact ends.inv ⟨(engine, world), _, .goesOn routine waits engine world⟩
  | false =>
      cases routine with
      | get next => cases waits
      | put changed next => cases waits
      | _ => exact ends

/-- No routine makes steps forever, whatever its members do in between. -/
theorem follows_acc {α : Type} (routine : Routine α) : Acc (Follows answer) routine := by
  induction routine with
  | done value =>
      exact ⟨_, fun later follows => absurd follows (not_follows_through answer (.ok value) later)⟩
  | fail failure =>
      exact ⟨_, fun later follows =>
        absurd follows (not_follows_through answer (.error failure) later)⟩
  | get next ih =>
      refine ⟨_, fun later follows => ?_⟩
      obtain ⟨before, after, moves⟩ := follows
      cases moves with
      | goesOn _ _ engine world => exact advance_acc answer (ih engine) engine world
  | put changed next ih =>
      refine ⟨_, fun later follows => ?_⟩
      obtain ⟨before, after, moves⟩ := follows
      cases moves with
      | goesOn _ _ engine world => exact advance_acc answer ih changed world
  | request asked next ih =>
      refine ⟨_, fun later follows => ?_⟩
      obtain ⟨before, after, moves⟩ := follows
      cases moves with
      | goesOn _ pending => cases pending
      | answered => exact ih _
  | group members next each ih =>
      exact group_acc answer next ih fun index => ⟨members index, member_acc answer (each index)⟩

/-! ### One after another -/

private theorem steps_advance {α : Type} (routine : Routine α) (engine : Engine) (world : ε) :
    Steps answer (routine, (engine, world))
      ((routine.advance engine).1, ((routine.advance engine).2, world)) := by
  cases waits : routine.isPending with
  | true => exact Relation.ReflTransGen.single (.goesOn routine waits engine world)
  | false =>
      cases routine with
      | get next => cases waits
      | put changed next => cases waits
      | _ => exact Relation.ReflTransGen.refl

private theorem steps_member {α β : Type} {size : Nat} (members : Fin size → Routine β)
    (next : List (Except Failure β) → Routine α) (index : Fin size) {before : Engine × ε}
    {reached : Progress β ε} (steps : Steps answer (members index, before) reached) :
    Steps answer (.group members next, before)
      (.group (Function.update members index reached.1) next, reached.2) := by
  induction steps with
  | refl =>
      rw [Function.update_eq_self]
      exact Relation.ReflTransGen.refl
  | @tail present later _ moves ih =>
      refine ih.tail ?_
      have atIndex : Function.update members index present.1 index = present.1 :=
        Function.update_self ..
      have stepped : Step answer (Function.update members index present.1 index) present.2 later.1
          later.2 := by
        rw [atIndex]
        exact moves
      have step := Step.member (Function.update members index present.1) next index stepped
      rw [Function.update_idem] at step
      exact step

/-- The members of a group in the order of some indices, each to its end. -/
private theorem steps_inOrder {α β : Type} {size : Nat} {members : Fin size → Routine β}
    (next : List (Except Failure β) → Routine α)
    (each : ∀ index state, Finishes answer (members index) state
      ((members index).run answer state).1 ((members index).run answer state).2)
    (indices : List (Fin size)) (distinct : indices.Nodup) (present : Fin size → Routine β)
    (untouched : ∀ index ∈ indices, present index = members index)
    (earlier : List (Except Failure β)) (state : Engine × ε) :
    ∃ (results : Fin size → Except Failure β) (finished : Fin size → Routine β)
      (after : Engine × ε),
      indices.foldl (fun (results, state) index =>
        let (result, state) := (members index).run answer state
        (result :: results, state)) (earlier, state)
          = ((indices.map results).reverse ++ earlier, after)
      ∧ Steps answer (.group present next, state) (.group finished next, after)
      ∧ (∀ index ∈ indices, finished index = through (results index))
      ∧ ∀ index, index ∉ indices → finished index = present index := by
  induction indices generalizing present earlier state with
  | nil =>
      refine ⟨fun _ => .error [], present, state, rfl, Relation.ReflTransGen.refl, ?_, fun _ _ => rfl⟩
      intro index member
      cases member
  | cons first rest ih =>
      obtain ⟨absent, distinct⟩ := List.nodup_cons.mp distinct
      have finishes := each first state
      rw [← untouched first List.mem_cons_self] at finishes
      have steps := steps_member answer present next first finishes
      obtain ⟨results, finished, after, folded, others, all, same⟩ := ih distinct
        (Function.update present first (through ((members first).run answer state).1))
        (fun index member => by
          have differs : index ≠ first := fun equal => absent (equal ▸ member)
          rw [Function.update_of_ne differs]
          exact untouched index (List.mem_cons_of_mem _ member))
        (((members first).run answer state).1 :: earlier) ((members first).run answer state).2
      refine ⟨Function.update results first ((members first).run answer state).1, finished, after,
        ?_, ?_, ?_, ?_⟩
      · rw [List.foldl_cons]
        refine folded.trans ?_
        have restResults : rest.map (Function.update results first
            ((members first).run answer state).1) = rest.map results :=
          List.map_congr_left fun index member => by
            have differs : index ≠ first := fun equal => absent (equal ▸ member)
            rw [Function.update_of_ne differs]
        rw [List.map_cons, restResults, Function.update_self, List.reverse_cons,
          List.append_assoc]
        rfl
      · rw [untouched first List.mem_cons_self] at steps
        exact steps.trans others
      · intro index member
        rcases List.mem_cons.mp member with rfl | inRest
        · rw [same index absent, Function.update_self, Function.update_self]
        · have differs : index ≠ first := fun equal => absent (equal ▸ inRest)
          rw [Function.update_of_ne differs]
          exact all index inRest
      · intro index outside
        obtain ⟨differs, notInRest⟩ := List.ne_and_not_mem_of_not_mem_cons outside
        rw [same index notInRest, Function.update_of_ne differs]

private theorem run_finishes_advance {α : Type} (routine : Routine α) (engine : Engine) (world : ε) :
    Finishes answer (routine.advance engine).1 ((routine.advance engine).2, world)
      (routine.run answer (engine, world)).1 (routine.run answer (engine, world)).2 := by
  induction routine generalizing engine world with
  | done value => exact Relation.ReflTransGen.refl
  | fail failure => exact Relation.ReflTransGen.refl
  | get next ih => exact ih engine engine world
  | put changed next ih => exact ih changed world
  | request asked next ih =>
      refine Relation.ReflTransGen.head (b := (_, _)) (Step.answered asked next (engine, world)) ?_
      exact (steps_advance answer _ _ _).trans (ih _ _ _)
  | @group α β size members next each ih =>
      have finishes : ∀ index state, Finishes answer (members index) state
          ((members index).run answer state).1 ((members index).run answer state).2 :=
        fun index state => (steps_advance answer _ _ _).trans (each index state.1 state.2)
      obtain ⟨results, finished, after, folded, steps, all, _⟩ := steps_inOrder answer next finishes
        (List.finRange size) (List.nodup_finRange size) members (fun _ _ => rfl) [] (engine, world)
      obtain rfl : finished = fun index => through (results index) :=
        funext fun index => all index (List.mem_finRange index)
      have ran : (Routine.group members next).run answer (engine, world)
          = (next (List.ofFn results)).run answer after := by
        rw [run, inOrder, folded, List.ofFn_eq_map]
        simp only [List.append_nil, List.reverse_reverse]
      rw [ran]
      refine Relation.ReflTransGen.trans steps ?_
      refine Relation.ReflTransGen.head (b := (_, _)) (Step.joined results next after) ?_
      exact (steps_advance answer _ _ _).trans (ih _ _ _)

/-- Making the members' steps one member after another is a schedule. -/
theorem run_finishes {α : Type} (routine : Routine α) (state : Engine × ε) :
    Finishes answer routine state (routine.run answer state).1 (routine.run answer state).2 :=
  (steps_advance answer routine state.1 state.2).trans
    (run_finishes_advance answer routine state.1 state.2)

/-- What one schedule ends with, with nothing left to know of it but that. -/
theorem finishes_of_run {α : Type} (routine : Routine α) (state : Engine × ε) (value : α)
    (holds : Engine → Prop) (ends : (routine.run answer state).1 = .ok value
      ∧ holds (routine.run answer state).2.1) :
    ∃ engine world, Finishes answer routine state (.ok value) (engine, world) ∧ holds engine := by
  have finishes := run_finishes answer routine state
  rw [ends.1] at finishes
  exact ⟨_, _, finishes, ends.2⟩

/-! ### Routines that recover -/

omit answer in
private theorem advance_recover {α : Type} (routine : Routine α) (handler : Failure → Routine α)
    (engine : Engine) (good : ∀ failure, (routine.advance engine).1 ≠ .fail failure) :
    (routine.recover handler).advance engine
      = ((routine.advance engine).1.recover handler, (routine.advance engine).2) := by
  induction routine generalizing engine with
  | get next ih => exact ih engine handler engine good
  | put changed next ih => exact ih handler changed good
  | fail failure => exact absurd rfl (good failure)
  | _ => rfl

/-- A step that does not end in a failure is one of the routine that would recover from it. -/
private theorem step_recover {α : Type} {routine moved : Routine α} {before after : Engine × ε}
    (moves : Step answer routine before moved after) (handler : Failure → Routine α)
    (good : ∀ failure, moved ≠ .fail failure) :
    Step answer (routine.recover handler) before (moved.recover handler) after := by
  cases moves with
  | goesOn routine pending engine world =>
      have waits : (routine.recover handler).isPending = true := by
        cases routine with
        | get next => rfl
        | put changed next => rfl
        | _ => cases pending
      have moves : Step answer (routine.recover handler) (engine, world)
          ((routine.recover handler).advance engine).1
          (((routine.recover handler).advance engine).2, world) := .goesOn _ waits engine world
      rw [advance_recover routine handler engine good] at moves
      exact moves
  | answered asked next state => exact .answered asked (fun given => (next given).recover handler) _
  | member members next index moves =>
      exact .member members (fun results => (next results).recover handler) index moves
  | cancelled members next index other failed unfinished =>
      exact .cancelled members (fun results => (next results).recover handler) index other failed
        unfinished _
  | joined results next => exact .joined results (fun results => (next results).recover handler) _

theorem Finishes.recovers {α : Type} {routine : Routine α} {value : α} {before after : Engine × ε}
    (finishes : Finishes answer routine before (.ok value) after) (handler : Failure → Routine α) :
    Finishes answer (routine.recover handler) before (.ok value) after := by
  have each : ∀ progress : Progress α ε, Steps answer progress (.done value, after) →
      (∀ failure, progress.1 ≠ .fail failure)
        ∧ Steps answer (progress.1.recover handler, progress.2) (.done value, after) := by
    intro progress reached
    induction reached using Relation.ReflTransGen.head_induction_on with
    | refl => exact ⟨nofun, .refl⟩
    | head moves _ ih =>
        refine ⟨fun failure same => ?_, .head (step_recover answer moves handler ih.1) ih.2⟩
        exact not_follows_through answer (.error failure) _ ⟨_, _, same ▸ moves⟩
  exact (each _ finishes).2

/-- What a routine does first it may have done before. -/
private theorem finishes_get {α : Type} {next : Engine → Routine α} {result : Except Failure α}
    {before after : Engine × ε} (finishes : Finishes answer (next before.1) before result after) :
    Finishes answer (.get next) before result after := by
  have moves : Step answer (.get next) before ((next before.1).advance before.1).1
      (((next before.1).advance before.1).2, before.2) := .goesOn (.get next) rfl before.1 before.2
  cases waits : (next before.1).isPending with
  | false =>
      have still : (next before.1).advance before.1 = (next before.1, before.1) := by
        cases first : next before.1 with
        | get rest => rw [first] at waits; cases waits
        | put changed rest => rw [first] at waits; cases waits
        | _ => rfl
      rw [still] at moves
      exact .head moves finishes
  | true =>
      obtain same | ⟨progress, first, rest⟩ := finishes.cases_head
      · have ended : next before.1 = through result := congrArg Prod.fst same
        rw [ended] at waits
        cases result <;> cases waits
      · have only : progress = (((next before.1).advance before.1).1,
            (((next before.1).advance before.1).2, before.2)) := by
          obtain ⟨moved, later⟩ := progress
          generalize next before.1 = routine at first waits
          cases first with
          | goesOn => rfl
          | _ => cases waits
        rw [only] at rest
        exact .head moves rest

theorem finishes_registry {α : Type} {rest : Registry → Routine α} {result : Except Failure α}
    {before after : Engine × ε}
    (finishes : Finishes answer (rest before.1.registry) before result after) :
    Finishes answer (registry >>= rest) before result after := by
  have goesOn : Finishes answer (.get fun engine => rest engine.registry) before result after :=
    finishes_get answer finishes
  exact goesOn

end

end RefSync.Routine
