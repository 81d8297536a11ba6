/-
What calls of a registry do that are made in place. As long as names and paths are inverse to each
other, a call does what it does as a whole: it goes through, or it is refused before its first
store. So names and paths stay inverse to each other after any calls, refused ones among them.
-/

import RefSync.Registry.Calls
import RefSync.Proofs.Registry.Operations

namespace RefSync.Registry

variable {registry : Registry}

namespace InPlace

section

variable {α β : Type} {first : InPlace α} {next : α → InPlace β} {after : Registry}

theorem bind_of_ok {value : α} (returns : first registry = .ok value after) :
    (first >>= next) registry = next value after := by
  change EStateM.bind first next registry = _
  rw [EStateM.bind, returns]

theorem bind_of_error {fault : CallFault} (fails : first registry = .error fault after) :
    (first >>= next) registry = .error fault after := by
  change EStateM.bind first next registry = _
  rw [EStateM.bind, fails]

end

/-- What becomes of a registry where a call is made as a whole. -/
def whole {α : Type} (registry : Registry) :
    Except RegistryFault (Registry × α) → EStateM.Result CallFault Registry α
  | .ok (after, value) => .ok value after
  | .error fault => .error (.refused fault) registry

theorem requireFree_of_free {path name : String}
    (free : registry.findPath name = none ∨ registry.findPath name = some path) :
    requireFree path name registry = .ok () registry := by
  refine (bind_of_ok rfl).trans ?_
  rcases free with absent | own
  · simp only [absent]
    rfl
  · simp only [own, if_true]
    rfl

theorem requireFree_of_held {path name holder : String}
    (held : registry.findPath name = some holder) (other : holder ≠ path) :
    requireFree path name registry = .error (.refused (.nameTaken name holder path)) registry := by
  refine (bind_of_ok rfl).trans ?_
  simp only [held, if_neg other]
  rfl

theorem deletePath_of_present {name : String} (present : (registry.findPath name).isSome) :
    deletePath name registry = .ok () { registry with paths := registry.paths.erase name } := by
  have there : registry.paths.contains name = true := Table.contains_iff.mpr present
  refine (bind_of_ok rfl).trans ?_
  rw [if_pos there]
  rfl

/-- The paths of names without the name that a path gives up for another one. -/
def freed (registry : Registry) (path name : String) : Table String :=
  match registry.findName path with
  | some old => if old = name then registry.paths else registry.paths.erase old
  | none => registry.paths

/-- The name that a path has is there to be deleted. -/
theorem release_of_inverse (inverse : registry.Inverse) (path name : String) :
    release path name registry
      = .ok (registry.findName path) { registry with paths := freed registry path name } := by
  refine (bind_of_ok rfl).trans ?_
  unfold freed
  cases named : registry.findName path with
  | none => rfl
  | some old =>
      by_cases kept : old = name
      · simp only [if_pos kept]
        rfl
      · have present : (registry.findPath old).isSome := by
          rw [(inverse path old).mp named]
          rfl
        simp only [if_neg kept]
        exact bind_of_ok (deletePath_of_present present)

theorem setName_of_free (inverse : registry.Inverse) {path name : String}
    (free : registry.findPath name = none ∨ registry.findPath name = some path) :
    setName path name registry = .ok (registry.findName path) { registry with
      names := registry.names.set path name
      paths := (freed registry path name).set name path } :=
  (bind_of_ok (requireFree_of_free free)).trans (bind_of_ok (release_of_inverse inverse path name))

theorem setName_eq (inverse : registry.Inverse) (path name : String) :
    setName path name registry = whole registry (registry.setName path name) := by
  unfold Registry.setName
  cases held : registry.findPath name with
  | none => exact setName_of_free inverse (Or.inl held)
  | some holder =>
      by_cases own : holder = path
      · simp only [if_pos own]
        exact setName_of_free inverse (Or.inr (held.trans (congrArg some own)))
      · simp only [if_neg own]
        exact bind_of_error (requireFree_of_held held own)

theorem rename_eq (inverse : registry.Inverse) (path new : String) :
    rename path new registry = whole registry (registry.rename path new) := by
  unfold Registry.rename
  cases named : registry.nameOf path with
  | error fault =>
      refine (bind_of_error ?_).trans rfl
      refine (bind_of_ok rfl).trans ?_
      rw [named]
      rfl
  | ok old =>
      have named : requireName path registry = .ok old registry := by
        refine (bind_of_ok rfl).trans ?_
        rw [named]
        rfl
      refine (bind_of_ok named).trans ?_
      have set := setName_eq inverse path new
      cases assigned : registry.setName path new with
      | error fault =>
          rw [assigned] at set
          exact bind_of_error set
      | ok given =>
          rw [assigned] at set
          exact bind_of_ok set

end InPlace

/-! ### Calls that fail -/

/-- Why a call is refused. -/
inductive Refused (registry : Registry) : Call → RegistryFault → Prop where
  | taken {path name holder : String} (held : registry.findPath name = some holder)
      (other : holder ≠ path) : Refused registry (.setName path name) (.nameTaken name holder path)
  | newTaken {path new holder : String} (named : (registry.findName path).isSome)
      (held : registry.findPath new = some holder) (other : holder ≠ path) :
      Refused registry (.rename path new) (.nameTaken new holder path)
  | unnamed {path new : String} (unnamed : registry.findName path = none) :
      Refused registry (.rename path new) (.unregistered (.nameOf path))

theorem Refused.unique {call : Call} {refusal other : RegistryFault}
    (refused : Refused registry call refusal) (again : Refused registry call other) :
    refusal = other := by
  cases refused with
  | taken held _ =>
      cases again with
      | taken heldAgain _ =>
          rw [held] at heldAgain
          cases heldAgain
          rfl
  | newTaken named held _ =>
      cases again with
      | newTaken _ heldAgain _ =>
          rw [held] at heldAgain
          cases heldAgain
          rfl
      | unnamed unnamed =>
          rw [unnamed] at named
          cases named
  | unnamed unnamed =>
      cases again with
      | newTaken named _ _ =>
          rw [unnamed] at named
          cases named
      | unnamed _ => rfl

/-- How a call ends: it returns, and names and paths stay inverse to each other, or it is refused
and nothing changes. -/
inductive Ends (registry : Registry) (call : Call) : Prop where
  | returns (value : Option String) (after : Registry)
      (made : call.make registry = .ok value after) (inverse : after.Inverse)
      (allowed : ∀ refusal, ¬Refused registry call refusal)
  | refused (refusal : RegistryFault) (made : call.make registry = .error (.refused refusal) registry)
      (why : Refused registry call refusal)

section

variable (inverse : registry.Inverse)

include inverse

theorem ends_setName (path name : String) : Ends registry (.setName path name) := by
  have made := InPlace.setName_eq inverse path name
  cases given : registry.setName path name with
  | ok pair =>
      obtain ⟨after, previous⟩ := pair
      rw [given] at made
      obtain ⟨gives, free, _⟩ := setName_eq_ok given
      refine .returns previous after made (gives.inverse free inverse) fun refusal refused => ?_
      cases refused with
      | taken held other => exact other (holder_of_free free held)
  | error fault =>
      rw [given] at made
      obtain ⟨holder, rfl, held, other⟩ := setName_eq_error given
      exact .refused _ made (.taken held other)

theorem ends_rename (path new : String) : Ends registry (.rename path new) := by
  have made := InPlace.rename_eq inverse path new
  cases given : registry.rename path new with
  | ok pair =>
      obtain ⟨after, old⟩ := pair
      rw [given] at made
      have renames := rename_eq_ok given
      have inverseAfter : Inverse after := renames.gives.inverse renames.free inverse
      refine .returns (some old) after (InPlace.bind_of_ok made) inverseAfter fun refusal refused => ?_
      cases refused with
      | newTaken _ held other => exact other (holder_of_free renames.free held)
      | unnamed unnamed =>
          rw [renames.findOld] at unnamed
          cases unnamed
  | error fault =>
      rw [given] at made
      have fails : Call.make (.rename path new) registry = .error (.refused fault) registry :=
        InPlace.bind_of_error made
      cases named : registry.findName path with
      | none =>
          have why : fault = .unregistered (.nameOf path) := by
            unfold rename nameOf at given
            rw [named] at given
            cases given
            rfl
          exact .refused _ fails (why ▸ .unnamed named)
      | some old =>
          have isNamed : (registry.findName path).isSome := by
            rw [named]
            rfl
          obtain ⟨holder, rfl, held, other⟩ := rename_eq_error given isNamed
          exact .refused _ fails (.newTaken isNamed held other)

theorem inverse_forgetName (path : String) : Inverse (registry.forgetName path).1 := by
  have forgotten := (forgets_forgotten registry path).inverse inverse
  unfold Registry.forgotten at forgotten
  cases given : registry.forgetName path with
  | mk after name =>
      rw [given] at forgotten
      cases name with
      | none => exact forgotten
      | some name => exact forgotten

theorem ends_make (call : Call) : Ends registry call := by
  cases call with
  | setName path name => exact ends_setName inverse path name
  | rename path new => exact ends_rename inverse path new
  | forgetName path => exact .returns _ _ rfl (inverse_forgetName inverse path) nofun
  | removeWorkspace path manifest artifact =>
      have removes := removes_removeWorkspace registry path manifest artifact
      exact .returns _ _ rfl (removes.forgets.inverse inverse) nofun
  | setDependencies name dependencies => exact .returns _ _ rfl inverse nofun
  | dropDependencies name => exact .returns _ _ rfl inverse nofun
  | clear => exact .returns _ _ rfl inverse_empty nofun

theorem make_eq_error_iff {call : Call} {fault : CallFault} {after : Registry} :
    call.make registry = .error fault after ↔
      ∃ refusal, Refused registry call refusal ∧ fault = .refused refusal ∧ after = registry := by
  constructor
  · intro fails
    cases ends_make inverse call with
    | returns value other made _ _ =>
        rw [made] at fails
        cases fails
    | refused refusal made why =>
        rw [made] at fails
        cases fails
        exact ⟨refusal, why, rfl, rfl⟩
  · rintro ⟨refusal, why, rfl, rfl⟩
    cases ends_make inverse call with
    | returns _ _ _ _ allowed => exact absurd why (allowed refusal)
    | refused other made whyOther => rw [made, why.unique whyOther]

theorem inverse_step (call : Call) : (Call.step registry call).Inverse := by
  unfold Call.step
  cases ends_make inverse call with
  | returns value after made inverseAfter _ =>
      rw [made]
      exact inverseAfter
  | refused refusal made _ =>
      rw [made]
      exact inverse

theorem inverse_steps (calls : List Call) : (calls.foldl Call.step registry).Inverse := by
  induction calls generalizing registry with
  | nil => exact inverse
  | cons call rest ih => exact ih (inverse_step inverse call)

end

/-- After any calls of an empty registry names and paths are inverse to each other. The next one
fails exactly where it is refused, and changes nothing then. -/
theorem calls_keep_names_inverse (calls : List Call) :
    (afterCalls calls).Inverse
      ∧ ∀ call fault after, call.make (afterCalls calls) = .error fault after ↔
        ∃ refusal, Refused (afterCalls calls) call refusal ∧ fault = .refused refusal
          ∧ after = afterCalls calls := by
  have inverse : (afterCalls calls).Inverse := inverse_steps inverse_empty calls
  exact ⟨inverse, fun call fault after => make_eq_error_iff inverse⟩

/-- A rename to a name in use leaves the names as they were. -/
theorem refused_rename_changes_nothing :
    let calls : List Call := [.setName "p" "a", .setName "q" "b", .setDependencies "a" ["b"]]
    (afterCalls calls).Inverse
      ∧ (Call.rename "q" "a").make (afterCalls calls)
        = .error (.refused (.nameTaken "a" "p" "q")) (afterCalls calls) := by
  intro calls
  obtain ⟨inverse, fails⟩ := calls_keep_names_inverse calls
  exact ⟨inverse, (fails _ _ _).mpr ⟨_, .newTaken (by decide) (by decide) (by decide), rfl, rfl⟩⟩

end RefSync.Registry
