/-
What the handlers do about a pause. While the engine is inactive nothing is in its registry,
and a stage of a handler leaves it so: it looks at the registry before it adds anything, and
what it finds there tells it that the engine is active. Only a handler of the root manifest
makes the engine active, and not once the generation has reached one that it does not know.
-/

import RefSync.Proofs.Routine.Group
import RefSync.Watch.Flight

universe u

namespace RefSync

/-- An inactive engine knows of no workspace. -/
def Engine.Idle (engine : Engine) : Prop :=
  engine.active = false → engine.registry = .empty

theorem Engine.Idle.active {engine : Engine} (idle : engine.Idle)
    (known : engine.registry ≠ .empty) : engine.active = true := by
  cases active : engine.active with
  | true => rfl
  | false => exact absurd (idle active) known

namespace Routine

/-- What others may do: an idle engine is left idle. -/
def idling : Conduct Watch.Outside :=
  .preserving fun state => state.1.Idle

/-- What a stage may do: once the generation has reached the bound, a pause goes on. -/
def resting (bound : Nat) : Conduct Watch.Outside where
  allows before after := before.1.generation ≤ after.1.generation
    ∧ (before.1.Idle → after.1.Idle)
    ∧ (bound ≤ before.1.generation → before.1.active = false → after.1.active = false)
  refl _ := ⟨Nat.le_refl _, id, fun _ => id⟩
  trans first second :=
    ⟨Nat.le_trans first.1 second.1, second.2.1 ∘ first.2.1,
      fun reached paused => second.2.2 (Nat.le_trans reached first.1) (first.2.2 reached paused)⟩

/-- A routine that rests from a bound on, among others that leave an idle engine idle. -/
structure Rests {α : Type} (bound : Nat) (pre : Engine → Prop) (routine : Routine α)
    (post : α → Engine → Prop) : Prop where
  meets (start now : Engine × Watch.Outside) : (resting bound).allows start now → now.1.Idle →
    pre now.1 → Meets Watch.consult routine idling (resting bound) start now fun result start now =>
      (resting bound).allows start now ∧ now.1.Idle ∧ ∀ value, result = .ok value → post value now.1

/-- A routine that rests from wherever it goes on. -/
abbrev Dozes {α : Type} (bound : Nat) (routine : Routine α) : Prop :=
  Rests bound (fun _ => True) routine fun _ _ => True

section

variable {α β : Type} {bound : Nat} {pre : Engine → Prop} {post : α → Engine → Prop}

theorem Rests.weaken {routine : Routine α} {weaker : α → Engine → Prop}
    (rests : Rests bound pre routine post)
    (implies : ∀ value engine, post value engine → weaker value engine) :
    Rests bound pre routine weaker := by
  constructor
  intro start now allowed idle holds
  apply (rests.meets start now allowed idle holds).weaken
  rintro result start now ⟨kept, still, ended⟩
  exact ⟨kept, still, fun value same => implies value now.1 (ended value same)⟩

theorem Rests.strengthen {routine : Routine α} {stronger : Engine → Prop}
    (rests : Rests bound pre routine post) (implies : ∀ engine, stronger engine → pre engine) :
    Rests bound stronger routine post :=
  ⟨fun start now allowed idle holds => rests.meets start now allowed idle (implies now.1 holds)⟩

theorem Rests.dozes {routine : Routine α} (rests : Rests bound (fun _ => True) routine post) :
    Dozes bound routine :=
  rests.weaken fun _ _ _ => trivial

/-- What rests from anywhere does so from a state of which something is known. -/
theorem Rests.anyhow {routine : Routine α} (dozes : Dozes bound routine)
    (holds : ∀ value engine, post value engine) : Rests bound pre routine post :=
  (dozes.strengthen fun _ _ => trivial).weaken fun value engine _ => holds value engine

theorem rests_pure {value : α} (holds : ∀ engine, pre engine → post value engine) :
    Rests bound pre (pure value) post := by
  constructor
  intro start now allowed idle before
  refine ⟨allowed, idle, fun other same => ?_⟩
  cases same
  exact holds now.1 before

theorem rests_fail {failure : Failure} : Rests bound pre (.fail failure) post :=
  ⟨fun _ _ allowed idle _ => ⟨allowed, idle, nofun⟩⟩

theorem rests_ofExcept {κ : Type} {toFault : κ → Fault} {outcome : Except κ α}
    (holds : ∀ value engine, outcome = .ok value → pre engine → post value engine) :
    Rests bound pre (ofExcept toFault outcome) post := by
  cases outcome with
  | ok value => exact rests_pure fun engine => holds value engine rfl
  | error problem => exact rests_fail

theorem Rests.bind {routine : Routine α} {rest : α → Routine β} {post : β → Engine → Prop}
    (middle : α → Engine → Prop) (first : Rests bound pre routine middle)
    (second : ∀ value, Rests bound (middle value) (rest value) post) :
    Rests bound pre (routine >>= rest) post := by
  constructor
  intro start now allowed idle holds
  apply (meets_bind routine rest _).mpr
  apply (first.meets start now allowed idle holds).weaken
  rintro result start now ⟨kept, still, ended⟩
  cases result with
  | ok value => exact (second value).meets start now kept still (ended value rfl)
  | error failure => exact ⟨kept, still, nofun⟩

theorem Rests.recover {routine : Routine α} {handler : Failure → Routine α}
    (rests : Rests bound pre routine post)
    (handles : ∀ failure, Rests bound (fun _ => True) (handler failure) post) :
    Rests bound pre (routine.recover handler) post := by
  constructor
  intro start now allowed idle holds
  apply (meets_recover routine handler _).mpr
  apply (rests.meets start now allowed idle holds).weaken
  rintro result start now ⟨kept, still, ended⟩
  cases result with
  | ok value => exact ⟨kept, still, ended⟩
  | error failure => exact (handles failure).meets start now kept still trivial

/-- While the answer is waited for, whatever was known may be over. -/
theorem rests_ask (asked : Request) : Rests bound pre (ask asked) fun _ _ => True := by
  constructor
  intro start now allowed idle _
  refine ⟨allowed, fun asks asking => ⟨(resting bound).refl asks, fun resumes resuming => ?_⟩⟩
  exact ⟨(resting bound).refl resumes, resuming (asking idle), fun _ _ => trivial⟩

theorem rests_engine {rest : Engine → Routine β} {post : β → Engine → Prop}
    (each : ∀ engine, engine.Idle → pre engine → Rests bound (· = engine) (rest engine) post) :
    Rests bound pre (engine >>= rest) post :=
  ⟨fun start now allowed idle holds => (each now.1 idle holds).meets start now allowed idle rfl⟩

theorem rests_registry {rest : Registry → Routine β} {post : β → Engine → Prop}
    (each : ∀ engine, engine.Idle → pre engine →
      Rests bound (· = engine) (rest engine.registry) post) :
    Rests bound pre (registry >>= rest) post :=
  ⟨fun start now allowed idle holds => (each now.1 idle holds).meets start now allowed idle rfl⟩

/-- Where it does not matter what the registry holds. -/
theorem rests_anyRegistry {rest : Registry → Routine β} {post : β → Engine → Prop}
    (each : ∀ registry, Rests bound pre (rest registry) post) :
    Rests bound pre (registry >>= rest) post :=
  rests_registry fun engine _ holds =>
    (each engine.registry).strengthen fun _ same => same ▸ holds

theorem rests_modify {change : Engine → Engine} {post : Unit → Engine → Prop}
    (kept : ∀ engine, engine.Idle → pre engine → engine.generation ≤ (change engine).generation
      ∧ (change engine).Idle
      ∧ (bound ≤ engine.generation → engine.active = false → (change engine).active = false)
      ∧ post () (change engine)) :
    Rests bound pre (modify change) post := by
  constructor
  intro start now allowed idle holds
  obtain ⟨later, still, paused, after⟩ := kept now.1 idle holds
  refine ⟨(resting bound).trans allowed ⟨later, fun _ => still, paused⟩, still, ?_⟩
  rintro value ⟨⟩
  exact after

/-- A change of the registry that adds nothing while the engine is inactive. -/
theorem rests_modifyRegistry {change : Registry → Registry} {post : Unit → Engine → Prop}
    (kept : ∀ engine, engine.Idle → pre engine → engine.active = false →
      change engine.registry = .empty)
    (after : ∀ engine, pre engine → post () { engine with registry := change engine.registry }) :
    Rests bound pre (modifyRegistry change) post :=
  rests_modify fun engine idle holds =>
    ⟨Nat.le_refl _, kept engine idle holds, fun _ => id, after engine holds⟩

/-- While the engine is active the registry may change. -/
theorem rests_whileActive {change : Registry → Registry} :
    Rests bound (fun engine => engine.active = true) (modifyRegistry change)
      fun _ engine => engine.active = true :=
  rests_modifyRegistry (fun _ _ active paused => absurd active (by simp [paused])) fun _ => id

/-- Nothing is taken from an empty registry. -/
theorem dozes_modifyRegistry {change : Registry → Registry} (empty : change .empty = .empty) :
    Dozes bound (modifyRegistry change) := by
  apply rests_modifyRegistry
  · intro engine idle _ paused
    rw [idle paused, empty]
  · exact fun _ => id

theorem rests_log {level : Level} {message : String} {post : Unit → Engine → Prop}
    (after : ∀ engine log, pre engine → post () { engine with log := log }) :
    Rests bound pre (log level message) post :=
  rests_modify fun engine idle holds => ⟨Nat.le_refl _, idle, fun _ => id, after engine _ holds⟩

theorem rests_onlyIf {condition : Bool} {routine : Routine Unit} {post : Unit → Engine → Prop}
    (done : condition = true → Rests bound pre routine post)
    (skipped : ∀ engine, condition = false → pre engine → post () engine) :
    Rests bound pre (onlyIf condition routine) post := by
  cases condition with
  | true => exact done rfl
  | false => exact rests_pure fun engine => skipped engine rfl

theorem rests_forAll {κ : Type u} {items : List κ} {routine : κ → Routine β}
    (each : ∀ item ∈ items, Dozes bound (routine item)) :
    Rests bound pre (forAll items routine) fun _ _ => True := by
  constructor
  intro start now allowed idle _
  apply meets_forAll (fun _ => idling) (fun _ => resting bound) idling (fun _ _ _ => True) True
    (fun _ => True) allowed (fun _ _ _ => id) (fun _ _ _ _ _ does => does.2.1) (fun _ _ => id)
    (fun _ _ _ does => ⟨does.2.1, does⟩)
  · intro index begins reached
    have meets := (each items[index] (List.getElem_mem index.isLt)).meets begins begins
      ((resting bound).refl begins) (reached idle) trivial
    apply meets.weaken
    rintro result start now ⟨kept, _, _⟩
    refine ⟨kept, fun later _ => ?_⟩
    cases result with
    | ok value => trivial
    | error failure => exact ⟨trivial, fun _ _ => trivial⟩
  · intro joins values reached _ _
    exact ⟨(resting bound).refl joins, reached idle, fun _ _ => trivial⟩
  · intro _ joins failure reached _
    exact ⟨(resting bound).refl joins, reached idle, fun _ impossible => by cases impossible⟩

theorem rests_forM {κ : Type} {items : List κ} {routine : κ → Routine Unit}
    (each : ∀ item ∈ items, Rests bound pre (routine item) fun _ => pre) :
    Rests bound pre (items.forM routine) fun _ => pre := by
  induction items with
  | nil => exact rests_pure fun _ => id
  | cons item rest ih =>
      apply (each item List.mem_cons_self).bind
      exact fun _ => ih fun other member => each other (List.mem_cons_of_mem _ member)

end

/-! ### Documents -/

section

variable {bound : Nat}

theorem dozes_readObject (path : String) : Dozes bound (readObject path) := by
  apply (rests_ask _).bind
  exact fun _ => rests_ofExcept fun _ _ _ => id

theorem dozes_readObject? (path : String) : Dozes bound (readObject? path) := by
  apply (rests_ask _).bind
  intro given
  split
  · exact rests_pure fun _ => id
  · apply Rests.bind (fun _ _ => True) (rests_ofExcept fun _ _ _ => id)
    exact fun _ => rests_pure fun _ => id

theorem dozes_readManifest (path : String) : Dozes bound (readManifest path) := by
  apply (rests_ask _).bind
  exact fun _ => rests_pure fun _ => id

theorem dozes_writeDocument (path : String) (document : Document) :
    Dozes bound (writeDocument path document) := by
  apply (rests_ask _).bind
  exact fun _ => rests_ofExcept fun _ _ _ => id

/-- Writing a document and saying so. -/
theorem dozes_written (path message : String) (document : Document) :
    Dozes bound (do writeDocument path document; log .info message; return true) := by
  apply (dozes_writeDocument path document).bind
  intro _
  apply Rests.bind (fun _ _ => True) (rests_log fun _ _ => id)
  exact fun _ => rests_pure fun _ => id

theorem dozes_readAgain (path shown : String) (delay : Duration) (more failures : Nat) :
    Dozes bound (readAgain path shown delay more failures) := by
  induction more generalizing failures with
  | zero =>
      unfold readAgain
      apply (rests_ask _).bind
      intro given
      split <;> exact rests_pure fun _ => id
  | succ more ih =>
      unfold readAgain
      apply (rests_ask _).bind
      intro given
      split
      · exact rests_pure fun _ => id
      · dsimp only
        split
        · exact rests_fail
        · apply (rests_ask _).bind
          exact fun _ => ih _

end

end Routine

namespace Update

open Routine

variable {bound : Nat} (project : Project)

theorem dozes_references (workspace : String) (names : List String) :
    Dozes bound (references project workspace names) := by
  apply rests_anyRegistry
  intro registry
  apply Rests.bind (fun _ _ => True) (rests_ofExcept fun _ _ _ => id)
  intro aliases
  apply (dozes_readObject? _).bind
  intro found
  apply Rests.bind (fun _ _ => True) (rests_ofExcept fun _ _ _ => id)
  rintro (_ | updated)
  · exact rests_pure fun _ => id
  · exact dozes_written _ _ updated

theorem dozes_aliases (workspace : String) (renamed : Option (String × String)) :
    Dozes bound (aliases project workspace renamed) := by
  apply rests_anyRegistry
  intro registry
  apply Rests.bind (fun _ _ => True) (rests_ofExcept fun _ _ _ => id)
  intro _
  apply (dozes_readObject? _).bind
  rintro (_ | config)
  · exact rests_pure fun _ => id
  · apply Rests.bind (fun _ _ => True) (rests_ofExcept fun _ _ _ => id)
    rintro (_ | updated)
    · exact rests_pure fun _ => id
    · exact dozes_written _ _ updated

theorem dozes_dependencies (workspace : String) (missing redundant : List String) :
    Dozes bound (dependencies workspace missing redundant) := by
  apply rests_anyRegistry
  intro registry
  apply (dozes_readObject _).bind
  intro found
  split
  · exact rests_pure fun _ => id
  · exact dozes_written _ _ _

theorem dozes_dependencyName (workspace old new : String) :
    Dozes bound (dependencyName workspace old new) := by
  apply rests_anyRegistry
  intro registry
  apply (dozes_readObject _).bind
  intro found
  split
  · exact rests_pure fun _ => id
  · exact dozes_written _ _ _

theorem dozes_name (old new : String) : Dozes bound (name project old new) := by
  apply rests_anyRegistry
  intro registry
  apply Rests.bind (fun _ _ => True) (rests_ofExcept fun _ _ _ => id)
  intro workspaces
  have each (workspace : String) : Dozes bound (do
      let _ ← dependencyName workspace old new
      aliases project workspace (some (old, new))) :=
    (dozes_dependencyName workspace old new).bind _ fun _ => dozes_aliases project workspace _
  apply (rests_forAll fun workspace _ => each workspace).bind
  exact fun _ => rests_pure fun _ => id

theorem dozes_configure (workspace : String) (force : Bool) :
    Dozes bound (configure workspace force) := by
  apply (rests_ask _).bind
  intro answer
  apply Rests.bind (fun _ _ => True) (rests_ofExcept fun _ _ _ => id)
  intro jsx
  apply (dozes_readObject? _).bind
  intro found
  extract_lets updated
  cases updated with
  | none => exact rests_pure fun _ => id
  | some updated =>
      apply (dozes_writeDocument _ _).bind
      intro _
      apply rests_anyRegistry
      intro registry
      apply Rests.bind (fun _ _ => True) (rests_log fun _ _ => id)
      exact fun _ => rests_pure fun _ => id

theorem dozes_root (workspaces : List String) : Dozes bound (root project workspaces) := by
  apply (dozes_readObject? _).bind
  intro found
  apply Rests.bind (fun _ _ => True) (rests_ofExcept fun _ _ _ => id)
  intro target
  apply Rests.bind (fun _ _ => True) (rests_ofExcept fun _ _ _ => id)
  rintro (_ | updated)
  · exact rests_pure fun _ => id
  · exact dozes_written _ _ updated

end Update

namespace Watch

open Routine

variable {bound : Nat} {project : Project} {options : SyncOptions}

/-! ### What the registry tells -/

theorem active_of_named {engine : Engine} {workspace name : String} (idle : engine.Idle)
    (named : engine.registry.findName workspace = some name) : engine.active = true := by
  apply idle.active
  intro empty
  rw [empty] at named
  cases named

theorem active_of_watched {engine : Engine} {workspace : String} (idle : engine.Idle)
    (watched : isWatched engine.registry workspace = true) : engine.active = true := by
  apply idle.active
  intro empty
  rw [empty] at watched
  cases watched

theorem active_of_ready {engine : Engine} {workspace : String} (idle : engine.Idle)
    (ready : engine.registry.hasReadiness workspace .onlyConfig = true) : engine.active = true := by
  apply idle.active
  intro empty
  rw [empty] at ready
  cases ready

/-! ### Artifacts -/

theorem rests_reportRedundant (name : String) (redundant : List String) :
    Rests bound (fun engine => engine.active = true) (reportRedundant name redundant)
      fun _ engine => engine.active = true := by
  apply rests_anyRegistry
  intro registry
  apply rests_onlyIf
  · intro _
    apply Rests.bind (fun _ engine => engine.active = true)
    · exact rests_whileActive
    · exact fun _ => rests_log fun _ _ => id
  · exact fun _ _ => id

theorem dozes_updateDocuments (workspace : String) (missing pruned discovered : List String) :
    Dozes bound (updateDocuments project workspace missing pruned discovered) := by
  have references : Dozes bound (Update.references project workspace discovered) :=
    Update.dozes_references project workspace discovered
  apply Rests.bind (fun _ _ => True)
  · apply rests_forAll
    intro update member
    split at member
    · rw [List.mem_singleton.mp member]
      exact references
    · rcases List.mem_cons.mp member with rfl | member
      · exact Update.dozes_dependencies workspace missing pruned
      · rw [List.mem_singleton.mp member]
        exact references
  · exact fun _ => rests_pure fun _ => id

/-- A workspace with a name is one of an active engine. -/
theorem rests_applyDiscovered (workspace name : String) (discovered : List String) :
    Rests bound (fun engine => engine.active = true)
      (applyDiscovered project options workspace name discovered) fun _ _ => True := by
  apply rests_anyRegistry
  intro registry
  apply Rests.bind (fun _ engine => engine.active = true) (rests_ofExcept fun _ _ _ => id)
  intro declared
  apply Rests.bind (fun _ engine => engine.active = true)
  · exact rests_onlyIf (fun _ => rests_reportRedundant name _) fun _ _ => id
  intro _
  apply Rests.bind (fun _ engine => engine.active = true)
  · have notes (message : String) : Rests bound (fun engine => engine.active = true)
        (notice message) fun _ engine => engine.active = true :=
      rests_modify fun _ idle active => ⟨Nat.le_refl _, idle, fun _ => id, active⟩
    exact rests_onlyIf (fun _ => notes installNotice) fun _ _ => id
  intro _
  apply Rests.bind (fun _ engine => engine.active = true)
  · exact rests_whileActive
  exact fun _ => (dozes_updateDocuments workspace _ _ _).anyhow fun _ _ => trivial

theorem dozes_artifactOf (path : String) (outcome : Except Unreadable Json) :
    Dozes bound (artifactOf path outcome) := by
  have complains (message : String) : Dozes bound (artifactOf.complain path message) := by
    apply Rests.bind (fun _ _ => True) (rests_log fun _ _ => id)
    exact fun _ => rests_pure fun _ => id
  cases outcome with
  | error failure => exact complains failure.message
  | ok value =>
      unfold artifactOf
      dsimp only
      split
      · exact rests_pure fun _ => id
      · exact complains _

/-- The workspace's name is looked for again once its artifact has been read. -/
theorem dozes_artifactRead (path workspace name : String) (artifact : Artifact) :
    Dozes bound (artifactRead project options path workspace name artifact) := by
  apply rests_registry
  intro engine idle _
  apply rests_onlyIf
  · intro current
    have active := active_of_named idle (eq_of_beq (Bool.and_eq_true_iff.mp current).1)
    exact (rests_applyDiscovered workspace name _).strengthen fun _ same => same ▸ active
  · exact fun _ _ _ => trivial

theorem dozes_artifactWritten (path : String) :
    Dozes bound (artifactWritten project options path) := by
  apply rests_anyRegistry
  intro registry
  apply rests_onlyIf
  · intro _
    apply Rests.bind (fun _ _ => True) (rests_ofExcept fun _ _ _ => id)
    intro name
    apply (dozes_readAgain _ _ _ _ _).bind
    intro outcome
    apply (dozes_artifactOf path outcome).bind
    rintro (_ | artifact)
    · exact rests_pure fun _ => id
    · exact dozes_artifactRead path _ name artifact
  · exact fun _ _ => id

theorem dozes_artifactCreated (path : String) :
    Dozes bound (artifactCreated project options path) := by
  apply rests_anyRegistry
  intro registry
  apply Rests.bind (fun _ _ => True)
  · refine rests_onlyIf (fun _ => ?_) fun _ _ => id
    apply Rests.bind (fun _ _ => True)
    · exact dozes_modifyRegistry rfl
    · exact fun _ => rests_log fun _ _ => id
  · exact fun _ => dozes_artifactWritten path

/-- Only an artifact that is watched is missed. -/
theorem rests_artifactDeleted (path : String) :
    Rests bound (fun engine => engine.active = true) (artifactDeleted path) fun _ _ => True := by
  apply rests_anyRegistry
  intro registry
  apply Rests.bind (fun _ engine => engine.active = true) (rests_log fun _ _ => id)
  intro _
  exact rests_whileActive.weaken fun _ _ _ => trivial

/-! ### Workspaces -/

theorem dozes_configureRoot : Dozes bound (configureRoot project) := by
  apply rests_engine
  intro engine _ _
  apply rests_onlyIf
  · intro _
    apply Rests.bind (fun _ _ => True)
    · exact (Update.dozes_root project _).anyhow fun _ _ => trivial
    · exact fun _ => rests_pure fun _ => id
  · exact fun _ _ _ => trivial

/-- A workspace that loses its manifest, or its name, yields none. -/
theorem rests_without (workspace message : String) (lost : Readiness)
    {post : Option Manifest → Engine → Prop} (after : ∀ engine, post none engine) :
    Rests bound (fun _ => True) (do
      log .warning message
      modifyRegistry (unregister · workspace lost)
      return none) post := by
  apply Rests.bind (fun _ _ => True) (rests_log fun _ _ => id)
  intro _
  apply Rests.bind (fun _ _ => True)
  · exact dozes_modifyRegistry rfl
  · exact fun _ => rests_pure fun engine _ => after engine

theorem rests_registerName (workspace name : String) :
    Rests bound (fun engine => engine.active = true) (registerName project workspace name)
      fun _ _ => True := by
  have assigns (registry : Registry) : Rests bound (fun engine => engine.active = true)
      (assignName registry workspace name) fun _ _ => True := by
    unfold assignName
    split
    · exact rests_pure fun _ _ => trivial
    · apply Rests.bind (fun _ _ => True)
      · exact rests_whileActive.weaken fun _ _ _ => trivial
      · exact fun _ => rests_pure fun _ => id
  have changes (registry : Registry) (previous : String) :
      Rests bound (fun engine => engine.active = true)
        (changeName project registry workspace previous name) fun _ _ => True := by
    apply Rests.bind (fun _ engine => engine.active = true) (rests_log fun _ _ => id)
    intro _
    split
    · exact rests_pure fun _ _ => trivial
    · apply Rests.bind (fun _ _ => True)
      · exact rests_whileActive.weaken fun _ _ _ => trivial
      · intro _
        apply (Update.dozes_name project previous name).bind
        exact fun _ => rests_pure fun _ => id
  apply rests_anyRegistry
  intro registry
  split
  · exact assigns registry
  · split
    · exact assigns registry
    · exact changes registry _

/-- A manifest that gives a workspace its name was loaded while the engine was active. -/
def Loaded (result : Option Manifest) (engine : Engine) : Prop :=
  result.isSome → engine.active = true

theorem rests_confirmName (workspace name : String) (manifest : Manifest) :
    Rests bound (fun _ => True) (confirmName workspace name manifest) Loaded := by
  apply rests_registry
  intro engine idle _
  split
  · rename_i named
    have active := active_of_named idle named
    apply Rests.bind (fun _ engine => engine.active = true)
    · exact rests_whileActive.strengthen fun _ same => same ▸ active
    · exact fun _ => rests_pure fun _ active _ => active
  · exact rests_pure fun _ _ => nofun

theorem rests_registerManifest (workspace : String) (manifest : Manifest) :
    Rests bound (fun _ => True) (registerManifest project workspace manifest) Loaded := by
  apply rests_registry
  intro engine idle _
  split
  · rename_i watched
    apply Rests.bind (fun _ engine => engine.active = true)
    · exact rests_whileActive.strengthen fun _ same => same ▸ active_of_watched idle watched
    intro _
    split
    · exact (rests_without workspace _ .onlyName fun _ => nofun).strengthen fun _ _ => trivial
    · apply (rests_registerName workspace _).bind
      intro registered
      split
      · exact rests_confirmName workspace _ manifest
      · exact rests_without workspace _ .onlyName fun _ => nofun
      · exact rests_fail
  · exact rests_pure fun _ _ => nofun

theorem rests_loadManifest (workspace : String) :
    Rests bound (fun _ => True) (loadManifest project workspace) Loaded := by
  apply (dozes_readManifest _).bind
  intro outcome
  split
  · exact rests_registerManifest workspace _
  · exact rests_without workspace _ .manifestAndName fun _ => nofun
  · split
    · exact rests_fail
    · exact rests_without workspace _ .manifestAndName fun _ => nofun

theorem rests_registerDependencies (manifest : Manifest) :
    Rests bound (fun engine => engine.active = true) (registerDependencies manifest)
      fun _ engine => engine.active = true := by
  unfold registerDependencies
  split
  · exact rests_whileActive
  · exact rests_pure fun _ => id

theorem dozes_bootstrapConfig (workspace : String) : Dozes bound (bootstrapConfig workspace) := by
  apply (Update.dozes_configure workspace false).bind
  intro _
  apply rests_registry
  intro engine idle _
  apply rests_onlyIf
  · intro watched
    have active := active_of_watched idle watched
    exact (rests_whileActive.weaken fun _ _ _ => trivial).strengthen fun _ same => same ▸ active
  · exact fun _ _ _ => trivial

theorem dozes_whenPresent (path : String) {handler : Routine Unit} (dozes : Dozes bound handler) :
    Dozes bound (whenPresent path handler) := by
  apply (rests_ask _).bind
  intro answer
  apply Rests.bind (fun _ _ => True) (rests_ofExcept fun _ _ _ => id)
  exact fun _ => rests_onlyIf (fun _ => dozes) fun _ _ => id

theorem dozes_watchArtifact (workspace : String) :
    Dozes bound (watchArtifact project options workspace) := by
  apply rests_registry
  intro engine idle _
  apply rests_onlyIf
  · intro condition
    have active := active_of_watched idle (Bool.and_eq_true_iff.mp condition).2
    apply Rests.bind (fun _ engine => engine.active = true)
    · exact rests_whileActive.strengthen fun _ same => same ▸ active
    · exact fun _ => (dozes_whenPresent _ (dozes_artifactCreated _)).anyhow fun _ _ => trivial
  · exact fun _ _ _ => trivial

theorem dozes_manifestWritten (path : String) :
    Dozes bound (manifestWritten project options path) := by
  apply rests_anyRegistry
  intro registry
  apply (rests_loadManifest _).bind
  rintro (_ | manifest)
  · exact rests_onlyIf (fun _ => dozes_configureRoot.anyhow fun _ _ => trivial)
      fun _ _ _ => trivial
  · apply Rests.bind (fun _ _ => True)
    · exact ((rests_registerDependencies manifest).strengthen fun _ loaded => loaded rfl).weaken
        fun _ _ _ => trivial
    intro _
    apply rests_anyRegistry
    intro registry
    apply Rests.bind (fun _ _ => True)
    · exact rests_onlyIf (fun _ => dozes_bootstrapConfig _) fun _ _ => id
    intro _
    apply rests_anyRegistry
    intro registry
    apply Rests.bind (fun _ _ => True)
    · exact rests_onlyIf (fun _ => dozes_configureRoot) fun _ _ => id
    exact fun _ => dozes_watchArtifact _

theorem dozes_manifestDeleted (path : String) : Dozes bound (manifestDeleted project path) := by
  apply Rests.bind (fun _ _ => True) (rests_log fun _ _ => id)
  intro _
  apply Rests.bind (fun _ _ => True)
  · exact dozes_modifyRegistry rfl
  · exact fun _ => dozes_configureRoot

theorem rests_configPresent (workspace : String) :
    Rests bound (fun engine => engine.active = true) (configPresent project options workspace)
      fun _ _ => True := by
  apply rests_anyRegistry
  intro registry
  apply rests_onlyIf
  · intro _
    apply Rests.bind (fun _ engine => engine.active = true) (rests_log fun _ _ => id)
    intro _
    apply Rests.bind (fun _ _ => True)
    · exact rests_whileActive.weaken fun _ _ _ => trivial
    intro _
    apply rests_anyRegistry
    intro registry
    apply rests_onlyIf
    · intro _
      apply dozes_configureRoot.bind
      exact fun _ => dozes_whenPresent _ (dozes_artifactWritten _)
    · exact fun _ _ => id
  · exact fun _ _ _ => trivial

theorem dozes_configDeleted (workspace : String) : Dozes bound (configDeleted project workspace) := by
  apply rests_registry
  intro engine idle _
  apply rests_onlyIf
  · intro ready
    have active := active_of_ready idle ready
    apply Rests.bind (fun _ engine => engine.active = true)
    · apply rests_log
      rintro _ _ rfl
      exact active
    intro _
    apply Rests.bind (fun _ _ => True)
    · exact rests_whileActive.weaken fun _ _ _ => trivial
    exact fun _ => rests_onlyIf (fun _ => dozes_configureRoot) fun _ _ => id
  · exact fun _ _ _ => trivial

/-! ### The root manifest -/

theorem active_of_isCurrent {engine : Engine} {generation : Nat}
    (current : isCurrent engine generation = true) : engine.active = true :=
  (Bool.and_eq_true_iff.mp current).1

theorem dozes_bringUp (workspaces : List String) (generation : Nat) :
    Dozes bound (bringUp project options workspaces generation) := by
  apply rests_anyRegistry
  intro registry
  apply (rests_forAll fun workspace _ => dozes_bootstrapConfig workspace).bind
  intro _
  apply dozes_configureRoot.bind
  intro _
  apply rests_engine
  intro engine _ _
  apply rests_onlyIf
  · intro _
    apply (rests_forAll fun workspace _ => dozes_watchArtifact workspace).bind
    exact fun _ => rests_pure fun _ => id
  · exact fun _ _ _ => trivial

theorem rests_addWorkspaces (workspaces : List String) (generation : Nat) :
    Rests bound (fun engine => engine.active = true)
      (addWorkspaces project options workspaces generation) fun _ _ => True := by
  apply Rests.bind (fun _ _ => True)
  · exact rests_whileActive.weaken fun _ _ _ => trivial
  intro _
  apply (rests_forAll fun workspace _ => (rests_loadManifest workspace).dozes).bind
  intro loaded
  apply rests_engine
  intro engine _ _
  apply rests_onlyIf
  · intro current
    apply Rests.bind (fun _ engine => engine.active = true)
    · apply (rests_forM fun manifest _ => rests_registerDependencies manifest).strengthen
      rintro _ rfl
      exact active_of_isCurrent current
    · exact fun _ => (dozes_bringUp workspaces generation).anyhow fun _ _ => trivial
  · exact fun _ _ _ => trivial

/-- A generation that is over makes nothing active. -/
theorem dozes_activate {generation : Nat} (known : generation < bound) (manifest : Manifest) :
    Dozes bound (activate project options generation manifest) := by
  apply (rests_ask _).bind
  intro answer
  apply Rests.bind (fun _ _ => True) (rests_ofExcept fun _ _ _ => id)
  intro workspaces
  apply rests_engine
  intro engine _ _
  apply rests_onlyIf
  · intro current
    apply Rests.bind (fun _ engine => engine.active = true)
    · apply rests_modify
      rintro _ _ rfl
      refine ⟨Nat.le_refl _, nofun, fun reached => ?_, rfl⟩
      have same := eq_of_beq current
      omega
    · exact fun _ => rests_addWorkspaces workspaces generation
  · exact fun _ _ _ => trivial

theorem rests_rootCreated :
    Rests bound (fun engine => engine.generation < bound) (rootCreated project options)
      fun _ _ => True := by
  apply rests_engine
  intro engine _ known
  apply Rests.bind (fun _ _ => True)
  · exact (dozes_readManifest manifestFile).anyhow fun _ _ => trivial
  intro outcome
  apply Rests.bind (fun _ _ => True) (rests_ofExcept fun _ _ _ => id)
  exact fun manifest => dozes_activate known manifest

theorem dozes_rootUpdated : Dozes bound (rootUpdated project options) := by
  apply rests_engine
  intro engine _ _
  apply Rests.bind (fun _ _ => True)
  · exact (dozes_readManifest manifestFile).anyhow fun _ _ => trivial
  intro outcome
  apply Rests.bind (fun _ _ => True) (rests_ofExcept fun _ _ _ => id)
  intro manifest
  apply (rests_ask _).bind
  intro answer
  apply Rests.bind (fun _ _ => True) (rests_ofExcept fun _ _ _ => id)
  intro workspaces
  apply rests_engine
  intro later _ _
  apply rests_onlyIf
  · intro current
    apply rests_onlyIf
    · intro _
      apply Rests.bind (fun _ engine => engine.active = true)
      · apply rests_log
        rintro _ _ rfl
        exact active_of_isCurrent current
      intro _
      apply Rests.bind (fun _ engine => engine.active = true)
      · exact rests_whileActive
      · exact fun _ => rests_addWorkspaces _ _
    · exact fun _ _ _ => trivial
  · exact fun _ _ _ => trivial

theorem dozes_rootDeleted : Dozes bound rootDeleted := by
  apply Rests.bind (fun _ _ => True) (rests_log fun _ _ => id)
  intro _
  exact rests_modify fun engine _ _ =>
    ⟨Nat.le_succ _, fun _ => rfl, fun _ _ => rfl, trivial⟩

theorem dozes_settle (change : Change) (path : String) (failure : Failure) :
    Dozes bound (settle change path failure) := by
  unfold settle
  split
  · exact rests_fail
  · split
    · exact rests_forM fun _ _ => rests_log fun _ _ => id
    · exact rests_fail

end Watch

end RefSync
