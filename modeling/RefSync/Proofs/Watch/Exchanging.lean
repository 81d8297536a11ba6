/-
What the root manifest leads to. Its globs tell the workspaces; the handlers go from those that are
watched to those that are told, by adding some and dropping others.
-/

import RefSync.Proofs.Routine.Alone
import RefSync.Proofs.Watch.Adding

namespace RefSync

open Routine Path

/-- Whether the root manifest is valid and its globs match some workspaces. -/
def Disk.Tells (disk : Disk) (found : List String) : Prop :=
  ∃ manifest, manifestOf (disk.read manifestFile) = .ok manifest
    ∧ disk.discover (manifest.workspaces.getD []) = .ok found

section

variable {disk : Disk}

/-- A valid root manifest tells one list of workspaces. -/
theorem Disk.Tells.unique {found other : List String} (tells : disk.Tells found)
    (tellsOther : disk.Tells other) : other = found := by
  obtain ⟨manifest, read, answer⟩ := tells
  obtain ⟨_, readOther, answerOther⟩ := tellsOther
  rw [read] at readOther
  cases readOther
  rw [answer] at answerOther
  cases answerOther
  rfl

theorem not_tells_of_unread {fault : Fault}
    (unread : manifestOf (disk.read manifestFile) = .error fault) (found : List String) :
    ¬disk.Tells found := by
  rintro ⟨manifest, read, _⟩
  rw [unread] at read
  cases read

theorem not_tells_of_unfound {manifest : Manifest} {fault : ReadFault}
    (read : manifestOf (disk.read manifestFile) = .ok manifest)
    (unfound : disk.discover (manifest.workspaces.getD []) = .error fault) (found : List String) :
    ¬disk.Tells found := by
  rintro ⟨other, readOther, answer⟩
  rw [read] at readOther
  cases readOther
  rw [unfound] at answer
  cases answer

end

namespace Watch

section

variable {project : Project} {full : Prop} {options : SyncOptions} {now : Engine × Disk}

theorem mem_watched {registry : Registry} (sound : registry.Sound project) {workspace : String} :
    workspace ∈ registry.watched ↔
      project.IsRelative workspace ∧ Workspace.manifestPath workspace ∈ registry.manifests := by
  rw [Registry.watched, mem_distinct, List.mem_map]
  constructor
  · rintro ⟨path, member, rfl⟩
    obtain ⟨watches, back, relative⟩ := sound.watches_ofDocument member
    exact ⟨relative, watches.2⟩
  · rintro ⟨relative, member⟩
    exact ⟨_, member, Workspace.ofDocument_manifestPath relative.spelled.stem⟩

/-- What is left of a registry without some workspaces. -/
structure Dropped (gone : List String) (before after : Registry) : Prop where
  findName workspace : after.findName workspace =
    if workspace ∈ gone then none else before.findName workspace
  readinessOf workspace : after.readinessOf workspace =
    if workspace ∈ gone then .none else before.readinessOf workspace
  dependencies name : (∀ workspace ∈ gone, before.findName workspace ≠ some name) →
    after.dependencies.get? name = before.dependencies.get? name
  manifests path : path ∈ after.manifests ↔
    path ∈ before.manifests ∧ ∀ workspace ∈ gone, path ≠ Workspace.manifestPath workspace
  artifacts path : path ∈ after.artifacts ↔
    path ∈ before.artifacts ∧ ∀ workspace ∈ gone, path ≠ Workspace.artifactPath workspace
  missing path : path ∈ after.missingArtifacts ↔
    path ∈ before.missingArtifacts ∧ ∀ workspace ∈ gone, path ≠ Workspace.artifactPath workspace

theorem dropped_removeWorkspaces (registry : Registry) (gone : List String) :
    Dropped gone registry (removeWorkspaces registry gone) := by
  induction gone generalizing registry with
  | nil => constructor <;> simp [removeWorkspaces]
  | cons first rest ih =>
      have removes := Registry.removes_removeWorkspace registry first (Workspace.manifestPath first)
        (Workspace.artifactPath first)
      have dropped := ih (registry.removeWorkspace first (Workspace.manifestPath first)
        (Workspace.artifactPath first))
      refine ⟨fun workspace => ?_, fun workspace => ?_, fun name foreign => ?_, fun path => ?_,
        fun path => ?_, fun path => ?_⟩
      · refine (dropped.findName workspace).trans ?_
        rw [removes.forgets.findName]
        by_cases own : workspace = first
        · simp [own]
        · simp [own]
      · refine (dropped.readinessOf workspace).trans ?_
        rw [removes.readinessOf]
        by_cases own : workspace = first
        · simp [own]
        · simp [own]
      · refine (dropped.dependencies name fun workspace member => ?_).trans ?_
        · rw [removes.forgets.findName]
          by_cases own : workspace = first
          · rw [if_pos own]
            nofun
          · rw [if_neg own]
            exact foreign workspace (List.mem_cons_of_mem _ member)
        · exact (removes.forgets.dependencies name).trans
            (if_neg (foreign first List.mem_cons_self))
      · refine (dropped.manifests path).trans ?_
        rw [removes.manifests, TextSet.mem_remove, List.forall_mem_cons, and_assoc]
      · refine (dropped.artifacts path).trans ?_
        rw [removes.artifacts, TextSet.mem_remove, List.forall_mem_cons, and_assoc]
      · refine (dropped.missing path).trans ?_
        rw [removes.missing, TextSet.mem_remove, List.forall_mem_cons, and_assoc]

/-- Without some of its workspaces a registry is as sound and as settled as before. -/
theorem sound_removeWorkspaces {gone : List String} (stem : ∀ workspace ∈ gone, IsStem workspace)
    {registry : Registry} (sound : registry.Sound project) :
    (removeWorkspaces registry gone).Sound project
      ∧ ∀ workspace, registry.Settled workspace →
        (removeWorkspaces registry gone).Settled workspace := by
  induction gone generalizing registry with
  | nil => exact ⟨sound, fun _ => id⟩
  | cons first rest ih =>
      have forgets := (Registry.removes_removeWorkspace registry first (Workspace.manifestPath first)
        (Workspace.artifactPath first)).forgets
      obtain ⟨restSound, restSettled⟩ :=
        ih (fun workspace member => stem workspace (List.mem_cons_of_mem _ member))
          (sound.removeWorkspace (stem first List.mem_cons_self))
      exact ⟨restSound, fun workspace settled =>
        restSettled workspace (settled.forgets sound forgets)⟩

/-- The workspaces that come and those that go where the globs match others than the watched ones. -/
structure Exchange (now : Engine × Disk) (found added gone : List String) : Prop where
  tells : now.2.Tells found
  comes workspace : workspace ∈ added ↔ workspace ∈ found ∧ workspace ∉ now.1.registry.watched
  goes workspace : workspace ∈ gone ↔ workspace ∈ now.1.registry.watched ∧ workspace ∉ found
  changes : added ≠ [] ∨ gone ≠ []

/-- The globs match other workspaces than the watched ones, or there is nothing to exchange. -/
theorem exchange_or_same {found : List String} (tells : now.2.Tells found) :
    Exchange now found (sortTexts (missingItems now.1.registry.watched found))
        (sortTexts (redundantItems now.1.registry.watched found))
      ∨ (sortTexts (missingItems now.1.registry.watched found) = []
          ∧ sortTexts (redundantItems now.1.registry.watched found) = [])
        ∧ ∀ workspace, workspace ∈ now.1.registry.watched ↔ workspace ∈ found := by
  have comes (workspace : String) :
      workspace ∈ sortTexts (missingItems now.1.registry.watched found)
        ↔ workspace ∈ found ∧ workspace ∉ now.1.registry.watched := by
    rw [mem_sortTexts, mem_missingItems]
  have goes (workspace : String) :
      workspace ∈ sortTexts (redundantItems now.1.registry.watched found)
        ↔ workspace ∈ now.1.registry.watched ∧ workspace ∉ found := by
    rw [mem_sortTexts, mem_redundantItems]
  generalize sortTexts (missingItems now.1.registry.watched found) = added at comes ⊢
  generalize sortTexts (redundantItems now.1.registry.watched found) = gone at goes ⊢
  by_cases changes : added ≠ [] ∨ gone ≠ []
  · exact Or.inl ⟨tells, comes, goes, changes⟩
  · rw [not_or, not_not, not_not] at changes
    refine Or.inr ⟨changes, fun workspace => ?_⟩
    have noneAdded := comes workspace
    have noneGone := goes workspace
    rw [changes.1, List.mem_nil_iff, false_iff, not_and, not_not] at noneAdded
    rw [changes.2, List.mem_nil_iff, false_iff, not_and, not_not] at noneGone
    exact ⟨noneGone, noneAdded⟩

/-- An engine whose workspaces are added once others were dropped. -/
def exchanging (now : Engine × Disk) (gone : List String) (log : List LogRecord) : Engine × Disk :=
  ({ now.1 with registry := removeWorkspaces now.1.registry gone, log := log }, now.2)

/-! ### Finding out what is to be added -/

/-- What an engine that becomes active is to add, and since when. -/
def activating (generation : Nat) (manifest : Manifest) : Routine (Option (List String × Nat)) := do
  let workspaces ← orThrow (← ask (.discover (manifest.workspaces.getD [])))
  if (← engine).generation == generation then
    modify fun engine => { engine with active := true }
    return some (workspaces, generation)
  else return none

def creating : Routine (Option (List String × Nat)) := do
  let generation := (← engine).generation
  let manifest ← ofExcept id (← readManifest manifestFile)
  activating generation manifest

/-- What an active engine is to add once it has dropped what the globs no longer match. -/
def exchanges (generation : Nat) (added removed : List String) :
    Routine (Option (List String × Nat)) := do
  log .info ("Workspaces list updated, " ++ differenceText added removed ++ "; processing")
  modifyRegistry (removeWorkspaces · removed)
  return some (added, generation)

def updating : Routine (Option (List String × Nat)) := do
  let generation := (← engine).generation
  let manifest ← ofExcept id (← readManifest manifestFile)
  let workspaces ← orThrow (← ask (.discover (manifest.workspaces.getD [])))
  let engine ← engine
  if isCurrent engine generation then
    let watched := engine.registry.watched
    let added := sortTexts (missingItems watched workspaces)
    let removed := sortTexts (redundantItems watched workspaces)
    if !(added.isEmpty && removed.isEmpty) then exchanges generation added removed else return none
  else return none

def beginning : Routine (Option (List String × Nat)) := do
  match ← readManifest manifestFile with
  | .ok manifest => activating (← engine).generation manifest
  | .error (.read (.missing _)) =>
      log .warning ("package.json not found, make sure you are in the root directory. "
        ++ "The processing will begin once the file is created.")
      return none
  | .error fault =>
      log .warning ((if fault.isAccess
        then "package.json can't be read, the processing will begin once it changes: "
        else "package.json is invalid, the processing will begin once it is fixed: ")
          ++ fault.message)
      return none

/-- Adds what is to be added, if there is anything. -/
def adding (project : Project) (options : SyncOptions) : Option (List String × Nat) → Routine Unit
  | some (workspaces, generation) => addWorkspaces project options workspaces generation
  | none => .done ()

theorem activate_eq (generation : Nat) (manifest : Manifest) :
    activate project options generation manifest
      = activating generation manifest >>= adding project options := by
  refine congrArg (Routine.request _) (funext fun given => ?_)
  cases given with
  | error fault => rfl
  | ok workspaces =>
      refine congrArg Routine.get (funext fun engine => ?_)
      change onlyIf (engine.generation == generation) _
        = Routine.bind (if (engine.generation == generation) = true then _ else _) _
      cases engine.generation == generation <;> rfl

theorem rootCreated_eq : rootCreated project options = creating >>= adding project options := by
  refine congrArg Routine.get (funext fun engine => congrArg (Routine.request _) (funext fun given => ?_))
  change (ofExcept id (manifestOf given)).bind (activate project options engine.generation)
    = ((ofExcept id (manifestOf given)).bind (activating engine.generation)).bind (adding project options)
  rw [Routine.bind_assoc]
  exact congrArg (Routine.bind _) (funext (activate_eq engine.generation))

theorem rootUpdated_eq : rootUpdated project options = updating >>= adding project options := by
  refine congrArg Routine.get (funext fun began => congrArg (Routine.request _) (funext fun read => ?_))
  refine Eq.trans ?_ (Routine.bind_assoc (ofExcept id (manifestOf read)) _ _).symm
  refine congrArg (Routine.bind _) (funext fun manifest => congrArg (Routine.request _) (funext fun given => ?_))
  cases given with
  | error fault => rfl
  | ok workspaces =>
      refine congrArg Routine.get (funext fun engine => ?_)
      let added := sortTexts (missingItems engine.registry.watched workspaces)
      let removed := sortTexts (redundantItems engine.registry.watched workspaces)
      change onlyIf (isCurrent engine began.generation)
          (onlyIf (!(added.isEmpty && removed.isEmpty)) _)
        = Routine.bind (if isCurrent engine began.generation = true then
            if (!(added.isEmpty && removed.isEmpty)) = true then _ else _ else _) _
      cases isCurrent engine began.generation with
      | false => rfl
      | true => cases (!(added.isEmpty && removed.isEmpty)) <;> rfl

theorem start_eq : start project options = beginning >>= adding project options := by
  refine congrArg (Routine.request _) (funext fun read => ?_)
  change (match manifestOf read with
    | .ok manifest => _
    | .error (.read (.missing _)) => _
    | .error fault => _) = Routine.bind (match manifestOf read with
    | .ok manifest => _
    | .error (.read (.missing _)) => _
    | .error fault => _) _
  split
  · exact congrArg Routine.get (funext fun engine => activate_eq engine.generation _)
  · rfl
  · rfl

/-- Whatever was watched and is no longer matched can be exchanged for what is matched now. -/
theorem addition_exchanging {found added gone : List String} {log : List LogRecord}
    (orderly : now.1.Orderly project full []) (active : now.1.active = true)
    (exchange : Exchange now found added gone) (distinct : added.Nodup)
    (relative : ∀ workspace ∈ found, project.IsRelative workspace) :
    Addition project full added now.1.generation (exchanging now gone log) := by
  have stem (workspace : String) (member : workspace ∈ gone) : IsStem workspace :=
    ((mem_watched orderly.sound).mp ((exchange.goes workspace).mp member).1).1.spelled.stem
  obtain ⟨sound, settled⟩ := sound_removeWorkspaces stem orderly.sound
  have dropped := dropped_removeWorkspaces now.1.registry gone
  have current : isCurrent now.1 now.1.generation = true := by
    rw [isCurrent, active, beq_self_eq_true]
    rfl
  have relativeAdded (workspace : String) (member : workspace ∈ added) :
      project.IsRelative workspace :=
    relative workspace ((exchange.comes workspace).mp member).1
  refine ⟨⟨sound, fun other absent due => ?_, fun idle => ?_⟩, current, distinct, relativeAdded,
    fun workspace member watched => ?_⟩
  · exact settled other (orderly.settled other absent (due.imp_right fun watched =>
      ((dropped.artifacts _).mp watched).1))
  · exact absurd active (by rw [show now.1.active = false from idle]; decide)
  · exact ((exchange.comes workspace).mp member).2 ((mem_watched orderly.sound).mpr
      ⟨relativeAdded workspace member, ((dropped.manifests _).mp watched).1⟩)

section

variable {post : Except Failure (Option (List String × Nat)) → Engine × Disk → Prop}
  (orderly : now.1.Orderly project full []) (same : now.2.project = project)

/-- A root manifest that is not valid is the end of the search. -/
theorem finds_read {rest : Manifest → Routine (Option (List String × Nat))}
    (refused : ∀ fault, fault.isDocumentFault = true → (∀ found, ¬now.2.Tells found) →
      post (.error [fault]) now)
    (goesOn : ∀ manifest, manifestOf (now.2.read manifestFile) = .ok manifest →
      Leads Disk.alone (rest manifest) now post) :
    Leads Disk.alone (do let manifest ← ofExcept id (← readManifest manifestFile); rest manifest)
      now post := by
  apply leads_readManifest
  cases read : manifestOf (now.2.read manifestFile) with
  | error fault =>
      refine leads_throw (β := Option (List String × Nat))
        (refused fault (documentFault_of_manifestOf read) ?_)
      exact not_tells_of_unread read
  | ok manifest => exact leads_ok rfl (goesOn manifest read)

include orderly same

/-- An engine that becomes active is to add what the globs match. -/
theorem finds_activating {manifest : Manifest} (inactive : now.1.active = false)
    (unfound : ∀ fault, now.2.discover (manifest.workspaces.getD []) = .error fault →
      post (.error [.read fault]) now)
    (adds : ∀ found, now.2.discover (manifest.workspaces.getD []) = .ok found →
      Addition project full found now.1.generation ({ now.1 with active := true }, now.2) →
      post (.ok (some (found, now.1.generation))) ({ now.1 with active := true }, now.2)) :
    Leads Disk.alone (activating now.1.generation manifest) now post := by
  unfold activating
  apply leads_ask
  change Leads Disk.alone (orThrow (now.2.discover (manifest.workspaces.getD [])) >>= _) now _
  cases answer : now.2.discover (manifest.workspaces.getD []) with
  | error fault =>
      exact leads_throw (β := Option (List String × Nat)) (unfound fault answer)
  | ok found =>
      obtain ⟨distinct, relative⟩ := Disk.discovered answer
      apply leads_ok rfl
      apply leads_engine
      rw [beq_self_eq_true, if_pos rfl]
      apply leads_modify
      refine leads_pure (adds found answer ⟨{ orderly with idle := nofun }, ?_, distinct,
        fun workspace member => same ▸ relative workspace member, fun workspace _ watched => ?_⟩)
      · rw [isCurrent, beq_self_eq_true]
        rfl
      · have watched : Workspace.manifestPath workspace ∈ now.1.registry.manifests := watched
        rw [orderly.idle inactive] at watched
        cases watched

theorem finds_creating (inactive : now.1.active = false)
    (refused : ∀ fault, fault.isDocumentFault = true → (∀ found, ¬now.2.Tells found) →
      post (.error [fault]) now)
    (adds : ∀ found, now.2.Tells found →
      Addition project full found now.1.generation ({ now.1 with active := true }, now.2) →
      post (.ok (some (found, now.1.generation))) ({ now.1 with active := true }, now.2)) :
    Leads Disk.alone creating now post := by
  unfold creating
  apply leads_engine
  refine finds_read refused fun manifest read => finds_activating orderly same inactive ?_ ?_
  · exact fun _ answer => refused _ rfl (not_tells_of_unfound read answer)
  · exact fun found answer => adds found ⟨manifest, read, answer⟩

/-- An active engine is to exchange what the globs do not match for what they match. -/
theorem finds_updating (active : now.1.active = true)
    (refused : ∀ fault, fault.isDocumentFault = true → (∀ found, ¬now.2.Tells found) →
      post (.error [fault]) now)
    (still : ∀ found, now.2.Tells found →
      (∀ workspace, workspace ∈ now.1.registry.watched ↔ workspace ∈ found) → post (.ok none) now)
    (exchange : ∀ found added gone log, Exchange now found added gone →
      Addition project full added now.1.generation (exchanging now gone log) →
      post (.ok (some (added, now.1.generation))) (exchanging now gone log)) :
    Leads Disk.alone updating now post := by
  unfold updating
  apply leads_engine
  refine finds_read refused fun manifest read => ?_
  apply leads_ask
  change Leads Disk.alone (orThrow (now.2.discover (manifest.workspaces.getD [])) >>= _) now _
  cases answer : now.2.discover (manifest.workspaces.getD []) with
  | error fault =>
      exact leads_throw (β := Option (List String × Nat))
        (refused _ rfl (not_tells_of_unfound read answer))
  | ok found =>
      obtain ⟨_, relative⟩ := Disk.discovered answer
      have tells : now.2.Tells found := ⟨manifest, read, answer⟩
      let added := sortTexts (missingItems now.1.registry.watched found)
      let gone := sortTexts (redundantItems now.1.registry.watched found)
      have current : isCurrent now.1 now.1.generation = true := by
        rw [isCurrent, active, beq_self_eq_true]
        rfl
      apply leads_ok rfl
      apply leads_engine
      rw [current, if_pos rfl]
      change Leads Disk.alone (if (!(added.isEmpty && gone.isEmpty)) = true
        then exchanges now.1.generation added gone else return none) now post
      rcases exchange_or_same tells with exchanged | ⟨⟨noneAdded, noneGone⟩, stays⟩
      · have due : (!(added.isEmpty && gone.isEmpty)) = true := by
          rw [Bool.not_eq_true', Bool.and_eq_false_iff]
          exact exchanged.changes.imp List.isEmpty_eq_false_iff.mpr List.isEmpty_eq_false_iff.mpr
        rw [if_pos due]
        unfold exchanges
        apply leads_log
        apply leads_modifyRegistry
        apply leads_pure
        exact exchange found added gone _ exchanged (addition_exchanging orderly active exchanged
          (sortTexts_nodup.mpr ((distinct_nodup _).filter _)) (same ▸ relative))
      · have none : (!(added.isEmpty && gone.isEmpty)) = false := by
          rw [show added = [] from noneAdded, show gone = [] from noneGone]
          rfl
        rw [none, if_neg Bool.false_ne_true]
        exact leads_pure (still found tells stays)

end

/-- The first look at the root manifest is one of an engine that knows nothing. -/
theorem finds_beginning {disk : Disk}
    {post : Except Failure (Option (List String × Nat)) → Engine × Disk → Prop}
    (same : disk.project = project)
    (unfound : ∀ fault, (∀ found, ¬disk.Tells found) → post (.error [.read fault]) ({}, disk))
    (waits : ∀ log, (∀ found, ¬disk.Tells found) → post (.ok none) ({ log := log }, disk))
    (adds : ∀ found, disk.Tells found →
      Addition project full found 0 ({ active := true }, disk) →
      post (.ok (some (found, 0))) ({ active := true }, disk)) :
    Leads Disk.alone beginning ({}, disk) post := by
  have orderly : Engine.Orderly project full [] {} :=
    ⟨Registry.sound_empty, fun _ _ _ => Registry.settled_of_unnamed rfl, fun _ => rfl⟩
  unfold beginning
  apply leads_readManifest
  cases read : manifestOf (disk.read manifestFile) with
  | ok manifest =>
      apply leads_engine
      apply finds_activating orderly same rfl
      · exact fun fault answer => unfound fault (not_tells_of_unfound read answer)
      · exact fun found answer => adds found ⟨manifest, read, answer⟩
  | error fault =>
      have logs (level : Level) (message : String) : Leads Disk.alone (do
          log level message
          return (none : Option (List String × Nat))) ({}, disk) post :=
        fun _ => waits _ (not_tells_of_unread read)
      split
      · rename_i same
        cases same
      · exact logs _ _
      · exact logs _ _

/-! ### Adding it -/

section

variable {post : Except Failure Unit → Engine × Disk → Prop}

/-- How the finding out ends where the adding is to end in some way. -/
def addingEnd (project : Project) (options : SyncOptions)
    (post : Except Failure Unit → Engine × Disk → Prop) :
    Except Failure (Option (List String × Nat)) → Engine × Disk → Prop
  | .ok (some (workspaces, generation)), later =>
      Leads Disk.alone (addWorkspaces project options workspaces generation) later post
  | .ok none, later => post (.ok ()) later
  | .error failure, later => post (.error failure) later

theorem leads_adding {finds : Routine (Option (List String × Nat))}
    (leads : Leads Disk.alone finds now (addingEnd project options post)) :
    Leads Disk.alone (finds >>= adding project options) now post := by
  apply leads.bind
  · intro found later ended
    cases found with
    | some due => exact ended
    | none => exact fun _ => ended
  · exact fun _ _ => id

section

variable (orderly : now.1.Orderly project full []) (same : now.2.project = project)

include orderly same

theorem leads_creation (inactive : now.1.active = false)
    (refused : ∀ fault, fault.isDocumentFault = true → (∀ found, ¬now.2.Tells found) →
      post (.error [fault]) now)
    (adds : ∀ found, now.2.Tells found →
      Addition project full found now.1.generation ({ now.1 with active := true }, now.2) →
      Leads Disk.alone (addWorkspaces project options found now.1.generation)
        ({ now.1 with active := true }, now.2) post) :
    Leads Disk.alone (rootCreated project options) now post := by
  rw [rootCreated_eq]
  exact leads_adding (finds_creating orderly same inactive refused adds)

theorem leads_exchange (active : now.1.active = true)
    (refused : ∀ fault, fault.isDocumentFault = true → (∀ found, ¬now.2.Tells found) →
      post (.error [fault]) now)
    (still : ∀ found, now.2.Tells found →
      (∀ workspace, workspace ∈ now.1.registry.watched ↔ workspace ∈ found) → post (.ok ()) now)
    (exchanges : ∀ found added gone log, Exchange now found added gone →
      Addition project full added now.1.generation (exchanging now gone log) →
      Leads Disk.alone (addWorkspaces project options added now.1.generation)
        (exchanging now gone log) post) :
    Leads Disk.alone (rootUpdated project options) now post := by
  rw [rootUpdated_eq]
  exact leads_adding (finds_updating orderly same active refused still exchanges)

end

theorem leads_begin {disk : Disk} (same : disk.project = project)
    (unfound : ∀ fault, (∀ found, ¬disk.Tells found) → post (.error [.read fault]) ({}, disk))
    (waits : ∀ log, (∀ found, ¬disk.Tells found) → post (.ok ()) ({ log := log }, disk))
    (adds : ∀ found, disk.Tells found →
      Addition project full found 0 ({ active := true }, disk) →
      Leads Disk.alone (addWorkspaces project options found 0) ({ active := true }, disk) post) :
    Leads Disk.alone (start project options) ({}, disk) post := by
  rw [start_eq]
  exact leads_adding (finds_beginning same unfound waits adds)

end

end

end Watch
end RefSync
