/-
A pause is final. However the stages of handlers in flight are interleaved, and whatever they
read, the deletion of the root manifest empties the registry, and nothing is added to it until
a handler that began after the deletion makes the engine active again.
-/

import RefSync.Proofs.Watch.Resting
import RefSync.Proofs.Watch.Settling

namespace RefSync

open Routine

namespace Watch

variable {project : Project} {options : SyncOptions} {bound : Nat}

/-! ### Dispatching -/

/-- A document of a workspace is told from others by a registry that is not empty. -/
theorem active_of_classified {engine : Engine} {path : String} {kind : DocumentKind}
    (idle : engine.Idle) (classified : classifyRelative engine.registry path = some kind)
    (workspace : kind ≠ .rootManifest) : engine.active = true := by
  apply idle.active
  intro empty
  rw [empty] at classified
  have known := classifyRelative_eq_some classified
  cases kind with
  | rootManifest => exact workspace rfl
  | workspaceManifest => cases known
  | workspaceConfig => cases known.2
  | artifact => cases known

theorem rests_handle (kind : DocumentKind) (change : Change) (path : String)
    (workspace : kind ≠ .rootManifest) :
    Rests bound (fun engine => engine.active = true) (handle project options kind change path)
      fun _ _ => True := by
  cases kind with
  | rootManifest => exact absurd rfl workspace
  | workspaceManifest =>
      cases change with
      | delete => exact (dozes_manifestDeleted path).anyhow fun _ _ => trivial
      | create => exact (dozes_manifestWritten path).anyhow fun _ _ => trivial
      | update => exact (dozes_manifestWritten path).anyhow fun _ _ => trivial
  | workspaceConfig =>
      cases change with
      | delete => exact (dozes_configDeleted _).anyhow fun _ _ => trivial
      | create => exact rests_configPresent _
      | update => exact rests_configPresent _
  | artifact =>
      cases change with
      | delete => exact rests_artifactDeleted path
      | create => exact (dozes_artifactCreated path).anyhow fun _ _ => trivial
      | update => exact (dozes_artifactWritten path).anyhow fun _ _ => trivial

/-- The root manifest's handlers look at the generation at once. -/
theorem rests_handle_root (change : Change) (path : String) :
    Rests bound (fun engine => engine.generation < bound)
      (handle project options .rootManifest change path) fun _ _ => True := by
  have present : Rests bound (fun engine => engine.generation < bound) (do
      if (← engine).active then rootUpdated project options else rootCreated project options)
      fun _ _ => True := by
    apply rests_engine
    intro engine _ known
    split
    · exact dozes_rootUpdated.anyhow fun _ _ => trivial
    · exact rests_rootCreated.strengthen fun _ same => same ▸ known
  cases change with
  | delete => exact dozes_rootDeleted.anyhow fun _ _ => trivial
  | create => exact present
  | update => exact present

theorem rests_dispatch (event : Event) :
    Rests bound (fun engine => engine.generation < bound) (dispatch project options event)
      fun _ _ => True := by
  apply rests_registry
  intro engine idle known
  split
  · exact rests_pure fun _ _ => trivial
  · rename_i kind classified
    refine Rests.recover ?_ (dozes_settle _ _)
    by_cases root : kind = .rootManifest
    · subst root
      exact (rests_handle_root _ _).strengthen fun _ same => same ▸ known
    · have active := active_of_classified idle classified root
      exact (rests_handle kind _ _ root).strengthen fun _ same => same ▸ active

/-- No other event makes the engine active. -/
theorem dozes_dispatch {event : Event}
    (other : (Task.dispatch event).isRootCreation project = false) :
    Dozes bound (dispatch project options event) := by
  apply rests_registry
  intro engine idle _
  split
  · exact rests_pure fun _ _ => trivial
  · rename_i kind classified
    refine Rests.recover ?_ (dozes_settle _ _)
    by_cases root : kind = .rootManifest
    · subst root
      have path : project.relative event.path = manifestFile := classifyRelative_eq_some classified
      have deletion : event.change = .delete := by
        simpa [Task.isRootCreation, path] using other
      rw [deletion]
      exact dozes_rootDeleted.anyhow fun _ _ => trivial
    · have active := active_of_classified idle classified root
      exact (rests_handle kind _ _ root).strengthen fun _ same => same ▸ active

/-! ### Flights -/

/-- A routine that rests from a bound on, wherever it goes on from. -/
structure Docile (bound : Nat) (routine : Routine Unit) : Prop where
  keeps (state : Engine × Outside) : state.1.Idle →
    Keeps consult routine idling (resting bound) state fun _ _ => True

/-- A routine that is yet to look at the generation. -/
structure Fresh (routine : Routine Unit) : Prop where
  pending : routine.isPending = true
  rests bound : Rests bound (fun engine => engine.generation < bound) routine fun _ _ => True

theorem docile_of_dozes {routine : Routine Unit} (dozes : Dozes bound routine) :
    Docile bound routine := by
  constructor
  intro state idle begins begun
  apply (dozes.meets begins begins ((resting bound).refl begins) (begun idle) trivial).weaken
  rintro result start now ⟨kept, _, _⟩
  exact ⟨kept, fun _ _ => trivial⟩

/-- What a routine keeps to from one idle state on, it keeps to from all of them. -/
theorem docile_of_keeps {routine : Routine Unit} {state : Engine × Outside}
    (keeps : Keeps consult routine idling (resting bound) state fun _ _ => True) :
    Docile bound routine :=
  ⟨fun _ still => keeps.later fun _ => still⟩

theorem Docile.step {routine moved : Routine Unit} {state after : Engine × Outside}
    (docile : Docile bound routine) (idle : state.1.Idle)
    (steps : Step consult routine state moved after) :
    (resting bound).allows state after ∧ Docile bound moved := by
  obtain ⟨kept, goesOn⟩ := Keeps.step steps (docile.keeps state idle)
  exact ⟨kept, docile_of_keeps goesOn⟩

/-- A routine that can go on by itself does so before anything else. -/
theorem step_of_pending {routine moved : Routine Unit} {state after : Engine × Outside}
    (steps : Step consult routine state moved after) (pending : routine.isPending = true) :
    moved = (routine.advance state.1).1 ∧ after = ((routine.advance state.1).2, state.2) := by
  cases steps with
  | goesOn => exact ⟨rfl, rfl⟩
  | answered asked next => cases pending
  | member members next index _ => cases pending
  | cancelled members next index other _ _ => cases pending
  | joined results next => cases pending

/-- It looks at the generation in its first stage, and rests once that one is over. -/
theorem Fresh.step {routine moved : Routine Unit} {state after : Engine × Outside}
    (fresh : Fresh routine) (idle : state.1.Idle) (steps : Step consult routine state moved after) :
    (resting (state.1.generation + 1)).allows state after
      ∧ Docile (state.1.generation + 1) moved := by
  obtain ⟨rfl, rfl⟩ := step_of_pending steps fresh.pending
  have meets := (fresh.rests (state.1.generation + 1)).meets state state
    ((resting _).refl state) idle (Nat.lt_succ_self _)
  have lasts : Meets consult routine idling (resting (state.1.generation + 1)) state state
      (lasting idling (resting (state.1.generation + 1)) fun _ _ => True) := by
    apply meets.weaken
    rintro result start now ⟨kept, _, _⟩
    exact ⟨kept, fun _ _ => trivial⟩
  obtain ⟨kept, goesOn⟩ := lasts.goesOn
  exact ⟨kept, docile_of_keeps goesOn⟩

/-- What is known of a flight: which generations it does not know, or that it is yet to look. -/
inductive Flight.Bounded (generation : Nat) (flight : Flight) : Prop where
  | docile (bound : Nat) (known : bound ≤ generation + 1) (docile : Docile bound flight.routine)
  | fresh (unbegun : flight.begun = false) (fresh : Fresh flight.routine)
  | reading (unbegun : flight.begun = false) (asked : Request) (next : asked.Answer → Routine Unit)
      (same : flight.routine = .request asked next) (each : ∀ answer, Fresh (next answer))

/-- The first look at the root manifest looks at the generation once the manifest is read. -/
theorem fresh_started (outcome : Except Fault Manifest) : Fresh (match outcome with
    | .ok manifest => do activate project options (← engine).generation manifest
    | .error (.read (.missing _)) =>
        log .warning ("package.json not found, make sure you are in the root directory. "
          ++ "The processing will begin once the file is created.")
    | .error fault =>
        log .warning ((if fault.isAccess
          then "package.json can't be read, the processing will begin once it changes: "
          else "package.json is invalid, the processing will begin once it is fixed: ")
            ++ fault.message)) := by
  constructor
  · split <;> rfl
  · intro bound
    split
    · apply rests_engine
      intro engine _ known
      exact (dozes_activate known _).anyhow fun _ _ => trivial
    · exact rests_log fun _ _ _ => trivial
    · exact rests_log fun _ _ _ => trivial

theorem Task.bounded (task : Task) (generation : Nat) :
    Flight.Bounded generation ⟨task, task.routine project options, false⟩ := by
  cases task with
  | start =>
      apply Flight.Bounded.reading rfl (.read manifestFile) _ rfl
      exact fun answer => fresh_started (manifestOf answer)
  | dispatch event =>
      have fresh : Fresh (Watch.dispatch project options event) :=
        ⟨rfl, fun bound => rests_dispatch event⟩
      exact .fresh rfl fresh

/-- No task but one of the root manifest ever makes the engine active. -/
theorem Task.docile {task : Task} (other : task.isRootCreation project = false) :
    Docile bound (task.routine project options) := by
  cases task with
  | start => cases other
  | dispatch event =>
      have docile : Docile bound (Watch.dispatch project options event) :=
        docile_of_dozes (dozes_dispatch other)
      exact docile

theorem Flight.Bounded.later {generation later : Nat} {flight : Flight}
    (bounded : flight.Bounded generation) (since : generation ≤ later) : flight.Bounded later := by
  cases bounded with
  | docile bound known docile => exact .docile bound (by omega) docile
  | fresh unbegun fresh => exact .fresh unbegun fresh
  | reading unbegun asked next same each => exact .reading unbegun asked next same each

/-- A step of a flight leaves an idle engine idle. -/
theorem Flight.Bounded.step {flight : Flight} {moved : Routine Unit} {before after : Engine}
    {outside : Outside} (bounded : flight.Bounded before.generation) (idle : before.Idle)
    (steps : Step consult flight.routine (before, outside) moved (after, outside)) :
    before.generation ≤ after.generation ∧ after.Idle
      ∧ Flight.Bounded after.generation
          { flight with routine := moved, begun := flight.begun || flight.routine.isPending } := by
  cases bounded with
  | docile bound known docile =>
      obtain ⟨⟨since, kept, _⟩, still⟩ := docile.step idle steps
      exact ⟨since, kept idle, .docile bound (known.trans (Nat.succ_le_succ since)) still⟩
  | fresh unbegun fresh =>
      obtain ⟨⟨since, kept, _⟩, still⟩ := fresh.step idle steps
      exact ⟨since, kept idle, .docile _ (Nat.succ_le_succ since) still⟩
  | reading unbegun asked next same each =>
      rw [same] at steps
      cases steps with
      | goesOn _ pending => cases pending
      | answered =>
          refine ⟨Nat.le_refl _, idle, .fresh ?_ (each _)⟩
          rw [unbegun, same]
          rfl

/-! ### Traffic -/

/-- What holds at any time of an engine and the handlers in flight. -/
structure Traffic.Safe (project : Project) (options : SyncOptions) (traffic : Traffic) : Prop where
  idle : traffic.engine.Idle
  bounded (index : Nat) (flight : Flight) : traffic.flights[index]? = some flight →
    flight.Bounded traffic.engine.generation
  docile (index : Nat) (flight : Flight) : traffic.flights[index]? = some flight →
    flight.task.isRootCreation project = false → Docile 0 flight.routine
  original (index : Nat) (flight : Flight) (event : Event) : traffic.flights[index]? = some flight →
    flight.begun = false → flight.task = .dispatch event →
    flight.routine = dispatch project options event

/-- What is there after one of several was replaced. -/
theorem getElem?_set_eq_some {items : List Flight} {index other : Nat} {item found : Flight}
    (atOther : (items.set index item)[other]? = some found) :
    other = index ∧ found = item ∨ other ≠ index ∧ items[other]? = some found := by
  rw [List.getElem?_set] at atOther
  split at atOther
  · rename_i same
    split at atOther
    · exact Or.inl ⟨same.symm, (Option.some.inj atOther).symm⟩
    · cases atOther
  · rename_i differs
    exact Or.inr ⟨fun same => differs same.symm, atOther⟩

theorem Traffic.Safe.advances {before after : Traffic} {index : Nat}
    (safe : before.Safe project options) (advances : Advances index before after) :
    before.engine.generation ≤ after.engine.generation ∧ after.Safe project options := by
  obtain ⟨flight, found, outside, steps⟩ := advances
  obtain ⟨since, idle, still⟩ := (safe.bounded index flight found).step safe.idle steps
  refine ⟨since, idle, ?_, ?_, ?_⟩
  · intro other flying atOther
    rcases getElem?_set_eq_some atOther with ⟨_, rfl⟩ | ⟨_, atOther⟩
    · exact still
    · exact (safe.bounded other flying atOther).later since
  · intro other flying atOther task
    rcases getElem?_set_eq_some atOther with ⟨_, rfl⟩ | ⟨_, atOther⟩
    · exact ((safe.docile index flight found task).step safe.idle steps).2
    · exact safe.docile other flying atOther task
  · intro other flying event atOther unbegun task
    rcases getElem?_set_eq_some atOther with ⟨_, rfl⟩ | ⟨_, atOther⟩
    · -- An event's routine goes on by itself at first, and counts as begun then.
      obtain ⟨waits, pending⟩ := Bool.or_eq_false_iff.mp unbegun
      rw [safe.original index flight event found waits task] at pending
      cases pending
    · exact safe.original other flying event atOther unbegun task

theorem Traffic.Safe.moves {before after : Traffic} (safe : before.Safe project options)
    (moves : Moves project options before after) : after.Safe project options := by
  cases moves with
  | departs task =>
      have last (index : Nat) (flight : Flight)
          (found : (before.flights ++ [⟨task, task.routine project options, false⟩])[index]?
            = some flight) :
          before.flights[index]? = some flight
            ∨ flight = ⟨task, task.routine project options, false⟩ := by
        rw [List.getElem?_append] at found
        split at found
        · exact Or.inl found
        · exact Or.inr (List.mem_singleton.mp (List.mem_of_getElem? found))
      refine ⟨safe.idle, ?_, ?_, ?_⟩
      · intro index flight found
        rcases last index flight found with found | rfl
        · exact safe.bounded index flight found
        · exact task.bounded _
      · intro index flight found other
        rcases last index flight found with found | rfl
        · exact safe.docile index flight found other
        · exact Task.docile other
      · intro index flight event found unbegun same
        rcases last index flight found with found | rfl
        · exact safe.original index flight event found unbegun same
        · cases same
          rfl
  | advances index advances => exact (safe.advances advances).2
  | cancelled index flight found =>
      have through : Docile 0 (.fail []) := docile_of_dozes rests_fail
      refine ⟨safe.idle, ?_, ?_, ?_⟩
      · intro other flying atOther
        rcases getElem?_set_eq_some atOther with ⟨_, rfl⟩ | ⟨_, atOther⟩
        · exact .docile 0 (Nat.zero_le _) through
        · exact safe.bounded other flying atOther
      · intro other flying atOther task
        rcases getElem?_set_eq_some atOther with ⟨_, rfl⟩ | ⟨_, atOther⟩
        · exact through
        · exact safe.docile other flying atOther task
      · intro other flying event atOther unbegun task
        rcases getElem?_set_eq_some atOther with ⟨_, rfl⟩ | ⟨_, atOther⟩
        · cases unbegun
        · exact safe.original other flying event atOther unbegun task
  | noted => exact ⟨safe.idle, safe.bounded, safe.docile, safe.original⟩

theorem safe_of_travels {traffic : Traffic} (travels : Travels project options {} traffic) :
    traffic.Safe project options := by
  induction travels with
  | refl => exact ⟨fun _ => rfl, nofun, nofun, nofun⟩
  | tail _ moves ih => exact ih.moves moves

/-! ### The pause -/

/-- Nothing is processed, and nothing is known: no name, no dependencies, no readiness, no
watched path, no missing artifact and no reported command. -/
structure Paused (engine : Engine) : Prop where
  inactive : engine.active = false
  empty : engine.registry = .empty

/-- Whether the processing was taken up again on the way from one state to another. It was by
a handler of the root manifest which had not begun in the first one, so that it looked at the
generation since. -/
inductive Resumed (project : Project) (options : SyncOptions) (before later : Traffic) : Prop where
  | by (paused active : Traffic) (since : Travels project options before paused)
      (pause : Paused paused.engine) (index : Nat) (creator : Flight)
      (found : paused.flights[index]? = some creator)
      (creates : creator.task.isRootCreation project = true)
      (unbegun : ∀ earlier, before.flights[index]? = some earlier → earlier.begun = false)
      (advances : Advances index paused active) (resumes : active.engine.active = true)
      (goesOn : Travels project options active later) : Resumed project options before later

/-- What holds as long as the pause goes on: a flight that may end it had not begun when the
pause did. -/
structure Traffic.Pauses (project : Project) (options : SyncOptions) (traffic begins : Traffic) :
    Prop where
  safe : traffic.Safe project options
  paused : Paused traffic.engine
  since : begins.engine.generation ≤ traffic.engine.generation
  length : begins.flights.length ≤ traffic.flights.length
  flights (index : Nat) (flight : Flight) : traffic.flights[index]? = some flight →
    (∃ bound ≤ begins.engine.generation, Docile bound flight.routine)
      ∨ flight.task.isRootCreation project = true
        ∧ ∀ earlier, begins.flights[index]? = some earlier → earlier.begun = false

section

variable {begins before after : Traffic}

/-- A step of any flight: one that knows of the pause leaves it alone, and another one takes up
the processing or not. -/
theorem Traffic.Pauses.advances {index : Nat} (pauses : before.Pauses project options begins)
    (since : Travels project options begins before) (advances : Advances index before after) :
    after.Pauses project options begins ∨ Resumed project options begins after := by
  obtain ⟨later, safe⟩ := pauses.safe.advances advances
  have paused (inactive : after.engine.active = false) : Paused after.engine :=
    ⟨inactive, safe.idle inactive⟩
  have step := advances
  cases advances with | @steps flight found outside moved engine steps =>
  have others (other : Nat) (flying : Flight) (differs : other ≠ index)
      (atOther : before.flights[other]? = some flying) := pauses.flights other flying atOther
  rcases pauses.flights index flight found with ⟨bound, within, docile⟩ | ⟨creates, unbegun⟩
  · obtain ⟨⟨_, _, kept⟩, still⟩ := docile.step pauses.safe.idle steps
    have inactive := kept (within.trans pauses.since) pauses.paused.inactive
    refine Or.inl ⟨safe, paused inactive, pauses.since.trans later, ?_, ?_⟩
    · exact pauses.length.trans_eq List.length_set.symm
    · intro other flying atOther
      rcases getElem?_set_eq_some atOther with ⟨_, rfl⟩ | ⟨differs, atOther⟩
      · exact Or.inl ⟨bound, within, still⟩
      · exact others other flying differs atOther
  · cases active : engine.active with
    | true =>
        exact Or.inr (.by before _ since pauses.paused index flight found creates unbegun step
          active .refl)
    | false =>
        refine Or.inl ⟨safe, paused active, pauses.since.trans later, ?_, ?_⟩
        · exact pauses.length.trans_eq List.length_set.symm
        · intro other flying atOther
          rcases getElem?_set_eq_some atOther with ⟨rfl, rfl⟩ | ⟨differs, atOther⟩
          · exact Or.inr ⟨creates, unbegun⟩
          · exact others other flying differs atOther

theorem Traffic.Pauses.moves (pauses : before.Pauses project options begins)
    (since : Travels project options begins before) (moves : Moves project options before after) :
    after.Pauses project options begins ∨ Resumed project options begins after := by
  have safe := pauses.safe.moves moves
  cases moves with
  | departs task =>
      refine Or.inl ⟨safe, pauses.paused, pauses.since, ?_, ?_⟩
      · rw [List.length_append]
        exact pauses.length.trans (Nat.le_add_right _ _)
      · intro index flight found
        rw [List.getElem?_append] at found
        split at found
        · exact pauses.flights index flight found
        · rename_i late
          obtain rfl := List.mem_singleton.mp (List.mem_of_getElem? found)
          rcases Bool.eq_false_or_eq_true (task.isRootCreation project) with creates | other
          · refine Or.inr ⟨creates, fun earlier atIndex => ?_⟩
            obtain ⟨inRange, _⟩ := List.getElem?_eq_some_iff.mp atIndex
            exact absurd (inRange.trans_le pauses.length) late
          · exact Or.inl ⟨0, Nat.zero_le _, Task.docile other⟩
  | advances index advances => exact pauses.advances since advances
  | cancelled index flight found =>
      refine Or.inl ⟨safe, pauses.paused, pauses.since, ?_, ?_⟩
      · exact pauses.length.trans_eq List.length_set.symm
      · intro other flying atOther
        rcases getElem?_set_eq_some atOther with ⟨_, rfl⟩ | ⟨_, atOther⟩
        · exact Or.inl ⟨0, Nat.zero_le _, docile_of_dozes rests_fail⟩
        · exact pauses.flights other flying atOther
  | noted => exact Or.inl { pauses with safe, paused := ⟨pauses.paused.inactive, pauses.paused.empty⟩ }

theorem Traffic.Pauses.travels (pauses : before.Pauses project options before)
    (goesOn : Travels project options before after) :
    after.Pauses project options before ∨ Resumed project options before after := by
  induction goesOn with
  | refl => exact Or.inl pauses
  | tail since moves ih =>
      rcases ih with pauses | resumed
      · exact pauses.moves since moves
      · obtain ⟨paused, active, far, pause, index, creator, found, creates, unbegun, advances,
          resumes, goesOn⟩ := resumed
        exact Or.inr (.by paused active far pause index creator found creates unbegun advances
          resumes (goesOn.tail moves))

theorem advance_registry {α : Type} (rest : Registry → Routine α) (engine : Engine) :
    (registry >>= rest).advance engine = (rest engine.registry).advance engine :=
  rfl

theorem advance_deletion (options : SyncOptions) {event : Event}
    (path : project.relative event.path = manifestFile) (change : event.change = .delete)
    (engine : Engine) :
    (dispatch project options event).advance engine
      = (.done (), { engine with
          registry := .empty, active := false, generation := engine.generation + 1
          log := engine.log
            ++ [⟨.warning, "package.json has been deleted, pausing processing"⟩] }) := by
  have classified : classify project engine.registry event.path = some .rootManifest := by
    rw [classify, path]
    rfl
  unfold dispatch
  rw [advance_registry, classified, change]
  rfl

theorem Task.eq_of_isRootDeletion {task : Task} (deletes : task.isRootDeletion project = true) :
    ∃ event, task = .dispatch event ∧ project.relative event.path = manifestFile
      ∧ event.change = .delete := by
  cases task with
  | start => cases deletes
  | dispatch event =>
      have both : (project.relative event.path == manifestFile && event.change == .delete) = true :=
        deletes
      obtain ⟨path, change⟩ := Bool.and_eq_true_iff.mp both
      exact ⟨event, rfl, eq_of_beq path, eq_of_beq change⟩

/-- The deletion of the root manifest is one stage, in which everything known is dropped. -/
theorem paused_of_deletion {index : Nat} {deletion : Flight} (safe : before.Safe project options)
    (found : before.flights[index]? = some deletion)
    (deletes : deletion.task.isRootDeletion project = true) (unbegun : deletion.begun = false)
    (advances : Advances index before after) :
    Paused after.engine ∧ after.engine.generation = before.engine.generation + 1
      ∧ after.flights = before.flights.set index ⟨deletion.task, .done (), true⟩ := by
  obtain ⟨event, same, path, change⟩ := Task.eq_of_isRootDeletion deletes
  have original := safe.original index deletion event found unbegun same
  have stage := advance_deletion options path change before.engine
  cases advances with | @steps flight atIndex outside moved engine steps =>
  obtain rfl : flight = deletion := Option.some.inj (atIndex.symm.trans found)
  have pending : flight.routine.isPending = true := by rw [original]; rfl
  obtain ⟨through, changed⟩ := step_of_pending steps pending
  rw [original, stage] at through changed
  dsimp only at through changed
  cases changed
  rw [pending, Bool.or_true, through]
  exact ⟨⟨rfl, rfl⟩, rfl, rfl⟩

/-- Every handler that has begun looked at the generation before. -/
theorem pauses_of_deletion {index : Nat} {deletion : Flight} (safe : before.Safe project options)
    (found : before.flights[index]? = some deletion)
    (deletes : deletion.task.isRootDeletion project = true) (unbegun : deletion.begun = false)
    (advances : Advances index before after) : after.Pauses project options after := by
  obtain ⟨paused, next, flights⟩ := paused_of_deletion safe found deletes unbegun advances
  refine ⟨(safe.advances advances).2, paused, Nat.le_refl _, Nat.le_refl _, ?_⟩
  rw [next, flights]
  intro other flying atOther
  rcases getElem?_set_eq_some atOther with ⟨_, rfl⟩ | ⟨differs, unmoved⟩
  · exact Or.inl ⟨0, Nat.zero_le _, docile_of_dozes (rests_pure fun _ => id)⟩
  have late (waits : flying.begun = false) :
      (∃ bound ≤ before.engine.generation + 1, Docile bound flying.routine)
        ∨ flying.task.isRootCreation project = true ∧ ∀ earlier,
          (before.flights.set index ⟨deletion.task, .done (), true⟩)[other]? = some earlier →
            earlier.begun = false := by
    rcases Bool.eq_false_or_eq_true (flying.task.isRootCreation project) with creates | quiet
    · refine Or.inr ⟨creates, fun earlier atIndex => ?_⟩
      exact Option.some.inj (atOther.symm.trans atIndex) ▸ waits
    · exact Or.inl ⟨0, Nat.zero_le _, safe.docile other flying unmoved quiet⟩
  cases safe.bounded other flying unmoved with
  | docile bound known docile => exact Or.inl ⟨bound, known, docile⟩
  | fresh unbegun _ => exact late unbegun
  | reading unbegun asked next _ _ => exact late unbegun

end

/-- Once the root manifest's deletion was handled, the engine stays inactive and knows nothing,
whatever the handlers in flight do, until one that began later takes up the processing. -/
theorem pause_is_final {before after later : Traffic}
    (reached : Travels project options {} before) {index : Nat} {deletion : Flight}
    (found : before.flights[index]? = some deletion)
    (deletes : deletion.task.isRootDeletion project = true) (unbegun : deletion.begun = false)
    (deleted : Advances index before after) (goesOn : Travels project options after later) :
    Paused after.engine ∧ (Paused later.engine ∨ Resumed project options after later) := by
  have pauses := pauses_of_deletion (safe_of_travels reached) found deletes unbegun deleted
  exact ⟨pauses.paused, (pauses.travels goesOn).imp_left fun still => still.paused⟩

theorem advances_of_pending {index : Nat} {traffic later : Traffic} {flight : Flight}
    {moved : Routine Unit} (outside : Outside) (found : traffic.flights[index]? = some flight)
    (pending : flight.routine.isPending = true)
    (advances : flight.routine.advance traffic.engine = (moved, later.engine))
    (flights : later.flights = traffic.flights.set index ⟨flight.task, moved, true⟩) :
    Advances index traffic later := by
  have steps : Step consult flight.routine (traffic.engine, outside)
      (flight.routine.advance traffic.engine).1
      ((flight.routine.advance traffic.engine).2, outside) := .goesOn _ pending _ _
  rw [advances] at steps
  have step := Advances.steps flight found outside steps
  rw [pending, Bool.or_true, ← flights] at step
  exact step

theorem advances_of_request {index : Nat} {traffic later : Traffic} {flight : Flight}
    {asked : Request} {next : asked.Answer → Routine Unit} (outside : Outside)
    (found : traffic.flights[index]? = some flight) (same : flight.routine = .request asked next)
    (engine : later.engine = traffic.engine)
    (flights : later.flights
      = traffic.flights.set index ⟨flight.task, next (outside asked), flight.begun⟩) :
    Advances index traffic later := by
  have steps : Step consult (.request asked next) (traffic.engine, outside)
      (next (outside asked)) (later.engine, outside) := by
    rw [engine]
    exact .answered asked next _
  have waits : flight.routine.isPending = false := by rw [same]; rfl
  rw [← same] at steps
  have step := Advances.steps flight found outside steps
  rw [waits, Bool.or_false, ← flights] at step
  exact step

/-- The first look at a root manifest that is deleted while its globs are expanded. -/
theorem pause_outlasts_start : ∃ before after later : Traffic, ∃ starting deletion ended : Flight,
    Travels ⟨"/p"⟩ {} {} before
      ∧ before.flights[0]? = some starting ∧ starting.begun = true
      ∧ before.flights[1]? = some deletion ∧ deletion.task.isRootDeletion ⟨"/p"⟩ = true
      ∧ deletion.begun = false
      ∧ Advances 1 before after ∧ Travels ⟨"/p"⟩ {} after later
      ∧ later.flights[0]? = some ended ∧ ended.routine = .done ()
      ∧ Paused after.engine ∧ (Paused later.engine ∨ Resumed ⟨"/p"⟩ {} after later) := by
  let project : Project := ⟨"/p"⟩
  let event : Event := ⟨.delete, "package.json"⟩
  let outside : Outside := fun
    | .read _ => .ok (.obj [])
    | .write _ _ | .removeDirectory _ => .ok ()
    | .isPresent _ | .hasJsx _ => .ok false
    | .discover _ => .ok ["a"]
    | .sources _ => []
    | .hasFiles _ => false
    | .pause _ => ()
  let deleted : Engine :=
    { generation := 1, log := [⟨.warning, "package.json has been deleted, pausing processing"⟩] }
  -- The globs are expanded once the manifest is read, and what they match comes too late.
  obtain ⟨looks, goesOn, starts, reads, expands, waits, ends⟩ :
      ∃ looks goesOn, start project {} = .request (.read manifestFile) looks
        ∧ (looks (.ok (.obj []))).isPending = true
        ∧ (looks (.ok (.obj []))).advance {} = (.request (.discover []) goesOn, {})
        ∧ (goesOn (.ok ["a"])).isPending = true
        ∧ (goesOn (.ok ["a"])).advance deleted = (.done (), deleted) :=
    ⟨_, _, rfl, rfl, rfl, rfl, rfl⟩
  have deletes : (dispatch project {} event).advance {} = (.done (), deleted) :=
    advance_deletion {} (by decide +kernel) rfl {}
  let starting (routine : Routine Unit) (begun : Bool) : Flight := ⟨.start, routine, begun⟩
  let deletion : Flight := ⟨.dispatch event, dispatch project {} event, false⟩
  let gone : Flight := ⟨.dispatch event, .done (), true⟩
  let before : Traffic := ⟨{}, [starting (.request (.discover []) goesOn) true, deletion]⟩
  let after : Traffic := ⟨deleted, [starting (.request (.discover []) goesOn) true, gone]⟩
  let later : Traffic := ⟨deleted, [starting (.done ()) true, gone]⟩
  have reached : Travels project {} {} before := by
    let departed : Traffic := ⟨{}, [starting (start project {}) false]⟩
    let read : Traffic := ⟨{}, [starting (looks (.ok (.obj []))) false]⟩
    let expanding : Traffic := ⟨{}, [starting (.request (.discover []) goesOn) true]⟩
    have departs : Moves project {} {} departed := .departs {} .start
    have answered : Advances 0 departed read := advances_of_request outside rfl starts rfl rfl
    have looked : Advances 0 read expanding := advances_of_pending outside rfl reads expands rfl
    have last : Moves project {} expanding before := .departs expanding (.dispatch event)
    exact .tail (.tail (.tail (.tail .refl departs) (.advances 0 answered)) (.advances 0 looked)) last
  have deleting : Advances 1 before after := advances_of_pending outside rfl rfl deletes rfl
  have goesLater : Travels project {} after later := by
    let expanded : Traffic := ⟨deleted, [starting (goesOn (.ok ["a"])) true, gone]⟩
    have answered : Advances 0 after expanded := advances_of_request outside rfl rfl rfl rfl
    have ended : Advances 0 expanded later := advances_of_pending outside rfl waits ends rfl
    exact .tail (.tail .refl (.advances 0 answered)) (.advances 0 ended)
  have isDeletion : deletion.task.isRootDeletion project = true := by decide +kernel
  exact ⟨before, after, later, _, deletion, _, reached, rfl, rfl, rfl, isDeletion, rfl, deleting,
    goesLater, rfl, rfl, pause_is_final reached rfl isDeletion rfl deleting goesLater⟩

end Watch

end RefSync
