/-
Handlers in flight do not miss anything that they look up, as long as nothing comes between the
naming of new workspaces and the registration of their dependencies: that part of a handler of the
root manifest, its opening, runs on its own. All else may be interleaved in any order, the rest of
those handlers included, whatever is read. Where something does come in between, a lookup fails.
-/

import RefSync.Proofs.Routine.Playing
import RefSync.Proofs.Watch.Pausing

namespace RefSync

open Routine Path

namespace Routine

theorem bind_done {α : Type} (routine : Routine α) : routine.bind .done = routine := by
  induction routine with
  | done value => rfl
  | fail failure => rfl
  | get next ih => exact congrArg Routine.get (funext ih)
  | put engine next ih => exact congrArg (Routine.put engine) ih
  | request asked next ih => exact congrArg (Routine.request asked) (funext ih)
  | group members next _ ih => exact congrArg (Routine.group members) (funext ih)

/-- What a failure of the first part is handled with leaves nothing to do for the rest. -/
theorem recover_bind {α : Type} (routine : Routine α) (rest : α → Routine Unit)
    (handler : Failure → Routine Unit) (skip : α) (idle : rest skip = .done ()) :
    (routine.bind rest).recover handler
      = (routine.recover fun failure => (handler failure).bind fun _ => .done skip).bind
          fun value => (rest value).recover handler := by
  induction routine with
  | done value => rfl
  | fail failure =>
      have ends : (rest skip).recover handler = .done () := by
        rw [idle]
        rfl
      change handler failure = ((handler failure).bind fun _ => .done skip).bind _
      rw [bind_assoc]
      change handler failure = (handler failure).bind fun _ => (rest skip).recover handler
      rw [ends]
      exact (bind_done (handler failure)).symm
  | get next ih => exact congrArg Routine.get (funext fun engine => ih engine rest skip idle)
  | put engine next ih => exact congrArg (Routine.put engine) (ih rest skip idle)
  | request asked next ih =>
      exact congrArg (Routine.request asked) (funext fun given => ih given rest skip idle)
  | group members next _ ih =>
      exact congrArg (Routine.group members) (funext fun results => ih results rest skip idle)

end Routine

namespace Watch

variable {project : Project} {options : SyncOptions}

/-! ### The parts of a handler of the root manifest -/

/-- Adds workspaces up to the time when their dependencies are known, and yields what is to be
brought up then. -/
def joining (project : Project) :
    Option (List String × Nat) → Routine (Option (List String × Nat))
  | some (workspaces, generation) => do
      let current ← joinWorkspaces project workspaces generation
      return if current then some (workspaces, generation) else none
  | none => return none

/-- Brings up what is to be brought up, if there is anything. -/
def bringsUp (project : Project) (options : SyncOptions) :
    Option (List String × Nat) → Routine Unit
  | some (workspaces, generation) => bringUp project options workspaces generation
  | none => .done ()

/-- The part of a root manifest's handler in which workspaces have names and no dependencies. -/
def Task.opening (project : Project) : Task → Routine (Option (List String × Nat))
  | .start => beginning >>= joining project
  | .dispatch event => do
      let _ ← registry
      Routine.recover
        (do (if (← engine).active then updating else creating) >>= joining project)
        fun failure => do
          settle event.change (project.relative event.path) failure
          return none

def Task.closing (project : Project) (options : SyncOptions) (task : Task)
    (due : Option (List String × Nat)) : Routine Unit :=
  match task with
  | .start => bringsUp project options due
  | .dispatch event =>
      (bringsUp project options due).recover (settle event.change (project.relative event.path))

theorem adding_eq (found : Option (List String × Nat)) :
    adding project options found = joining project found >>= bringsUp project options := by
  cases found with
  | none => rfl
  | some due =>
      refine (addWorkspaces_eq project options due.1 due.2).trans ?_
      refine Eq.trans ?_ (Routine.bind_assoc (joinWorkspaces project due.1 due.2) _ _).symm
      refine congrArg (Routine.bind _) (funext fun current => ?_)
      cases current <;> rfl

theorem bind_adding (finds : Routine (Option (List String × Nat))) :
    finds >>= adding project options
      = (finds >>= joining project) >>= bringsUp project options := by
  refine Eq.trans ?_ (Routine.bind_assoc finds (joining project) (bringsUp project options)).symm
  exact congrArg (Routine.bind finds) (funext adding_eq)

/-- A handler of the root manifest is its opening and its closing. -/
theorem Task.routine_eq {task : Task} (creates : task.isRootCreation project = true) :
    task.routine project options = task.opening project >>= task.closing project options := by
  cases task with
  | start => exact start_eq.trans (bind_adding beginning)
  | dispatch event =>
      have both : (project.relative event.path == manifestFile && event.change != .delete) = true :=
        creates
      obtain ⟨path, change⟩ := Bool.and_eq_true_iff.mp both
      have classified (registry : Registry) :
          classify project registry event.path = some .rootManifest := by
        rw [classify, eq_of_beq path]
        rfl
      have written : handle project options .rootManifest event.change (project.relative event.path)
          = (do if (← engine).active then rootUpdated project options
                else rootCreated project options) := by
        cases same : event.change with
        | delete =>
            rw [same] at change
            cases change
        | create => rfl
        | update => rfl
      have handles : handle project options .rootManifest event.change (project.relative event.path)
          = Routine.bind (do (if (← engine).active then updating else creating) >>= joining project)
              (bringsUp project options) := by
        refine written.trans (congrArg Routine.get (funext fun now => ?_))
        change (if now.active = true then rootUpdated project options
            else rootCreated project options)
          = ((if now.active = true then updating else creating) >>= joining project)
              >>= bringsUp project options
        cases now.active with
        | true => exact rootUpdated_eq.trans (bind_adding updating)
        | false => exact rootCreated_eq.trans (bind_adding creating)
      change Watch.dispatch project options event = _
      unfold Watch.dispatch
      simp only [classified]
      refine congrArg Routine.get (funext fun before => ?_)
      have recovers := Routine.recover_bind
        (do (if (← engine).active then updating else creating) >>= joining project)
        (bringsUp project options) (settle event.change (project.relative event.path)) none rfl
      rw [← handles] at recovers
      exact recovers

/-! ### Openings -/

/-- What an opening leaves behind: whatever has a name has its dependencies, and the workspaces to
be brought up are ones that may be registered. -/
def Opened (project : Project) (result : Except Failure (Option (List String × Nat)))
    (later : Engine × Disk) : Prop :=
  later.1.Orderly project True [] ∧
    match result with
    | .ok due => ∀ workspaces generation, due = some (workspaces, generation) →
        ∀ workspace ∈ workspaces, IsStem workspace
    | .error failure => ∀ fault ∈ failure, fault.isFatal = false

section

variable {now : Engine × Disk}

theorem leads_joining {added : List String} {generation : Nat}
    (addition : Addition project True added generation now)
    (plain : ∀ workspace ∈ added, now.2.PlainManifest workspace) :
    Leads Disk.alone (joining project (some (added, generation))) now (Opened project) := by
  apply (leads_joinWorkspaces addition fun _ => plain).bind
  · rintro current later ⟨rfl, come⟩
    refine leads_pure ⟨come.orderly, fun workspaces _ same workspace member => ?_⟩
    cases same
    exact addition.stem member
  · rintro failure later ⟨notFull, _⟩
    exact absurd trivial notFull

/-- How a root manifest's handler may find out what to add. -/
def finding (project : Project) (result : Except Failure (Option (List String × Nat)))
    (later : Engine × Disk) : Prop :=
  match result with
  | .ok (some (workspaces, generation)) =>
      Addition project True workspaces generation later
        ∧ ∀ workspace ∈ workspaces, later.2.PlainManifest workspace
  | .ok none => later.1.Orderly project True []
  | .error failure => later.1.Orderly project True [] ∧ ∀ fault ∈ failure, fault.isFatal = false

theorem leads_opened {finds : Routine (Option (List String × Nat))}
    (leads : Leads Disk.alone finds now (finding project)) :
    Leads Disk.alone (finds >>= joining project) now (Opened project) := by
  apply leads.bind
  · intro found later ended
    cases found with
    | some due => exact leads_joining ended.1 ended.2
    | none => exact leads_pure ⟨ended, nofun⟩
  · exact fun failure later ended => ended

/-- A fault of a document ends no process. -/
theorem finding_refused (orderly : now.1.Orderly project True []) {fault : Fault}
    (document : fault.isDocumentFault = true) : finding project (.error [fault]) now := by
  refine ⟨orderly, fun other member => ?_⟩
  rw [List.mem_singleton.mp member]
  exact notFatal_of_documentFault document

theorem leads_opening {task : Task} (first : task = .start → now.1 = {})
    (orderly : now.1.Orderly project True []) (same : now.2.project = project)
    (plain : now.2.PlainManifests) :
    Leads Disk.alone (task.opening project) now (Opened project) := by
  cases task with
  | start =>
      obtain ⟨engine, disk⟩ := now
      obtain rfl : engine = {} := first rfl
      apply leads_opened
      apply finds_beginning same
      · exact fun fault _ => finding_refused orderly rfl
      · exact fun log _ => orderly.logged log
      · rintro found ⟨manifest, _, answer⟩ addition
        exact ⟨addition, plain _ found answer⟩
  | dispatch event =>
      have finds : Leads Disk.alone (if now.1.active then updating else creating) now
          (finding project) := by
        cases active : now.1.active with
        | true =>
            apply finds_updating orderly same active
            · exact fun fault document _ => finding_refused orderly document
            · exact fun _ _ _ => orderly
            · intro found added gone log exchange addition
              obtain ⟨manifest, _, answer⟩ := exchange.tells
              exact ⟨addition, fun workspace member =>
                plain _ found answer workspace ((exchange.comes workspace).mp member).1⟩
        | false =>
            apply finds_creating orderly same active
            · exact fun fault document _ => finding_refused orderly document
            · rintro found ⟨manifest, _, answer⟩ addition
              exact ⟨addition, plain _ found answer⟩
      intro start
      refine (meets_recover _ _ _).mpr ((leads_opened finds start).weaken ?_)
      intro result start later ended
      cases result with
      | ok due => exact ended
      | error failure =>
          have settles : LeavesOrderly project True
              (settle event.change (project.relative event.path) failure) later fun _ _ => True :=
            (steadily_settle fun fault member _ => ended.2 fault member).alone later ended.1 trivial
          refine (meets_bind _ _ _).mpr ((settles start).weaken fun result start later ended => ?_)
          cases result with
          | ok value => exact ⟨ended.1, nofun⟩
          | error failure => exact ⟨ended.1, fun fault member => ended.2 fault member trivial⟩

end

/-! ### Traffic -/

/-- Traffic in which nothing happens during an opening. Whatever departs otherwise is no handler
that adds workspaces; the manifests of workspaces can be got at by an opening, or are missing. -/
inductive Spaced (project : Project) (options : SyncOptions) : Traffic → Prop where
  | idle : Spaced project options {}
  | opens {before : Traffic} (spaced : Spaced project options before) (task : Task)
      (creates : task.isRootCreation project = true) (first : task = .start → before = {})
      (disk : Disk) (same : disk.project = project) (plain : disk.PlainManifests)
      {result : Except Failure (Option (List String × Nat))} {after : Engine × Disk}
      (finishes : Finishes Disk.alone (task.opening project) (before.engine, disk) result after) :
      Spaced project options
        { engine := after.1
          flights := before.flights
            ++ [⟨task, through result >>= task.closing project options, true⟩] }
  | moves {before after : Traffic} (spaced : Spaced project options before)
      (moves : Moves project options before after)
      (others : ∀ flight ∈ after.flights, flight.begun = false →
        flight.task.isRootCreation project = false) :
      Spaced project options after

/-- How a routine ends that no fatal fault comes from. -/
def calm {α : Type} (result : Except Failure α) (_ : Engine × Outside) : Prop :=
  ∀ failure, result = .error failure → ∀ fault ∈ failure, fault.isFatal = false

/-- A routine on its way that keeps the engine orderly and ends calmly, whatever is read and
whatever others do that keep it orderly too. -/
def Glides (project : Project) (routine : Routine Unit) (engine : Engine) : Prop :=
  ∀ outside, Keeps consult routine (steady Outside project True) (steady Outside project True)
    (engine, outside) calm

theorem quiet_consult : Quiet consult :=
  fun _ _ => rfl

theorem glides_of_steadily {routine : Routine Unit} {pre : Engine → Prop} {engine : Engine}
    (steadily : Steadily consult project True pre routine fun _ _ => True)
    (holds : ∀ engine, engine.Orderly project True [] → pre engine)
    (orderly : engine.Orderly project True []) : Glides project routine engine := by
  intro outside begins allowed
  have begun := (allowed orderly).orderly
  refine (steadily begins begins (.refl begun) (holds _ begun)).weaken fun result start now ended => ?_
  refine ⟨fun _ => ended.1, fun _ _ failure failed fault member => ?_⟩
  subst failed
  exact ended.2 fault member trivial

theorem Glides.later {routine : Routine Unit} {engine after : Engine}
    (glides : Glides project routine engine) (stage : Stage project True engine after) :
    Glides project routine after :=
  fun outside => Keeps.later (glides outside) fun _ => stage

theorem Glides.step {routine moved : Routine Unit} {engine after : Engine} {outside : Outside}
    (glides : Glides project routine engine) (orderly : engine.Orderly project True [])
    (steps : Step consult routine (engine, outside) moved (after, outside)) :
    Stage project True engine after ∧ Glides project moved after := by
  obtain ⟨kept, goesOn⟩ := Keeps.step steps (glides outside)
  have stage : Stage project True engine after := kept orderly
  exact ⟨stage, fun _ => Keeps.later goesOn fun _ => .refl stage.orderly⟩

theorem glides_fail {failure : Failure} {engine : Engine}
    (harmless : ∀ fault ∈ failure, fault.isFatal = false) : Glides project (.fail failure) engine := by
  intro outside begins _
  refine ⟨(steady Outside project True).refl begins, fun _ _ failed same => ?_⟩
  cases same
  exact harmless

/-- Bringing workspaces up does not depend on what else is going on. -/
theorem glides_closing (task : Task) {due : Option (List String × Nat)} {engine : Engine}
    (orderly : engine.Orderly project True [])
    (stems : ∀ workspaces generation, due = some (workspaces, generation) →
      ∀ workspace ∈ workspaces, IsStem workspace) :
    Glides project (task.closing project options due) engine := by
  have brings : Steadily consult project True (fun engine => engine.Orderly project True [])
      (bringsUp project options due) fun _ _ => True := by
    cases due with
    | none => exact steadily_pure fun _ _ => trivial
    | some due =>
        refine (steadily_bringUp quiet_consult options (stems due.1 due.2 rfl) due.2).strengthen ?_
        exact fun engine orderly workspace _ =>
          orderly.settled workspace List.not_mem_nil (Or.inl trivial)
  cases task with
  | start => exact glides_of_steadily brings (fun _ => id) orderly
  | dispatch event =>
      exact glides_of_steadily (brings.recover fun _ harmless => steadily_settle harmless)
        (fun _ => id) orderly

section

attribute [local irreducible] dispatch

theorem glides_departing {task : Task} (other : task.isRootCreation project = false) {engine : Engine}
    (orderly : engine.Orderly project True []) :
    Glides project (task.routine project options) engine := by
  cases task with
  | start => cases other
  | dispatch event =>
      exact glides_of_steadily (steadily_dispatch quiet_consult options other)
        (fun _ _ => trivial) orderly

end

/-- What holds of traffic at any time: every name has its dependencies, and no flight will fail with
a fatal fault. -/
structure Traffic.Calm (project : Project) (traffic : Traffic) : Prop where
  orderly : traffic.engine.Orderly project True []
  glides flight : flight ∈ traffic.flights → Glides project flight.routine traffic.engine

theorem Traffic.Calm.moves {before after : Traffic} (calm : before.Calm project)
    (moves : Moves project options before after)
    (others : ∀ flight ∈ after.flights, flight.begun = false →
      flight.task.isRootCreation project = false) : after.Calm project := by
  cases moves with
  | departs task =>
      refine ⟨calm.orderly, fun flight member => ?_⟩
      rcases List.mem_append.mp member with earlier | last
      · exact calm.glides flight earlier
      · have other := others flight member
        rw [List.mem_singleton.mp last] at other ⊢
        exact glides_departing (other rfl) calm.orderly
  | advances index advances =>
      obtain ⟨flight, found, outside, steps⟩ := advances
      obtain ⟨stage, goesOn⟩ :=
        (calm.glides flight (List.mem_of_getElem? found)).step calm.orderly steps
      refine ⟨stage.orderly, fun other member => ?_⟩
      rcases List.mem_or_eq_of_mem_set member with untouched | rfl
      · exact (calm.glides other untouched).later stage
      · exact goesOn
  | cancelled index flight found =>
      refine ⟨calm.orderly, fun other member => ?_⟩
      rcases List.mem_or_eq_of_mem_set member with untouched | rfl
      · exact calm.glides other untouched
      · exact glides_fail nofun
  | noted =>
      have orderly : (logNotices before.engine).Orderly project True [] := { calm.orderly with }
      have stage : Stage project True before.engine (logNotices before.engine) :=
        ⟨calm.orderly, orderly, fun _ => id⟩
      exact ⟨orderly, fun flight member => (calm.glides flight member).later stage⟩

theorem calm_of_spaced {traffic : Traffic} (spaced : Spaced project options traffic) :
    traffic.Calm project := by
  induction spaced with
  | idle =>
      have orderly : Engine.Orderly project True [] {} :=
        ⟨Registry.sound_empty, fun _ _ _ => Registry.settled_of_unnamed rfl, fun _ => rfl⟩
      exact ⟨orderly, nofun⟩
  | @opens before _ task creates first disk same plain result after finishes ih =>
      have leads : Leads Disk.alone (task.opening project) (before.engine, disk) (Opened project) :=
        leads_opening (fun start => congrArg Traffic.engine (first start)) ih.orderly same plain
      have opened : Opened project result after := leads.finishes finishes
      have stage : Stage project True before.engine after.1 :=
        ⟨ih.orderly, opened.1, fun workspace _ =>
          opened.1.settled workspace List.not_mem_nil (Or.inl trivial)⟩
      refine ⟨opened.1, fun flight member => ?_⟩
      rcases List.mem_append.mp member with earlier | last
      · exact (ih.glides flight earlier).later stage
      · rw [List.mem_singleton.mp last]
        cases result with
        | ok due => exact glides_closing task opened.1 opened.2
        | error failure => exact glides_fail opened.2
  | moves _ moves others ih => exact ih.moves moves others

/-- What the files of a project answer while nobody changes them. -/
def Outside.of (disk : Disk) : Outside :=
  fun asked => (disk.answer asked).1

/-- However handlers in flight are interleaved, and whatever they read, no lookup of one fails. -/
theorem overlapping_lookups_succeed {traffic : Traffic} (spaced : Spaced project options traffic) :
    ∀ flight ∈ traffic.flights, ∀ failure, flight.routine = .fail failure →
      ∀ fault ∈ failure, fault.isFatal = false := by
  intro flight member failure failed
  have glides := (calm_of_spaced spaced).glides flight member
  rw [failed] at glides
  let disk : Disk := { project, files := ⟨[]⟩ }
  exact Keeps.ended (.error failure) (glides (.of disk)) failure rfl

/-! ### Runs on some files -/

/-- Makes steps of flights at places in their routines, one after the other. -/
def fly (outside : Outside) : List (Nat × List Nat) → Traffic → Option Traffic
  | [], traffic => some traffic
  | (index, place) :: legs, traffic =>
      match traffic.flights[index]? with
      | none => none
      | some flight =>
          match stepAt consult place flight.routine (traffic.engine, outside) with
          | none => none
          | some (moved, after) =>
              fly outside legs
                { engine := after.1
                  flights := traffic.flights.set index
                    { flight with routine := moved, begun := flight.begun || flight.routine.isPending } }

/-- The outside is not changed by what it is asked. -/
theorem outside_of_step {α : Type} {routine moved : Routine α} {state after : Engine × Outside}
    (steps : Step consult routine state moved after) : after.2 = state.2 := by
  induction steps with
  | goesOn => rfl
  | answered => rfl
  | member _ _ _ _ ih => exact ih
  | cancelled => rfl
  | joined => rfl

theorem advances_of_stepAt {before : Traffic} {index : Nat} {flight : Flight} {place : List Nat}
    {outside : Outside} {moved : Routine Unit} {after : Engine × Outside}
    (found : before.flights[index]? = some flight)
    (plays : stepAt consult place flight.routine (before.engine, outside) = some (moved, after)) :
    Advances index before
      { engine := after.1
        flights := before.flights.set index
          { flight with routine := moved, begun := flight.begun || flight.routine.isPending } } := by
  have steps := step_of_stepAt plays
  have kept : after.2 = outside := outside_of_step steps
  have same : after = (after.1, outside) := Prod.ext rfl kept
  rw [same] at steps
  exact .steps flight found outside steps

theorem fly_cons {outside : Outside} {leg : Nat × List Nat} {legs : List (Nat × List Nat)}
    {before after : Traffic} (flies : fly outside (leg :: legs) before = some after) :
    ∃ flight moved later, before.flights[leg.1]? = some flight
      ∧ stepAt consult leg.2 flight.routine (before.engine, outside) = some (moved, later)
      ∧ fly outside legs
          { engine := later.1
            flights := before.flights.set leg.1
              { flight with routine := moved, begun := flight.begun || flight.routine.isPending } }
        = some after := by
  unfold fly at flies
  split at flies
  · cases flies
  · rename_i flight found
    split at flies
    · cases flies
    · rename_i moved later plays
      exact ⟨flight, moved, later, found, plays, flies⟩

theorem travels_of_fly {outside : Outside} {legs : List (Nat × List Nat)} {before after : Traffic}
    (flies : fly outside legs before = some after) : Travels project options before after := by
  induction legs generalizing before with
  | nil =>
      cases flies
      exact .refl
  | cons leg legs ih =>
      obtain ⟨flight, moved, later, found, plays, goesOn⟩ := fly_cons flies
      exact .head (.advances leg.1 (advances_of_stepAt found plays)) (ih goesOn)

/-- Handlers of the root manifest that are on their way have had their opening. -/
theorem spaced_of_fly {outside : Outside} {legs : List (Nat × List Nat)} {before after : Traffic}
    (flies : fly outside legs before = some after) (spaced : Spaced project options before)
    (others : ∀ flight ∈ before.flights, flight.begun = false →
      flight.task.isRootCreation project = false) : Spaced project options after := by
  induction legs generalizing before with
  | nil =>
      cases flies
      exact spaced
  | cons leg legs ih =>
      obtain ⟨flight, moved, later, found, plays, goesOn⟩ := fly_cons flies
      have still : ∀ other ∈ before.flights.set leg.1 { flight with
          routine := moved, begun := flight.begun || flight.routine.isPending },
          other.begun = false → other.task.isRootCreation project = false := by
        intro other member unbegun
        rcases List.mem_or_eq_of_mem_set member with untouched | rfl
        · exact others other untouched unbegun
        · exact others flight (List.mem_of_getElem? found) (Bool.or_eq_false_iff.mp unbegun).1
      exact ih goesOn (.moves spaced (.advances leg.1 (advances_of_stepAt found plays)) still) still

/-- The failure that a routine ends with, once it does. -/
def failure? {α : Type} : Routine α → Option Failure
  | .fail failure => some failure
  | _ => none

theorem eq_fail_of_failure? {α : Type} {routine : Routine α} {failure : Failure}
    (fails : failure? routine = some failure) : routine = .fail failure := by
  cases routine with
  | fail other => rw [Option.some.inj fails]
  | _ => cases fails

/-- Two workspaces, one of which has been compiled. -/
def openedFiles : FileTree where
  entries :=
    [(["p"], .directory),
      (["p", "package.json"], .file (.text "\x7b\"workspaces\":[\"a\",\"b\"]\x7d".toList)),
      (["p", "a"], .directory), (["p", "a", "package.json"], .file (.text "\x7b\"name\":\"a\"\x7d".toList)),
      (["p", "a", "tsconfig.json"], .file (.text "\x7b\x7d".toList)), (["p", "a", ".ts"], .directory),
      (["p", "a", ".ts", "tsconfig.tsbuildinfo"],
        .file (.text "\x7b\"program\":\x7b\"fileNames\":[]\x7d\x7d".toList)),
      (["p", "b"], .directory), (["p", "b", "package.json"], .file (.text "\x7b\"name\":\"b\"\x7d".toList))]

/-- The config of a new workspace is seen while it is brought up, and its artifact is read. -/
theorem config_overlaps_bringUp : ∃ traffic, Spaced ⟨"/p"⟩ {} traffic
    ∧ traffic.flights.length = 2 ∧ traffic.engine.registry.isReady "a" = true
    ∧ ∀ flight ∈ traffic.flights, ∀ failure, flight.routine = .fail failure →
      ∀ fault ∈ failure, fault.isFatal = false := by
  let disk : Disk := { project := ⟨"/p"⟩, files := openedFiles }
  let event : Event := ⟨.create, "/p/a/tsconfig.json"⟩
  let opened := (Task.start.opening ⟨"/p"⟩).run Disk.alone ({}, disk)
  let closing : Flight := ⟨.start, through opened.1 >>= Task.start.closing ⟨"/p"⟩ {}, true⟩
  let config : Flight := ⟨.dispatch event, dispatch ⟨"/p"⟩ {} event, false⟩
  -- The start waits for the config of its workspaces, and the event goes on to the artifact.
  let legs : List (Nat × List Nat) := [(0, []), (0, [0])] ++ List.replicate 8 (1, [])
  obtain ⟨traffic, flies, length, ready⟩ :
      ∃ traffic, fly (.of disk) legs ⟨opened.2.1, [closing, config]⟩ = some traffic
        ∧ traffic.flights.length = 2 ∧ traffic.engine.registry.isReady "a" = true := by
    have held : ((fly (.of disk) legs ⟨opened.2.1, [closing, config]⟩).map fun traffic =>
        (traffic.flights.length, traffic.engine.registry.isReady "a")) = some (2, true) := by
      decide +kernel
    obtain ⟨traffic, flies, same⟩ := Option.map_eq_some_iff.mp held
    exact ⟨traffic, flies, congrArg Prod.fst same, congrArg Prod.snd same⟩
  have plain : disk.PlainManifests :=
    Disk.plainManifests_of_directories (by decide +kernel) (by decide +kernel)
  have opens : Spaced ⟨"/p"⟩ {} ⟨opened.2.1, [closing]⟩ :=
    .opens .idle .start rfl (fun _ => rfl) disk rfl plain (run_finishes Disk.alone _ _)
  have others : ∀ flight ∈ [closing, config], flight.begun = false →
      flight.task.isRootCreation ⟨"/p"⟩ = false := by decide +kernel
  have departs : Spaced ⟨"/p"⟩ {} ⟨opened.2.1, [closing, config]⟩ :=
    .moves opens (.departs ⟨opened.2.1, [closing]⟩ (.dispatch event)) others
  have spaced := spaced_of_fly flies departs others
  exact ⟨traffic, spaced, length, ready, overlapping_lookups_succeed spaced⟩

/-- Seen while the manifest of another workspace is still being read, the config makes a workspace
ready whose dependencies nobody knows. -/
theorem interrupted_opening_is_fatal : ∃ traffic, Travels ⟨"/p"⟩ {} {} traffic
    ∧ ∃ flight ∈ traffic.flights,
      flight.routine = .fail [.registry (.unregistered (.dependenciesOf "a"))]
        ∧ (Fault.registry (.unregistered (.dependenciesOf "a"))).isFatal = true := by
  let disk : Disk := { project := ⟨"/p"⟩, files := openedFiles }
  let event : Event := ⟨.create, "/p/a/tsconfig.json"⟩
  let starting : Flight := ⟨.start, start ⟨"/p"⟩ {}, false⟩
  let config : Flight := ⟨.dispatch event, dispatch ⟨"/p"⟩ {} event, false⟩
  -- The start has loaded the first workspace and waits for the second one.
  let legs : List (Nat × List Nat) :=
    List.replicate 4 (0, []) ++ [(0, [0]), (0, [0])] ++ List.replicate 8 (1, [])
  have fails : (fly (.of disk) legs ⟨{}, [starting, config]⟩).bind (fun traffic =>
      traffic.flights[1]?.bind fun flight => failure? flight.routine)
        = some [.registry (.unregistered (.dependenciesOf "a"))] := by
    decide +kernel
  obtain ⟨traffic, flies, ended⟩ := Option.bind_eq_some_iff.mp fails
  obtain ⟨flight, found, failed⟩ := Option.bind_eq_some_iff.mp ended
  have departs : Travels ⟨"/p"⟩ {} {} ⟨{}, [starting, config]⟩ :=
    .tail (.tail .refl (.departs {} .start)) (.departs ⟨{}, [starting]⟩ (.dispatch event))
  exact ⟨traffic, departs.trans (travels_of_fly flies), flight, List.mem_of_getElem? found,
    eq_fail_of_failure? failed, rfl⟩

end Watch
end RefSync
