/-
Handlers that make workspaces ready. Whichever of them it is, the artifact that is there is read
once the workspace takes part, unless it was watched before and no config brought the workspace
back: then the workspace is thought to be up to date.
-/

import RefSync.Proofs.Watch.Aggregate
import RefSync.Proofs.Watch.Resuming
import RefSync.Proofs.Watch.Runs
import RefSync.Proofs.Watch.Synchronized

namespace RefSync

open Routine Path Update

theorem Readiness.eq_all_of_drop {present less : Readiness} (all : present.drop less = .all) :
    present = .all := by
  obtain ⟨manifest, name, config⟩ := present
  obtain ⟨lostManifest, lostName, lostConfig⟩ := less
  revert manifest name config lostManifest lostName lostConfig
  decide

namespace Watch

section

variable {project : Project} {options : SyncOptions} {now : Engine × Disk} {workspace other : String}
  {value : Json} {artifact : Artifact}

/-! ### Workspaces that take no part -/

theorem caughtUp_of_unready {later : Engine × Disk}
    (unready : later.1.registry.isReady workspace = false) :
    CaughtUp project workspace artifact later := by
  intro _ _ ready
  rw [unready] at ready
  cases ready

theorem caughtUp_of_unnamed {later : Engine × Disk}
    (unnamed : later.1.registry.findName workspace = none) :
    CaughtUp project workspace artifact later := by
  intro _ named
  rw [unnamed] at named
  cases named

/-- Who is as ready as before has nothing to catch up with. -/
theorem caughtUp_of_kept (unready : now.1.registry.isReady workspace = false) {later : Engine × Disk}
    (kept : later.1.registry.readinessOf workspace = now.1.registry.readinessOf workspace) :
    CaughtUp project workspace artifact later :=
  caughtUp_of_unready ((Registry.isReady_congr kept).trans unready)

/-- Where readiness is taken away nobody becomes ready. -/
theorem caughtUp_of_dropped (unready : now.1.registry.isReady workspace = false) (lost : Readiness)
    {later : Engine × Disk} (dropped : later.1.registry.readinessOf workspace
      = if workspace = other then (now.1.registry.readinessOf other).drop lost
        else now.1.registry.readinessOf workspace) :
    CaughtUp project workspace artifact later := by
  by_cases own : workspace = other
  · rw [if_pos own, ← own] at dropped
    apply caughtUp_of_unready
    rw [Bool.eq_false_iff, Ne, Registry.isReady_iff] at unready ⊢
    intro all
    apply unready
    rw [dropped] at all
    exact Readiness.eq_all_of_drop all
  · rw [if_neg own] at dropped
    exact caughtUp_of_kept unready dropped

/-- Workspaces that are gone are not ready, and the others are as ready as before. -/
theorem unready_removeWorkspaces {registry : Registry} (before : registry.isReady workspace = false)
    (removed : List String) : (removeWorkspaces registry removed).isReady workspace = false := by
  rw [Bool.eq_false_iff, Ne, Registry.isReady_iff] at before ⊢
  rw [(dropped_removeWorkspaces registry removed).readinessOf]
  split
  · nofun
  · exact before

/-- Bringing the root config in line leaves the registry alone. -/
theorem leads_configureRoot_caughtUp (caughtUp : ∀ after : Engine × Disk,
    after.1.registry = now.1.registry → CaughtUp project workspace artifact after) :
    Leads Disk.alone (configureRoot project) now
      fun result later => result = .ok () → CaughtUp project workspace artifact later := by
  have configures : Abides Disk.alone (.preserving (Unmoved now.1)) (fun _ => True)
      (Unmoved now.1) (configureRoot project) fun _ => Unmoved now.1 :=
    abides_configureRoot permits_unmoved (permitsConfig_unmoved configFile)
  apply (configures.leads ⟨rfl, rfl, rfl⟩).weaken
  rintro _ later ⟨kept, _⟩ _
  exact caughtUp later (kept ⟨rfl, rfl, rfl⟩).registry

/-! ### Artifacts are left alone -/

section

/-- What is read of the artifact of a workspace. -/
structure Shows (project : Project) (workspace : String) (value : Json) (state : Engine × Disk) :
    Prop where
  same : state.2.project = project
  reads : state.2.read (Workspace.artifactPath workspace) = .ok value

attribute [local irreducible] Disk.write

/-- No handler writes an artifact. -/
theorem permitsAll_shows (options : SyncOptions) (relative : project.IsRelative workspace) :
    PermitsAll project (.preserving (Shows project workspace value)) (fun _ => True)
      (Shows project workspace value) options := by
  have writes {path : String} (document : Document)
      (last : (parts path).getLast? = some manifestFile ∨ (parts path).getLast? = some configFile)
      (state : Engine × Disk) (shows_ : Shows project workspace value state) :
      Shows project workspace value (state.1, (state.2.write path document).2) := by
    have same : (state.2.write path document).2.project = state.2.project := by
      rw [(Disk.puts_write state.2 path document).2]
    refine ⟨same.trans shows_.same, ?_⟩
    apply Disk.read_keeps same (Disk.keeps_write state.2 path document) shows_.reads
    rw [shows_.same]
    exact artifact_apart relative last
  refine ⟨⟨fun _ _ kept => kept, fun _ _ _ _ _ _ shows_ => { shows_ with }, fun _ _ _ _ => trivial⟩,
    fun _ _ => trivial, fun _ _ => trivial, fun _ _ _ shows_ => { shows_ with },
    fun _ _ _ shows_ => { shows_ with }, fun _ _ _ => trivial, ?_, fun other => ?_,
    fun other _ _ => ?_, fun other _ _ => ?_⟩
  · exact ⟨trivial, fun _ _ _ _ _ _ _ _ => writes _ (Or.inr (by decide)) _⟩
  · exact ⟨trivial, fun _ _ _ _ _ _ _ _ => writes _ (Or.inr (Workspace.last_configPath other)) _⟩
  · exact ⟨trivial, fun _ _ _ _ _ _ _ _ => writes _ (Or.inl (Workspace.last_manifestPath other)) _⟩
  · exact ⟨trivial, fun _ _ _ _ _ _ _ _ => writes _ (Or.inl (Workspace.last_manifestPath other)) _⟩

end

/-! ### The handlers of a workspace -/

section

variable (unready : now.1.registry.isReady workspace = false)

include unready

theorem leads_configDeleted_caughtUp :
    Leads Disk.alone (configDeleted project other) now
      fun result later => result = .ok () → CaughtUp project workspace artifact later := by
  have dropped (after : Engine × Disk)
      (registry : after.1.registry = now.1.registry.dropReadiness other .onlyConfig) :
      CaughtUp project workspace artifact after := by
    apply caughtUp_of_dropped unready .onlyConfig
    rw [registry]
    exact Registry.readinessOf_dropReadiness ..
  exact leads_configGone (fun _ => leads_configureRoot_caughtUp dropped) (fun _ _ _ => dropped _ rfl)
    fun _ => caughtUp_of_kept unready rfl

theorem leads_manifestDeleted_caughtUp {path : String} :
    Leads Disk.alone (manifestDeleted project path) now
      fun result later => result = .ok () → CaughtUp project workspace artifact later := by
  unfold manifestDeleted
  apply leads_log
  apply leads_modifyRegistry
  apply leads_configureRoot_caughtUp
  intro after registry
  cases watched : isWatched (now.1.registry.unwatchArtifact
      (Workspace.artifactPath (Workspace.ofDocument path))) (Workspace.ofDocument path) with
  | false =>
      apply caughtUp_of_kept unready
      rw [registry]
      dsimp only
      rw [unregister_of_unwatched watched]
      rfl
  | true =>
      apply caughtUp_of_dropped unready .manifestAndName
      rw [registry]
      exact readinessOf_unregister watched _ workspace

theorem leads_artifactWritten_caughtUp {path : String} :
    Leads Disk.alone (artifactWritten project options path) now
      fun result later => result = .ok () → CaughtUp project workspace artifact later := by
  apply ((abides_spare_written (fun _ => True) path).leads trivial).weaken
  intro _ later ended _
  apply caughtUp_of_kept unready
  rw [Registry.readinessOf, ended.1.readiness]
  rfl

theorem leads_artifactCreated_caughtUp {path : String} :
    Leads Disk.alone (artifactCreated project options path) now
      fun result later => result = .ok () → CaughtUp project workspace artifact later := by
  have creates : Abides Disk.alone (sparing fun _ => True) (fun _ => True) (fun _ => True)
      (artifactCreated project options path) fun _ _ => True :=
    abides_artifactCreated (permits_sparing project) (permitsArtifact_sparing _)
  apply (creates.leads trivial).weaken
  intro _ later ended _
  apply caughtUp_of_kept unready
  rw [Registry.readinessOf, ended.1.readiness]
  rfl

section

variable (valid : Artifact.validate value = .ok artifact) (relative : project.IsRelative workspace)

include valid relative

/-- A workspace that its manifest makes ready reads an artifact that it does not watch yet. -/
theorem leads_manifestLoaded_caughtUp {later : Engine × Disk} {readyBefore : Bool}
    {manifest : Manifest} (shows_ : Shows project workspace value later)
    (unwatched : workspace = other →
      Workspace.artifactPath workspace ∉ later.1.registry.artifacts)
    (elsewhere : workspace ≠ other →
      later.1.registry.readinessOf workspace = now.1.registry.readinessOf workspace) :
    Leads Disk.alone (manifestLoaded project options other readyBefore manifest) later
      fun result after => result = .ok () → CaughtUp project workspace artifact after := by
  let awaits := Awaits project later workspace value (workspace = other)
  have registers : Abides Disk.alone (.preserving awaits) (fun _ => True) awaits
      (registerDependencies manifest) fun _ => awaits := by
    unfold registerDependencies
    split
    · exact abides_modify fun _ holds => ⟨fun _ => { holds with }, { holds with }⟩
    · exact abides_pure fun _ => id
  have begins : awaits later := ⟨shows_.same, shows_.reads, rfl, rfl, rfl, fun _ => rfl⟩
  unfold manifestLoaded
  apply (registers.leads begins).bind
  · rintro _ first ⟨_, holds⟩
    apply leads_registry
    apply ((abides_whenever (abides_await_bootstrap relative fun differs same =>
      differs same.symm)).leads holds).bind
    · rintro _ second ⟨_, holds⟩
      apply leads_registry
      apply ((abides_whenever (abides_await_root relative)).leads holds).bind
      · rintro _ third ⟨_, holds⟩
        by_cases own : workspace = other
        · subst own
          apply leads_watch_caughtUp holds.reads valid holds.same relative
          rw [holds.artifacts]
          exact unwatched rfl
        · apply ((abides_spare_watch (fun _ => True) trivial).leads trivial).weaken
          intro _ after ended _
          apply caughtUp_of_kept unready
          rw [← elsewhere own, ← holds.readinessOf own, Registry.readinessOf, ended.1.readiness]
          rfl
      · intro _ _ _ impossible
        cases impossible
    · intro _ _ _ impossible
      cases impossible
  · intro _ _ _ impossible
    cases impossible

variable (reads : now.2.read (Workspace.artifactPath workspace) = .ok value)
  (same : now.2.project = project)

include reads same

/-- A workspace that its config makes ready reads the artifact that is there. -/
theorem leads_configPresent_caughtUp :
    Leads Disk.alone (configPresent project options other) now
      fun result later => result = .ok () → CaughtUp project workspace artifact later := by
  let gained := now.1.registry.addReadiness other .onlyConfig
  have elsewhere (differs : workspace ≠ other) :
      gained.readinessOf workspace = now.1.registry.readinessOf workspace :=
    (Registry.readinessOf_addReadiness ..).trans (if_neg differs)
  apply leads_configBack
  · intro _ _ log
    let resumed : Engine × Disk := ({ now.1 with registry := gained, log := log }, now.2)
    have begins : Awaits project resumed workspace value (workspace = other) resumed :=
      ⟨same, reads, rfl, rfl, rfl, fun _ => rfl⟩
    apply ((abides_await_root relative).leads begins).bind
    · rintro _ later ⟨_, awaits⟩
      by_cases own : workspace = other
      · subst own
        obtain ⟨content, holds⟩ := Disk.readable_of_read awaits.reads
        apply leads_ask
        change Leads Disk.alone (orThrow (later.2.isPresent _) >>= _) later _
        rw [Disk.isPresent_of_walk holds.walk]
        exact leads_written_caughtUp awaits.reads valid awaits.same relative
      · have present : Abides Disk.alone (sparing fun _ => True) (fun _ => True) (fun _ => True)
            (whenPresent (Workspace.artifactPath other)
              (artifactWritten project options (Workspace.artifactPath other))) fun _ _ => True :=
          abides_whenPresent (permits_sparing project) trivial (abides_spare_written _ _)
        apply (present.leads trivial).weaken
        intro _ after ended _
        apply caughtUp_of_kept unready
        rw [← elsewhere own, ← awaits.readinessOf own, Registry.readinessOf, ended.1.readiness]
        rfl
    · intro _ _ _ impossible
      cases impossible
  · intro _ still log _
    by_cases own : workspace = other
    · subst own
      exact caughtUp_of_unready still
    · exact caughtUp_of_kept unready (elsewhere own)
  · exact fun _ _ => caughtUp_of_kept unready rfl

theorem leads_manifestWritten_caughtUp (sound : now.1.registry.Sound project) {path : String}
    (stem : IsStem (Workspace.ofDocument path))
    (unwatched : workspace = Workspace.ofDocument path →
      Workspace.artifactPath workspace ∉ now.1.registry.artifacts) :
    Leads Disk.alone (manifestWritten project options path) now
      fun result later => result = .ok () → CaughtUp project workspace artifact later := by
  have loads : Leads Disk.alone (loadManifest project (Workspace.ofDocument path)) now _ :=
    (abides_loadManifest (permitsAll_shows options relative) _).leads ⟨same, reads⟩
  unfold manifestWritten
  apply leads_registry
  apply (loads.both (leads_reread sound stem)).bind
  · rintro loaded later ⟨⟨_, shows_⟩, reread⟩
    have reread := reread loaded rfl
    cases loaded with
    | none =>
        have still (after : Engine × Disk) (registry : after.1.registry = later.1.registry) :
            CaughtUp project workspace artifact after := by
          by_cases own : workspace = Workspace.ofDocument path
          · apply caughtUp_of_unnamed
            rw [registry, own]
            exact reread.unnamed rfl
          · apply caughtUp_of_kept unready
            rw [registry]
            exact reread.readinessOf workspace own
        apply leads_onlyIf
        · exact fun _ => leads_configureRoot_caughtUp still
        · exact fun _ _ => still later rfl
    | some manifest =>
        apply leads_manifestLoaded_caughtUp unready valid relative shows_
        · rw [reread.artifacts]
          exact unwatched
        · exact reread.readinessOf workspace
  · intro _ _ _ impossible
    cases impossible

/-! ### The root -/

theorem leads_addWorkspaces_caughtUp {added : List String} {generation : Nat}
    (addition : Addition project False added generation now) :
    Leads Disk.alone (addWorkspaces project options added generation) now
      fun result later => result = .ok () → CaughtUp project workspace artifact later := by
  apply leads_addWorkspaces addition (fun impossible => by cases impossible)
  · intro loaded come
    have still : isCurrent loaded.1 generation = true := by
      rw [isCurrent, come.active, come.generation]
      exact addition.current
    have unwatched (member : workspace ∈ added) :
        Workspace.artifactPath workspace ∉ loaded.1.registry.artifacts := by
      rw [come.artifacts]
      intro held
      exact addition.new workspace member
        (addition.orderly.sound.watches_of_artifact relative.spelled.stem held).2
    apply (leads_bringUp_caughtUp still addition.distinct addition.relative relative
      (come.files ▸ reads) valid (come.files ▸ same) unwatched).weaken
    intro result later ended ok
    rcases ended ok with ⟨_, _, caughtUp⟩ | ⟨lacks, kept⟩
    · exact caughtUp
    · by_cases member : workspace ∈ added
      · apply caughtUp_of_unready
        rw [Bool.eq_false_iff, Ne, Registry.isReady_iff, kept]
        intro all
        have bit := Registry.hasReadiness_manifest.symm.trans (lacks member)
        rw [all] at bit
        cases bit
      · exact caughtUp_of_kept unready (kept.trans (come.readinessOf workspace member))
  · intro _ _ _ _ _ _ impossible
    cases impossible

theorem leads_rootCreated_caughtUp (orderly : now.1.Orderly project False [])
    (inactive : now.1.active = false) :
    Leads Disk.alone (rootCreated project options) now
      fun result later => result = .ok () → CaughtUp project workspace artifact later := by
  apply leads_creation orderly same inactive
  · intro _ _ _ impossible
    cases impossible
  · intro found _ addition
    let begun : Engine × Disk := ({ now.1 with active := true }, now.2)
    have before : begun.1.registry.isReady workspace = false := unready
    exact leads_addWorkspaces_caughtUp before valid relative reads same addition

theorem leads_rootUpdated_caughtUp (orderly : now.1.Orderly project False [])
    (active : now.1.active = true) :
    Leads Disk.alone (rootUpdated project options) now
      fun result later => result = .ok () → CaughtUp project workspace artifact later := by
  apply leads_exchange orderly same active
  · intro _ _ _ impossible
    cases impossible
  · exact fun _ _ _ _ => caughtUp_of_kept unready rfl
  · intro found added gone log _ addition
    have before : (exchanging now gone log).1.registry.isReady workspace = false :=
      unready_removeWorkspaces unready gone
    exact leads_addWorkspaces_caughtUp before valid relative reads same addition

/-- Whatever the event, a workspace that it makes ready catches up, unless a manifest did and the
artifact was watched all along. -/
theorem leads_handle_caughtUp {kind : DocumentKind} {change : Change} {path : String}
    (orderly : now.1.Orderly project False [])
    (classified : classifyRelative now.1.registry path = some kind)
    (fresh : Workspace.artifactPath workspace ∉ now.1.registry.artifacts
      ∨ kind = .workspaceConfig) :
    Leads Disk.alone (handle project options kind change path) now
      fun result later => result = .ok () → CaughtUp project workspace artifact later := by
  have rootPresent : Leads Disk.alone (do
      if (← engine).active then rootUpdated project options else rootCreated project options) now
      fun result later => result = .ok () → CaughtUp project workspace artifact later := by
    apply leads_engine
    cases active : now.1.active with
    | true => exact leads_rootUpdated_caughtUp unready valid relative reads same orderly active
    | false => exact leads_rootCreated_caughtUp unready valid relative reads same orderly active
  cases kind with
  | rootManifest =>
      cases change with
      | create => exact rootPresent
      | update => exact rootPresent
      | delete => exact fun _ _ => caughtUp_of_unready rfl
  | workspaceManifest =>
      have stem := (orderly.sound.watches_ofDocument (classifyRelative_eq_some classified)).1.1
      have unwatched := fresh.resolve_right nofun
      have written : Leads Disk.alone (manifestWritten project options path) now _ :=
        leads_manifestWritten_caughtUp unready valid relative reads same orderly.sound stem
          fun _ => unwatched
      cases change with
      | create => exact written
      | update => exact written
      | delete => exact leads_manifestDeleted_caughtUp unready
  | workspaceConfig =>
      have present : Leads Disk.alone
          (configPresent project options (Workspace.ofDocument path)) now _ :=
        leads_configPresent_caughtUp unready valid relative reads same
      cases change with
      | create => exact present
      | update => exact present
      | delete => exact leads_configDeleted_caughtUp unready
  | artifact =>
      cases change with
      | create => exact leads_artifactCreated_caughtUp unready
      | update => exact leads_artifactWritten_caughtUp unready
      | delete => exact fun _ _ => caughtUp_of_kept unready rfl

end

end

end

/-- A workspace that an event makes ready, and that did not watch its artifact yet or is brought back
by its config, ends up with a config that refers to exactly what its artifact refers to, whenever
that was written. -/
theorem resumed_workspace_catches_up (project : Project) (options : SyncOptions)
    {before after : Engine × Disk} (reached : Reached project options (fun _ => True) before)
    {event : Event} (handled : Handled project options event before after) {workspace : String}
    (unready : before.1.registry.isReady workspace = false)
    (ready : after.1.registry.isReady workspace = true)
    (fresh : Workspace.artifactPath workspace ∉ before.1.registry.artifacts
      ∨ classify project before.1.registry event.path = some .workspaceConfig)
    {value : Json} {artifact : Artifact}
    (reads : before.2.read (Workspace.artifactPath workspace) = .ok value)
    (valid : Artifact.validate value = .ok artifact) :
    after.2.read (Workspace.artifactPath workspace) = .ok value
      ∧ ∃ name, after.1.registry.findName workspace = some name
        ∧ after.2.Refers workspace (IsTarget project after.1.registry workspace
          (discoveredNames project after.1.registry (Workspace.artifactPath workspace) name
            artifact)) := by
  have nowhere : False → ∀ disk : Disk, True → disk.PlainManifests := nofun
  obtain ⟨orderly, same⟩ := reached.orderly nowhere
  have sound := ((Reached.dispatched reached trivial event handled.dispatched).orderly nowhere).1.sound
  have watches : after.1.registry.Watches workspace :=
    sound.ready workspace fun none => by
      rw [Registry.isReady_iff, none] at ready
      cases ready
  have relative := sound.relative watches
  obtain ⟨name, named⟩ := Option.isSome_iff_exists.mp (sound.named_of_ready ready)
  cases handled with
  | ignored =>
      rw [unready] at ready
      cases ready
  | @completed kind classified _ finishes =>
      have kept : Leads Disk.alone
          (handle project options kind event.change (project.relative event.path)) before _ :=
        (abides_handle (permitsAll_shows options relative) kind event.change _).leads ⟨same, reads⟩
      have isConfig : Workspace.artifactPath workspace ∉ before.1.registry.artifacts
          ∨ kind = .workspaceConfig :=
        fresh.imp_right fun config => Option.some.inj (classified.symm.trans config)
      have caughtUp := (leads_handle_caughtUp unready valid relative reads same orderly classified
        isConfig).finishes finishes rfl
      refine ⟨(kept.finishes finishes).2.reads, name, named, ?_⟩
      exact caughtUp name named ready (List.contains_iff_mem.mpr watches.2)

section

attribute [local irreducible] start dispatch handle

/-- The files of a project in which one workspace has some manifest, and perhaps refers to another
one. -/
def referringFiles (manifest : String) (compiled : List (Place × Entry)) : FileTree :=
  pairFiles "\x7b\"workspaces\":[\"a\",\"b\"]\x7d" ([(["p", "a"], .directory),
    (["p", "a", "package.json"], .file (.text manifest.toList))] ++ compiled)

/-- A workspace beside another one refers to it by one path. -/
theorem isTarget_sole (registry : Registry) (place : registry.findPath "b" = some "b") :
   IsTarget ⟨"/p"⟩ registry "a" ["b"] = (· = "../b") := by
  have reference : (Project.mk "/p").referencePath? "b" (some "a") = some "../b" := by decide +kernel
  funext path
  apply propext
  constructor
  · rintro ⟨other, member, at_, found, refersTo⟩
    cases List.mem_singleton.mp member
    cases place.symm.trans found
    exact Option.some.inj (refersTo.symm.trans reference)
  · rintro rfl
    exact ⟨"b", List.mem_singleton.mpr rfl, "b", place, reference⟩

/-- While a workspace had no config it was compiled; with the config back it refers to the other
one. -/
theorem recompiled_workspace_catches_up :
    ∃ before after, Reached ⟨"/p"⟩ {} (fun _ => True) before
      ∧ Handled ⟨"/p"⟩ {} { change := .create, path := "/p/a/tsconfig.json" } before after
      ∧ before.1.registry.isReady "a" = false ∧ after.1.registry.isReady "a" = true
      ∧ after.2.Refers "a" (· = "../b") := by
  let disk : Disk := { project := ⟨"/p"⟩, files := referringFiles "\x7b\"name\":\"a\"\x7d" [] }
  let files := referringFiles "\x7b\"name\":\"a\"\x7d" (compiledFiles ["p", "a"] "../../b/b.ts")
  let event : Event := { change := .create, path := "/p/a/tsconfig.json" }
  let deleted : Event := { change := .delete, path := "/p/a/tsconfig.json" }
  obtain ⟨begun, isBegun⟩ : ∃ begun, (start ⟨"/p"⟩ {}).run Disk.alone ({}, disk) = begun := ⟨_, rfl⟩
  let bare : Engine × Disk := (begun.2.1, { begun.2.2 with files := disk.files })
  obtain ⟨paused, isPaused⟩ : ∃ paused, (dispatch ⟨"/p"⟩ {} deleted).run Disk.alone bare = paused :=
    ⟨_, rfl⟩
  let before : Engine × Disk := (paused.2.1, { paused.2.2 with files := files })
  obtain ⟨done, isDone⟩ : ∃ done, (handle ⟨"/p"⟩ {} .workspaceConfig .create
      "a/tsconfig.json").run Disk.alone before = done := ⟨_, rfl⟩
  obtain ⟨starts, pauses, ends, classified, spelled, unready, ready, checks, named, discovered, place⟩ :
      begun.1 = .ok () ∧ paused.1 = .ok () ∧ done.1 = .ok ()
      ∧ classify ⟨"/p"⟩ before.1.registry event.path = some .workspaceConfig
      ∧ (Project.mk "/p").relative event.path = "a/tsconfig.json"
      ∧ before.1.registry.isReady "a" = false ∧ done.2.1.registry.isReady "a" = true
      ∧ ((before.2.read (Workspace.artifactPath "a")).toOption.any
        fun value => decide (Artifact.validate value = .ok (linkArtifact "../../b/b.ts"))) = true
      ∧ done.2.1.registry.findName "a" = some "a"
      ∧ discoveredNames ⟨"/p"⟩ done.2.1.registry (Workspace.artifactPath "a") "a"
        (linkArtifact "../../b/b.ts") = ["b"]
      ∧ done.2.1.registry.findPath "b" = some "b" := by
    subst isDone isPaused isBegun
    decide +kernel
  have first := run_finishes Disk.alone (start ⟨"/p"⟩ {}) ({}, disk)
  rw [isBegun, starts] at first
  have second := run_finishes Disk.alone (dispatch ⟨"/p"⟩ {} deleted) bare
  rw [isPaused, pauses] at second
  have reached : Reached ⟨"/p"⟩ {} (fun _ => True) before :=
    .edited (.dispatched (.edited (.started disk rfl trivial first) disk.files) trivial deleted second) files
  have third := run_finishes Disk.alone (handle ⟨"/p"⟩ {} .workspaceConfig .create "a/tsconfig.json")
    before
  rw [isDone, ends, ← spelled] at third
  have handled : Handled ⟨"/p"⟩ {} event before done.2 := .completed classified third
  obtain ⟨value, reads, valid⟩ := ok_of_any checks
  obtain ⟨_, name, named', refers⟩ := resumed_workspace_catches_up ⟨"/p"⟩ {} reached handled unready
    ready (Or.inr classified) reads (of_decide_eq_true valid)
  cases named.symm.trans named'
  rw [discovered, isTarget_sole _ place] at refers
  exact ⟨before, done.2, reached, handled, unready, ready, refers⟩
/-- A config that lists nothing refers to nothing. -/
theorem not_refers_of_bare {disk : Disk} {workspace path : String} {targets : String → Prop}
    (reads : disk.read (Workspace.configPath workspace) = .ok (.obj [])) (target : targets path) :
    ¬disk.Refers workspace targets := by
  rintro (⟨config, entries, readsConfig, lists, _, listed⟩ | ⟨vacant, _⟩)
  · cases reads.symm.trans readsConfig
    have bare : Config.Lists [] [] := ⟨nofun, Or.inr ⟨rfl, rfl⟩⟩
    have member := (listed path).mpr target
    rw [Config.lists_unique lists bare] at member
    cases member
  · exact vacant.unread _ reads

/-- While its manifest was invalid a workspace was compiled; with the manifest repaired it is ready,
and does not refer to the other one. -/
theorem recompiled_workspace_is_behind :
    ∃ before after value artifact, Reached ⟨"/p"⟩ {} (fun _ => True) before
      ∧ Handled ⟨"/p"⟩ {} { change := .update, path := "/p/a/package.json" } before after
      ∧ before.1.registry.isReady "a" = false ∧ after.1.registry.isReady "a" = true
      ∧ after.2.read (Workspace.artifactPath "a") = .ok value
      ∧ Artifact.validate value = .ok artifact ∧ after.1.registry.findName "a" = some "a"
      ∧ ¬after.2.Refers "a" (IsTarget ⟨"/p"⟩ after.1.registry "a"
        (discoveredNames ⟨"/p"⟩ after.1.registry (Workspace.artifactPath "a") "a" artifact)) := by
  let manifest := "\x7b\"name\":\"a\"\x7d"
  let config : List (Place × Entry) :=
    [(["p", "a", "tsconfig.json"], .file (.text "\x7b\x7d".toList))]
  let disk : Disk := { project := ⟨"/p"⟩, files := referringFiles manifest config }
  let compiled := compiledFiles ["p", "a"] "../../b/b.ts"
  let invalid := referringFiles "[]" compiled
  let files := referringFiles manifest compiled
  let event : Event := { change := .update, path := "/p/a/package.json" }
  let written : Event := { change := .create, path := "/p/a/.ts/tsconfig.tsbuildinfo" }
  obtain ⟨begun, isBegun⟩ : ∃ begun, (start ⟨"/p"⟩ {}).run Disk.alone ({}, disk) = begun := ⟨_, rfl⟩
  let broken : Engine × Disk := (begun.2.1, { begun.2.2 with files := invalid })
  obtain ⟨paused, isPaused⟩ : ∃ paused, (dispatch ⟨"/p"⟩ {} event).run Disk.alone broken = paused :=
    ⟨_, rfl⟩
  obtain ⟨missed, isMissed⟩ :
      ∃ missed, (dispatch ⟨"/p"⟩ {} written).run Disk.alone paused.2 = missed := ⟨_, rfl⟩
  let before : Engine × Disk := (missed.2.1, { missed.2.2 with files := files })
  obtain ⟨done, isDone⟩ : ∃ done, (handle ⟨"/p"⟩ {} .workspaceManifest .update
      "a/package.json").run Disk.alone before = done := ⟨_, rfl⟩
  obtain ⟨starts, pauses, misses, ends, classified, spelled, unready, ready, checks, named, discovered,
      place, configs⟩ :
      begun.1 = .ok () ∧ paused.1 = .ok () ∧ missed.1 = .ok () ∧ done.1 = .ok ()
      ∧ classify ⟨"/p"⟩ before.1.registry event.path = some .workspaceManifest
      ∧ (Project.mk "/p").relative event.path = "a/package.json"
      ∧ before.1.registry.isReady "a" = false ∧ done.2.1.registry.isReady "a" = true
      ∧ ((done.2.2.read (Workspace.artifactPath "a")).toOption.any
        fun value => decide (Artifact.validate value = .ok (linkArtifact "../../b/b.ts"))) = true
      ∧ done.2.1.registry.findName "a" = some "a"
      ∧ discoveredNames ⟨"/p"⟩ done.2.1.registry (Workspace.artifactPath "a") "a"
        (linkArtifact "../../b/b.ts") = ["b"]
      ∧ done.2.1.registry.findPath "b" = some "b"
      ∧ ((done.2.2.read (Workspace.configPath "a")).toOption.any
        fun value => value.members?.any List.isEmpty) = true := by
    subst isDone isMissed isPaused isBegun
    decide +kernel
  have first := run_finishes Disk.alone (start ⟨"/p"⟩ {}) ({}, disk)
  rw [isBegun, starts] at first
  have second := run_finishes Disk.alone (dispatch ⟨"/p"⟩ {} event) broken
  rw [isPaused, pauses] at second
  have third := run_finishes Disk.alone (dispatch ⟨"/p"⟩ {} written) paused.2
  rw [isMissed, misses] at third
  have stopped : Reached ⟨"/p"⟩ {} (fun _ => True) paused.2 :=
    .dispatched (.edited (.started disk rfl trivial first) invalid) trivial event second
  have reached : Reached ⟨"/p"⟩ {} (fun _ => True) before :=
    .edited (.dispatched stopped trivial written third) files
  have fourth := run_finishes Disk.alone (handle ⟨"/p"⟩ {} .workspaceManifest .update "a/package.json")
    before
  rw [isDone, ends, ← spelled] at fourth
  have handled : Handled ⟨"/p"⟩ {} event before done.2 := .completed classified fourth
  obtain ⟨value, reads, valid⟩ := ok_of_any checks
  obtain ⟨config, readsConfig, isConfig⟩ := ok_of_any configs
  have bare : config = .obj [] := by
    cases config with
    | obj config =>
        cases config with
        | nil => rfl
        | cons _ _ => cases isConfig
    | _ => cases isConfig
  subst bare
  refine ⟨before, done.2, value, _, reached, handled, unready, ready, reads,
    of_decide_eq_true valid, named, ?_⟩
  rw [discovered, isTarget_sole _ place]
  exact not_refers_of_bare readsConfig rfl

end

end Watch
end RefSync
