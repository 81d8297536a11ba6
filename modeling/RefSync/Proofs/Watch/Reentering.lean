/-
What the engine wrote comes back as events. While the globs of the root manifest match the watched
workspaces, hearing of a document that it expects to be written changes at most the dependencies that it
has of one workspace; so the engine goes on to expect all of them, and writes nothing more.
-/

import RefSync.Proofs.Watch.Absorbing

namespace RefSync

open Routine Path Update

namespace Watch

attribute [local irreducible] Disk.write dispatch

variable {project : Project} {options : SyncOptions} {now later : Engine × Disk} {path : String}

/-! ### What an event of an expected document is taken for -/

/-- An expected document is a manifest of a workspace that takes part, or a config. -/
theorem Expects.last {registry : Registry} (expects : Expects registry path) :
    ((parts path).getLast? = some manifestFile ∧ ∃ workspace, path = Workspace.manifestPath workspace
        ∧ (registry.findName workspace).isSome ∧ Partakes registry workspace)
      ∨ (parts path).getLast? = some configFile ∧ (path = configFile
        ∨ ∃ workspace, path = Workspace.configPath workspace
          ∧ (registry.readinessOf workspace).config = true) := by
  cases expects with
  | root own =>
      subst own
      exact Or.inr ⟨by decide, Or.inl rfl⟩
  | config workspace own configured =>
      subst own
      exact Or.inr ⟨Workspace.last_configPath workspace, Or.inr ⟨workspace, rfl, configured⟩⟩
  | manifest workspace own named partakes =>
      subst own
      exact Or.inl ⟨Workspace.last_manifestPath workspace, workspace, rfl, named, partakes⟩

section

variable {registry : Registry} (sound : registry.Sound project) (expects : Expects registry path)

include sound expects

/-- An expected document at the place of a watched manifest is that manifest. -/
theorem expected_manifest (watched : project.relative path ∈ registry.manifests) :
    ∃ workspace, path = Workspace.manifestPath workspace ∧ workspace ≠ "."
      ∧ project.relative path = Workspace.manifestPath workspace
      ∧ (registry.findName workspace).isSome ∧ Partakes registry workspace := by
  obtain ⟨_, relative, same⟩ := sound.manifests _ watched
  have resolved := Workspace.resolved_manifestPath project relative.spelled.stem
  rw [← same, project.resolved_relative path] at resolved
  have manifest : (project.resolved path).getLast? = some manifestFile := by
    rw [resolved, List.getLast?_concat]
  rcases expects.last with ⟨_, workspace, own, named, partakes⟩ | ⟨own, _⟩
  · obtain ⟨name, held⟩ := Option.isSome_iff_exists.mp named
    have ownRelative := sound.relative (sound.watches_of_named held)
    rw [own, Workspace.resolved_manifestPath project ownRelative.spelled.stem] at resolved
    obtain rfl := ownRelative.injective relative (List.append_inj_left' resolved rfl)
    refine ⟨workspace, own, fun here => ?_, same, named, partakes⟩
    have spelled := project.relative_spelled path
    rw [same, here, IsSpelled] at spelled
    exact absurd spelled (by decide)
  · rw [project.last_resolved own (by decide)] at manifest
    exact absurd manifest (by decide)

/-- An expected document at the place of a workspace's config is that config, and there. -/
theorem expected_config (base : baseName (project.relative path) = configFile)
    (watches : registry.Watches (Workspace.ofDocument (project.relative path))) :
    (registry.readinessOf (Workspace.ofDocument (project.relative path))).config = true := by
  have spelled := project.relative_spelled path
  have place := project.resolved_relative path
  have relative := sound.relative watches
  have same := Workspace.configPath_ofDocument spelled watches.1 base
  have resolved := Workspace.resolved_configPath project watches.1
  rw [← same, place] at resolved
  have config : (project.resolved path).getLast? = some configFile := by
    rw [resolved, List.getLast?_concat]
  rcases expects.last with ⟨own, _⟩ | ⟨_, own | ⟨workspace, own, configured⟩⟩
  · rw [project.last_resolved own (by decide)] at config
    exact absurd config (by decide)
  · have below : Workspace.ofDocument (project.relative path) ≠ "." := by
      intro here
      rw [same, here, IsSpelled] at spelled
      exact absurd spelled (by decide)
    have elsewhere := Workspace.configPath_apart project watches.1 (relative.apart below)
    rw [← same, place, own] at elsewhere
    exact absurd rfl elsewhere
  · have known : registry.readinessOf workspace ≠ .none := by
      intro none
      rw [none] at configured
      cases configured
    have ownRelative := sound.relative (sound.ready workspace known)
    have owned := congrArg project.resolved own
    rw [resolved, Workspace.resolved_configPath project ownRelative.spelled.stem] at owned
    have owner := relative.injective ownRelative (List.append_inj_left' owned rfl)
    exact (congrArg (fun workspace => (registry.readinessOf workspace).config) owner).trans configured

/-- No document that is expected is at the place of an artifact. -/
theorem not_artifact_of_expected : project.relative path ∉ registry.artifacts := by
  intro watched
  obtain ⟨workspace, watches, same⟩ := sound.artifacts _ watched
  have artifact := project.last_resolved (Workspace.last_artifactPath watches.1) (by decide)
  rw [← same, project.resolved_relative path] at artifact
  rcases expects.last with ⟨own, _⟩ | ⟨own, _⟩
  · rw [project.last_resolved own (by decide)] at artifact
    exact absurd artifact (by decide)
  · rw [project.last_resolved own (by decide)] at artifact
    exact absurd artifact (by decide)

/-- What an event of an expected document may be taken for: one of the root manifest, one of the
manifest itself, or one of a config that is there. -/
theorem classified_expected {kind : DocumentKind}
    (classified : classifyRelative registry (project.relative path) = some kind) :
    match kind with
    | .rootManifest => project.relative path = manifestFile
    | .workspaceManifest => ∃ workspace, path = Workspace.manifestPath workspace ∧ workspace ≠ "."
        ∧ project.relative path = Workspace.manifestPath workspace
        ∧ (registry.findName workspace).isSome ∧ Partakes registry workspace
    | .workspaceConfig =>
        (registry.readinessOf (Workspace.ofDocument (project.relative path))).config = true
    | .artifact => False := by
  have told := classifyRelative_eq_some classified
  cases kind with
  | rootManifest => exact told
  | artifact => exact not_artifact_of_expected sound expects told
  | workspaceManifest => exact expected_manifest sound expects told
  | workspaceConfig =>
      exact expected_config sound expects told.1
        (watches_above sound (project.relative_spelled path) told.2)

end

/-! ### What such an event leads to -/

/-- Whether the engine is through with a document: it expects it to be written, a manifest gives the
name that the engine knows, and the root manifest tells the workspaces that are watched. -/
structure Absorbs (project : Project) (state : Engine × Disk) (path : String) : Prop where
  expects : Expects state.1.registry path
  carries workspace name : path = Workspace.manifestPath workspace → workspace ≠ "." →
    state.1.registry.findName workspace = some name → state.2.Carries workspace name
  still : project.relative path = manifestFile → ∀ found, state.2.Tells found →
    ∀ workspace, workspace ∈ state.1.registry.watched ↔ workspace ∈ found

/-- What is left of an engine that heard nothing new: other dependencies and messages at most. -/
structure Overhears (before after : Engine × Disk) : Prop where
  files : after.2 = before.2
  registry : after.1.registry
    = { before.1.registry with dependencies := after.1.registry.dependencies }

theorem Overhears.refl (state : Engine × Disk) : Overhears state state :=
  ⟨rfl, rfl⟩

theorem Absorbs.overheard (absorbs : Absorbs project now path) (overhears : Overhears now later) :
    Absorbs project later path := by
  obtain ⟨files, registry⟩ := overhears
  have findName (workspace : String) :
      later.1.registry.findName workspace = now.1.registry.findName workspace := by
    rw [registry]
    rfl
  have readinessOf (workspace : String) :
      later.1.registry.readinessOf workspace = now.1.registry.readinessOf workspace := by
    rw [registry]
    rfl
  have artifacts : later.1.registry.artifacts = now.1.registry.artifacts := by rw [registry]
  have watched : later.1.registry.watched = now.1.registry.watched := by
    rw [registry]
    rfl
  refine ⟨?_, fun workspace name own below named => ?_, fun root found tells => ?_⟩
  · cases absorbs.expects with
    | root own => exact .root own
    | config workspace own configured =>
        exact .config workspace own ((readinessOf workspace).symm ▸ configured)
    | manifest workspace own named partakes =>
        exact .manifest workspace own ((findName workspace).symm ▸ named)
          ⟨(readinessOf workspace).symm ▸ partakes.config, artifacts.symm ▸ partakes.artifact⟩
  · rw [files]
    exact absorbs.carries workspace name own below ((findName workspace) ▸ named)
  · rw [watched]
    exact absorbs.still root found (files ▸ tells)

section

variable (orderly : now.1.Orderly project False []) (same : now.2.project = project)
  (absorbs : Absorbs project now path)

include orderly same absorbs

/-- A handler of a document that the engine is through with is a matter of dependencies. It fails only
where the root manifest is not valid. -/
theorem leads_handle_absorbed (options : SyncOptions) {kind : DocumentKind}
    (classified : classifyRelative now.1.registry (project.relative path) = some kind) :
    Leads Disk.alone (handle project options kind .update (project.relative path)) now
      fun result later => Overhears now later ∧ ∀ failure, result = .error failure →
        ∀ fault ∈ failure, fault.isDocumentFault = true := by
  have sound := orderly.sound
  have told := classified_expected sound absorbs.expects classified
  cases kind with
  | rootManifest =>
      -- Only a manifest is in the place of the root manifest, so there are workspaces.
      have active : now.1.active = true := by
        cases active : now.1.active with
        | true => rfl
        | false =>
            have place := project.resolved_relative path
            rw [told] at place
            have manifest := project.last_resolved
              (show (parts manifestFile).getLast? = some manifestFile by decide) (by decide)
            rw [place] at manifest
            rcases absorbs.expects.last with ⟨_, workspace, _, named, _⟩ | ⟨config, _⟩
            · rw [orderly.idle active] at named
              cases named
            · rw [project.last_resolved config (by decide)] at manifest
              exact absurd manifest (by decide)
      have updates : Leads Disk.alone (do
          if (← engine).active then rootUpdated project options else rootCreated project options) now
          fun result later => Overhears now later ∧ ∀ failure, result = .error failure →
            ∀ fault ∈ failure, fault.isDocumentFault = true := by
        apply leads_engine
        rw [active]
        apply leads_exchange orderly same active
        · rintro fault document _
          refine ⟨.refl _, ?_⟩
          rintro _ ⟨rfl⟩ other member
          rwa [List.mem_singleton.mp member]
        · exact fun _ _ _ => ⟨.refl _, nofun⟩
        · intro found added gone log exchange _
          have still := absorbs.still told found exchange.tells
          exfalso
          rcases exchange.changes with some | some
          · obtain ⟨workspace, member⟩ := List.exists_mem_of_ne_nil _ some
            obtain ⟨isFound, unwatched⟩ := (exchange.comes workspace).mp member
            exact unwatched ((still workspace).mpr isFound)
          · obtain ⟨workspace, member⟩ := List.exists_mem_of_ne_nil _ some
            obtain ⟨watched, unfound⟩ := (exchange.goes workspace).mp member
            exact unfound ((still workspace).mp watched)
      exact updates
  | workspaceManifest =>
      obtain ⟨workspace, own, below, spelled, has, partakes⟩ := told
      obtain ⟨name, named⟩ := Option.isSome_iff_exists.mp has
      have watches := sound.watches_of_named named
      have registered : Registered workspace name now.1.registry :=
        ⟨ready_of_named sound named partakes.config, named, (sound.inverse workspace name).mp named,
          List.contains_iff_mem.mpr watches.2, partakes.artifact⟩
      obtain ⟨manifest, read, given⟩ := absorbs.carries workspace name own below named
      rw [spelled]
      apply (leads_manifestWritten_confirmed registered watches.1 read given).weaken
      rintro _ later ⟨rfl, rfl⟩
      exact ⟨⟨rfl, rfl⟩, nofun⟩
  | workspaceConfig =>
      apply (leads_configPresent_confirmed told).weaken
      rintro _ later ⟨rfl, rfl⟩
      exact ⟨.refl _, nofun⟩
  | artifact => exact told.elim

/-- The event of a document that the engine is through with. -/
theorem leads_dispatch_absorbed {event : Event} (change : event.change = .update)
    (told : project.relative event.path = project.relative path) :
    Leads Disk.alone (dispatch project options event) now fun result later =>
      result = .ok () ∧ Overhears now later := by
  cases classified : classify project now.1.registry event.path with
  | none =>
      apply (leads_dispatch_ignored classified).weaken
      rintro _ _ ⟨ok, rfl⟩
      exact ⟨ok, .refl _⟩
  | some kind =>
      have handles := leads_handle_absorbed orderly same absorbs options
        (told ▸ classified : classifyRelative now.1.registry (project.relative path) = some kind)
      rw [← told, ← change] at handles
      apply (leads_dispatch classified handles).weaken
      rintro result later (⟨ok, overhears, _⟩ | ⟨failure, between, ⟨overhears, documents⟩, settles⟩)
      · exact ⟨ok, overhears⟩
      · cases settles with
        | logged => exact ⟨rfl, overhears.files, overhears.registry⟩
        | fatal fault member fatal =>
            rw [notFatal_of_documentFault (documents failure rfl fault member)] at fatal
            cases fatal
        | raised _ fault member other =>
            rw [documents failure rfl fault member] at other
            cases other

end

/-- Events of documents that the engine is through with, one after another. -/
theorem absorbed_in_turn (orderly : now.1.Orderly project False []) (same : now.2.project = project)
    {events : List Event} (each : ∀ event ∈ events, event.change = .update
      ∧ ∃ path, Absorbs project now path ∧ project.relative event.path = project.relative path) :
    CompletesInTurn project options events now fun later => later.2 = now.2 := by
  suffices general : ∀ now : Engine × Disk, ∀ origin : Disk, now.2 = origin →
      now.1.Orderly project False [] → now.2.project = project →
      (∀ event ∈ events, event.change = .update
        ∧ ∃ path, Absorbs project now path ∧ project.relative event.path = project.relative path) →
      CompletesInTurn project options events now fun later => later.2 = origin from
    general now now.2 rfl orderly same each
  clear orderly same each
  induction events with
  | nil => exact fun _ _ still _ _ _ => still
  | cons event events ih =>
      intro now origin still orderly same each
      obtain ⟨change, path, absorbs, told⟩ := each event List.mem_cons_self
      have remains : Leads Disk.alone (dispatch project options event) now fun result later =>
          orderlyEnd project False (fun _ _ => True) result later later :=
        leavesOrderly_dispatch event orderly same nofun
      apply Leads.completes
      apply ((leads_dispatch_absorbed orderly same absorbs change told).both remains).weaken
      rintro result later ⟨⟨ok, overhears⟩, ended⟩
      refine ⟨ok, ih later origin (overhears.files.trans still) ended.1 (overhears.files ▸ same) ?_⟩
      intro other member
      obtain ⟨otherChange, document, absorbsIt, tells⟩ := each other (List.mem_cons_of_mem _ member)
      exact ⟨otherChange, document, absorbsIt.overheard overhears, tells⟩

/-! ### The engine's own writes -/

/-- Whether an engine is through with all that it has heard of: it is active, and every workspace that
has a name is ready and has its artifact watched. -/
structure AtRest (engine : Engine) : Prop where
  active : engine.active = true
  ready workspace : (engine.registry.findName workspace).isSome →
    engine.registry.isReady workspace = true
  artifact workspace : (engine.registry.findName workspace).isSome →
    Workspace.artifactPath workspace ∈ engine.registry.artifacts

instance (engine : Engine) : Decidable (AtRest engine) :=
  decidable_of_iff (engine.active = true ∧ ∀ workspace ∈ engine.registry.names.keys,
      engine.registry.isReady workspace = true
        ∧ Workspace.artifactPath workspace ∈ engine.registry.artifacts) <| by
    constructor
    · rintro ⟨active, each⟩
      exact ⟨active, fun workspace named => (each workspace (Table.mem_keys_iff.mpr named)).1,
        fun workspace named => (each workspace (Table.mem_keys_iff.mpr named)).2⟩
    · rintro ⟨active, ready, artifact⟩
      exact ⟨active, fun workspace member => ⟨ready workspace (Table.mem_keys_iff.mp member),
        artifact workspace (Table.mem_keys_iff.mp member)⟩⟩

theorem AtRest.partake {engine : Engine} (rests : AtRest engine) : AllPartake engine.registry :=
  fun workspace named =>
    ⟨congrArg Readiness.config (Registry.isReady_iff.mp (rests.ready workspace named)),
      rests.artifact workspace named⟩

/-- Whether an event tells that one of some documents was written. -/
def Event.Echoes (project : Project) (written : List String) (event : Event) : Prop :=
  event.change = .update ∧ ∃ path ∈ written, project.relative event.path = project.relative path

/-- What an event has written is expected, and the engine knows the names of the manifests among it. -/
theorem Handled.absorbed {unseen refused : String → Prop} {before after : Engine × Disk} {event : Event}
    (tracked : Tracked project options unseen refused before) (rests : AtRest before.1)
    (seen : ∀ workspace ∈ before.1.registry.watched, workspace ≠ "." → unseen workspace →
      project.relative event.path = Workspace.manifestPath workspace)
    (handled : Handled project options event before after) :
    before.2.Writes (fun path => Expects after.1.registry path
      ∧ ∀ workspace name, path = Workspace.manifestPath workspace → workspace ≠ "." →
        after.1.registry.findName workspace = some name → after.2.Carries workspace name) after.2 := by
  have keeps := tracked.keeps
  have later := (tracked.handled event handled).keeps
  cases handled with
  | ignored => exact Disk.writes_of_same _ rfl
  | @completed kind classified after finishes =>
      by_cases deletes : event.change = .delete
      · rw [deletes] at finishes
        apply ((leads_deleted_writes kind _).finishes finishes).weaken
        rintro _ rfl
        refine ⟨.root rfl, fun workspace _ own => ?_⟩
        have last := Workspace.last_manifestPath workspace
        rw [← own] at last
        exact absurd last (by decide)
      · have expected := (leads_handle_expected keeps.orderly keeps.same rests.active rests.partake deletes
          classified).finishes finishes rfl
        apply expected.weaken
        intro path expects
        refine ⟨expects, fun workspace name _ below named => ?_⟩
        have watches := later.orderly.sound.watches_of_named named
        refine (later.known workspace (later.orderly.sound.relative watches) watches.2 ?_).carried name
          named
        by_cases concerns : Concerns before.1.registry (project.relative event.path) workspace
        · rw [if_pos concerns]
          exact fun gone => deletes gone.1
        · rw [if_neg concerns]
          intro missed
          rw [Concerns, not_or, not_not] at concerns
          refine concerns.2 (seen workspace ((mem_watched keeps.orderly.sound).mpr ⟨?_, concerns.1⟩)
            below missed)
          exact later.orderly.sound.relative watches

/-- An engine at rest that has heard of all manifests, but perhaps of the one that an event tells of,
writes nothing more when it hears of the documents that the event had it write, in any order and as
often as it may be. Where the root manifest is among them, the globs have to match the workspaces that are
watched then. -/
theorem own_writes_are_absorbed (project : Project) (options : SyncOptions)
    {unseen refused : String → Prop} {before after : Engine × Disk} {event : Event}
    (tracked : Tracked project options unseen refused before) (rests : AtRest before.1)
    (seen : ∀ workspace ∈ before.1.registry.watched, workspace ≠ "." → unseen workspace →
      project.relative event.path = Workspace.manifestPath workspace)
    (handled : Handled project options event before after) {written : List String}
    (wrote : after.2.written = before.2.written ++ written)
    (still : (∃ path ∈ written, project.relative path = manifestFile) → ∀ found, after.2.Tells found →
      ∀ workspace, workspace ∈ after.1.registry.watched ↔ workspace ∈ found)
    {events : List Event} (echoes : ∀ echo ∈ events, echo.Echoes project written) :
    CompletesInTurn project options events after fun later => later.2 = after.2 := by
  have later := (tracked.handled event handled).keeps
  obtain ⟨more, spelled, absorbed⟩ := handled.absorbed tracked rests seen
  obtain rfl : written = more := List.append_cancel_left (wrote.symm.trans spelled)
  apply absorbed_in_turn later.orderly later.same
  intro echo member
  obtain ⟨change, path, inWritten, told⟩ := echoes echo member
  obtain ⟨expects, carries⟩ := absorbed path inWritten
  exact ⟨change, path, ⟨expects, carries, fun root => still ⟨path, inWritten, root⟩⟩, told⟩

/-- A root manifest that is the manifest of a workspace too, which depends on another one. -/
def carryingFiles : FileTree where
  entries := [(["p"], .directory),
    (["p", "package.json"], .file (.text ("\x7b\"name\":\"top\",\"workspaces\":[\".\",\"a\",\"pkgs/*\"],"
      ++ "\"dependencies\":\x7b\"a\":\"*\"\x7d\x7d").toList)),
    (["p", "a"], .directory),
    (["p", "a", "package.json"], .file (.text "\x7b\"name\":\"a\"\x7d".toList))]

/-- Files in which that one has another name, and some more. -/
def renamedIn (files : FileTree) (more : List (Place × Entry)) : FileTree where
  entries := (files.put ["p", "a", "package.json"]
    (.file (.text "\x7b\"name\":\"z\"\x7d".toList))).entries ++ more

section

variable {begun done : Except Failure Unit × Engine × Disk} {more : List (Place × Entry)}

/-- What the engine comes to, started on those files: it goes through the start and the rename, and is at
rest in between. -/
def Renames (begun done : Except Failure Unit × Engine × Disk) (more : List (Place × Entry)) : Prop :=
  begun.1 = .ok () ∧ done.1 = .ok () ∧ begun.2.2.project = ⟨"/p"⟩ ∧ AtRest begun.2.1
    ∧ begun.2.1.registry.watched = [".", "a"] ∧ "a/package.json" ∈ begun.2.1.registry.manifests
    ∧ (∀ entry ∈ (renamedIn begun.2.2.files more).entries,
      (renamedIn begun.2.2.files more).isDirectory entry.1.dropLast = true)
    ∧ ((renamedIn begun.2.2.files more).walkFrom [] (parts "/p")).toOption = some ["p"]
    ∧ (manifestOf (Disk.read { begun.2.2 with files := renamedIn begun.2.2.files more }
        "./package.json")).toOption.bind (·.name)
      = (manifestOf (begun.2.2.read "./package.json")).toOption.bind (·.name)

instance : Decidable (Renames begun done more) :=
  inferInstanceAs (Decidable (_ ∧ _))

/-- By then the engine has heard of all manifests but of the one that gives the other name. -/
theorem Renames.tracked (renames : Renames begun done more)
    (isBegun : (start ⟨"/p"⟩ {}).run Disk.alone ({}, { project := ⟨"/p"⟩, files := carryingFiles }) = begun)
    (isDone : (handle ⟨"/p"⟩ {} .workspaceManifest .update "a/package.json").run Disk.alone
      (begun.2.1, { begun.2.2 with files := renamedIn begun.2.2.files more }) = done) :
    ∃ unseen refused, Tracked ⟨"/p"⟩ {} unseen refused
        (begun.2.1, { begun.2.2 with files := renamedIn begun.2.2.files more })
      ∧ (∀ workspace ∈ begun.2.1.registry.watched, unseen workspace →
        (Project.mk "/p").relative "/p/a/package.json" = Workspace.manifestPath workspace)
      ∧ Handled ⟨"/p"⟩ {} { change := .update, path := "/p/a/package.json" }
        (begun.2.1, { begun.2.2 with files := renamedIn begun.2.2.files more }) done.2 := by
  obtain ⟨starts, ends, same, _, watched, member, entries, rooted, agrees⟩ := renames
  have spelled : (Project.mk "/p").relative "/p/a/package.json" = "a/package.json" := by decide +kernel
  have here : parts "/p" = ["p"] := by decide +kernel
  have grounded : Disk.Grounded { project := ⟨"/p"⟩, files := carryingFiles } := by
    refine ⟨FileTree.isGrounded_of_entries (by decide +kernel), ["p"], ?_⟩
    rw [here]
    rfl
  have groundedThen : Disk.Grounded { begun.2.2 with files := renamedIn begun.2.2.files more } := by
    refine ⟨FileTree.isGrounded_of_entries entries, ["p"], ?_⟩
    rw [same]
    cases walked : (renamedIn begun.2.2.files more).walkFrom [] (parts "/p") with
    | error fault =>
        rw [walked] at rooted
        cases rooted
    | ok place =>
        rw [walked] at rooted
        exact congrArg Except.ok (Option.some.inj rooted)
  have finishes := run_finishes Disk.alone (start ⟨"/p"⟩ {})
    ({}, { project := ⟨"/p"⟩, files := carryingFiles })
  rw [isBegun, starts] at finishes
  have tracked := (Tracked.started _ rfl grounded finishes).edited (renamedIn begun.2.2.files more)
    groundedThen
  refine ⟨_, _, tracked, ?_, ?_⟩
  · intro workspace inWatched missed
    rw [watched, List.mem_cons, List.mem_singleton] at inWatched
    rcases inWatched with rfl | rfl
    · -- The name of the root workspace is what it was.
      rcases missed with failed | differs
      · exact absurd rfl failed
      · refine absurd (fun name => ?_) differs
        rw [Disk.carries_iff, Disk.carries_iff]
        exact Iff.of_eq (congrArg (· = some name) agrees)
    · exact spelled
  · exact .updated (begun.2.1, { begun.2.2 with files := renamedIn begun.2.2.files more })
      tracked.keeps.orderly.sound spelled member isDone ends

end

/-- The root manifest follows the rename of a workspace, and that is all. -/
theorem renamed_dependency_is_absorbed :
    ∃ unseen refused before after, Tracked ⟨"/p"⟩ {} unseen refused before ∧ AtRest before.1
      ∧ Handled ⟨"/p"⟩ {} { change := .update, path := "/p/a/package.json" } before after
      ∧ after.2.written = before.2.written ++ ["./package.json"]
      ∧ CompletesInTurn ⟨"/p"⟩ {} [{ change := .update, path := "/p/package.json" },
          { change := .update, path := "/p/package.json" }] after fun later => later.2 = after.2 := by
  let renamed : Event := { change := .update, path := "/p/a/package.json" }
  let echo : Event := { change := .update, path := "/p/package.json" }
  obtain ⟨begun, isBegun⟩ : ∃ begun, (start ⟨"/p"⟩ {}).run Disk.alone
    ({}, { project := ⟨"/p"⟩, files := carryingFiles }) = begun := ⟨_, rfl⟩
  let before : Engine × Disk := (begun.2.1, { begun.2.2 with files := renamedIn begun.2.2.files [] })
  obtain ⟨done, isDone⟩ : ∃ done, (handle ⟨"/p"⟩ {} .workspaceManifest .update "a/package.json").run
    Disk.alone before = done := ⟨_, rfl⟩
  obtain ⟨renames, wrote, watched, tells, root⟩ : Renames begun done []
      ∧ done.2.2.written = before.2.written ++ ["./package.json"]
      ∧ done.2.1.registry.watched = [".", "a"]
      ∧ ((manifestOf (done.2.2.read manifestFile)).toOption.any fun manifest =>
        (done.2.2.discover (manifest.workspaces.getD [])).toOption.any (· == [".", "a"])) = true
      ∧ (Project.mk "/p").relative echo.path = (Project.mk "/p").relative "./package.json" := by
    subst isDone isBegun
    decide +kernel
  obtain ⟨unseen, refused, tracked, missed, handled⟩ := renames.tracked isBegun isDone
  have rests : AtRest before.1 := renames.2.2.2.1
  have seen : ∀ workspace ∈ before.1.registry.watched, workspace ≠ "." → unseen workspace →
      (Project.mk "/p").relative renamed.path = Workspace.manifestPath workspace :=
    fun workspace member _ => missed workspace member
  obtain ⟨manifest, read, answers⟩ := ok_of_any tells
  obtain ⟨found, answer, isFound⟩ := ok_of_any answers
  have told : done.2.2.Tells found := ⟨manifest, read, answer⟩
  have still : (∃ path ∈ ["./package.json"], (Project.mk "/p").relative path = manifestFile) →
      ∀ other, done.2.2.Tells other →
      ∀ workspace, workspace ∈ done.2.1.registry.watched ↔ workspace ∈ other := by
    intro _ other tellsOther workspace
    rw [told.unique tellsOther, beq_iff_eq.mp isFound, watched]
  have echoes : ∀ other ∈ [echo, echo], other.Echoes ⟨"/p"⟩ ["./package.json"] := by
    intro other member
    have own : other = echo := by simpa using member
    rw [own]
    exact ⟨rfl, _, List.mem_cons_self, root⟩
  exact ⟨unseen, refused, before, done.2, tracked, rests, handled, wrote,
    own_writes_are_absorbed ⟨"/p"⟩ {} tracked rests seen handled wrote still echoes⟩

/-- Where a directory was made that the globs match, hearing of the root manifest that the rename wrote
has it configured. -/
theorem new_directory_is_not_absorbed :
    ∃ unseen refused before after later, Tracked ⟨"/p"⟩ {} unseen refused before ∧ AtRest before.1
      ∧ (∀ workspace ∈ before.1.registry.watched, unseen workspace →
        (Project.mk "/p").relative "/p/a/package.json" = Workspace.manifestPath workspace)
      ∧ Handled ⟨"/p"⟩ {} { change := .update, path := "/p/a/package.json" } before after
      ∧ (∀ record ∈ after.1.log, record.level ≠ .error)
      ∧ after.2.written = before.2.written ++ ["./package.json"]
      ∧ Event.Echoes ⟨"/p"⟩ ["./package.json"] { change := .update, path := "/p/package.json" }
      ∧ Finishes Disk.alone (dispatch ⟨"/p"⟩ {} { change := .update, path := "/p/package.json" }) after
        (.ok ()) later
      ∧ later.2.written = after.2.written ++ ["pkgs/c/tsconfig.json", "tsconfig.json"] := by
  let more : List (Place × Entry) := [(["p", "pkgs"], .directory), (["p", "pkgs", "c"], .directory),
    (["p", "pkgs", "c", "package.json"], .file (.text "\x7b\"name\":\"c\"\x7d".toList))]
  let echo : Event := { change := .update, path := "/p/package.json" }
  obtain ⟨begun, isBegun⟩ : ∃ begun, (start ⟨"/p"⟩ {}).run Disk.alone
    ({}, { project := ⟨"/p"⟩, files := carryingFiles }) = begun := ⟨_, rfl⟩
  let before : Engine × Disk := (begun.2.1, { begun.2.2 with files := renamedIn begun.2.2.files more })
  obtain ⟨done, isDone⟩ : ∃ done, (handle ⟨"/p"⟩ {} .workspaceManifest .update "a/package.json").run
    Disk.alone before = done := ⟨_, rfl⟩
  obtain ⟨last, isLast⟩ : ∃ last, (dispatch ⟨"/p"⟩ {} echo).run Disk.alone done.2 = last := ⟨_, rfl⟩
  obtain ⟨renames, logged, wrote, root, ends, writes⟩ : Renames begun done more
      ∧ (∀ record ∈ done.2.1.log, record.level ≠ .error)
      ∧ done.2.2.written = before.2.written ++ ["./package.json"]
      ∧ (Project.mk "/p").relative echo.path = (Project.mk "/p").relative "./package.json"
      ∧ last.1 = .ok ()
      ∧ last.2.2.written = done.2.2.written ++ ["pkgs/c/tsconfig.json", "tsconfig.json"] := by
    subst isLast isDone isBegun
    decide +kernel
  obtain ⟨unseen, refused, tracked, missed, handled⟩ := renames.tracked isBegun isDone
  have finishes := run_finishes Disk.alone (dispatch ⟨"/p"⟩ {} echo) done.2
  rw [isLast, ends] at finishes
  exact ⟨unseen, refused, before, done.2, last.2, tracked, renames.2.2.2.1, missed, handled, logged, wrote,
    ⟨rfl, _, List.mem_cons_self, root⟩, finishes, writes⟩

end Watch
end RefSync
