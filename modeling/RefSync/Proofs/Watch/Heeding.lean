/-
What handlers make of the names that manifests give. An event has the engine look at the manifest that it
is about, or at those of the workspaces that it adds. The engine is informed of these then, and of the
others it knows as much as before.
-/

import RefSync.Proofs.Watch.Runs
import RefSync.Proofs.Watch.Sustaining

namespace RefSync

open Routine Path Update

namespace Watch

attribute [local irreducible] Disk.write dispatch

variable {project : Project} {options : SyncOptions} {now between later : Engine × Disk}
  {workspace path : String} {told : String → Prop} {change : Change}

/-! ### The manifest of a workspace -/

/-- What a look at the manifest of a workspace leaves of the names of others and of all manifests. -/
structure Looks (workspace : String) (before after : Engine × Disk) : Prop where
  manifests : after.1.registry.manifests = before.1.registry.manifests
  names other : other ≠ workspace →
    after.1.registry.findName other = before.1.registry.findName other
  disk : Disk.Sustains (fun other => other = workspace ∨ (before.1.registry.findName other).isSome)
    before.2 after.2

theorem looks_unregister {registry : Registry} {lost : Readiness} (log : List LogRecord)
    (manifests : registry.manifests = now.1.registry.manifests)
    (names : ∀ other, registry.findName other = now.1.registry.findName other) :
    Looks workspace now
      ({ now.1 with registry := unregister registry workspace lost, log := log }, now.2) where
  manifests := (unregister_others registry workspace lost).1.trans manifests
  names other differs := (findName_unregister registry lost differs).trans (names other)
  disk := .refl _ _

/-- A rename is carried to workspaces with names. -/
theorem looks_renamed {renamed : Registry} {name old : String} {log : List LogRecord}
    (renames : (now.1.registry.addReadiness workspace .onlyManifest).rename workspace name
      = .ok (renamed, old))
    (upholds : Upholds ({ now.1 with registry := renamed, log := log }, now.2) later) :
    Looks workspace now later := by
  have gives := (Registry.rename_eq_ok renames).gives
  have names (other : String) (differs : other ≠ workspace) :
      renamed.findName other = now.1.registry.findName other :=
    (gives.findName other).trans (if_neg differs)
  have manifests := congrArg Registry.manifests gives.others
  refine ⟨upholds.manifests.trans manifests, fun other differs => ?_,
    upholds.disk.weaken fun other named => ?_⟩
  · exact (upholds.findName other).trans (names other differs)
  · by_cases own : other = workspace
    · exact Or.inl own
    · exact Or.inr (names other own ▸ named)

theorem leads_looks (same : now.2.project = project) (sound : now.1.registry.Sound project)
    (stem : IsStem workspace) :
    Leads Disk.alone (loadManifest project workspace) now fun _ later => Looks workspace now later := by
  apply leads_loadManifest
  · exact fun _ _ _ _ => ⟨rfl, fun _ _ => rfl, .refl _ _⟩
  · exact fun _ _ log => looks_unregister log rfl fun _ => rfl
  · intro manifest _
    apply leads_registerManifest
    · exact fun _ => ⟨rfl, fun _ _ => rfl, .refl _ _⟩
    · exact fun _ _ log => looks_unregister log rfl fun _ => rfl
    · rintro _ name assigned previous _ _ set
      have gives := (Registry.setName_eq_ok set).1
      have manifests := congrArg Registry.manifests gives.others
      exact ⟨manifests, fun other differs => (gives.findName other).trans (if_neg differs), .refl _ _⟩
    · intro watched name previous renamed old _ _ _ renames log
      have watches := watches_of_isWatched stem watched
      have soundRenamed := (sound.addReadiness watches .onlyManifest nofun).rename
        (Registry.rename_eq_ok renames)
      have carries : Leads Disk.alone (Update.name project previous name)
          ({ now.1 with registry := renamed, log := log }, now.2) fun _ later =>
            Upholds ({ now.1 with registry := renamed, log := log }, now.2) later := by
        apply leads_upholds_name
        · exact same
        · exact soundRenamed
      refine carries.bind (fun _ between upholds => ?_) fun _ _ upholds => looks_renamed renames upholds
      have looks := looks_renamed renames upholds
      unfold confirmName
      apply leads_registry
      by_cases named : between.1.registry.findName workspace = some name
      · rw [if_pos named]
        apply leads_modifyRegistry
        exact leads_pure { looks with }
      · rw [if_neg named]
        exact leads_pure looks

/-! ### What events have the engine look at -/

/-- Whether an event on a document has the engine look at the manifest of a workspace, if it is
watched then: the manifest is this document, or it was not watched before. -/
def Concerns (registry : Registry) (path workspace : String) : Prop :=
  Workspace.manifestPath workspace ∉ registry.manifests ∨ path = Workspace.manifestPath workspace

instance (registry : Registry) (path workspace : String) : Decidable (Concerns registry path workspace) :=
  inferInstanceAs (Decidable (_ ∨ _))

theorem concerns_unwatched {registry : Registry} (absent : path ∉ registry.manifests) :
    Concerns registry path workspace ↔ Workspace.manifestPath workspace ∉ registry.manifests := by
  refine ⟨?_, Or.inl⟩
  rintro (unwatched | rfl)
  · exact unwatched
  · exact absent

theorem concerns_watched {registry : Registry} (sound : registry.Sound project)
    (member : path ∈ registry.manifests)
    (watched : Workspace.manifestPath workspace ∈ registry.manifests) (stem : IsStem workspace) :
    Concerns registry path workspace ↔ workspace = Workspace.ofDocument path := by
  obtain ⟨watches, back, _⟩ := sound.watches_ofDocument member
  constructor
  · rintro (unwatched | rfl)
    · exact absurd watched unwatched
    · exact (Workspace.ofDocument_manifestPath stem).symm
  · rintro rfl
    exact Or.inr back.symm

/-- How a handler ends. What it did not look at is as it was, and unless it failed the engine is
informed of what it looked at. A manifest that is said to be gone is not looked at. -/
structure Heeds (told : String → Prop) (change : Change) (now : Engine × Disk)
    (result : Except Failure Unit) (later : Engine × Disk) : Prop extends Retains told now later where
  informed workspace : result = .ok () → now.2.project.IsRelative workspace →
    Workspace.manifestPath workspace ∈ later.1.registry.manifests → told workspace →
    (change = .delete → ∀ name, ¬later.2.Carries workspace name) → Informed workspace later

theorem Upholds.heeds (upholds : Upholds now later) (absent : path ∉ now.1.registry.manifests)
    (result : Except Failure Unit) :
    Heeds (Concerns now.1.registry path) change now result later where
  toRetains := upholds.retains
  informed _ _ _ watched concerns _ :=
    absurd (upholds.manifests ▸ watched) ((concerns_unwatched absent).mp concerns)

section

variable (looks : Looks workspace now between)

include looks

/-- What goes on once a manifest was looked at. -/
theorem Looks.upheld (upholds : Upholds between later) (tells : told workspace) : Retains told now later where
  names other _ others := by
    rw [upholds.findName]
    exact looks.names other fun own => others (own ▸ tells)
  disk := by
    refine (looks.disk.weaken fun other touched => touched.imp_left ?_).trans
      (upholds.disk.weaken fun other named => ?_)
    · rintro rfl
      exact tells
    · by_cases own : other = workspace
      · exact Or.inl (own ▸ tells)
      · exact Or.inr (looks.names other own ▸ named)

/-- Once a manifest was looked at the engine is informed of it. -/
theorem Looks.informed {loaded : Option Manifest} (reread : Reread workspace now loaded between)
    (watched : isWatched now.1.registry workspace = true)
    (relative : now.2.project.IsRelative workspace) : Informed workspace between := by
  cases loaded with
  | none =>
      refine ⟨fun name named => ?_, fun name carries => ?_⟩
      · rw [reread.unnamed rfl] at named
        cases named
      · rw [reread.files rfl] at carries
        obtain ⟨holder, _, held⟩ := reread.refused name rfl watched carries
        exact ⟨holder, held⟩
  | some manifest =>
      obtain ⟨read, name, given, named⟩ := reread.named manifest rfl
      have carries := looks.disk.keeps workspace name relative ⟨manifest, read, given⟩
      refine ⟨fun other holds => ?_, fun other carriesOther => ⟨workspace, ?_⟩⟩
      · rw [named] at holds
        cases holds
        exact carries
      · rw [carries.unique carriesOther]
        exact named

end

section

variable (sound : now.1.registry.Sound project) (member : path ∈ now.1.registry.manifests)

include sound member

theorem leads_manifestWritten_heeds (same : now.2.project = project) (grounded : now.2.Grounded) :
    Leads Disk.alone (manifestWritten project options path) now
      (Heeds (Concerns now.1.registry path) change now) := by
  obtain ⟨watches, back, relative⟩ := sound.watches_ofDocument member
  have relativeNow : now.2.project.IsRelative (Workspace.ofDocument path) := same ▸ relative
  have tells : Concerns now.1.registry path (Workspace.ofDocument path) := Or.inr back.symm
  -- What is left to do changes no names.
  have goesOn {loaded : Option Manifest} {between : Engine × Disk}
      (looks : Looks (Workspace.ofDocument path) now between)
      (reread : Reread (Workspace.ofDocument path) now loaded between)
      (result : Except Failure Unit) (later : Engine × Disk) (upholds : Upholds between later) :
      Heeds (Concerns now.1.registry path) change now result later := by
    refine ⟨looks.upheld upholds tells, fun workspace _ relativeOther watched concerns _ => ?_⟩
    rw [upholds.manifests, looks.manifests] at watched
    rw [(concerns_watched sound member watched relativeOther.spelled.stem).mp concerns]
    have informed := looks.informed reread (List.contains_iff_mem.mpr watches.2) relativeNow
    exact informed.upheld upholds (looks.disk.same ▸ relativeNow) (looks.disk.grounded grounded)
  unfold manifestWritten
  apply leads_registry
  refine ((leads_reread sound watches.1).both (leads_looks same sound watches.1)).bind ?_ ?_
  · rintro loaded between ⟨reread, looks⟩
    have still := looks.disk.same ▸ relativeNow
    cases loaded with
    | none =>
        exact (leads_upholds (abides_whenever (abides_configureRoot permits_upholds
          (permitsConfig_upholds (by decide))))).weaken (goesOn looks (reread none rfl))
    | some manifest =>
        refine (leads_upholds (abides_manifestLoaded permits_upholds permitsRegistries_upholds trivial
          trivial (permitsConfig_upholds (by decide))
          (permitsConfig_upholds (Workspace.last_configPath _)) ?_)).weaken
            (goesOn looks (reread (some manifest) rfl))
        rw [Workspace.ofArtifact_artifactPath watches.1]
        exact permitsArtifact_upholds still
  · rintro failure between ⟨_, looks⟩
    exact ⟨looks.upheld (.refl between) tells, nofun⟩

theorem leads_manifestDeleted_heeds :
    Leads Disk.alone (manifestDeleted project path) now
      (Heeds (Concerns now.1.registry path) .delete now) := by
  obtain ⟨watches, back, _⟩ := sound.watches_ofDocument member
  let without := now.1.registry.unwatchArtifact (Workspace.artifactPath (Workspace.ofDocument path))
  let deleted (log : List LogRecord) : Engine × Disk := ({ now.1 with
    registry := unregister without (Workspace.ofDocument path) .manifestAndName
    log := log }, now.2)
  have configures (log : List LogRecord) : Leads Disk.alone (configureRoot project) (deleted log)
      (Heeds (Concerns now.1.registry path) .delete now) := by
    refine leads_upholds_root.weaken fun result later upholds => ?_
    have looks : Looks (Workspace.ofDocument path) now (deleted log) :=
      looks_unregister log rfl fun _ => rfl
    refine ⟨looks.upheld upholds (Or.inr back.symm),
      fun workspace _ relativeOther watched concerns gone => ?_⟩
    rw [upholds.manifests, looks.manifests] at watched
    have own := (concerns_watched sound member watched relativeOther.spelled.stem).mp concerns
    refine ⟨fun name named => ?_, fun name carries => absurd carries (gone rfl name)⟩
    rw [upholds.findName, own] at named
    have unnamed : (deleted log).1.registry.findName (Workspace.ofDocument path) = none :=
      unnamed_unregister (sound.unwatchArtifact _) .manifestAndName
    cases unnamed.symm.trans named
  exact configures _

end

/-! ### The root manifest -/

/-- Adding workspaces has the engine look at their manifests. What it knew of the others that are still
watched is as it was. -/
theorem leads_addWorkspaces_heeds {added : List String} {generation : Nat} {begun : Engine × Disk}
    (absent : path ∉ now.1.registry.manifests)
    (addition : Addition project False added generation begun)
    (same : now.2.project = project) (grounded : now.2.Grounded) (files : begun.2 = now.2)
    (new : ∀ workspace ∈ added, Workspace.manifestPath workspace ∉ now.1.registry.manifests)
    (kept : ∀ workspace, Workspace.manifestPath workspace ∈ begun.1.registry.manifests →
      Workspace.manifestPath workspace ∈ now.1.registry.manifests
        ∧ begun.1.registry.findName workspace = now.1.registry.findName workspace) :
    Leads Disk.alone (addWorkspaces project options added generation) begun
      (Heeds (Concerns now.1.registry path) change now) := by
  have watched {between : Engine × Disk} (joins : Joins added begun between) {workspace : String}
      (watches : Workspace.manifestPath workspace ∈ between.1.registry.manifests) :
      Workspace.manifestPath workspace ∈ begun.1.registry.manifests
        ∨ ∃ other ∈ added, Workspace.manifestPath workspace = Workspace.manifestPath other :=
    (joins.manifests _).mp watches
  have retains {between : Engine × Disk} (joins : Joins added begun between) :
      Retains (Concerns now.1.registry path) now between := by
    refine ⟨fun workspace watches others => ?_, ?_⟩
    · rw [concerns_unwatched absent, not_not] at others
      rcases watched joins watches with before | ⟨other, member, own⟩
      · rw [joins.names workspace fun member => new workspace member others]
        exact (kept workspace before).2
      · exact absurd (own ▸ others) (new other member)
    · rw [joins.files, files]
      exact .refl _ _
  apply leads_addWorkspaces addition nofun
  · intro between come
    have relative (workspace : String) (member : workspace ∈ added) :
        between.2.project.IsRelative workspace := by
      rw [come.files, files, same]
      exact addition.relative workspace member
    have artifact (workspace : String) (member : workspace ∈ added) :
        PermitsArtifact (fun _ => True) (.preserving (Upholds between)) (fun _ => True)
          (Upholds between) options (Workspace.ofArtifact (Workspace.artifactPath workspace)) := by
      rw [Workspace.ofArtifact_artifactPath (relative workspace member).spelled.stem]
      exact permitsArtifact_upholds (relative workspace member)
    refine (leads_upholds (abides_bringUp permits_upholds (fun _ _ => trivial) (fun _ _ => trivial)
      (permitsConfig_upholds (by decide))
      (fun workspace _ => permitsConfig_upholds (Workspace.last_configPath workspace)) artifact
      (fun _ _ state upholds _ => permitsRegistries_upholds state _ upholds rfl rfl rfl)
      (fun _ _ state upholds _ => permitsRegistries_upholds state _ upholds rfl rfl rfl))).weaken
        fun result later upholds => ⟨(retains come.toJoins).upheld upholds fun workspace named => ?_,
          fun workspace _ relativeNow watches concerns _ => ?_⟩
    · rw [concerns_unwatched absent]
      by_cases member : workspace ∈ added
      · exact Or.inl (new workspace member)
      · rw [come.names workspace member] at named
        obtain ⟨name, holds⟩ := Option.isSome_iff_exists.mp named
        have watches := (addition.orderly.sound.watches_of_named holds).2
        rw [(kept workspace watches).2] at named
        exact Or.inr named
    · rw [concerns_unwatched absent] at concerns
      rw [upholds.manifests] at watches
      obtain ⟨other, member, own⟩ := (watched come.toJoins watches).resolve_left fun before =>
        concerns (kept workspace before).1
      obtain rfl := Workspace.manifestPath_injective relativeNow.spelled.stem
        (relative other member).spelled.stem own
      have informed : Informed workspace between := by
        refine ⟨fun name named => (come.carried workspace name named).resolve_left fun before => ?_,
          come.heard workspace member⟩
        exact addition.new workspace member (addition.orderly.sound.watches_of_named before).2
      refine informed.upheld upholds (relative workspace member) ?_
      rw [come.files, files]
      exact grounded
  · intro _ failure between _ joins _
    exact ⟨retains joins, nofun⟩

/-- Nothing was looked at that is watched. -/
theorem heeds_refl (absent : path ∉ now.1.registry.manifests) (result : Except Failure Unit) :
    Heeds (Concerns now.1.registry path) change now result now :=
  (Upholds.refl now).heeds absent result

theorem leads_rootPresent_heeds (orderly : now.1.Orderly project False [])
    (absent : path ∉ now.1.registry.manifests) (same : now.2.project = project)
    (grounded : now.2.Grounded) :
    Leads Disk.alone (do
      if (← engine).active then rootUpdated project options else rootCreated project options) now
      (Heeds (Concerns now.1.registry path) change now) := by
  apply leads_engine
  cases active : now.1.active with
  | true =>
      apply leads_exchange orderly same active
      · exact fun _ _ _ => heeds_refl absent _
      · exact fun _ _ _ => heeds_refl absent _
      · intro found added gone log exchange addition
        have dropped := dropped_removeWorkspaces now.1.registry gone
        refine leads_addWorkspaces_heeds absent addition same grounded rfl
          (fun workspace member watched => ?_) fun workspace watched => ?_
        · exact ((exchange.comes workspace).mp member).2 ((mem_watched orderly.sound).mpr
            ⟨addition.relative workspace member, watched⟩)
        · obtain ⟨before, stays⟩ := (dropped.manifests _).mp watched
          refine ⟨before, (dropped.findName workspace).trans (if_neg fun member => ?_)⟩
          exact stays workspace member rfl
  | false =>
      apply leads_creation orderly same active
      · exact fun _ _ _ => heeds_refl absent _
      · exact fun found _ addition => leads_addWorkspaces_heeds absent addition same grounded rfl
          addition.new fun _ watched => ⟨watched, rfl⟩

theorem leads_rootDeleted_heeds :
    Leads Disk.alone rootDeleted now (Heeds told change now) :=
  fun _ => ⟨⟨fun _ watched => absurd watched List.not_mem_nil, .refl _ _⟩,
    fun _ _ _ watched => absurd watched List.not_mem_nil⟩

/-! ### Whole events -/

theorem leads_start_heeds {disk : Disk} (same : disk.project = project) (grounded : disk.Grounded) :
    Leads Disk.alone (start project options) ({}, disk)
      (Heeds (Concerns .empty manifestFile) change ({}, disk)) := by
  have absent : manifestFile ∉ Registry.empty.manifests := List.not_mem_nil
  have waits (log : List LogRecord) (result : Except Failure Unit) :
      Heeds (Concerns .empty manifestFile) change ({}, disk) result ({ log := log }, disk) :=
    have upholds : Upholds ({}, disk) ({ log := log }, disk) := ⟨rfl, rfl, rfl, .refl _ _⟩
    upholds.heeds absent result
  apply leads_begin same
  · exact fun _ _ => waits [] _
  · exact fun log _ => waits log _
  · exact fun found _ addition => @leads_addWorkspaces_heeds project options ({}, disk) manifestFile
      change found 0 _ absent addition same grounded rfl addition.new fun _ watched => ⟨watched, rfl⟩

theorem leads_handle_heeds {kind : DocumentKind} (orderly : now.1.Orderly project False [])
    (same : now.2.project = project) (grounded : now.2.Grounded) (spelled : IsSpelled path)
    (classified : classifyRelative now.1.registry path = some kind) :
    Leads Disk.alone (handle project options kind change path) now
      (Heeds (Concerns now.1.registry path) change now) := by
  have sound := orderly.sound
  have told := classifyRelative_eq_some classified
  have absent (other : kind ≠ .workspaceManifest) : path ∉ now.1.registry.manifests := fun watched =>
    other (Option.some.inj (classified.symm.trans (classified_manifest sound watched)))
  have relative {workspace : String} (watches : now.1.registry.Watches workspace) :
      now.2.project.IsRelative workspace := same ▸ sound.relative watches
  -- Whatever looks at no manifest upholds all of them.
  have upholding {routine : Routine Unit} (other : kind ≠ .workspaceManifest)
      (abides : Abides Disk.alone (.preserving (Upholds now)) (fun _ => True) (Upholds now) routine
        fun _ => Upholds now) :
      Leads Disk.alone routine now (Heeds (Concerns now.1.registry path) change now) :=
    (leads_upholds abides).weaken fun result _ upholds => upholds.heeds (absent other) result
  have permits : Permits project (fun _ => True) (.preserving (Upholds now)) (fun _ => True)
      (Upholds now) := permits_upholds
  have rootConfig : PermitsConfig (fun _ => True) (.preserving (Upholds now)) (Upholds now) configFile :=
    permitsConfig_upholds (by decide)
  have artifact {workspace : String} (watches : now.1.registry.Watches workspace) :
      PermitsArtifact (fun _ => True) (.preserving (Upholds now)) (fun _ => True) (Upholds now) options
        workspace := permitsArtifact_upholds (relative watches)
  cases kind with
  | rootManifest =>
      cases change with
      | create => exact leads_rootPresent_heeds orderly (absent nofun) same grounded
      | update => exact leads_rootPresent_heeds orderly (absent nofun) same grounded
      | delete => exact leads_rootDeleted_heeds
  | workspaceManifest =>
      cases change with
      | create => exact leads_manifestWritten_heeds sound told same grounded
      | update => exact leads_manifestWritten_heeds sound told same grounded
      | delete => exact leads_manifestDeleted_heeds sound told
  | artifact =>
      have watches := (sound.ofArtifact told).1
      cases change with
      | create => exact upholding nofun (abides_artifactCreated permits (artifact watches))
      | update => exact upholding nofun (abides_artifactWritten permits (artifact watches))
      | delete => exact upholding nofun (abides_artifactDeleted permits permitsRegistries_upholds path)
  | workspaceConfig =>
      have watches := watches_above sound spelled told.2
      have present : Abides Disk.alone (.preserving (Upholds now)) (fun _ => True) (Upholds now)
          (configPresent project options (Workspace.ofDocument path)) fun _ => Upholds now := by
        refine abides_configPresent permits permitsRegistries_upholds trivial rootConfig ?_
        rw [Workspace.ofArtifact_artifactPath watches.1]
        exact artifact watches
      cases change with
      | create => exact upholding nofun present
      | update => exact upholding nofun present
      | delete =>
          exact upholding nofun (abides_configDeleted permits permitsRegistries_upholds rootConfig)

theorem leads_dispatch_retains {event : Event} (orderly : now.1.Orderly project False [])
    (same : now.2.project = project) (grounded : now.2.Grounded) :
    Leads Disk.alone (dispatch project options event) now fun _ later =>
      Retains (Concerns now.1.registry (project.relative event.path)) now later := by
  cases classified : classify project now.1.registry event.path with
  | none =>
      refine (leads_dispatch_ignored classified).weaken ?_
      rintro _ _ ⟨_, rfl⟩
      exact .refl _ _
  | some kind =>
      refine (leads_dispatch classified (leads_handle_heeds orderly same grounded
        (project.relative_spelled event.path) classified)).weaken ?_
      rintro result later (⟨_, ended⟩ | ⟨failure, between, ended, settles⟩)
      · exact ended.toRetains
      · cases settles with
        | logged => exact { ended with }
        | fatal => exact ended.toRetains
        | raised => exact ended.toRetains

end Watch
end RefSync
