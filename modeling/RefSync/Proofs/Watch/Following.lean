/-
The root config follows the workspaces that are ready. Whatever an event leads to, as long as the
engine stays active the root config aggregates exactly the watched workspaces that are ready
afterwards.
-/

import RefSync.Proofs.Watch.BringUp
import RefSync.Proofs.Watch.Runs

namespace RefSync

open Routine Path Update

/-- Whether the documents of a project may be worked with: manifests of workspaces are files,
whatever they hold, or not there; their configs are objects or not there, as is the root config,
whose references are a list; and the workspaces are below the root. -/
structure Disk.Proper (disk : Disk) : Prop where
  manifests : disk.PlainManifests
  configs globs found : disk.discover globs = .ok found → ∀ workspace ∈ found,
    ∃ config, disk.Finds? (Workspace.configPath workspace) config
  root : ∃ found, disk.Finds? configFile found ∧ ∀ config, found = some config → Config.IsListed config
  below manifest found : manifestOf (disk.read manifestFile) = .ok manifest →
    disk.discover (manifest.workspaces.getD []) = .ok found → "." ∉ found

namespace Watch

attribute [local irreducible] start dispatch

/-- A root config that follows while the engine is active. -/
structure Attuned (project : Project) (state : Engine × Disk) : Prop where
  same : state.2.project = project
  below : Workspace.manifestPath "." ∉ state.1.registry.manifests
  follows : state.1.active = true → FollowsReady project state

section

variable {project : Project} {options : SyncOptions} {now : Engine × Disk}

theorem Following.attuned (following : Following project now) : Attuned project now :=
  ⟨following.poised.same, following.poised.below, fun _ => following.follows⟩

theorem filled_of_sound {registry : Registry} (sound : registry.Sound project) {workspace : String}
    (member : workspace ∈ registry.watched) : workspace ≠ "" :=
  ((mem_watched sound).mp member).1.spelled.stem.filled

theorem Attuned.following (attuned : Attuned project now) (sound : now.1.registry.Sound project)
    (active : now.1.active = true) : Following project now := by
  obtain ⟨config, reads, aggregates⟩ := attuned.follows active
  exact ⟨⟨attuned.same, active, attuned.below, fun _ => filled_of_sound sound,
    Disk.accepts_configFile reads aggregates.isListed⟩, attuned.follows active⟩

/-- Messages are nothing to the root config. -/
theorem Attuned.logged (attuned : Attuned project now) (log : List LogRecord) :
    Attuned project ({ now.1 with log := log }, now.2) :=
  ⟨attuned.same, attuned.below, attuned.follows⟩

/-! ### The root manifest -/

/-- Workspaces that were added and have a manifest are there, with a place for their configs. -/
theorem furnished_of_added {added : List String} {later : Engine × Disk}
    (come : Added project True added now later) (poised : Poised project now)
    (relative : ∀ workspace ∈ added, project.IsRelative workspace) (below : "." ∉ added)
    (configs : ∀ workspace ∈ added,
      (∃ manifest, manifestOf (now.2.read (Workspace.manifestPath workspace)) = .ok manifest) →
      ∃ config, now.2.Finds? (Workspace.configPath workspace) config) :
    Furnished project (added.filter (later.1.registry.hasReadiness · .onlyManifest)) later := by
  have ready : Poised project later :=
    { same := come.files ▸ poised.same
      active := come.active.trans poised.active
      below := fun member => by
        rcases (come.manifests _).mp member with before | ⟨workspace, inAdded, same⟩
        · exact poised.below before
        · have stem := project.isRelative_here.spelled.stem
          have other := (relative workspace inAdded).spelled.stem
          exact below (Workspace.manifestPath_injective stem other same ▸ inAdded)
      filled := fun _ => filled_of_sound come.orderly.sound
      accepts := come.files ▸ poised.accepts }
  refine ⟨ready, fun workspace member => ?_, fun workspace member => ?_⟩
  · obtain ⟨inAdded, manifest, held⟩ := come.present member
    obtain ⟨found, finds⟩ := configs workspace inAdded ⟨manifest, come.files ▸ held⟩
    rw [← come.files] at finds
    have opens : later.2.Opens (Workspace.configPath workspace) := by
      cases found with
      | none =>
          obtain ⟨shown, missing⟩ := finds
          exact Disk.opens_configPath (relative workspace inAdded).spelled.stem
            (readable_of_manifestOf held) missing
      | some config =>
          obtain ⟨content, holds⟩ := Disk.readable_of_read finds
          exact holds.opens (Workspace.last_configPath workspace) (by decide)
    exact Disk.accepts_of_opens opens finds fun _ _ => trivial
  · obtain ⟨inAdded, manifest, held⟩ := come.present member
    have notRoot : workspace ≠ "." := fun same => below (same ▸ inAdded)
    exact Disk.walk_workspace (ready.same.symm ▸ relative workspace inAdded) notRoot
      (readable_of_manifestOf held)

theorem leads_addition {added : List String} {generation : Nat}
    (addition : Addition project True added generation now) (poised : Poised project now)
    (plain : ∀ workspace ∈ added, now.2.PlainManifest workspace) (below : "." ∉ added)
    (configs : ∀ workspace ∈ added, ∃ config, now.2.Finds? (Workspace.configPath workspace) config) :
    Leads Disk.alone (addWorkspaces project options added generation) now
      fun _ later => Following project later := by
  have relative := addition.relative
  apply leads_addWorkspaces addition fun _ => plain
  · intro later come
    apply leads_bringUp
    · exact fun workspace member => ⟨relative workspace member, fun same => below (same ▸ member)⟩
    · exact furnished_of_added come poised relative below fun workspace member _ => configs workspace member
  · exact fun notFull => absurd trivial notFull

theorem accepts_root {disk : Disk} (readable : disk.Readable manifestFile) {found : Option Document}
    (finds : disk.Finds? configFile found)
    (known : ∀ config, found = some config → Config.IsListed config) :
    disk.Accepts configFile Config.IsListed := by
  cases found with
  | none =>
      have ⟨_, missing⟩ := finds
      exact Disk.accepts_of_opens (Disk.opens_configFile readable missing) finds known
  | some config => exact Disk.accepts_configFile finds (known config rfl)

section

variable (orderly : now.1.Orderly project True []) (proper : now.2.Proper)
  (attuned : Attuned project now)

include orderly proper attuned

theorem leads_creating {found : List String} (tells : now.2.Tells found) {generation : Nat}
    (addition : Addition project True found generation ({ now.1 with active := true }, now.2)) :
    Leads Disk.alone (addWorkspaces project options found generation)
      ({ now.1 with active := true }, now.2) fun _ later => Attuned project later := by
  obtain ⟨manifest, read, answer⟩ := tells
  obtain ⟨config, finds, known⟩ := proper.root
  have poised : Poised project ({ now.1 with active := true }, now.2) :=
    ⟨attuned.same, rfl, attuned.below, fun _ => filled_of_sound orderly.sound,
      accepts_root (readable_of_manifestOf read) finds known⟩
  exact (leads_addition addition poised (proper.manifests _ found answer)
    (proper.below manifest found read answer) (proper.configs _ found answer)).weaken
      fun _ _ => Following.attuned

theorem leads_rootCreated (inactive : now.1.active = false) :
    Leads Disk.alone (rootCreated project options) now fun _ later => Attuned project later := by
  apply leads_creation orderly attuned.same inactive
  · exact fun _ _ _ => attuned
  · exact fun found tells => leads_creating orderly proper attuned tells

theorem leads_rootUpdated (active : now.1.active = true) :
    Leads Disk.alone (rootUpdated project options) now fun _ later => Attuned project later := by
  have following := attuned.following orderly.sound active
  apply leads_exchange orderly attuned.same active
  · exact fun _ _ _ => attuned
  · exact fun _ _ _ => attuned
  · intro found added gone log exchange addition
    obtain ⟨manifest, read, answer⟩ := exchange.tells
    have member (workspace : String) (inAdded : workspace ∈ added) : workspace ∈ found :=
      ((exchange.comes workspace).mp inAdded).1
    have stem (workspace : String) (inGone : workspace ∈ gone) : IsStem workspace :=
      ((mem_watched orderly.sound).mp ((exchange.goes workspace).mp inGone).1).1.spelled.stem
    have sound := (sound_removeWorkspaces stem orderly.sound).1
    have dropped := dropped_removeWorkspaces now.1.registry gone
    have poised : Poised project (exchanging now gone log) :=
      ⟨attuned.same, active, fun watched => attuned.below ((dropped.manifests _).mp watched).1,
        fun _ => filled_of_sound sound, following.poised.accepts⟩
    refine (leads_addition addition poised (fun workspace inAdded => ?_) (fun inAdded => ?_)
      fun workspace inAdded => ?_).weaken fun _ _ => Following.attuned
    · exact proper.manifests _ found answer workspace (member workspace inAdded)
    · exact proper.below manifest found read answer (member _ inAdded)
    · exact proper.configs _ found answer workspace (member workspace inAdded)

/-! ### Events -/

theorem leads_event {kind : DocumentKind} {change : Change} {path : String}
    (spelled : IsSpelled path)
    (classified : classifyRelative now.1.registry path = some kind) :
    Leads Disk.alone (handle project options kind change path) now
      fun _ later => Attuned project later := by
  have sound := orderly.sound
  have said := classifyRelative_eq_some classified
  -- An engine that is not active watches nothing but the root manifest.
  have following (watches : now.1.registry ≠ .empty) : Following project now := by
    cases active : now.1.active with
    | true => exact attuned.following sound active
    | false => exact absurd (orderly.idle active) watches
  have rootPresent : Leads Disk.alone (do
      if (← engine).active then rootUpdated project options else rootCreated project options) now
      fun _ later => Attuned project later := by
    apply leads_engine
    cases active : now.1.active with
    | true => exact leads_rootUpdated orderly proper attuned active
    | false => exact leads_rootCreated orderly proper attuned active
  have attunes {routine : Routine Unit}
      (leads : Leads Disk.alone routine now fun _ later => Following project later) :
      Leads Disk.alone routine now fun _ later => Attuned project later :=
    leads.weaken fun _ _ => Following.attuned
  cases kind with
  | rootManifest =>
      cases change with
      | create => exact rootPresent
      | update => exact rootPresent
      | delete => exact fun _ => ⟨attuned.same, nofun, nofun⟩
  | workspaceManifest =>
      have active := following (ne_empty_of_watches (sound.watches_ofDocument said).1)
      cases change with
      | create => exact attunes (leads_manifestWritten active sound said)
      | update => exact attunes (leads_manifestWritten active sound said)
      | delete => exact attunes (leads_manifestDeleted active)
  | artifact =>
      have watches := (sound.ofArtifact said).1
      have active := following (ne_empty_of_watches watches)
      have relative := sound.relative watches
      have below := active.below watches
      cases change with
      | create => exact attunes (leads_artifactCreated active relative below)
      | update => exact attunes (leads_artifactWritten active relative below)
      | delete => exact attunes (leads_artifactDeleted active)
  | workspaceConfig =>
      have watches := watches_above sound spelled said.2
      have active := following (ne_empty_of_watches watches)
      have relative := sound.relative watches
      have below := active.below watches
      cases change with
      | create => exact attunes (leads_configPresent active relative below)
      | update => exact attunes (leads_configPresent active relative below)
      | delete => exact attunes (leads_configDeleted active)

theorem leads_dispatch_attuned (event : Event) :
    Leads Disk.alone (dispatch project options event) now fun _ later => Attuned project later := by
  cases classified : classify project now.1.registry event.path with
  | none =>
      apply (leads_dispatch_ignored classified).weaken
      rintro _ _ ⟨_, rfl⟩
      exact attuned
  | some kind =>
      apply (leads_dispatch classified (leads_event orderly proper attuned
        (project.relative_spelled event.path) classified)).weaken
      rintro result later (⟨_, attuned⟩ | ⟨failure, between, attuned, settles⟩)
      · exact attuned
      · cases settles with
        | logged _ log _ _ => exact attuned.logged _
        | fatal => exact attuned
        | raised => exact attuned

end

theorem leads_start_attuned {disk : Disk} (same : disk.project = project) (proper : disk.Proper) :
    Leads Disk.alone (start project options) ({}, disk) fun _ later => Attuned project later := by
  have orderly : Engine.Orderly project True [] {} :=
    ⟨Registry.sound_empty, fun _ _ _ => Registry.settled_of_unnamed rfl, fun _ => rfl⟩
  have attuned : Attuned project ({}, disk) := ⟨same, nofun, nofun⟩
  apply leads_begin same
  · exact fun _ _ => attuned
  · exact fun log _ => attuned.logged log
  · exact fun found tells => leads_creating orderly proper attuned tells

end

instance (disk : Disk) (path : String) : Decidable (∃ config, disk.Finds? path config) :=
  decidable_of_iff ((match disk.read path with
    | .ok (.obj _) | .error (.missing _) => true
    | _ => false) = true) <| by
    constructor
    · intro check
      split at check
      · rename_i config reads
        exact ⟨some config, reads⟩
      · rename_i shown missing
        exact ⟨none, shown, missing⟩
      · cases check
    · rintro ⟨config | config, finds⟩
      · obtain ⟨shown, missing⟩ := finds
        rw [missing]
      · have reads : disk.read path = .ok (.obj config) := finds
        rw [reads]

end Watch
end RefSync
