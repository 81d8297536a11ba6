/-
The root config and the workspaces that are ready. It is brought in line wherever a handler
changes which of them are; what a handler does to the documents of workspaces leaves the root
config alone, as none of them is the root.
-/

import RefSync.Proofs.Update.Root
import RefSync.Proofs.Watch.Handlers
import RefSync.Proofs.Watch.Permitted
import RefSync.Proofs.Watch.Registering
import RefSync.Proofs.Watch.Settling

namespace RefSync

open Routine Path Update

namespace Watch

/-- Whether the root config aggregates exactly the watched workspaces that are ready. -/
def FollowsReady (project : Project) (state : Engine × Disk) : Prop :=
  ∃ config, state.2.read configFile = .ok (.obj config)
    ∧ Config.Aggregates config
        (IsRootReference project (state.1.registry.ready state.1.registry.watched))

/-- The root config is as it was, and so is what it depends on, but for the readiness of some
workspaces. -/
structure Stands (project : Project) (origin : Engine × Disk) (config : Document)
    (free : String → Prop) (state : Engine × Disk) : Prop where
  began : origin.2.read configFile = .ok (.obj config)
  same : state.2.project = project
  active : state.1.active = origin.1.active
  manifests : state.1.registry.manifests = origin.1.registry.manifests
  readinessOf workspace : ¬free workspace →
    state.1.registry.readinessOf workspace = origin.1.registry.readinessOf workspace
  reads : state.2.read configFile = .ok (.obj config)

section

variable {project : Project} {options : SyncOptions} {origin : Engine × Disk} {config : Document}
  {workspace : String} {free : String → Prop}

theorem followsReady_of_same {before after : Engine × Disk} (follows : FollowsReady project before)
    (manifests : after.1.registry.manifests = before.1.registry.manifests)
    (ready : ∀ workspace,
      after.1.registry.isReady workspace = before.1.registry.isReady workspace)
    (reads : ∀ config, before.2.read configFile = .ok (.obj config) →
      after.2.read configFile = .ok (.obj config)) :
    FollowsReady project after := by
  obtain ⟨config, held, aggregates⟩ := follows
  refine ⟨config, reads config held, ?_⟩
  have sameReady : after.1.registry.isReady = before.1.registry.isReady := funext ready
  rw [Registry.ready, Registry.watched, manifests, sameReady]
  exact aggregates

theorem Stands.followsReady {state : Engine × Disk} (stands : Stands project origin config free state)
    (follows : FollowsReady project origin) (ready : ∀ workspace, free workspace →
      state.1.registry.isReady workspace = origin.1.registry.isReady workspace) :
    FollowsReady project state := by
  apply followsReady_of_same follows stands.manifests
  · intro workspace
    by_cases isFree : free workspace
    · exact ready workspace isFree
    · exact Registry.isReady_congr (stands.readinessOf workspace isFree)
  · intro other held
    rw [stands.began] at held
    cases held
    exact stands.reads

/-- What stands at some point stands from there on. -/
theorem Stands.here {state : Engine × Disk} (stands : Stands project origin config free state) :
    Stands project state config (fun _ => False) state :=
  ⟨stands.reads, stands.same, rfl, rfl, fun _ _ => rfl, stands.reads⟩

theorem Stands.trans {state later : Engine × Disk} (stands : Stands project origin config free state)
    (still : Stands project state config (fun _ => False) later) :
    Stands project origin config free later :=
  ⟨stands.began, still.same, still.active.trans stands.active,
    still.manifests.trans stands.manifests,
    fun workspace differs =>
      (still.readinessOf workspace id).trans (stands.readinessOf workspace differs),
    still.reads⟩

attribute [local irreducible] Disk.write

/-- A document written elsewhere leaves the root config alone. -/
theorem Stands.writes {state : Engine × Disk} {path : String} {document : Document}
    (stands : Stands project origin config free state)
    (apart : project.resolved configFile ≠ project.resolved path) :
    Stands project origin config free (state.1, (state.2.write path document).2) := by
  have same : (state.2.write path document).2.project = state.2.project := by
    rw [(Disk.puts_write state.2 path document).2]
  refine { stands with same := same.trans stands.same, reads := ?_ }
  apply Disk.read_keeps same (Disk.keeps_write state.2 path document) stands.reads
  rw [stands.same]
  exact apart

theorem permits_stands : Permits project (fun _ => True)
    (.preserving (Stands project origin config free)) (fun _ => True)
    (Stands project origin config free) where
  endures _ _ kept := kept
  notes _ _ _ registry active _ stands :=
    ⟨stands.began, stands.same, active.trans stands.active,
      by rw [registry]; exact stands.manifests,
      fun workspace => by rw [registry]; exact stands.readinessOf workspace, stands.reads⟩
  faults _ _ _ _ := trivial

theorem permitsConfig_stands (relative : project.IsRelative workspace) (below : workspace ≠ ".") :
    PermitsConfig (fun _ => True) (.preserving (Stands project origin config free))
      (Stands project origin config free) (Workspace.configPath workspace) where
  touched := trivial
  writes _ _ _ _ _ _ _ _ stands := stands.writes
    (Workspace.configPath_apart project relative.spelled.stem (relative.apart below)).symm

theorem permitsManifest_stands (workspace : String) (change : Document → Option Document) :
    PermitsManifest (fun _ => True) (.preserving (Stands project origin config free))
      (Stands project origin config free) (Workspace.manifestPath workspace) change := by
  refine ⟨trivial, fun _ _ _ _ _ _ _ _ stands => stands.writes ?_⟩
  intro same
  have last := project.last_resolved (Workspace.last_manifestPath workspace) (by decide)
  have configLast : (project.resolved configFile).getLast? = some configFile :=
    project.last_resolved (by decide) (by decide)
  rw [← same, configLast] at last
  exact absurd last (by decide)

theorem permitsArtifact_stands (relative : project.IsRelative workspace) (below : workspace ≠ ".") :
    PermitsArtifact (fun _ => True) (.preserving (Stands project origin config free)) (fun _ => True)
      (Stands project origin config free) options workspace where
  config := permitsConfig_stands relative below
  manifest _ _ _ _ _ _ _ _ _ _ := permitsManifest_stands workspace _
  learns _ _ _ _ _ _ stands := { stands with }
  marks _ _ _ _ _ stands := { stands with }
  pauses _ _ _ stands := { stands with }
  endless _ _ _ := trivial

theorem abides_watch_stands (relative : project.IsRelative workspace) (below : workspace ≠ ".") :
    Abides Disk.alone (.preserving (Stands project origin config free)) (fun _ => True)
      (Stands project origin config free) (watchArtifact project options workspace)
      fun _ => Stands project origin config free := by
  apply abides_watchArtifact permits_stands trivial
  · rw [Workspace.ofArtifact_artifactPath relative.spelled.stem]
    exact permitsArtifact_stands relative below
  · exact fun _ _ _ stands => { stands with }

/-- Whether the root config can be brought in line. -/
structure Poised (project : Project) (state : Engine × Disk) : Prop where
  same : state.2.project = project
  active : state.1.active = true
  below : Workspace.manifestPath "." ∉ state.1.registry.manifests
  filled workspace : workspace ∈ state.1.registry.watched → workspace ≠ ""
  accepts : state.2.Accepts configFile Config.IsListed

theorem Stands.poised {state : Engine × Disk} (stands : Stands project origin config free state)
    (poised : Poised project origin) (listed : Config.IsListed config) : Poised project state where
  same := stands.same
  active := stands.active.trans poised.active
  below := by
    rw [stands.manifests]
    exact poised.below
  filled workspace := by
    rw [Registry.watched, stands.manifests]
    exact poised.filled workspace
  accepts := Disk.accepts_configFile stands.reads listed

theorem leads_configureRoot {now : Engine × Disk} (poised : Poised project now) :
    Leads Disk.alone (configureRoot project) now fun result later =>
      result = .ok () ∧ Poised project later ∧ FollowsReady project later
        ∧ ∃ log, later.1 = { now.1 with log := log } := by
  have updates : Leads Disk.alone
      (root project (now.1.registry.ready now.1.registry.watched)) now _ :=
    leads_root poised.accepts fun workspace member =>
      poised.filled workspace (List.mem_filter.mp member).1
  unfold configureRoot
  apply leads_engine
  rw [poised.active]
  apply updates.bind
  · rintro wrote later ⟨_, ⟨log, same⟩, project, config, reads, aggregates⟩
    refine leads_pure ⟨rfl, ⟨project.trans poised.same, ?_, ?_, ?_, ?_⟩, ⟨config, reads, ?_⟩, log, same⟩
    · rw [same]
      exact poised.active
    · rw [same]
      exact poised.below
    · rw [same]
      exact poised.filled
    · exact Disk.accepts_configFile reads aggregates.isListed
    · rw [same]
      exact aggregates
  · rintro failure later ⟨⟨_, failed⟩, _⟩
    cases failed

theorem Poised.changed {now : Engine × Disk} (poised : Poised project now) {engine : Engine}
    (active : engine.active = now.1.active)
    (manifests : engine.registry.manifests = now.1.registry.manifests) :
    Poised project (engine, now.2) where
  same := poised.same
  active := active.trans poised.active
  below := by
    rw [manifests]
    exact poised.below
  filled workspace := by
    rw [Registry.watched, manifests]
    exact poised.filled workspace
  accepts := poised.accepts

/-- Whether the root config follows, and can go on to do so. -/
structure Following (project : Project) (state : Engine × Disk) : Prop where
  poised : Poised project state
  follows : FollowsReady project state

section

variable {now : Engine × Disk} (following : Following project now)

include following

theorem Following.changed {engine : Engine} (active : engine.active = now.1.active)
    (manifests : engine.registry.manifests = now.1.registry.manifests)
    (ready : ∀ workspace,
      engine.registry.isReady workspace = now.1.registry.isReady workspace) :
    Following project (engine, now.2) :=
  ⟨following.poised.changed active manifests,
    followsReady_of_same following.follows manifests ready fun _ => id⟩

/-- Whatever becomes ready, the root config is brought in line with it. -/
theorem Following.reconfigures {engine : Engine} (active : engine.active = now.1.active)
    (manifests : engine.registry.manifests = now.1.registry.manifests) :
    Leads Disk.alone (configureRoot project) (engine, now.2)
      fun _ later => Following project later :=
  (leads_configureRoot (following.poised.changed active manifests)).weaken
    fun _ _ ended => ⟨ended.2.1, ended.2.2.1⟩

theorem Following.stands (free : String → Prop) :
    ∃ config, Stands project now config free now := by
  obtain ⟨config, reads, _⟩ := following.follows
  exact ⟨config, reads, following.poised.same, rfl, rfl, fun _ _ => rfl, reads⟩

theorem Stands.poised_of_following {later : Engine × Disk}
    (stands : Stands project now config free later) : Poised project later := by
  obtain ⟨other, reads, aggregates⟩ := following.follows
  rw [stands.began] at reads
  cases reads
  exact stands.poised following.poised aggregates.isListed

/-- What left alone which workspaces are ready left the root config in line. -/
theorem Stands.stays {later : Engine × Disk} (stands : Stands project now config free later)
    (ready : ∀ workspace, free workspace →
      later.1.registry.isReady workspace = now.1.registry.isReady workspace) :
    Following project later :=
  ⟨stands.poised_of_following following, stands.followsReady following.follows ready⟩

theorem Stands.reconfigures {later : Engine × Disk} (stands : Stands project now config free later) :
    Leads Disk.alone (configureRoot project) later fun _ after => Following project after :=
  (leads_configureRoot (stands.poised_of_following following)).weaken
    fun _ _ ended => ⟨ended.2.1, ended.2.2.1⟩

/-- A routine that leaves everything alone that the root config depends on. -/
theorem Following.leads {α : Type} {routine : Routine α}
    (abides : ∀ config, Abides Disk.alone (.preserving (Stands project now config fun _ => False))
      (fun _ => True) (Stands project now config fun _ => False) routine
      fun _ => Stands project now config fun _ => False) :
    Leads Disk.alone routine now fun _ later => Following project later := by
  obtain ⟨config, stands⟩ := following.stands fun _ => False
  apply ((abides config).leads stands).weaken
  intro result later ended
  exact (ended.1 stands).stays following fun _ => False.elim

/-! ### Artifacts -/

section

variable {path : String} (relative : project.IsRelative (Workspace.ofArtifact path))
  (below : Workspace.ofArtifact path ≠ ".")

include relative below

theorem leads_artifactCreated :
    Leads Disk.alone (artifactCreated project options path) now
      fun _ later => Following project later :=
  following.leads fun _ => abides_artifactCreated permits_stands (permitsArtifact_stands relative below)

theorem leads_artifactWritten :
    Leads Disk.alone (artifactWritten project options path) now
      fun _ later => Following project later :=
  following.leads fun _ => abides_artifactWritten permits_stands (permitsArtifact_stands relative below)

end

theorem leads_watchArtifact (relative : project.IsRelative workspace) (below : workspace ≠ ".") :
    Leads Disk.alone (watchArtifact project options workspace) now
      fun _ later => Following project later :=
  following.leads fun _ => abides_watch_stands relative below

theorem leads_artifactDeleted {path : String} :
    Leads Disk.alone (artifactDeleted path) now fun _ later => Following project later :=
  fun _ => following.changed rfl rfl fun _ => rfl

/-! ### The config of a workspace -/

theorem leads_configDeleted :
    Leads Disk.alone (configDeleted project workspace) now
      fun _ later => Following project later := by
  refine leads_configGone (fun log => following.reconfigures rfl rfl) (fun unready log => ?_) following
  refine following.changed ?_ ?_ fun other => ?_
  · rfl
  · rfl
  by_cases same : other = workspace
  · subst same
    have lost : (now.1.registry.dropReadiness other .onlyConfig).isReady other = false := by
      rw [Bool.eq_false_iff, Ne, Registry.isReady_iff, Registry.readinessOf_dropReadiness, if_pos rfl]
      intro all
      have config : ((now.1.registry.readinessOf other).config && !true) = true :=
        congrArg Readiness.config all
      rw [Bool.not_true, Bool.and_false] at config
      cases config
    exact lost.trans unready.symm
  · apply Registry.isReady_congr
    exact (Registry.readinessOf_dropReadiness ..).trans (if_neg same)

theorem leads_configPresent (relative : project.IsRelative workspace) (below : workspace ≠ ".") :
    Leads Disk.alone (configPresent project options workspace) now
      fun _ later => Following project later := by
  apply leads_configBack
  · intro _ _ log
    refine Leads.bind (following.reconfigures ?_ ?_) ?_ ?_
    · rfl
    · rfl
    · intro _ later follows
      apply follows.leads
      intro config
      apply abides_whenPresent permits_stands trivial
      apply abides_artifactWritten permits_stands
      rw [Workspace.ofArtifact_artifactPath relative.spelled.stem]
      exact permitsArtifact_stands relative below
    · exact fun _ _ => id
  · intro missing unready log
    refine following.changed ?_ ?_ fun other => ?_
    · rfl
    · rfl
    by_cases same : other = workspace
    · subst same
      have before : now.1.registry.isReady other = false := by
        rw [Bool.eq_false_iff, Ne, Registry.isReady_iff]
        intro all
        rw [Registry.hasReadiness, all] at missing
        exact absurd missing (by decide)
      exact unready.trans before.symm
    · apply Registry.isReady_congr
      exact (Registry.readinessOf_addReadiness ..).trans (if_neg same)
  · exact fun _ => following

end

end

end Watch
end RefSync
