/-
Workspaces that become ready. The artifact that is there by then is read, unless it was watched
before; whatever was written while the workspace was not ready, the references of its config are
those of the artifact when the handler is through.
-/

import RefSync.Proofs.Watch.Naming
import RefSync.Proofs.Watch.Referring
import RefSync.Proofs.Watch.Throughout
import RefSync.Proofs.Watch.Watching

namespace RefSync

open Routine Path Update

namespace Watch

/-- Whether the config of a workspace that takes part references what its artifact refers to. -/
def CaughtUp (project : Project) (workspace : String) (artifact : Artifact)
    (state : Engine × Disk) : Prop :=
  ∀ name, state.1.registry.findName workspace = some name →
    state.1.registry.isReady workspace = true → isWatched state.1.registry workspace = true →
    state.2.Refers workspace (IsTarget project state.1.registry workspace
      (discoveredNames project state.1.registry (Workspace.artifactPath workspace) name artifact))

section

variable {project : Project} {options : SyncOptions} {now : Engine × Disk} {workspace : String}
  {value : Json} {artifact : Artifact}

/-- Where everything is as when the artifact was read, the references are what they should be. -/
theorem Pinned.caughtUp {registry : Registry} {name : String}
    (pinned : Pinned project registry workspace value now)
    (named : registry.findName workspace = some name)
    (refers : now.2.Refers workspace (IsTarget project registry workspace
      (discoveredNames project registry (Workspace.artifactPath workspace) name artifact))) :
    CaughtUp project workspace artifact now := by
  intro other found _ _
  rw [pinned.findName, named] at found
  cases found
  rw [discoveredNames_eq pinned.names pinned.manifests]
  rw [isTarget_eq project pinned.paths]
  exact refers

/-- A workspace that takes no part goes on to take none. -/
theorem caughtUp_of_spares {watched : String → Prop} {later : Engine × Disk}
    (spares : Spares watched now.1 later.1)
    (idle : ¬∃ name, now.1.registry.findName workspace = some name
      ∧ now.1.registry.isReady workspace = true ∧ isWatched now.1.registry workspace = true) :
    CaughtUp project workspace artifact later := by
  intro name named ready watched
  refine absurd ⟨name, ?_, ?_, ?_⟩ idle
  · rw [← named, Registry.findName, Registry.findName, spares.names]
  · rw [← ready]
    apply Registry.isReady_congr
    rw [Registry.readinessOf, Registry.readinessOf, spares.readiness]
  · rw [isWatched, spares.manifests] at watched
    exact watched

section

variable (reads : now.2.read (Workspace.artifactPath workspace) = .ok value)
  (valid : Artifact.validate value = .ok artifact) (same : now.2.project = project)
  (relative : project.IsRelative workspace)

include reads valid same relative

theorem leads_written_caughtUp :
    Leads Disk.alone (artifactWritten project options (Workspace.artifactPath workspace)) now
      fun result later => result = .ok () → CaughtUp project workspace artifact later := by
  have pinned : Pinned project now.1.registry workspace value now := ⟨same, rfl, rfl, rfl, rfl, reads⟩
  by_cases takes : ∃ name, now.1.registry.findName workspace = some name
      ∧ now.1.registry.isReady workspace = true ∧ isWatched now.1.registry workspace = true
  · obtain ⟨name, named, ready, _⟩ := takes
    apply ((abides_refer_written relative named ready (fun _ => Iff.rfl) valid).leads pinned).weaken
    rintro _ later ⟨_, ended⟩ rfl
    exact ended.1.caughtUp named ended.2
  · apply ((abides_spare_written (fun _ => True) _).leads trivial).weaken
    exact fun _ _ ended _ => caughtUp_of_spares ended.1 takes

theorem leads_watch_caughtUp
    (unwatched : Workspace.artifactPath workspace ∉ now.1.registry.artifacts) :
    Leads Disk.alone (watchArtifact project options workspace) now
      fun result later => result = .ok () → CaughtUp project workspace artifact later := by
  have pinned : Pinned project now.1.registry workspace value now := ⟨same, rfl, rfl, rfl, rfl, reads⟩
  by_cases takes : ∃ name, now.1.registry.findName workspace = some name
      ∧ now.1.registry.isReady workspace = true ∧ isWatched now.1.registry workspace = true
  · obtain ⟨name, named, ready, watched⟩ := takes
    apply ((abides_refer_watch relative named ready (fun _ => Iff.rfl) valid watched).leads
      ⟨pinned, unwatched⟩).weaken
    rintro _ later ⟨_, ended⟩ rfl
    exact ended.1.caughtUp named ended.2
  · apply ((abides_spare_watch (fun _ => True) trivial).leads trivial).weaken
    exact fun _ _ ended _ => caughtUp_of_spares ended.1 takes

end

/-! ### Workspaces that start to watch their artifacts together -/

section

variable {registry : Registry} {targets : String → Prop} {other : String} {begins : Engine × Disk}

/-- The others refer to what they refer to, and do not watch the artifact of this workspace. -/
def besides (project : Project) (registry : Registry) (workspace : String) (value : Json)
    (targets : String → Prop) : Conduct Disk :=
  (referring project registry workspace value targets).both
    (sparing (· ≠ Workspace.artifactPath workspace))

/-- What a workspace leaves behind once it watches its artifact. -/
structure SetUp (project : Project) (registry : Registry) (workspace : String) (value : Json)
    (targets : String → Prop) (other : String) (state : Engine × Disk) : Prop where
  pinned : Pinned project registry workspace value state
  refers : other = workspace → state.2.Refers workspace targets

theorem meets_watch_own (relative : project.IsRelative workspace) {name : String}
    (named : registry.findName workspace = some name) (ready : registry.isReady workspace = true)
    (exact : ∀ path, targets path ↔ IsTarget project registry workspace
      (discoveredNames project registry (Workspace.artifactPath workspace) name artifact) path)
    (valid : Artifact.validate value = .ok artifact) (watched : isWatched registry workspace = true)
    (pinned : Pinned project registry workspace value begins)
    (unwatched : Workspace.artifactPath workspace ∉ begins.1.registry.artifacts) :
    Meets Disk.alone (watchArtifact project options workspace)
      (besides project registry workspace value targets)
      (referring project registry workspace value targets) begins begins
      (lasting (besides project registry workspace value targets)
        (referring project registry workspace value targets)
        (endsWith (fun _ => SetUp project registry workspace value targets workspace) True
          fun _ => True)) := by
  let refers := referring project registry workspace value targets
  have watches : Meets Disk.alone (watchArtifact project options workspace) refers refers begins begins
      _ := abides_refer_watch relative named ready exact valid watched begins begins begins
        (refers.refl begins) (refers.refl begins) ⟨pinned, unwatched⟩
  apply (watches.relax _ _ (fun _ _ => And.left) fun _ _ => id).weaken
  intro result start now ended
  refine ⟨ended.2.1, fun later away => ?_⟩
  cases result with
  | error _ => exact ⟨trivial, fun _ _ => trivial⟩
  | ok _ =>
      have kept := away.1 ended.2.2.1
      exact ⟨kept.1, fun _ => kept.2 ended.2.2.2⟩

theorem meets_watch_other (relative : project.IsRelative workspace)
    (otherRelative : project.IsRelative other) (differs : other ≠ workspace)
    (pinned : Pinned project registry workspace value begins) :
    Meets Disk.alone (watchArtifact project options other)
      (referring project registry workspace value targets)
      (besides project registry workspace value targets) begins begins
      (lasting (referring project registry workspace value targets)
        (besides project registry workspace value targets)
        (endsWith (fun _ => SetUp project registry workspace value targets other) True
          fun _ => True)) := by
  let refers := referring project registry workspace value targets
  have watches : Meets Disk.alone (watchArtifact project options other) refers refers begins begins _ :=
    abides_watch_other relative otherRelative differs begins begins begins (refers.refl begins)
      (refers.refl begins) pinned
  have apart : Workspace.artifactPath other ≠ Workspace.artifactPath workspace := by
    intro same
    apply differs
    rw [← Workspace.ofArtifact_artifactPath otherRelative.spelled.stem, same,
      Workspace.ofArtifact_artifactPath relative.spelled.stem]
  have spares : Confined Disk.alone (sparing (· ≠ Workspace.artifactPath workspace))
      (watchArtifact project options other) := spares_watchArtifact apart
  have both := watches.both (spares begins begins (Conduct.refl _ begins))
  apply (both.relax _ _ (fun _ _ does => ⟨does, trivial⟩) fun _ _ => id).weaken
  intro result start now ended
  refine ⟨⟨ended.1.2.1, ended.2⟩, fun later away => ?_⟩
  cases result with
  | error _ => exact ⟨trivial, fun _ _ => trivial⟩
  | ok _ => exact ⟨(away ended.1.2.2).1, fun also => absurd also differs⟩

/-- Each workspace starts to watch its artifact, and what the others do meanwhile is nothing to this
one: they watch theirs, and leave its config alone. -/
theorem leads_watchers_caughtUp {present : List String} (member : workspace ∈ present)
    (distinct : present.Nodup) (relatives : ∀ other ∈ present, project.IsRelative other)
    (reads : now.2.read (Workspace.artifactPath workspace) = .ok value)
    (valid : Artifact.validate value = .ok artifact) (same : now.2.project = project)
    (unwatched : Workspace.artifactPath workspace ∉ now.1.registry.artifacts) :
    Leads Disk.alone (forAll present (watchArtifact project options)) now
      fun result later => ∀ values, result = .ok values → CaughtUp project workspace artifact later := by
  have relative := relatives workspace member
  have pinned : Pinned project now.1.registry workspace value now := ⟨same, rfl, rfl, rfl, rfl, reads⟩
  by_cases takes : ∃ name, now.1.registry.findName workspace = some name
      ∧ now.1.registry.isReady workspace = true ∧ isWatched now.1.registry workspace = true
  · obtain ⟨name, named, ready, watched⟩ := takes
    let targets := IsTarget project now.1.registry workspace
      (discoveredNames project now.1.registry (Workspace.artifactPath workspace) name artifact)
    let refers := referring project now.1.registry workspace value targets
    let beside := besides project now.1.registry workspace value targets
    intro start
    apply meets_forAll
      (fun index => if present[index] = workspace then beside else refers)
      (fun index => if present[index] = workspace then refers else beside) refers
      (fun index _ => SetUp project now.1.registry workspace value targets present[index]) True
      (fun _ => True) trivial
    · rintro index before _ rfl
      exact Conduct.refl _ before
    · intro index other before after differs does
      by_cases own : present[index] = workspace
      · have notOwn : present[other] ≠ workspace := fun also =>
          differs (Fin.ext ((List.Nodup.getElem_inj_iff distinct).mp (own.trans also.symm)))
        rw [if_neg notOwn] at does
        rwa [if_pos own]
      · rw [if_neg own]
        split at does
        · exact does
        · exact does.1
    · rintro before _ rfl
      exact refers.refl before
    · intro index before after does
      refine ⟨?_, trivial⟩
      split at does
      · exact does
      · exact does.1
    · intro index begins reached
      have otherRelative := relatives present[index] (List.getElem_mem index.isLt)
      by_cases own : present[index] = workspace
      · simp only [if_pos own] at reached ⊢
        have still : Workspace.artifactPath workspace ∉ begins.1.registry.artifacts := fun held =>
          (reached.2.watches _ held).elim unwatched fun apart => apart rfl
        rw [own]
        exact meets_watch_own relative named ready (fun _ => Iff.rfl) valid watched
          (reached.1 pinned).1 still
      · simp only [if_neg own] at reached ⊢
        exact meets_watch_other relative otherRelative own (reached pinned).1
    · intro joins values _ ends _ _ _
      obtain ⟨index, bound, isOwn⟩ := List.getElem_of_mem member
      obtain ⟨_, _, ended⟩ := ends ⟨index, bound⟩
      exact ended.pinned.caughtUp named (ended.refers isOwn)
    · intro _ _ _ _ _ _ impossible
      cases impossible
  · have group : Abides Disk.alone (sparing fun _ => True) (fun _ => True) (fun _ => True)
        (forAll present (watchArtifact project options)) fun _ _ => True :=
      abides_group endures_true fun _ _ => abides_spare_watch _ trivial
    exact (group.leads trivial).weaken fun _ _ ended _ _ => caughtUp_of_spares ended.1 takes

end

/-! ### What comes before -/

/-- What a workspace needs on the way to its artifact: the artifact stays as it is, and a workspace
that is not due is as ready as it was. -/
structure Awaits (project : Project) (origin : Engine × Disk) (workspace : String) (value : Json)
    (due : Prop) (state : Engine × Disk) : Prop where
  same : state.2.project = project
  reads : state.2.read (Workspace.artifactPath workspace) = .ok value
  artifacts : state.1.registry.artifacts = origin.1.registry.artifacts
  active : state.1.active = origin.1.active
  generation : state.1.generation = origin.1.generation
  readinessOf : ¬due → state.1.registry.readinessOf workspace = origin.1.registry.readinessOf workspace

section

variable {origin : Engine × Disk} {due : Prop} {other : String}

attribute [local irreducible] Disk.write

theorem permits_awaits : Permits project (fun _ => True)
    (.preserving (Awaits project origin workspace value due)) (fun _ => True)
    (Awaits project origin workspace value due) where
  endures _ _ kept := kept
  notes _ _ _ registry active generation awaits := by
    refine ⟨awaits.same, awaits.reads, ?_, active.trans awaits.active,
      generation.trans awaits.generation, ?_⟩
    · rw [registry]
      exact awaits.artifacts
    · rw [registry]
      exact awaits.readinessOf
  faults _ _ _ _ := trivial

theorem permitsConfig_awaits (relative : project.IsRelative workspace) {path : String}
    (last : (parts path).getLast? = some configFile) :
    PermitsConfig (fun _ => True) (.preserving (Awaits project origin workspace value due))
      (Awaits project origin workspace value due) path := by
  refine ⟨trivial, fun asks found updated now _ _ _ _ awaits => ?_⟩
  have same : (now.2.write path updated).2.project = now.2.project := by
    rw [(Disk.puts_write now.2 path updated).2]
  refine { awaits with same := same.trans awaits.same, reads := ?_ }
  apply Disk.read_keeps same (Disk.keeps_write now.2 path updated) awaits.reads
  rw [awaits.same]
  exact artifact_apart relative (Or.inr last)

theorem abides_await_bootstrap (relative : project.IsRelative workspace)
    (elsewhere : ¬due → other ≠ workspace) :
    Abides Disk.alone (.preserving (Awaits project origin workspace value due)) (fun _ => True)
      (Awaits project origin workspace value due) (bootstrapConfig other)
      fun _ => Awaits project origin workspace value due := by
  apply abides_bootstrapConfig permits_awaits trivial
    (permitsConfig_awaits relative (Workspace.last_configPath other))
  intro state _ _ awaits
  refine { awaits with readinessOf := fun notDue => ?_ }
  rw [← awaits.readinessOf notDue, Registry.readinessOf_addReadiness,
    if_neg fun same => elsewhere notDue same.symm]

theorem abides_await_root (relative : project.IsRelative workspace) :
    Abides Disk.alone (.preserving (Awaits project origin workspace value due)) (fun _ => True)
      (Awaits project origin workspace value due) (configureRoot project)
      fun _ => Awaits project origin workspace value due :=
  abides_configureRoot permits_awaits (permitsConfig_awaits relative (by decide))

end

/-- Of the workspaces that are brought up those with a manifest catch up. -/
theorem leads_bringUp_caughtUp {workspaces : List String} {generation : Nat}
    (current : isCurrent now.1 generation = true) (distinct : workspaces.Nodup)
    (relatives : ∀ other ∈ workspaces, project.IsRelative other)
    (relative : project.IsRelative workspace)
    (reads : now.2.read (Workspace.artifactPath workspace) = .ok value)
    (valid : Artifact.validate value = .ok artifact) (same : now.2.project = project)
    (unwatched : workspace ∈ workspaces →
      Workspace.artifactPath workspace ∉ now.1.registry.artifacts) :
    Leads Disk.alone (bringUp project options workspaces generation) now fun result later =>
      result = .ok () →
        (workspace ∈ workspaces ∧ now.1.registry.hasReadiness workspace .onlyManifest = true
          ∧ CaughtUp project workspace artifact later)
        ∨ ((workspace ∈ workspaces → now.1.registry.hasReadiness workspace .onlyManifest = false)
          ∧ later.1.registry.readinessOf workspace = now.1.registry.readinessOf workspace) := by
  let present := workspaces.filter (now.1.registry.hasReadiness · .onlyManifest)
  have inPresent (other : String) (member : other ∈ present) : other ∈ workspaces :=
    (List.mem_filter.mp member).1
  have begins : Awaits project now workspace value (workspace ∈ present) now :=
    ⟨same, reads, rfl, rfl, rfl, fun _ => rfl⟩
  have configures : Abides Disk.alone
      (.preserving (Awaits project now workspace value (workspace ∈ present))) (fun _ => True)
      (Awaits project now workspace value (workspace ∈ present)) (forAll present bootstrapConfig)
      fun _ => Awaits project now workspace value (workspace ∈ present) := by
    apply abides_group fun _ _ kept => kept
    intro other member
    apply (abides_await_bootstrap relative fun absent same => absent (same ▸ member)).weaken
    exact fun _ _ _ => trivial
  unfold bringUp
  apply leads_registry
  apply (configures.leads begins).bind
  · rintro _ later ⟨_, awaits⟩
    apply ((abides_await_root relative).leads awaits).bind
    · rintro _ later ⟨_, awaits⟩
      apply leads_engine
      have still : isCurrent later.1 generation = true := by
        rw [isCurrent, awaits.active, awaits.generation]
        exact current
      rw [still]
      by_cases member : workspace ∈ present
      · have artifacts : Workspace.artifactPath workspace ∉ later.1.registry.artifacts := by
          rw [awaits.artifacts]
          exact unwatched (inPresent workspace member)
        apply (leads_watchers_caughtUp member (distinct.filter _)
          (fun other within => relatives other (inPresent other within)) awaits.reads valid awaits.same
          artifacts).bind
        · intro values after ended _ _
          exact Or.inl ⟨inPresent workspace member, (List.mem_filter.mp member).2, ended values rfl⟩
        · intro _ _ _ impossible
          cases impossible
      · have group : Abides Disk.alone (sparing fun _ => True) (fun _ => True) (fun _ => True)
            (forAll present (watchArtifact project options)) fun _ _ => True :=
          abides_group endures_true fun _ _ => abides_spare_watch _ trivial
        apply (group.leads trivial).bind
        · rintro values after ⟨spares, _⟩ _ _
          refine Or.inr ⟨fun within => ?_, ?_⟩
          · exact Bool.eq_false_iff.mpr fun has => member (List.mem_filter.mpr ⟨within, has⟩)
          · rw [← awaits.readinessOf member, Registry.readinessOf, Registry.readinessOf,
              spares.readiness]
        · intro _ _ _ impossible
          cases impossible
    · intro _ _ _ impossible
      cases impossible
  · intro _ _ _ impossible
    cases impossible

end

end Watch
end RefSync
