/-
Adding workspaces. Their manifests are loaded together, each of which decides about one
name; while that goes on a new name may lack its dependencies. If every manifest can be
got at, all of them are loaded, and then the dependencies of all new names become known.
-/

import RefSync.Proofs.Routine.Abiding
import RefSync.Proofs.Disk.Documents
import RefSync.Proofs.Watch.Loading

namespace RefSync

open Routine Path

namespace Disk

theorem quiet_alone : Quiet alone := fun _ _ => rfl

/-- Whether the manifest of a workspace gives it a name. -/
def Carries (disk : Disk) (workspace name : String) : Prop :=
  ∃ manifest, manifestOf (disk.read (Workspace.manifestPath workspace)) = .ok manifest
    ∧ manifest.name = some name

theorem carries_iff {disk : Disk} {workspace name : String} : disk.Carries workspace name ↔
    (manifestOf (disk.read (Workspace.manifestPath workspace))).toOption.bind (·.name) = some name := by
  unfold Carries
  cases manifestOf (disk.read (Workspace.manifestPath workspace)) with
  | error fault =>
      refine ⟨?_, nofun⟩
      rintro ⟨_, read, _⟩
      cases read
  | ok manifest =>
      refine ⟨?_, fun named => ⟨manifest, rfl, named⟩⟩
      rintro ⟨_, read, named⟩
      cases read
      exact named

instance (disk : Disk) (workspace name : String) : Decidable (disk.Carries workspace name) :=
  decidable_of_iff _ carries_iff.symm

end Disk

namespace Routine

theorem meets_readManifest {α : Type} {others own : Conduct Disk} {start now : Engine × Disk}
    {path : String} {rest : Except Fault Manifest → Routine α} {ending : Ending α Disk}
    (kept : own.allows start now)
    (goesOn : ∀ asks, others.allows now asks → ∀ resumes, others.allows asks resumes →
      Meets Disk.alone (rest (manifestOf (asks.2.read path))) others own resumes resumes ending) :
    Meets Disk.alone (readManifest path >>= rest) others own start now ending :=
  ⟨kept, fun asks asking => ⟨own.refl asks, goesOn asks asking⟩⟩

end Routine

namespace Watch

theorem readable_of_manifestOf {disk : Disk} {path : String} {manifest : Manifest}
    (read : manifestOf (disk.read path) = .ok manifest) : disk.Readable path := by
  unfold manifestOf at read
  split at read
  · cases read
  · rename_i given
    exact Disk.readable_of_read given

theorem object_of_manifestOf {given : Except ReadFault Json} {manifest : Manifest}
    (read : manifestOf given = .ok manifest) : ∃ document, given = .ok (.obj document) := by
  unfold manifestOf at read
  split at read
  · cases read
  · rename_i value
    cases value with
    | obj document => exact ⟨document, rfl⟩
    | _ => cases read

/-- A manifest that cannot be used is a fault of its document. -/
theorem documentFault_of_manifestOf {given : Except ReadFault Json} {fault : Fault}
    (failed : manifestOf given = .error fault) : fault.isDocumentFault = true := by
  unfold manifestOf at failed
  split at failed
  · cases failed
    rfl
  · split at failed <;> cases failed
    rfl

/-- A manifest that cannot be got at was not read. -/
theorem unread_of_manifestOf {given : Except ReadFault Json} {fault : Fault}
    (failed : manifestOf given = .error fault) (access : fault.isAccess = true) :
    ∃ refused, fault = .read refused ∧ given = .error refused := by
  unfold manifestOf at failed
  split at failed
  · rename_i refused
    cases failed
    exact ⟨refused, rfl, rfl⟩
  · split at failed <;> cases failed
    cases access

theorem notFatal_of_documentFault {fault : Fault} (document : fault.isDocumentFault = true) :
    fault.isFatal = false := by
  unfold Fault.isFatal
  split
  · cases document
  · rfl

/-- What is left at the end of a handler with nobody else at work. -/
def orderlyEnd {α : Type} (project : Project) (full : Prop) (post : α → Engine → Prop) :
    Ending α Disk :=
  fun result _ now => now.1.Orderly project full [] ∧
    match result with
    | .ok value => post value now.1
    | .error failure => ∀ fault ∈ failure, Harmless full fault

/-- A handler that leaves the engine orderly when nobody else is at work. -/
def LeavesOrderly {α : Type} (project : Project) (full : Prop) (routine : Routine α)
    (now : Engine × Disk) (post : α → Engine → Prop) : Prop :=
  ∀ start, Meets Disk.alone routine .none .any start now (orderlyEnd project full post)

end Watch

theorem Routine.Steadily.alone {α : Type} {project : Project} {full : Prop} {pre : Engine → Prop}
    {routine : Routine α} {post : α → Engine → Prop}
    (steadily : Steadily Disk.alone project full pre routine post) (now : Engine × Disk)
    (orderly : now.1.Orderly project full []) (holds : pre now.1) :
    Watch.LeavesOrderly project full routine now post := by
  intro start
  have stage : Stage project full now.1 now.1 := .refl orderly
  have meets := (steadily now now stage holds).relax .none .any
    (fun before after same => same ▸ (steady Disk project full).refl before)
    (fun _ _ _ => trivial)
  have ends : Meets Disk.alone routine .none .any now now (Watch.orderlyEnd project full post) :=
    meets.weaken fun result start now ended => ⟨ended.1.orderly, ended.2⟩
  exact ends.began fun _ _ => id

namespace Watch

section

variable {project : Project} {full : Prop}

/-- A stage in which manifests are loaded: workspaces get the names that they carry, but no file
changes. -/
structure LoadingStage (project : Project) (full : Prop) (added : List String)
    (who : String → Prop) (before after : Engine × Disk) : Prop where
  orderly : after.1.Orderly project full added
  files : after.2 = before.2
  artifacts : after.1.registry.artifacts = before.1.registry.artifacts
  missing : after.1.registry.missingArtifacts = before.1.registry.missingArtifacts
  dependencies : after.1.registry.dependencies = before.1.registry.dependencies
  active : after.1.active = before.1.active
  generation : after.1.generation = before.1.generation
  manifests : after.1.registry.manifests = before.1.registry.manifests
  names workspace : ¬who workspace →
    after.1.registry.findName workspace = before.1.registry.findName workspace
  readinessOf workspace : ¬who workspace →
    after.1.registry.readinessOf workspace = before.1.registry.readinessOf workspace
  keeps workspace name : before.1.registry.findName workspace = some name →
    after.1.registry.findName workspace = some name
  carried workspace name : after.1.registry.findName workspace = some name →
    before.1.registry.findName workspace = some name ∨ after.2.Carries workspace name

/-- What goes on while the manifests of the added workspaces are loaded. The names of some
workspaces may change. -/
def loading (project : Project) (full : Prop) (added : List String) (who : String → Prop) :
    Conduct Disk where
  allows before after := before.1.Orderly project full added →
    LoadingStage project full added who before after
  refl _ orderly := ⟨orderly, rfl, rfl, rfl, rfl, rfl, rfl, rfl, fun _ _ => rfl, fun _ _ => rfl,
    fun _ _ => id, fun _ _ => Or.inl⟩
  trans first second orderly :=
    let one := first orderly
    let two := second one.orderly
    ⟨two.orderly, two.files.trans one.files, two.artifacts.trans one.artifacts,
      two.missing.trans one.missing, two.dependencies.trans one.dependencies, two.active.trans one.active, two.generation.trans one.generation,
      two.manifests.trans one.manifests,
      fun workspace other => (two.names workspace other).trans (one.names workspace other),
      fun workspace other => (two.readinessOf workspace other).trans (one.readinessOf workspace other),
      fun workspace name named => two.keeps workspace name (one.keeps workspace name named),
      fun workspace name named => by
        rcases two.carried workspace name named with between | carries
        · exact (one.carried workspace name between).imp_right fun carries => two.files ▸ carries
        · exact Or.inr carries⟩

theorem LoadingStage.wider {added : List String} {who more : String → Prop}
    {before after : Engine × Disk} (stage : LoadingStage project full added who before after)
    (within : ∀ workspace, who workspace → more workspace) :
    LoadingStage project full added more before after :=
  { stage with
    names := fun workspace other => stage.names workspace fun does => other (within _ does)
    readinessOf := fun workspace other =>
      stage.readinessOf workspace fun does => other (within _ does) }

theorem Loads.orderly {workspace : String} {before after : Engine} {result : Option Manifest}
    {added : List String} (loads : Loads project workspace before result after)
    (orderly : before.Orderly project full added) (member : workspace ∈ added) :
    after.Orderly project full added where
  sound := loads.sound
  settled other absent due := by
    refine loads.settled other (fun same => absent (same ▸ member)) ?_
    exact orderly.settled other absent (loads.artifacts ▸ due)
  idle inactive := loads.idle (orderly.idle (loads.active ▸ inactive))

/-- What a workspace is left with by the manifest that it yielded. -/
def Named (workspace : String) (result : Option Manifest) (engine : Engine) : Prop :=
  engine.registry.findName workspace = result.bind (·.name)
    ∧ ∀ manifest, result = some manifest → manifest.name.isSome

/-- A workspace that counts as one with a manifest has one. -/
def Attested (workspace : String) (state : Engine × Disk) : Prop :=
  (state.1.registry.readinessOf workspace).manifest = true →
    ∃ manifest, manifestOf (state.2.read (Workspace.manifestPath workspace)) = .ok manifest

/-- The name that a workspace carries is that of some workspace. -/
def Heard (workspace : String) (state : Engine × Disk) : Prop :=
  ∀ name, state.2.Carries workspace name →
    ∃ holder, state.1.registry.findName holder = some name

/-- How a workspace's own loading ends. -/
def loadedEnd (project : Project) (full : Prop) (added : List String) (workspace : String) :
    Ending (Option Manifest) Disk :=
  lasting (loading project full added (· ≠ workspace)) (loading project full added (· = workspace))
    (endsWith (fun result state => Named workspace result state.1 ∧ Attested workspace state
      ∧ Heard workspace state) (¬full) (Harmless full))

section

variable {added : List String} {workspace : String}

/-- Loading its manifest is a stage of a workspace's own loading. -/
theorem Loads.allowed {begins : Engine × Disk} {after : Engine} {result : Option Manifest}
    (loads : Loads project workspace begins.1 result after) (member : workspace ∈ added)
    (fresh : begins.1.registry.findName workspace = none)
    (yields : ∀ read, result = some read →
      manifestOf (begins.2.read (Workspace.manifestPath workspace)) = .ok read) :
    (loading project full added (· = workspace)).allows begins (after, begins.2) := by
  refine fun orderly => ⟨loads.orderly orderly member, rfl, loads.artifacts, loads.missing,
    loads.dependencies fresh, loads.active, loads.generation, loads.manifests, loads.findName,
    loads.readinessOf, ?_, ?_⟩
  · intro other name named
    by_cases own : other = workspace
    · rw [own, fresh] at named
      cases named
    · exact (loads.findName other own).trans named
  · intro other name named
    by_cases own : other = workspace
    · subst own
      cases result with
      | none =>
          rw [loads.unnamed rfl] at named
          cases named
      | some manifest =>
          obtain ⟨held, given, holds⟩ := loads.named manifest rfl
          rw [holds] at named
          cases named
          exact Or.inr ⟨manifest, yields manifest rfl, given⟩
    · exact Or.inl ((loads.findName other own).symm.trans named)

variable {now : Engine × Disk} (member : workspace ∈ added) (stem : IsStem workspace)
  (orderly : now.1.Orderly project full added)
  (fresh : now.1.registry.findName workspace = none)

include member orderly fresh

/-- What a workspace's loading ends with lasts while the others are loaded. -/
theorem loadedEnd_of_loads {after : Engine} {result : Option Manifest}
    (yields : ∀ read, result = some read →
      manifestOf (now.2.read (Workspace.manifestPath workspace)) = .ok read)
    (attested : Attested workspace (after, now.2)) (heard : Heard workspace (after, now.2))
    (loads : Loads project workspace now.1 result after) :
    loadedEnd project full added workspace (.ok result) now (after, now.2) := by
  have does : (loading project full added (· = workspace)).allows now (after, now.2) :=
    loads.allowed member fresh yields
  refine ⟨does, fun later reached => ?_⟩
  have stage := reached (does orderly).orderly
  refine ⟨⟨?_, ?_⟩, ?_, ?_⟩
  · rw [stage.names workspace (not_not_intro rfl)]
    cases result with
    | none => exact loads.unnamed rfl
    | some manifest =>
        obtain ⟨name, given, named⟩ := loads.named manifest rfl
        exact named.trans given.symm
  · intro manifest found
    obtain ⟨name, given, _⟩ := loads.named manifest found
    rw [given]
    rfl
  · intro bit
    rw [stage.readinessOf workspace (not_not_intro rfl)] at bit
    rw [stage.files]
    exact attested bit
  · intro name carries
    rw [stage.files] at carries
    obtain ⟨holder, held⟩ := heard name carries
    exact ⟨holder, stage.keeps holder name held⟩

include stem

/-- A manifest that says nothing usable is no manifest, and carries no name. -/
theorem meets_withoutManifest {fault : Fault} (message : String)
    (failed : manifestOf (now.2.read (Workspace.manifestPath workspace)) = .error fault) :
    Meets Disk.alone (withoutManifest workspace message)
      (loading project full added (· ≠ workspace)) (loading project full added (· = workspace))
      now now (loadedEnd project full added workspace) := by
  apply meets_withoutName .manifestAndName rfl orderly.sound stem
  intro after loads bit
  refine loadedEnd_of_loads member orderly fresh nofun (fun held => ?_) (fun name carries => ?_) loads
  · rw [show (after.registry.readinessOf workspace).manifest = false from bit rfl] at held
    cases held
  · obtain ⟨manifest, read, _⟩ := carries
    rw [failed] at read
    cases read

/-- A watched workspace gets the name that its manifest carries, unless another one has it. -/
theorem meets_registerRead {manifest : Manifest}
    (read : manifestOf (now.2.read (Workspace.manifestPath workspace)) = .ok manifest)
    (watches : isWatched now.1.registry workspace = true) :
    Meets Disk.alone (registerManifest project workspace manifest)
      (loading project full added (· ≠ workspace)) (loading project full added (· = workspace))
      now now (loadedEnd project full added workspace) := by
  refine meets_registerManifest orderly.sound stem (fun _ _ _ named => ?_)
    fun result after loads yields refused => loadedEnd_of_loads member orderly fresh
      (fun given same => (yields given same).symm ▸ read) (fun _ => ⟨manifest, read⟩) ?_ loads
  · rw [fresh] at named
    cases named
  · rintro name ⟨other, again, given⟩
    cases read.symm.trans again
    cases result with
    | none =>
        obtain ⟨holder, held, differs⟩ := refused rfl watches name given
        exact ⟨holder, (loads.findName holder differs).trans
          ((orderly.sound.inverse holder name).mpr held)⟩
    | some loaded =>
        obtain ⟨own, hasName, named⟩ := loads.named loaded rfl
        cases yields loaded rfl
        cases given.symm.trans hasName
        exact ⟨workspace, named⟩

omit orderly fresh in
/-- Others that are loaded at the same time leave a workspace's loading alone. Only a manifest that
cannot be got at, and is not just missing, lets it fail. -/
theorem meets_loadManifest {begins : Engine × Disk} (orderly : begins.1.Orderly project full added)
    (plain : full → begins.2.PlainManifest workspace)
    (watched : Workspace.manifestPath workspace ∈ begins.1.registry.manifests)
    (unnamed : begins.1.registry.findName workspace = none) :
    Meets Disk.alone (loadManifest project workspace)
      (loading project full added (· ≠ workspace)) (loading project full added (· = workspace))
      begins begins (loadedEnd project full added workspace) := by
  refine meets_readManifest ((loading project full added (· = workspace)).refl begins) ?_
  intro asks asking resumes resuming
  have asked := asking orderly
  have stage := resuming asked.orderly
  have files : resumes.2 = begins.2 := stage.files.trans asked.files
  have fresh : resumes.1.registry.findName workspace = none := by
    rw [stage.names workspace (not_not_intro rfl), asked.names workspace (not_not_intro rfl),
      unnamed]
  have watches : isWatched resumes.1.registry workspace = true := by
    rw [isWatched, stage.manifests, asked.manifests]
    exact List.contains_iff_mem.mpr watched
  have loses {fault : Fault} (message : String)
      (failed : manifestOf (resumes.2.read (Workspace.manifestPath workspace)) = .error fault) :=
    meets_withoutManifest member stem stage.orderly fresh message failed
  rw [asked.files, ← files]
  cases read : manifestOf (resumes.2.read (Workspace.manifestPath workspace)) with
  | ok manifest => exact meets_registerRead member stem stage.orderly fresh read watches
  | error fault =>
      split
      · rename_i found
        cases found
      · exact loses _ read
      · rename_i other present found
        obtain rfl : fault = other := Except.error.inj found
        by_cases access : fault.isAccess = true
        · rw [if_pos access]
          obtain ⟨refused, rfl, unread⟩ := unread_of_manifestOf read access
          refine ⟨(loading project full added (· = workspace)).refl resumes, fun _ _ =>
            ⟨fun isFull => ?_, fun thrown member _ => ?_⟩⟩
          · obtain ⟨path, rfl⟩ := plain isFull refused (files ▸ unread) access
            exact present path rfl
          · rw [List.mem_singleton.mp member]
            rfl
        · rw [if_neg access]
          exact loses _ read

end

/-- A registry in which the manifests of added workspaces are watched too, and nothing else is
different. -/
structure Watching (project : Project) (added : List String) (before after : Registry) : Prop where
  sound : after.Sound project
  same : after = { before with manifests := after.manifests }
  members path : path ∈ after.manifests ↔
    path ∈ before.manifests ∨ ∃ workspace ∈ added, path = Workspace.manifestPath workspace

theorem watchAll {added : List String} (relative : ∀ workspace ∈ added, project.IsRelative workspace)
    {registry : Registry} (sound : registry.Sound project) :
    Watching project added registry (added.foldl (fun registry workspace =>
      registry.watchManifest (Workspace.manifestPath workspace)) registry) := by
  induction added generalizing registry with
  | nil => exact ⟨sound, rfl, fun path => by simp⟩
  | cons workspace rest ih =>
      have first := sound.watchManifest (relative workspace List.mem_cons_self)
      obtain ⟨restSound, same, members⟩ :=
        ih (fun other member => relative other (List.mem_cons_of_mem _ member)) first
      refine ⟨restSound, same, fun path => (members path).trans ?_⟩
      have inserted : path ∈ (registry.watchManifest (Workspace.manifestPath workspace)).manifests
          ↔ path = Workspace.manifestPath workspace ∨ path ∈ registry.manifests :=
        TextSet.mem_insert
      rw [inserted, List.exists_mem_cons_iff]
      tauto

namespace Watching

variable {added : List String} {before after : Registry}

theorem names (watching : Watching project added before after) (workspace : String) :
    after.findName workspace = before.findName workspace := by
  rw [watching.same]
  rfl

theorem artifacts (watching : Watching project added before after) :
    after.artifacts = before.artifacts := by
  rw [watching.same]

theorem missing (watching : Watching project added before after) :
    after.missingArtifacts = before.missingArtifacts := by
  rw [watching.same]

theorem dependencies (watching : Watching project added before after) :
    after.dependencies = before.dependencies := by
  rw [watching.same]

theorem readinessOf (watching : Watching project added before after) (workspace : String) :
    after.readinessOf workspace = before.readinessOf workspace := by
  rw [watching.same]
  rfl

end Watching

/-- The dependencies of all loaded workspaces become known, at once. -/
theorem meets_registerAll {α : Type} {others own : Conduct Disk} {start now : Engine × Disk}
    (loaded : List Manifest) {rest : Routine α} {ending : Ending α Disk}
    (sound : now.1.registry.Sound project)
    (named : ∀ manifest ∈ loaded, ∃ name workspace, manifest.name = some name
      ∧ now.1.registry.findName workspace = some name)
    (goesOn : ∀ after : Registry, after.Sound project →
      after = { now.1.registry with dependencies := after.dependencies } →
      (∀ workspace, now.1.registry.Settled workspace → after.Settled workspace) →
      (∀ manifest ∈ loaded, ∀ workspace, manifest.name = now.1.registry.findName workspace →
        after.Settled workspace) →
      (∀ name, (∀ manifest ∈ loaded, manifest.name ≠ some name) →
        after.dependencies.get? name = now.1.registry.dependencies.get? name) →
      Meets Disk.alone rest others own start ({ now.1 with registry := after }, now.2) ending) :
    Meets Disk.alone (loaded.forM registerDependencies >>= fun _ => rest) others own start now
      ending := by
  induction loaded generalizing now with
  | nil => exact goesOn now.1.registry sound rfl (fun _ => id) nofun fun _ _ => rfl
  | cons manifest others ih =>
      obtain ⟨name, owner, given, held⟩ := named manifest List.mem_cons_self
      let dependencies := manifest.workspaceDependencies now.1.registry.allNames
      have first : (now.1.registry.setDependencies name dependencies).Sound project := by
        refine sound.setDependencies ?_ dependencies
        rw [(sound.inverse owner name).mp held]
        rfl
      refine (meets_bind _ _ _).mpr ?_
      change Meets Disk.alone (registerDependencies manifest >>= fun _ =>
        others.forM registerDependencies) _ own start now _
      have registers : registerDependencies manifest = modifyRegistry fun registry =>
          registry.setDependencies name (manifest.workspaceDependencies registry.allNames) := by
        rw [registerDependencies, given]
      rw [registers, meets_modifyRegistry]
      refine (meets_bind _ _ _).mp (ih first
        (fun other member => named other (List.mem_cons_of_mem _ member)) ?_)
      intro after afterSound same settled each untouched
      refine goesOn after afterSound (by rw [same]; rfl)
        (fun workspace before => settled workspace (before.setDependencies name dependencies)) ?_ ?_
      · intro other member workspace owns
        rcases List.mem_cons.mp member with rfl | inOthers
        · refine settled workspace (Registry.settled_setDependencies ?_ dependencies)
          rw [← owns, given]
        · exact each other inOthers workspace owns
      · intro asked foreign
        refine (untouched asked fun other member => foreign other (List.mem_cons_of_mem _ member)).trans ?_
        refine (Table.get?_set ..).trans (if_neg ?_)
        rintro rfl
        exact foreign manifest List.mem_cons_self given

/-- What it is to add the manifests of workspaces, as far as that gets: nothing is different about
other workspaces, no file is different, and workspaces have got names that they carry. -/
structure Joins (added : List String) (before after : Engine × Disk) : Prop where
  files : after.2 = before.2
  artifacts : after.1.registry.artifacts = before.1.registry.artifacts
  missing : after.1.registry.missingArtifacts = before.1.registry.missingArtifacts
  active : after.1.active = before.1.active
  generation : after.1.generation = before.1.generation
  names workspace : workspace ∉ added →
    after.1.registry.findName workspace = before.1.registry.findName workspace
  readinessOf workspace : workspace ∉ added →
    after.1.registry.readinessOf workspace = before.1.registry.readinessOf workspace
  dependencies name : (∀ workspace ∈ added, after.1.registry.findName workspace ≠ some name) →
    after.1.registry.dependencies.get? name = before.1.registry.dependencies.get? name
  manifests path : path ∈ after.1.registry.manifests ↔
    path ∈ before.1.registry.manifests ∨ ∃ workspace ∈ added, path = Workspace.manifestPath workspace
  keeps workspace name : before.1.registry.findName workspace = some name →
    after.1.registry.findName workspace = some name
  carried workspace name : after.1.registry.findName workspace = some name →
    before.1.registry.findName workspace = some name ∨ after.2.Carries workspace name

/-- What there is once the manifests of added workspaces are loaded: all dependencies are known, and
a workspace counts as one with a manifest only if it has one. -/
structure Added (project : Project) (full : Prop) (added : List String)
    (before after : Engine × Disk) : Prop extends Joins added before after where
  orderly : after.1.Orderly project full []
  settled workspace : workspace ∈ added → after.1.registry.Settled workspace
  attested workspace : workspace ∈ added → Attested workspace after
  heard workspace : workspace ∈ added → Heard workspace after

/-- The workspaces that are brought up are those with a valid manifest. -/
theorem Added.present {added : List String} {before after : Engine × Disk} {workspace : String}
    (come : Added project full added before after)
    (member : workspace ∈ added.filter (after.1.registry.hasReadiness · .onlyManifest)) :
    workspace ∈ added
      ∧ ∃ manifest, manifestOf (after.2.read (Workspace.manifestPath workspace)) = .ok manifest := by
  obtain ⟨inAdded, has⟩ := List.mem_filter.mp member
  exact ⟨inAdded, come.attested workspace inAdded (Registry.hasReadiness_manifest.symm.trans has)⟩

/-- Workspaces that may be added: they were not watched, and the engine is active. -/
structure Addition (project : Project) (full : Prop) (added : List String) (generation : Nat)
    (now : Engine × Disk) : Prop where
  orderly : now.1.Orderly project full []
  current : isCurrent now.1 generation = true
  distinct : added.Nodup
  relative workspace : workspace ∈ added → project.IsRelative workspace
  new workspace : workspace ∈ added → Workspace.manifestPath workspace ∉ now.1.registry.manifests

namespace Addition

variable {added : List String} {generation : Nat} {now : Engine × Disk} {workspace : String}
  (addition : Addition project full added generation now)

include addition

theorem active : now.1.active = true :=
  (Bool.and_eq_true_iff.mp addition.current).1

theorem stem (member : workspace ∈ added) : IsStem workspace :=
  (addition.relative workspace member).spelled.stem

theorem unnamed (member : workspace ∈ added) : now.1.registry.findName workspace = none := by
  cases named : now.1.registry.findName workspace with
  | none => rfl
  | some name =>
      exact absurd (addition.orderly.sound.watches_of_named named).2 (addition.new workspace member)

theorem unwatched (member : workspace ∈ added) :
    Workspace.artifactPath workspace ∉ now.1.registry.artifacts := fun watched =>
  addition.new workspace member
    (addition.orderly.sound.watches_of_artifact (addition.stem member) watched).2

/-- Once the manifests are watched, only the added workspaces may lack their dependencies. -/
theorem orderly_watching {registry : Registry}
    (watching : Watching project added now.1.registry registry) :
    Engine.Orderly project full added { now.1 with registry := registry } where
  sound := watching.sound
  settled workspace _ due := by
    refine (addition.orderly.settled workspace List.not_mem_nil ?_).of_same (watching.names workspace)
      watching.dependencies
    exact watching.artifacts ▸ due
  idle inactive := by
    have running : now.1.active = false := inactive
    rw [addition.active] at running
    cases running

end Addition

/-- Once the manifests are watched and loaded, only dependencies may be different from then on. -/
theorem LoadingStage.joins {added : List String} {now later : Engine × Disk} {before after : Registry}
    (watching : Watching project added now.1.registry before)
    (stage : LoadingStage project full added (· ∈ added) ({ now.1 with registry := before }, now.2)
      later)
    (kept : after = { later.1.registry with dependencies := after.dependencies })
    (dependencies : ∀ name, (∀ workspace ∈ added, after.findName workspace ≠ some name) →
      after.dependencies.get? name = later.1.registry.dependencies.get? name) :
    Joins added now ({ later.1 with registry := after }, later.2) := by
  have names (workspace : String) :
      after.findName workspace = later.1.registry.findName workspace := by rw [kept]; rfl
  have bits (workspace : String) :
      after.readinessOf workspace = later.1.registry.readinessOf workspace := by rw [kept]; rfl
  refine ⟨stage.files, ?_, ?_, stage.active, stage.generation, fun workspace absent => ?_,
    fun workspace absent => ?_, fun name foreign => ?_, fun path => ?_, fun workspace name named => ?_,
    fun workspace name named => ?_⟩
  · rw [← watching.artifacts, ← stage.artifacts, kept]
  · rw [← watching.missing, ← stage.missing, kept]
  · exact (names workspace).trans ((stage.names workspace absent).trans (watching.names workspace))
  · exact (bits workspace).trans
      ((stage.readinessOf workspace absent).trans (watching.readinessOf workspace))
  · exact (dependencies name foreign).trans (by rw [stage.dependencies, watching.dependencies])
  · have manifests : after.manifests = before.manifests := by
      rw [kept]
      exact stage.manifests
    rw [← watching.members, ← manifests]
  · exact (names workspace).trans
      (stage.keeps workspace name ((watching.names workspace).trans named))
  · refine (stage.carried workspace name ((names workspace).symm.trans named)).imp_left ?_
    exact (watching.names workspace).symm.trans

section

variable {added : List String} {generation : Nat} {now joins : Engine × Disk} {watching : Registry}
  (addition : Addition project full added generation now)
  (watches : Watching project added now.1.registry watching)
  (stage : LoadingStage project full added (· ∈ added) ({ now.1 with registry := watching }, now.2)
    joins)

include addition watches stage

/-- Where loading fails, no added workspace is begun with. -/
theorem orderly_unloaded (notFull : ¬full) : joins.1.Orderly project full [] where
  sound := stage.orderly.sound
  settled workspace _ due := by
    by_cases member : workspace ∈ added
    · rcases due with isFull | watched
      · exact absurd isFull notFull
      · rw [show joins.1.registry.artifacts = now.1.registry.artifacts from
          stage.artifacts.trans watches.artifacts] at watched
        exact absurd watched (addition.unwatched member)
    · exact stage.orderly.settled workspace member due
  idle := stage.orderly.idle

variable {values : List (Option Manifest)}
  (loaded : List.Forall₂ (fun workspace result => Named workspace result joins.1
    ∧ Attested workspace joins ∧ Heard workspace joins) added values)

omit addition watches stage in
include loaded in
/-- Each manifest that was loaded is that of an added workspace. -/
theorem owner_of_loaded {manifest : Manifest} (member : manifest ∈ values.filterMap id) :
    ∃ workspace ∈ added, joins.1.registry.findName workspace = manifest.name
      ∧ manifest.name.isSome := by
  obtain ⟨_, inValues, rfl⟩ := List.mem_filterMap.mp member
  obtain ⟨workspace, inAdded, ⟨held, given⟩, _⟩ := exists_of_forall₂ loaded inValues
  exact ⟨workspace, inAdded, held, given manifest rfl⟩

include loaded

/-- Once the dependencies of all loaded manifests are known, the workspaces are added. -/
theorem added_of_registered {after : Registry} (sound : after.Sound project)
    (same : after = { joins.1.registry with dependencies := after.dependencies })
    (settled : ∀ workspace, joins.1.registry.Settled workspace → after.Settled workspace)
    (settles : ∀ manifest ∈ values.filterMap id, ∀ workspace,
      manifest.name = joins.1.registry.findName workspace → after.Settled workspace)
    (untouched : ∀ name, (∀ manifest ∈ values.filterMap id, manifest.name ≠ some name) →
      after.dependencies.get? name = joins.1.registry.dependencies.get? name) :
    Added project full added now ({ joins.1 with registry := after }, joins.2) := by
  have names (workspace : String) :
      after.findName workspace = joins.1.registry.findName workspace := by rw [same]; rfl
  have allSettled (workspace : String) (member : workspace ∈ added) : after.Settled workspace := by
    obtain ⟨result, inValues, ⟨held, _⟩, _⟩ := exists_of_forall₂ loaded.flip member
    cases result with
    | none => exact Registry.settled_of_unnamed ((names workspace).trans held)
    | some manifest =>
        exact settles manifest (List.mem_filterMap.mpr ⟨some manifest, inValues, rfl⟩) workspace
          held.symm
  have joined : Joins added now ({ joins.1 with registry := after }, joins.2) := by
    refine stage.joins watches same fun name foreign => untouched name fun manifest member given => ?_
    obtain ⟨workspace, inAdded, owns, _⟩ := owner_of_loaded loaded member
    exact foreign workspace inAdded ((names workspace).trans (owns.trans given))
  refine ⟨joined, ⟨sound, fun workspace _ due => ?_, fun inactive => ?_⟩, allSettled,
    fun workspace member bit => ?_, fun workspace member name carries => ?_⟩
  · by_cases member : workspace ∈ added
    · exact allSettled workspace member
    · refine settled workspace (stage.orderly.settled workspace member ?_)
      rw [same] at due
      exact due
  · have running : joins.1.active = false := inactive
    rw [stage.active] at running
    exact absurd addition.active (by rw [show now.1.active = false from running]; decide)
  · obtain ⟨_, _, _, attested, _⟩ := exists_of_forall₂ loaded.flip member
    have bits : after.readinessOf workspace = joins.1.registry.readinessOf workspace := by
      rw [same]
      rfl
    exact attested (bits ▸ bit)
  · obtain ⟨_, _, _, _, heard⟩ := exists_of_forall₂ loaded.flip member
    obtain ⟨holder, held⟩ := heard name carries
    exact ⟨holder, (names holder).trans held⟩

end

/-- The first part of adding workspaces, which yields whether the second one is still due. -/
def joinWorkspaces (project : Project) (workspaces : List String) (generation : Nat) :
    Routine Bool := do
  modifyRegistry fun registry =>
    workspaces.foldl (fun registry workspace =>
      registry.watchManifest (Workspace.manifestPath workspace)) registry
  let loaded ← forAll workspaces (loadManifest project)
  let current := isCurrent (← engine) generation
  onlyIf current ((loaded.filterMap id).forM registerDependencies)
  return current

theorem addWorkspaces_eq (project : Project) (options : SyncOptions) (workspaces : List String)
    (generation : Nat) :
    addWorkspaces project options workspaces generation = (do
      let current ← joinWorkspaces project workspaces generation
      onlyIf current (bringUp project options workspaces generation)) := by
  unfold addWorkspaces joinWorkspaces
  refine Eq.trans ?_ (bind_assoc _ _ _).symm
  refine congrArg (Routine.bind _) (funext fun _ => ?_)
  refine Eq.trans ?_ (bind_assoc _ _ _).symm
  refine congrArg (Routine.bind _) (funext fun loaded => congrArg Routine.get (funext fun engine => ?_))
  change onlyIf (isCurrent engine generation) _ = Routine.bind (Routine.bind
    (onlyIf (isCurrent engine generation) ((loaded.filterMap id).forM registerDependencies))
    fun _ => Routine.done (isCurrent engine generation)) _
  cases isCurrent engine generation with
  | true =>
      exact (bind_assoc ((loaded.filterMap id).forM registerDependencies) (fun _ => .done true)
        fun current => onlyIf current (bringUp project options workspaces generation)).symm
  | false => rfl

/-- Once their manifests are loaded, the dependencies of all added workspaces are known. Where some
manifest cannot be got at, none of them is. -/
theorem leads_joinWorkspaces {added : List String} {generation : Nat} {now : Engine × Disk}
    (addition : Addition project full added generation now)
    (plain : full → ∀ workspace ∈ added, now.2.PlainManifest workspace) :
    Leads Disk.alone (joinWorkspaces project added generation) now fun result later =>
      match result with
      | .ok current => current = true ∧ Added project full added now later
      | .error failure => ¬full ∧ later.1.Orderly project full [] ∧ Joins added now later
          ∧ ∀ fault ∈ failure, Harmless full fault := by
  intro start
  unfold joinWorkspaces
  rw [meets_modifyRegistry]
  have watches := watchAll addition.relative addition.orderly.sound
  generalize added.foldl (fun registry workspace =>
    registry.watchManifest (Workspace.manifestPath workspace)) now.1.registry = watching at watches ⊢
  have beginning := addition.orderly_watching watches
  refine (meets_bind _ _ _).mpr ?_
  refine meets_forAll_distinct addition.distinct
    (fun workspace => loading project full added (· ≠ workspace))
    (fun workspace => loading project full added (· = workspace))
    (loading project full added (· ∈ added))
    (fun workspace result state => Named workspace result state.1 ∧ Attested workspace state
      ∧ Heard workspace state) (¬full) (Harmless full) trivial ?_ ?_ ?_ ?_ ?_ ?_ ?_
  · rintro workspace _ before _ rfl
    exact (loading project full added (· ≠ workspace)).refl before
  · intro workspace _ other _ differs before after does stage
    exact (does stage).wider fun _ same => same ▸ differs.symm
  · rintro before _ rfl
    exact (loading project full added (· ∈ added)).refl before
  · intro workspace member before after does
    exact ⟨fun stage => (does stage).wider fun _ same => same ▸ member, trivial⟩
  · intro workspace member begins reached
    have stage := reached beginning
    refine meets_loadManifest member (addition.stem member) stage.orderly (fun isFull => ?_) ?_ ?_
    · rw [stage.files]
      exact plain isFull _ member
    · rw [stage.manifests]
      exact (watches.members _).mpr (Or.inr ⟨_, member, rfl⟩)
    · rw [stage.names _ (not_not_intro rfl)]
      exact (watches.names _).trans (addition.unnamed member)
  · intro joins values reached loaded
    have stage := reached beginning
    have still : isCurrent joins.1 generation = true := by
      rw [isCurrent, stage.active, stage.generation]
      exact addition.current
    dsimp only
    rw [meets_engine, still]
    refine meets_registerAll (values.filterMap id) stage.orderly.sound ?_ ?_
    · intro manifest member
      obtain ⟨workspace, _, owns, given⟩ := owner_of_loaded loaded member
      obtain ⟨name, hasName⟩ := Option.isSome_iff_exists.mp given
      exact ⟨name, workspace, hasName, owns.trans hasName⟩
    · exact fun after sound same settled settles untouched => ⟨rfl,
        added_of_registered addition watches stage loaded sound same settled settles untouched⟩
  · intro notFull joins failure reached harmless
    have stage := reached beginning
    exact ⟨notFull, orderly_unloaded addition watches stage notFull,
      stage.joins watches rfl fun _ _ => rfl, harmless⟩

/-- Adding workspaces goes on with bringing them up. Where some manifest cannot be got at it ends,
with none of them begun. -/
theorem leads_addWorkspaces {options : SyncOptions} {added : List String} {generation : Nat}
    {now : Engine × Disk} (addition : Addition project full added generation now)
    (plain : full → ∀ workspace ∈ added, now.2.PlainManifest workspace)
    {post : Except Failure Unit → Engine × Disk → Prop}
    (goesOn : ∀ later, Added project full added now later →
      Leads Disk.alone (bringUp project options added generation) later post)
    (fails : ¬full → ∀ failure later, later.1.Orderly project full [] → Joins added now later →
      (∀ fault ∈ failure, Harmless full fault) → post (.error failure) later) :
    Leads Disk.alone (addWorkspaces project options added generation) now post := by
  rw [addWorkspaces_eq]
  apply (leads_joinWorkspaces addition plain).bind
  · rintro current later ⟨rfl, come⟩
    exact goesOn later come
  · rintro failure later ⟨notFull, orderly, joins, harmless⟩
    exact fails notFull failure later orderly joins harmless

/-- After adding workspaces the engine is orderly again, with all their dependencies known or, where
some manifest cannot be got at, with none of them begun. -/
theorem leavesOrderly_addWorkspaces {options : SyncOptions} {added : List String}
    {generation : Nat} {now : Engine × Disk} (addition : Addition project full added generation now)
    (plain : full → ∀ workspace ∈ added, now.2.PlainManifest workspace) :
    Leads Disk.alone (addWorkspaces project options added generation) now
      fun result later => orderlyEnd project full (fun _ _ => True) result later later := by
  apply leads_addWorkspaces addition plain
  · intro later added
    exact (steadily_bringUp Disk.quiet_alone options (fun workspace member => addition.stem member)
      generation).alone later added.orderly added.settled
  · exact fun _ failure later orderly _ harmless => ⟨orderly, harmless⟩

end

end Watch
end RefSync
