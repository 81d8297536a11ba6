/-
What an event has the engine write is nothing to the engine. A config that it wrote belongs to a workspace
that counts as one with a config, and a manifest that it wrote to one whose name it knows and whose
artifact it watches; all that is left to be heard of these documents is what the manifests declare.
-/

import RefSync.Proofs.Watch.Commuting
import RefSync.Proofs.Watch.Confirming
import RefSync.Proofs.Watch.Continuing
import RefSync.Proofs.Watch.Converging
import RefSync.Proofs.Watch.Isolation

namespace RefSync

open Routine Path Update

namespace Watch

attribute [local irreducible] Disk.write dispatch

variable {project : Project} {options : SyncOptions} {within : String → Prop}
  {now between later : Engine × Disk} {workspace name path : String}

/-! ### Workspaces that take part -/

/-- Whether a workspace that has a name has all that the engine needs of it. -/
structure Partakes (registry : Registry) (workspace : String) : Prop where
  config : (registry.readinessOf workspace).config = true
  artifact : Workspace.artifactPath workspace ∈ registry.artifacts

/-- Whether all workspaces that have names take part. -/
def AllPartake (registry : Registry) : Prop :=
  ∀ workspace, (registry.findName workspace).isSome → Partakes registry workspace

theorem AllPartake.grows {before after : Engine} (all : AllPartake before.registry)
    (grows : Grows before after) : AllPartake after.registry := by
  intro workspace named
  have before := all workspace (grows.names workspace ▸ named)
  exact ⟨grows.configs workspace before.config, grows.artifacts _ before.artifact⟩

/-- Whether a document is one of a workspace that has a name. -/
def OfNamed (registry : Registry) (path : String) : Prop :=
  ∃ workspace, (registry.findName workspace).isSome
    ∧ (path = Workspace.configPath workspace ∨ path = Workspace.manifestPath workspace)

/-- Whether the engine expects a document to be written: the root config, the config of a workspace
that counts as one with a config, or the manifest of one that takes part. -/
inductive Expects (registry : Registry) (path : String) : Prop where
  | root (own : path = configFile)
  | config (workspace : String) (own : path = Workspace.configPath workspace)
      (configured : (registry.readinessOf workspace).config = true)
  | manifest (workspace : String) (own : path = Workspace.manifestPath workspace)
      (named : (registry.findName workspace).isSome) (partakes : Partakes registry workspace)

theorem AllPartake.expects {registry : Registry} (all : AllPartake registry)
    (own : OfNamed registry path) : Expects registry path := by
  obtain ⟨workspace, named, own | own⟩ := own
  · exact .config workspace own (all workspace named).config
  · exact .manifest workspace own named (all workspace named)

/-- What goes on at workspaces with names. -/
theorem Continues.expected (continues : Continues within now later) (all : AllPartake now.1.registry)
    (own : ∀ path, within path → path = configFile ∨ OfNamed now.1.registry path) :
    now.2.Writes (Expects later.1.registry) later.2 := by
  apply continues.writes.weaken
  intro path inside
  rcases own path inside with rfl | ⟨workspace, named, own⟩
  · exact .root rfl
  · exact (all.grows continues.grows).expects
      ⟨workspace, (continues.grows.names workspace).symm ▸ named, own⟩

/-! ### Artifacts and configs -/

section

variable (sound : now.1.registry.Sound project) (all : AllPartake now.1.registry)

include sound all

theorem leads_artifact_expected (watched : path ∈ now.1.registry.artifacts) {change : Change}
    (present : change ≠ .delete) :
    Leads Disk.alone (handle project options .artifact change path) now
      fun _ later => now.2.Writes (Expects later.1.registry) later.2 := by
  obtain ⟨watches, back⟩ := sound.ofArtifact watched
  cases ready : now.1.registry.isReady (Workspace.ofArtifact path) with
  | false =>
      rw [← back]
      apply (leads_handle_unready watches.1 ready present).weaken
      rintro _ later ⟨_, _, same⟩
      exact Disk.writes_of_same _ (by rw [same])
  | true =>
      have endures : Endures (continuing (OfNamed now.1.registry)) fun state =>
          Covers (OfNamed now.1.registry) state.1 :=
        endures_growing fun _ _ grows covers => covers.grows grows
      have covers : Covers (OfNamed now.1.registry) now.1 :=
        fun workspace named => ⟨workspace, named, Or.inr rfl⟩
      have permits : Permits project (fun _ => True) (continuing (OfNamed now.1.registry))
          (fun _ => True) fun state => Covers (OfNamed now.1.registry) state.1 :=
        permits_continuing endures
      have artifact : PermitsArtifact (fun _ => True) (continuing (OfNamed now.1.registry))
          (fun _ => True) (fun state => Covers (OfNamed now.1.registry) state.1) options
          (Workspace.ofArtifact path) :=
        permitsArtifact_continuing (fun _ => id) ⟨_, sound.named_of_ready ready, Or.inl rfl⟩
      have expected {routine : Routine Unit}
          (abides : Abides Disk.alone (continuing (OfNamed now.1.registry)) (fun _ => True)
            (fun state => Covers (OfNamed now.1.registry) state.1) routine fun _ state =>
              Covers (OfNamed now.1.registry) state.1) :
          Leads Disk.alone routine now fun _ later => now.2.Writes (Expects later.1.registry) later.2 :=
        (abides.leads covers).weaken fun _ _ ended => ended.1.expected all fun _ => Or.inr
      cases change with
      | create => exact expected (abides_artifactCreated permits artifact)
      | update => exact expected (abides_artifactWritten permits artifact)
      | delete => exact absurd rfl present

/-- A workspace whose config was not there has no name either, so nothing is due. -/
theorem leads_configPresent_expected (workspace : String) :
    Leads Disk.alone (configPresent project options workspace) now
      fun _ later => now.2.Writes (Expects later.1.registry) later.2 := by
  cases configured : (now.1.registry.readinessOf workspace).config with
  | true =>
      apply (leads_configPresent_confirmed configured).weaken
      rintro _ later ⟨_, rfl⟩
      exact Disk.writes_of_same _ rfl
  | false =>
      have unready : (now.1.registry.addReadiness workspace .onlyConfig).isReady workspace = false := by
        rw [← Bool.not_eq_true, Registry.isReady_iff, Registry.readinessOf_addReadiness, if_pos rfl]
        intro whole
        have bit : (now.1.registry.readinessOf workspace).name = true :=
          (Bool.or_false _).symm.trans (congrArg Readiness.name whole)
        have partakes := all workspace ((sound.nameBit workspace).mp bit)
        rw [partakes.config] at configured
        cases configured
      apply leads_configBack
      · exact fun _ ready => absurd (ready.symm.trans unready) (by decide)
      · exact fun _ _ _ => Disk.writes_of_same _ rfl
      · exact fun _ => Disk.writes_of_same _ rfl

end

/-! ### Manifests -/

/-- Reading a manifest has workspaces with names written to, if any. -/
theorem leads_loadManifest_writes (sound : now.1.registry.Sound project) (stem : IsStem workspace) :
    Leads Disk.alone (loadManifest project workspace) now
      fun _ later => now.2.Writes (OfNamed later.1.registry) later.2 := by
  apply leads_loadManifest
  · exact fun _ _ _ _ => Disk.writes_of_same _ rfl
  · exact fun _ _ _ => Disk.writes_of_same _ rfl
  · intro manifest _
    apply leads_registerManifest
    · exact fun _ => Disk.writes_of_same _ rfl
    · exact fun _ _ _ => Disk.writes_of_same _ rfl
    · exact fun _ _ _ _ _ _ _ => Disk.writes_of_same _ rfl
    · intro watched name previous renamed old _ _ _ renames log
      have soundRenamed := (sound.addReadiness (watches_of_isWatched stem watched) .onlyManifest
        nofun).rename (Registry.rename_eq_ok renames)
      have named {name workspace : String} (found : renamed.findPath name = some workspace) :
          (renamed.findName workspace).isSome := by
        rw [(soundRenamed.inverse workspace name).mpr found]
        rfl
      have permits : Permits project (fun _ => True) (continuing (OfNamed renamed)) (fun _ => True)
          (fun _ => True) := permits_continuing endures_true
      have carries : Leads Disk.alone (Update.name project previous name)
          ({ now.1 with registry := renamed, log := log }, now.2) _ :=
        (abides_name permits
          (fun _ _ found => permitsConfig_continuing ⟨_, named found, Or.inl rfl⟩)
          fun _ _ found => permitsManifest_continuing ⟨_, named found, Or.inr rfl⟩ _).leads
            ⟨trivial, rfl⟩
      have wrote {between : Engine × Disk} (continues : Continues (OfNamed renamed)
          ({ now.1 with registry := renamed, log := log }, now.2) between) :
          now.2.Writes (OfNamed between.1.registry) between.2 := by
        apply continues.writes.weaken
        rintro path ⟨workspace, has, own⟩
        exact ⟨workspace, (continues.grows.names workspace).symm ▸ has, own⟩
      refine carries.bind (fun _ between ⟨continues, _⟩ => ?_) fun _ _ ended => wrote ended.1
      have written := wrote continues
      unfold confirmName
      apply leads_registry
      by_cases still : between.1.registry.findName workspace = some name
      · rw [if_pos still]
        apply leads_modifyRegistry
        exact leads_pure written
      · rw [if_neg still]
        exact leads_pure written

theorem leads_configureRoot_continues (root : within configFile) :
    Leads Disk.alone (configureRoot project) now fun _ later => Continues within now later :=
  ((abides_configureRoot (permits_continuing endures_true)
    (permitsConfig_continuing root)).leads trivial).weaken fun _ _ ended => ended.1

theorem leads_manifestWritten_expected (sound : now.1.registry.Sound project)
    (all : AllPartake now.1.registry) (watched : path ∈ now.1.registry.manifests) :
    Leads Disk.alone (manifestWritten project options path) now
      fun result later => result = .ok () → now.2.Writes (Expects later.1.registry) later.2 := by
  obtain ⟨watches, _, _⟩ := sound.watches_ofDocument watched
  have others {loaded : Option Manifest} {between : Engine × Disk}
      (reread : Reread (Workspace.ofDocument path) now loaded between) {other : String}
      (differs : other ≠ Workspace.ofDocument path)
      (named : (between.1.registry.findName other).isSome) : Partakes between.1.registry other := by
    rw [reread.names other differs] at named
    obtain ⟨config, artifact⟩ := all other named
    exact ⟨(reread.readinessOf other differs).symm ▸ config, reread.artifacts.symm ▸ artifact⟩
  unfold manifestWritten
  apply leads_registry
  refine ((leads_reread sound watches.1).both (leads_loadManifest_writes sound watches.1)).bind ?_ ?_
  · rintro loaded between ⟨reread, wrote⟩
    have reread := reread loaded rfl
    -- Documents of workspaces with names, before and after, and the root config.
    let within (path : String) : Prop := path = configFile ∨ OfNamed between.1.registry path
    have root : within configFile := Or.inl rfl
    have ends (after : Engine × Disk) (continues : Continues within between after)
        (partake : AllPartake after.1.registry) :
        now.2.Writes (Expects after.1.registry) after.2 := by
      apply (Disk.Writes.trans (wrote.weaken fun _ => Or.inr) continues.writes).weaken
      rintro document (rfl | ⟨workspace, named, own⟩)
      · exact .root rfl
      · exact partake.expects ⟨workspace, (continues.grows.names workspace).symm ▸ named, own⟩
    cases loaded with
    | none =>
        have partake : AllPartake between.1.registry := by
          intro other named
          refine others reread (fun own => ?_) named
          rw [own, reread.unnamed rfl] at named
          cases named
        dsimp only
        apply leads_onlyIf
        · intro _
          apply (leads_configureRoot_continues root).weaken
          exact fun _ after continues _ => ends after continues (partake.grows continues.grows)
        · exact fun _ _ => ends between ((continuing within).refl between) partake
    | some manifest =>
        obtain ⟨_, name, _, named⟩ := reread.named manifest rfl
        let pre (engine : Engine) : Prop := Covers within engine
          ∧ Workspace.manifestPath (Workspace.ofDocument path) ∈ engine.registry.manifests
        have endures : Endures (continuing within) fun state => pre state.1 :=
          endures_growing fun _ _ grows held => ⟨held.1.grows grows, grows.manifests.symm ▸ held.2⟩
        have loads : Leads Disk.alone (manifestLoaded project options (Workspace.ofDocument path)
            (now.1.registry.isReady (Workspace.ofDocument path)) manifest) between _ :=
          (abides_manifestLoaded_continuing endures watches.1 (fun _ held => held.2)
            (fun _ held => held.1) root
            (Or.inr ⟨_, by rw [named]; rfl, Or.inl rfl⟩)).leads
              ⟨fun workspace has => Or.inr ⟨workspace, has, Or.inr rfl⟩,
                reread.manifests ▸ watches.2⟩
        apply loads.weaken
        rintro _ after ⟨continues, ended⟩ rfl
        refine ends after continues fun other has => ?_
        by_cases own : other = Workspace.ofDocument path
        · exact own ▸ ⟨ended.2.1, ended.2.2⟩
        · have before := others reread own (continues.grows.names other ▸ has)
          exact ⟨continues.grows.configs other before.config,
            continues.grows.artifacts _ before.artifact⟩
  · exact fun _ _ _ => nofun

/-! ### The root manifest -/

/-- A workspace that stays takes part as before. -/
theorem Partakes.remains {registry : Registry} {gone : List String}
    (partakes : Partakes registry workspace) (stem : IsStem workspace)
    (stems : ∀ other ∈ gone, IsStem other) (stays : workspace ∉ gone) :
    Partakes (removeWorkspaces registry gone) workspace := by
  have dropped := dropped_removeWorkspaces registry gone
  refine ⟨?_, (dropped.artifacts _).mpr ⟨partakes.artifact, fun other member same => stays ?_⟩⟩
  · rw [dropped.readinessOf, if_neg stays]
    exact partakes.config
  · rwa [Workspace.artifactPath_injective stem (stems other member) same]

/-- Workspaces that are added take part once they are brought up, if they have got names. -/
theorem leads_addWorkspaces_expected {added : List String} {generation : Nat}
    (addition : Addition project False added generation now)
    (all : ∀ workspace, workspace ∉ added → (now.1.registry.findName workspace).isSome →
      Partakes now.1.registry workspace) :
    Leads Disk.alone (addWorkspaces project options added generation) now
      fun result later => result = .ok () → now.2.Writes (Expects later.1.registry) later.2 := by
  apply leads_addWorkspaces addition (fun impossible => by cases impossible)
  · intro between come
    have sound := come.orderly.sound
    let present := added.filter (between.1.registry.hasReadiness · .onlyManifest)
    let within (path : String) : Prop := path = configFile
      ∨ (∃ workspace ∈ present, path = Workspace.configPath workspace)
      ∨ ∃ workspace, (between.1.registry.findName workspace).isSome
        ∧ path = Workspace.manifestPath workspace
    have root : within configFile := Or.inl rfl
    let pre (state : Engine × Disk) : Prop :=
      Covers within state.1 ∧ isCurrent state.1 generation = true
    have endures : Endures (continuing within) pre := by
      rintro before after allowed ⟨covers, current⟩
      refine ⟨covers.grows allowed.grows, ?_⟩
      rwa [isCurrent, allowed.active, allowed.grows.generation]
    have begins : pre between := by
      refine ⟨fun workspace named => Or.inr (Or.inr ⟨workspace, named, rfl⟩), ?_⟩
      rw [isCurrent, come.active, come.generation]
      exact addition.current
    have brings : Leads Disk.alone (bringUp project options added generation) between _ :=
      (abides_bringUp_continuing endures
        (fun workspace member => addition.stem member)
        (fun _ held => held.1) (fun _ held => held.2) root
        (fun workspace member => Or.inr (Or.inl ⟨workspace, member, rfl⟩)) begins).leads rfl
    apply brings.weaken
    rintro _ later ⟨continues, ended⟩ rfl
    have watched {workspace : String}
        (inManifests : Workspace.manifestPath workspace ∈ between.1.registry.manifests) :
        Workspace.manifestPath workspace ∈ later.1.registry.manifests :=
      continues.grows.manifests.symm ▸ inManifests
    have partake : AllPartake later.1.registry := by
      intro workspace has
      rw [continues.grows.names] at has
      by_cases member : workspace ∈ added
      · obtain ⟨name, named⟩ := Option.isSome_iff_exists.mp has
        have bit := sound.manifestBit workspace ((sound.nameBit workspace).mpr has)
        obtain ⟨config, artifact⟩ := ended.2 workspace
          (List.mem_filter.mpr ⟨member, Registry.hasReadiness_manifest.trans bit⟩)
          (watched (sound.watches_of_named named).2)
        exact ⟨config, artifact⟩
      · rw [come.names workspace member] at has
        obtain ⟨config, artifact⟩ := all workspace member has
        refine ⟨continues.grows.configs workspace ?_, continues.grows.artifacts _ ?_⟩
        · rwa [come.readinessOf workspace member]
        · rwa [come.artifacts]
    rw [← come.files]
    apply continues.writes.weaken
    rintro document (rfl | ⟨workspace, member, rfl⟩ | ⟨workspace, has, rfl⟩)
    · exact .root rfl
    · obtain ⟨inAdded, _⟩ := List.mem_filter.mp member
      have inManifests := (come.manifests _).mpr (Or.inr ⟨workspace, inAdded, rfl⟩)
      exact .config workspace rfl (ended.2 workspace member (watched inManifests)).1
    · exact partake.expects ⟨workspace, (continues.grows.names workspace).symm ▸ has, Or.inr rfl⟩
  · intro _ _ _ _ _ _ impossible
    cases impossible

theorem leads_rootUpdated_expected (orderly : now.1.Orderly project False [])
    (same : now.2.project = project) (active : now.1.active = true)
    (all : AllPartake now.1.registry) :
    Leads Disk.alone (rootUpdated project options) now
      fun result later => result = .ok () → now.2.Writes (Expects later.1.registry) later.2 := by
  apply leads_exchange orderly same active
  · exact fun _ _ _ => nofun
  · exact fun _ _ _ _ => Disk.writes_of_same _ rfl
  · intro found added gone log exchange addition
    have stem {workspace : String} (watched : workspace ∈ now.1.registry.watched) : IsStem workspace :=
      ((mem_watched orderly.sound).mp watched).1.spelled.stem
    apply leads_addWorkspaces_expected addition
    intro workspace _ has
    have dropped := dropped_removeWorkspaces now.1.registry gone
    have named : (removeWorkspaces now.1.registry gone).findName workspace
        = if workspace ∈ gone then none else now.1.registry.findName workspace :=
      dropped.findName workspace
    change ((removeWorkspaces now.1.registry gone).findName workspace).isSome at has
    by_cases left : workspace ∈ gone
    · rw [named, if_pos left] at has
      cases has
    · rw [named, if_neg left] at has
      obtain ⟨name, held⟩ := Option.isSome_iff_exists.mp has
      exact (all workspace has).remains (orderly.sound.watches_of_named held).1
        (fun other member => stem ((exchange.goes other).mp member).1) left

/-! ### Whole events -/

/-- An event that tells that a document is gone has no other one written than the root config. -/
theorem leads_deleted_writes (kind : DocumentKind) (path : String) :
    Leads Disk.alone (handle project options kind .delete path) now
      fun _ later => now.2.Writes (· = configFile) later.2 := by
  have configures (begun : Engine × Disk) (same : begun.2 = now.2) :
      Leads Disk.alone (configureRoot project) begun
        fun _ later => now.2.Writes (· = configFile) later.2 := by
    have configures : Leads Disk.alone (configureRoot project) begun
        fun _ later => Continues (· = configFile) begun later := leads_configureRoot_continues rfl
    exact configures.weaken fun _ _ continues => same ▸ continues.writes
  cases kind with
  | rootManifest => exact fun _ => Disk.writes_of_same _ rfl
  | workspaceManifest =>
      change Leads Disk.alone (manifestDeleted project path) now _
      unfold manifestDeleted
      apply leads_log
      apply leads_modifyRegistry
      exact configures _ rfl
  | workspaceConfig =>
      change Leads Disk.alone (configDeleted project (Workspace.ofDocument path)) now _
      exact leads_configGone (fun _ => configures _ rfl) (fun _ _ => Disk.writes_of_same _ rfl)
        (Disk.writes_of_same _ rfl)
  | artifact =>
      change Leads Disk.alone (artifactDeleted path) now _
      unfold artifactDeleted
      apply leads_registry
      apply leads_log
      exact fun _ => Disk.writes_of_same _ rfl

theorem leads_handle_expected {kind : DocumentKind} {change : Change}
    (orderly : now.1.Orderly project False []) (same : now.2.project = project)
    (active : now.1.active = true) (all : AllPartake now.1.registry) (present : change ≠ .delete)
    (classified : classifyRelative now.1.registry path = some kind) :
    Leads Disk.alone (handle project options kind change path) now
      fun result later => result = .ok () → now.2.Writes (Expects later.1.registry) later.2 := by
  have sound := orderly.sound
  have told := classifyRelative_eq_some classified
  have always {routine : Routine Unit}
      (leads : Leads Disk.alone routine now
        fun _ later => now.2.Writes (Expects later.1.registry) later.2) :
      Leads Disk.alone routine now
        fun result later => result = .ok () → now.2.Writes (Expects later.1.registry) later.2 :=
    leads.weaken fun _ _ writes _ => writes
  cases kind with
  | rootManifest =>
      have updates : Leads Disk.alone (do
          if (← engine).active then rootUpdated project options else rootCreated project options) now
          fun result later => result = .ok () → now.2.Writes (Expects later.1.registry) later.2 := by
        apply leads_engine
        rw [active]
        exact leads_rootUpdated_expected orderly same active all
      cases change with
      | create => exact updates
      | update => exact updates
      | delete => exact absurd rfl present
  | workspaceManifest =>
      cases change with
      | create => exact leads_manifestWritten_expected sound all told
      | update => exact leads_manifestWritten_expected sound all told
      | delete => exact absurd rfl present
  | workspaceConfig =>
      cases change with
      | create => exact always (leads_configPresent_expected sound all _)
      | update => exact always (leads_configPresent_expected sound all _)
      | delete => exact absurd rfl present
  | artifact => exact always (leads_artifact_expected sound all told present)

end Watch
end RefSync
