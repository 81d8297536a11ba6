/-
One broken workspace does not hold back the others. Where every workspace with a valid manifest has a
config that can be worked with, or none, the creation of the root manifest brings up each workspace
whose name no other one carries. A config that is no document holds back all workspaces, although a
manifest that is none does not.
-/

import RefSync.Proofs.Watch.Following
import RefSync.Proofs.Watch.Provisions
import RefSync.Proofs.Watch.Synchronized

namespace RefSync

open Routine Path Update

/-- Whether a workspace cannot fail to be brought up: its manifest is a file, whatever it holds, or
not there, and if it is valid there is a config that can be worked with, or none, and the artifact
can be looked for. -/
structure Disk.Workable (disk : Disk) (workspace : String) : Prop where
  plain : disk.PlainManifest workspace
  config manifest : manifestOf (disk.read (Workspace.manifestPath workspace)) = .ok manifest →
    ∃ found, disk.Finds? (Workspace.configPath workspace) found
      ∧ ∀ config, found = some config → Config.Usable config
  artifact manifest : manifestOf (disk.read (Workspace.manifestPath workspace)) = .ok manifest →
    ∃ there, disk.isPresent (Workspace.artifactPath workspace) = .ok there

namespace Watch

attribute [local irreducible] Disk.write dispatch

variable {project : Project} {options : SyncOptions} {now : Engine × Disk}

/-- What is left of a workspace that was brought up. -/
structure BroughtUp (project : Project) (workspace : String) (state : Engine × Disk) : Prop where
  ready : state.1.registry.isReady workspace = true
  watched : Workspace.artifactPath workspace ∈ state.1.registry.artifacts
  referenced : ∃ config entries reference, state.2.read configFile = .ok (.obj config)
    ∧ Config.Lists config entries ∧ project.referencePath? workspace none = some reference
    ∧ reference ∈ entries.keys

section

variable {added : List String} {later : Engine × Disk} (come : Added project True added now later)
  (poised : Poised project now) (relative : ∀ workspace ∈ added, project.IsRelative workspace)
  (below : "." ∉ added) (workable : ∀ workspace ∈ added, now.2.Workable workspace)

include come poised relative below workable

theorem provided_of_added :
    Provided project (added.filter (later.1.registry.hasReadiness · .onlyManifest)) later := by
  have furnished := furnished_of_added come poised relative below fun workspace member valid =>
    valid.elim fun manifest read => ((workable workspace member).config manifest read).imp
      fun _ found => found.1
  refine ⟨furnished.poised.same, furnished.poised.active, come.orderly,
    furnished.poised.accepts.weaken fun _ _ => trivial, fun workspace member => ?_,
    fun workspace member => ?_, furnished.there, fun workspace member => ?_⟩
  · obtain ⟨inAdded, manifest, held⟩ := come.present member
    rw [come.files] at held
    obtain ⟨found, finds, usable⟩ := (workable workspace inAdded).config manifest held
    exact Disk.accepts_of_opens (furnished.config workspace member).opens (come.files ▸ finds) usable
  · obtain ⟨_, manifest, held⟩ := come.present member
    exact object_of_manifestOf held
  · obtain ⟨inAdded, manifest, held⟩ := come.present member
    rw [come.files] at held ⊢
    obtain ⟨there, looked⟩ := (workable workspace inAdded).artifact manifest held
    exact Disk.isShort_of_isPresent looked

end

/-- A name that no other one of the added workspaces carries goes to the one that does. -/
theorem Added.named {added : List String} {later : Engine × Disk} {full : Prop}
    (come : Added project full added now later) (empty : now.1.registry = .empty)
    (relative : ∀ workspace ∈ added, project.IsRelative workspace) {workspace name : String}
    (member : workspace ∈ added) (carries : now.2.Carries workspace name)
    (alone : ∀ other ∈ added, now.2.Carries other name → other = workspace) :
    later.1.registry.findName workspace = some name := by
  obtain ⟨holder, held⟩ := come.heard workspace member name (come.files ▸ carries)
  have watches := come.orderly.sound.watches_of_named held
  have inAdded : holder ∈ added := by
    rcases (come.manifests _).mp watches.2 with before | ⟨other, inAdded, same⟩
    · rw [empty] at before
      cases before
    · rwa [Workspace.manifestPath_injective watches.1 (relative other inAdded).spelled.stem same]
  rcases come.carried holder name held with before | carriesIt
  · rw [empty] at before
    cases before
  · rwa [← alone holder inAdded (come.files ▸ carriesIt)]

/-- A workspace with a name and a config is ready. -/
theorem ready_of_named {registry : Registry} (sound : registry.Sound project) {workspace name : String}
    (named : registry.findName workspace = some name)
    (config : (registry.readinessOf workspace).config = true) : registry.isReady workspace = true := by
  have nameBit := (sound.nameBit workspace).mpr (by rw [named]; rfl)
  have manifestBit := sound.manifestBit workspace nameBit
  rw [Registry.isReady_iff]
  revert nameBit manifestBit config
  cases registry.readinessOf workspace with
  | mk manifest name config => rintro rfl rfl rfl; rfl

/-- The root config references the workspaces that are ready. -/
theorem FollowsReady.references {state : Engine × Disk} (follows : FollowsReady project state)
    (sound : state.1.registry.Sound project) {workspace : String}
    (watches : state.1.registry.Watches workspace)
    (ready : state.1.registry.isReady workspace = true) :
    ∃ config entries reference, state.2.read configFile = .ok (.obj config)
      ∧ Config.Lists config entries ∧ project.referencePath? workspace none = some reference
      ∧ reference ∈ entries.keys := by
  obtain ⟨config, reads, aggregates⟩ := follows
  obtain ⟨entries, lists, _, items⟩ := aggregates.lists
  have member : workspace ∈ state.1.registry.ready state.1.registry.watched :=
    List.mem_filter.mpr ⟨(mem_watched sound).mpr ⟨sound.relative watches, watches.2⟩, ready⟩
  obtain ⟨reference, written⟩ : ∃ reference, project.referencePath? workspace none = some reference := by
    unfold Project.referencePath?
    rw [if_neg fun empty => watches.1.filled (String.isEmpty_iff.mp empty)]
    exact ⟨_, rfl⟩
  exact ⟨config, entries, reference, reads, lists, written, (items reference).mpr ⟨workspace, member, written⟩⟩

/-- The workspaces that are added to an empty registry are brought up, if nobody else carries their
names. -/
theorem leads_addition_isolated {added : List String} {generation : Nat} (ends : PausesEnd options)
    (empty : now.1.registry = .empty) (addition : Addition project True added generation now)
    (poised : Poised project now) (below : "." ∉ added) (workable : ∀ workspace ∈ added, now.2.Workable workspace) :
    Leads Disk.alone (addWorkspaces project options added generation) now fun result later =>
      result = .ok () ∧ ∀ workspace ∈ added, ∀ name, now.2.Carries workspace name →
        (∀ other ∈ added, now.2.Carries other name → other = workspace) →
        BroughtUp project workspace later := by
  have relative := addition.relative
  have apart (workspace : String) (member : workspace ∈ added) :
      project.IsRelative workspace ∧ workspace ≠ "." :=
    ⟨relative workspace member, fun same => below (same ▸ member)⟩
  apply leads_addWorkspaces addition fun _ workspace member => (workable workspace member).plain
  · intro later come
    have provided := provided_of_added come poised relative below workable
    have furnished := furnished_of_added come poised relative below fun workspace member valid =>
      valid.elim fun manifest read => ((workable workspace member).config manifest read).imp
        fun _ found => found.1
    have generation : later.1.generation = generation :=
      come.generation.trans (beq_iff_eq.mp (Bool.and_eq_true_iff.mp addition.current).2)
    have brings : Leads Disk.alone (bringUp project options added _) later _ :=
      (leads_bringUp_provided (fun workspace member => apart workspace (List.mem_filter.mp member).1)
        ends rfl generation provided furnished.poised).both (leads_bringUp apart furnished)
    apply brings.weaken
    rintro result final ⟨⟨ok, provided, grows, each⟩, following⟩
    refine ⟨ok, fun workspace member name carries alone => ?_⟩
    have named := come.named empty relative member carries alone
    have sound := come.orderly.sound
    have watches := sound.watches_of_named named
    have bit := sound.manifestBit workspace ((sound.nameBit workspace).mpr (by rw [named]; rfl))
    obtain ⟨config, watched⟩ := each workspace
      (List.mem_filter.mpr ⟨member, Registry.hasReadiness_manifest.trans bit⟩) watches.2
    have ready := ready_of_named provided.orderly.sound ((grows.names workspace).trans named) config
    exact ⟨ready, watched, following.follows.references provided.orderly.sound
      ⟨watches.1, grows.manifests ▸ watches.2⟩ ready⟩
  · exact fun notFull => absurd trivial notFull

/-- Whether a project tree has a valid root manifest and a root config that lists its references, or
none, and each workspace is below the root and can be brought up. -/
structure Sheltered (disk : Disk) (found : List String) : Prop where
  manifest : ∃ manifest, manifestOf (disk.read manifestFile) = .ok manifest
    ∧ disk.discover (manifest.workspaces.getD []) = .ok found
  root : ∃ config, disk.Finds? configFile config ∧ ∀ given, config = some given → Config.IsListed given
  below : "." ∉ found
  workable workspace : workspace ∈ found → disk.Workable workspace

/-- Whether the workspaces with names of their own were brought up. -/
def AllBroughtUp (disk : Disk) (found : List String) (later : Engine × Disk) : Prop :=
  ∀ workspace ∈ found, ∀ name, disk.Carries workspace name →
    (∀ other ∈ found, disk.Carries other name → other = workspace) →
    BroughtUp disk.project workspace later

theorem leads_rootCreated_isolated {found : List String} (ends : PausesEnd options)
    (empty : now.1.registry = .empty) (idle : now.1.active = false) (sheltered : Sheltered now.2 found) :
    Leads Disk.alone (rootCreated now.2.project options) now fun result later =>
      result = .ok () ∧ AllBroughtUp now.2 found later := by
  have tells : now.2.Tells found := sheltered.manifest
  obtain ⟨manifest, read, _⟩ := sheltered.manifest
  obtain ⟨config, finds, known⟩ := sheltered.root
  have orderly : now.1.Orderly now.2.project True [] := by
    refine ⟨?_, fun workspace _ _ => ?_, fun _ => empty⟩
    · rw [empty]
      exact Registry.sound_empty
    · rw [empty]
      exact Registry.settled_of_unnamed rfl
  apply leads_creation orderly rfl idle
  · exact fun _ _ none => absurd tells (none found)
  · intro given told addition
    obtain rfl := told.unique tells
    have poised : Poised now.2.project ({ now.1 with active := true }, now.2) := by
      refine ⟨rfl, rfl, fun watched => ?_, fun _ => filled_of_sound orderly.sound,
        accepts_root (readable_of_manifestOf read) finds known⟩
      rw [empty] at watched
      cases watched
    exact leads_addition_isolated ends empty addition poised sheltered.below sheltered.workable

theorem leads_created_isolated {found : List String} (ends : PausesEnd options)
    (empty : now.1.registry = .empty) (idle : now.1.active = false) (sheltered : Sheltered now.2 found)
    {event : Event} (root : now.2.project.relative event.path = manifestFile)
    (create : event.change = .create) :
    Leads Disk.alone (dispatch now.2.project options event) now fun result later =>
      result = .ok () ∧ AllBroughtUp now.2 found later := by
  have classified : classify now.2.project now.1.registry event.path = some .rootManifest := by
    rw [classify, root]
    rfl
  have handles : Leads Disk.alone (handle now.2.project options .rootManifest event.change
      (now.2.project.relative event.path)) now fun result later =>
        result = .ok () ∧ AllBroughtUp now.2 found later := by
    rw [create]
    apply leads_engine
    rw [idle]
    exact leads_rootCreated_isolated ends empty idle sheltered
  apply (leads_dispatch classified handles).weaken
  rintro result later (⟨ok, _, brought⟩ | ⟨failure, between, ⟨failed, _⟩, _⟩)
  · exact ⟨ok, brought⟩
  · cases failed

theorem Disk.missing_of_unread {disk : Disk} {path shown : String}
    (unread : disk.readText path = .error (.missing shown)) : disk.Finds? path none := by
  refine ⟨shown, ?_⟩
  unfold Disk.read
  rw [unread]
  rfl

end Watch
end RefSync
