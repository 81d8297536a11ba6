/-
What the event of an artifact makes of its workspace. The manifest and the config are brought
in line with the names that the artifact refers to, together and whichever of them is
written first; a second event of the same kind finds everything in line and writes nothing.
-/

import RefSync.Proofs.Update
import RefSync.Proofs.Validation
import RefSync.Proofs.Watch.Classified
import RefSync.Proofs.Watch.Runs

namespace RefSync

open Routine Path

namespace Watch

/-- What a registry that knows a workspace says of it. -/
structure Knows (workspace name : String) (stored : TextSet) (registry : Registry) : Prop where
  ready : registry.isReady workspace = true
  named : registry.findName workspace = some name
  dependencies : registry.dependenciesOf name = .ok stored
  artifact : classifyRelative registry (Workspace.artifactPath workspace) = some .artifact
  filled name path : registry.findPath name = some path → path ≠ ""
  registered workspace name : registry.findName workspace = some name →
    (registry.findPath name).isSome

/-- The documents of a workspace that are found on a disk. -/
structure Finds (workspace : String) (artifact : Artifact) (manifest config : Document)
    (entries : Table Json) (disk : Disk) : Prop where
  readArtifact : ∃ value, disk.read (Workspace.artifactPath workspace) = .ok value
    ∧ Artifact.validate value = .ok artifact
  readManifest : disk.read (Workspace.manifestPath workspace) = .ok (.obj manifest)
  readConfig : disk.read (Workspace.configPath workspace) = .ok (.obj config)
  lists : Config.Lists config entries

/-! ### The documents -/

section

variable {project : Project} {workspace : String} {artifact : Artifact}
  {manifest config : Document} {entries : Table Json} {now : Engine × Disk}

theorem places_differ (project : Project) (stem : IsStem workspace) :
    project.resolved (Workspace.manifestPath workspace)
      ≠ project.resolved (Workspace.configPath workspace) := by
  rw [Workspace.resolved_manifestPath project stem, Workspace.resolved_configPath project stem]
  intro same
  exact absurd (List.append_cancel_left same) (by decide)

/-- An artifact is in no place of a manifest or a config. -/
theorem artifactPlace_apart (project : Project) {other : String} (stem : IsStem workspace)
    (otherStem : IsStem other) :
    ¬DocumentPlace project other (project.resolved (Workspace.artifactPath workspace)) := by
  have last : (project.resolved (Workspace.artifactPath workspace)).getLast?
      = some Config.artifactFile := by
    rw [Workspace.resolved_artifactPath project stem, List.getLast?_append]
    rfl
  rintro (same | same)
  · rw [same, Workspace.resolved_manifestPath project otherStem, List.getLast?_concat] at last
    exact absurd last (by decide)
  · rw [same, Workspace.resolved_configPath project otherStem, List.getLast?_concat] at last
    exact absurd last (by decide)

/-- What is found of a workspace stays there while its documents do. -/
theorem Finds.keeps {before after : Disk} {free : Place → Prop}
    (finds : Finds workspace artifact manifest config entries before)
    (same : after.project = before.project) (stays : FileTree.Keeps free before.files after.files)
    (compiled : ¬free (before.project.resolved (Workspace.artifactPath workspace)))
    (documents : ∀ place, DocumentPlace before.project workspace place → ¬free place) :
    Finds workspace artifact manifest config entries after := by
  obtain ⟨value, reads, valid⟩ := finds.readArtifact
  exact ⟨⟨value, Disk.read_keeps same stays reads compiled, valid⟩,
    Disk.read_keeps same stays finds.readManifest (documents _ (Or.inl rfl)),
    Disk.read_keeps same stays finds.readConfig (documents _ (Or.inr rfl)), finds.lists⟩

/-- Whether the documents of a workspace are in line: the manifest, from what it was, and the
config with the paths it has to refer to. -/
structure InLine (workspace : String) (targets : String → Prop) (missing pruned : List String)
    (manifest : Document) (disk : Disk) : Prop where
  manifest : ∃ adjusted, disk.read (Workspace.manifestPath workspace) = .ok (.obj adjusted)
    ∧ Manifest.Adjusted manifest adjusted missing pruned
  config : ∃ config entries, disk.read (Workspace.configPath workspace) = .ok (.obj config)
    ∧ Config.Lists config entries ∧ entries.keys.Nodup
    ∧ ∀ path, path ∈ entries.keys ↔ targets path

/-- Whether there is nothing to bring in line. -/
structure Settles (targets : String → Prop) (missing pruned : List String) (entries : Table Json) :
    Prop where
  missing : missing = []
  pruned : pruned = []
  once : entries.keys.Nodup
  targets path : path ∈ entries.keys ↔ targets path

/-- The manifest that is written, if one is. -/
def manifestUpdate? (manifest : Document) (missing pruned : List String) : Option Document :=
  if missing.isEmpty && pruned.isEmpty then none
  else Manifest.updateDependencies? manifest missing pruned

/-- What the files of a workspace hold afterwards, told by what they held before. -/
structure Rewrites (project : Project) (registry : Registry) (workspace : String)
    (discovered missing pruned : List String) (manifest : Document) (before after : Disk) :
    Prop where
  manifest : after.files.get? (project.resolved (Workspace.manifestPath workspace))
    = Update.rewritten (manifestUpdate? manifest missing pruned)
      (before.files.get? (project.resolved (Workspace.manifestPath workspace)))
  config config aliases update : before.read (Workspace.configPath workspace) = .ok (.obj config) →
    Update.targetAliases project registry workspace discovered = .ok aliases →
    Config.updateReferences? config aliases.keys aliases.get? = .ok update →
    after.files.get? (project.resolved (Workspace.configPath workspace))
      = Update.rewritten update
        (before.files.get? (project.resolved (Workspace.configPath workspace)))

/-- An update of a config that makes it list the paths of some names. -/
structure Relists (project : Project) (registry : Registry) (workspace : String)
    (discovered : List String) (config : Document) (entries : Table Json)
    (update : Option Document) : Prop where
  made : ∃ aliases, Update.targetAliases project registry workspace discovered = .ok aliases
    ∧ Config.updateReferences? config aliases.keys aliases.get? = .ok update
  clean updated : update = some updated → Document.Clean updated
  lists : ∃ after, Config.Lists (update.getD config) after ∧ after.keys.Nodup
    ∧ ∀ path, path ∈ after.keys ↔ Update.IsTarget project registry workspace discovered path
  idle : entries.keys.Nodup →
    (∀ path, path ∈ entries.keys ↔ Update.IsTarget project registry workspace discovered path) →
    update = none

theorem relists (project : Project) {registry : Registry} (clean : Document.Clean config)
    (lists : Config.Lists config entries)
    (filled : ∀ name path, registry.findPath name = some path → path ≠ "") (workspace : String)
    (discovered : List String) :
    ∃ update, Relists project registry workspace discovered config entries update := by
  rcases Update.targetAliases_ok filled workspace discovered with ⟨aliases, targets, keys⟩
  have known : ∀ path ∈ aliases.keys, (aliases.get? path).isSome :=
    fun path member => Table.mem_keys_iff.mp member
  rcases Config.updateReferences?_ok lists clean known with
    ⟨update, updates, cleanUpdate, after, listsAfter, once, items⟩
  refine ⟨update, ⟨aliases, targets, updates⟩, cleanUpdate,
    ⟨after, listsAfter, once, fun path => (items path).trans (keys path)⟩, fun once items => ?_⟩
  have again := Config.updateReferences?_again lists clean once
    (fun path => (items path).trans (keys path).symm) known
  rw [updates] at again
  exact Except.ok.inj again

section

variable {discovered missing pruned : List String} {update : Option Document}
  (finds : Finds workspace artifact manifest config entries now.2)
  (relisting : Relists project now.1.registry workspace discovered config entries update)

include relisting

theorem Relists.inLine {disk : Disk} {adjusted : Document}
    (read : disk.read (Workspace.manifestPath workspace) = .ok (.obj adjusted))
    (adjusts : Manifest.Adjusted manifest adjusted missing pruned)
    (brought : disk.read (Workspace.configPath workspace) = .ok (.obj (update.getD config))) :
    InLine workspace (Update.IsTarget project now.1.registry workspace discovered) missing pruned
      manifest disk := by
  obtain ⟨after, lists, once, items⟩ := relisting.lists
  exact ⟨⟨adjusted, read, adjusts⟩, _, after, brought, lists, once, items⟩

theorem Relists.settled (settles : Settles
    (Update.IsTarget project now.1.registry workspace discovered) missing pruned entries) :
    update = none :=
  relisting.idle settles.once settles.targets

include finds

theorem Relists.rewrites {joins : Engine × Disk} (sameThere : joins.2.project = project)
    (manifestHeld : joins.2.files.get? (project.resolved (Workspace.manifestPath workspace))
      = Update.rewritten (manifestUpdate? manifest missing pruned)
        (now.2.files.get? (project.resolved (Workspace.manifestPath workspace))))
    (configHeld : joins.2.files.get? (joins.2.project.resolved (Workspace.configPath workspace))
      = Update.rewritten update
        (now.2.files.get? (project.resolved (Workspace.configPath workspace)))) :
    Rewrites project now.1.registry workspace discovered missing pruned manifest now.2 joins.2 := by
  obtain ⟨aliases, targets, updates⟩ := relisting.made
  rw [sameThere] at configHeld
  refine ⟨manifestHeld, fun other found given reads resolved made => ?_⟩
  rw [finds.readConfig] at reads
  cases reads
  rw [targets] at resolved
  cases resolved
  rw [updates] at made
  cases made
  exact configHeld

/-- The update of the references, with the updates of others that leave the config alone. -/
theorem Relists.meets_references (same : now.2.project = project) {theirs : Place → Prop} {idle : Prop}
    {begins : Engine × Disk} (reached : Update.Brings theirs idle now begins)
    (apart : ¬theirs (project.resolved (Workspace.configPath workspace))) :
    Meets Disk.alone (Update.references project workspace discovered)
      (Update.bringing theirs idle)
      (Update.bringing (· = project.resolved (Workspace.configPath workspace)) (update = none))
      begins begins
      (Update.brought theirs (· = project.resolved (Workspace.configPath workspace)) idle
        (update = none) (Workspace.configPath workspace) now.1.registry (update.getD config)
        (Update.rewritten update
          (now.2.files.get? (project.resolved (Workspace.configPath workspace))))) := by
  have owned : Update.Owned theirs (Workspace.configPath workspace) now (.obj config)
      (now.2.files.get? (project.resolved (Workspace.configPath workspace))) :=
    ⟨finds.readConfig, by rw [same], by rw [same]; exact apart⟩
  obtain ⟨aliases, targets, updates⟩ := relisting.made
  rw [← reached.registry] at targets ⊢
  refine Update.meets_references targets updates relisting.clean (owned.later reached) ?_ ?_
  · rw [reached.project, same]
  · rintro some rfl
    cases some

end

/-- The manifest and the config are brought in line together, the manifest only where names are
missing or pruned. -/
theorem meets_updateDocuments (stem : IsStem workspace)
    (same : now.2.project = project)
    (filled : ∀ name path, now.1.registry.findPath name = some path → path ≠ "")
    (finds : Finds workspace artifact manifest config entries now.2)
    (discovered missing pruned : List String) {start : Engine × Disk} {ending : Ending Unit Disk}
    (ends : ∀ joins, Update.Brings (DocumentPlace project workspace)
        (Settles (Update.IsTarget project now.1.registry workspace discovered) missing pruned entries) now joins →
      InLine workspace (Update.IsTarget project now.1.registry workspace discovered) missing pruned
        manifest joins.2 →
      Rewrites project now.1.registry workspace discovered missing pruned manifest now.2 joins.2 →
      ending (.ok ()) joins joins) :
    Meets Disk.alone (updateDocuments project workspace missing pruned discovered) .none .any start
      now ending := by
  have differ := places_differ project stem
  obtain ⟨update, relisting⟩ := relists project
    (Document.clean_obj.mp (Disk.clean_of_read finds.readConfig)) finds.lists filled workspace discovered
  have clean := Document.clean_obj.mp (Disk.clean_of_read finds.readManifest)
  have quiet : Settles (Update.IsTarget project now.1.registry workspace discovered) missing pruned
      entries → update = none := relisting.settled
  unfold updateDocuments
  refine (meets_bind (forAll _ id) _ _).mpr ?_
  by_cases nothing : (missing.isEmpty && pruned.isEmpty) = true
  · rw [if_pos nothing]
    rw [Bool.and_eq_true, List.isEmpty_iff, List.isEmpty_iff] at nothing
    obtain ⟨rfl, rfl⟩ := nothing
    refine meets_single (Update.bringing (fun _ => False) True)
      (Update.bringing (· = project.resolved (Workspace.configPath workspace)) (update = none)) _
      trivial ?_ (fun _ _ _ => trivial)
      (fun begins reached => relisting.meets_references finds same reached id) ?_
    · rintro before _ rfl
      exact ⟨Update.brings_refl _ _ before, Update.brings_refl _ _ before⟩
    · intro joins value brings brought
      refine ends joins (brings.wider (fun place => Or.inr) quiet)
        (relisting.inLine ?_ (Manifest.adjusted_refl manifest) brought.owned.read)
        (relisting.rewrites finds (brings.project.trans same) (brings.files.apart differ)
          brought.owned.held)
      refine brings.read finds.readManifest ?_
      rw [same]
      exact differ
  · rw [if_neg nothing]
    have owned : Update.Owned (· = project.resolved (Workspace.configPath workspace))
        (Workspace.manifestPath workspace) now (.obj manifest)
        (now.2.files.get? (project.resolved (Workspace.manifestPath workspace))) :=
      ⟨finds.readManifest, by rw [same], by rw [same]; exact differ⟩
    have busy : ¬Settles (Update.IsTarget project now.1.registry workspace discovered) missing pruned
        entries := by
      rintro ⟨rfl, rfl, _, _⟩
      exact nothing rfl
    refine meets_pair
      (Update.bringing (· = project.resolved (Workspace.manifestPath workspace)) False)
      (Update.bringing (· = project.resolved (Workspace.configPath workspace)) (update = none))
      (Update.bringing (DocumentPlace project workspace)
        (Settles (Update.IsTarget project now.1.registry workspace discovered) missing pruned entries))
      (fun _ => Update.Brought (· = project.resolved (Workspace.configPath workspace))
        (Workspace.manifestPath workspace) now.1.registry
        ((Manifest.updateDependencies? manifest missing pruned).getD manifest)
        (Update.rewritten (Manifest.updateDependencies? manifest missing pruned)
          (now.2.files.get? (project.resolved (Workspace.manifestPath workspace)))))
      (fun _ => Update.Brought (· = project.resolved (Workspace.manifestPath workspace))
        (Workspace.configPath workspace) now.1.registry (update.getD config)
        (Update.rewritten update
          (now.2.files.get? (project.resolved (Workspace.configPath workspace))))) trivial ?_ ?_ ?_ ?_
      (fun begins reached => relisting.meets_references finds same reached (Ne.symm differ)) ?_
    · rintro before _ rfl
      exact ⟨Update.brings_refl _ _ before, Update.brings_refl _ _ before⟩
    · exact fun before later brings =>
        ⟨brings.wider (fun place => Or.inl) (fun settles => busy settles), trivial⟩
    · exact fun before later brings => ⟨brings.wider (fun place => Or.inr) quiet, trivial⟩
    · intro begins reached
      rw [← reached.registry]
      exact Update.meets_dependencies missing pruned (owned.later reached)
        (by rw [reached.project, same]) id
    · intro joins one other brings adjusted brought
      have sameThere : joins.2.project = project := brings.project.trans same
      refine ends joins brings (relisting.inLine adjusted.owned.read
          (Manifest.adjusted_update clean missing pruned).1 brought.owned.read)
        (relisting.rewrites finds sameThere ?_ brought.owned.held)
      rw [manifestUpdate?, if_neg nothing, ← adjusted.owned.held, sameThere]

end

/-! ### The handler -/

/-- The names that a workspace lacks, and those it is rid of. -/
def missingNames (stored : TextSet) (discovered : List String) : List String :=
  sortTexts (missingItems stored discovered)

def prunedNames (options : SyncOptions) (stored : TextSet) (discovered : List String) : List String :=
  if options.pruneRedundant then sortTexts (redundantItems stored discovered) else []

/-- What has been reported once redundant dependencies are known. -/
def announced (options : SyncOptions) (name : String) (redundant : List String)
    (reported : TextSet) : TextSet :=
  if !redundant.isEmpty && !options.pruneRedundant && options.showRedundant then
    reported.insert (Manifest.uninstallCommand name redundant)
  else reported

/-- A registry that takes over the names that the artifact of a workspace refers to. -/
def learned (options : SyncOptions) (name : String) (stored : TextSet) (discovered : List String)
    (registry : Registry) : Registry :=
  { registry with
    dependencies := registry.dependencies.set name (distinct discovered)
    reported := announced options name (sortTexts (redundantItems stored discovered))
      registry.reported }

/-- A registry that has noticed that an artifact is there. -/
def noticed (change : Change) (path : String) (registry : Registry) : Registry :=
  if change = .create then registry.unmarkMissing path else registry

theorem noticed_eq (change : Change) (path : String) (registry : Registry) :
    ∃ missing, noticed change path registry = { registry with missingArtifacts := missing } := by
  unfold noticed
  split
  · exact ⟨_, rfl⟩
  · exact ⟨registry.missingArtifacts, rfl⟩

theorem unmarkMissing_of_not_mem {registry : Registry} {path : String}
    (present : registry.missingArtifacts.contains path = false) :
    registry.unmarkMissing path = registry := by
  have kept : registry.missingArtifacts.remove path = registry.missingArtifacts := by
    refine List.filter_eq_self.mpr fun other member => bne_iff_ne.mpr ?_
    rintro rfl
    rw [List.contains_iff_mem.mpr member] at present
    cases present
  rw [Registry.unmarkMissing, kept]

/-- A registry in which a workspace has other dependencies. -/
def Relearns (name : String) (discovered : List String) (before after : Registry) : Prop :=
  ∃ missing reported, after = { before with
    dependencies := before.dependencies.set name (distinct discovered)
    missingArtifacts := missing
    reported := reported }

/-- What the event of an artifact makes of everything. -/
structure Synchronizes (project : Project) (options : SyncOptions) (workspace name : String)
    (discovered : List String) (stored : TextSet) (manifest : Document) (entries : Table Json)
    (before after : Engine × Disk) : Prop where
  registry : Relearns name discovered before.1.registry after.1.registry
  same : after.2.project = before.2.project
  files : FileTree.Alters (DocumentPlace project workspace) before.2.files after.2.files
  rewrites : Rewrites project before.1.registry workspace discovered (missingNames stored discovered)
    (prunedNames options stored discovered) manifest before.2 after.2
  inLine : InLine workspace (Update.IsTarget project before.1.registry workspace discovered)
    (missingNames stored discovered) (prunedNames options stored discovered) manifest after.2
  idle : Settles (Update.IsTarget project before.1.registry workspace discovered)
    (missingNames stored discovered) (prunedNames options stored discovered) entries →
      after.2 = before.2

section

variable {project : Project} {options : SyncOptions} {workspace name : String} {artifact : Artifact}
  {stored : TextSet} {manifest config : Document} {entries : Table Json} {now : Engine × Disk}

theorem discoveredNames_registered {registry : Registry} (path : String)
    (registered : ∀ workspace name, registry.findName workspace = some name →
      (registry.findPath name).isSome) :
    ∀ found ∈ discoveredNames project registry path name artifact,
      (registry.findPath found).isSome = true := by
  intro found member
  rw [discoveredNames, mem_distinct, List.mem_filterMap] at member
  obtain ⟨file, _, yields⟩ := member
  split at yields
  · cases yields
  · rename_i owner _
    cases owned : registry.findName owner with
    | none =>
        rw [owned] at yields
        cases yields
    | some known =>
        rw [owned] at yields
        dsimp only at yields
        split at yields
        · cases yields
        · cases yields
          exact registered owner _ owned

/-- A workspace takes over the names that its artifact refers to, and the documents follow. -/
theorem meets_learn {discovered : List String}
    (remembers : now.1.registry.dependenciesOf name = .ok stored)
    (registered : ∀ found ∈ discovered, (now.1.registry.findPath found).isSome = true)
    {start : Engine × Disk} {ending : Ending Unit Disk}
    (follows : ∀ between : Engine,
      between.registry = learned options name stored discovered now.1.registry →
      Meets Disk.alone (updateDocuments project workspace (missingNames stored discovered)
        (prunedNames options stored discovered) discovered) .none .any start (between, now.2) ending) :
    Meets Disk.alone (applyDiscovered project options workspace name discovered) .none .any start now
      ending := by
  have kept : discovered.filter (fun found => (now.1.registry.findPath found).isSome) = discovered :=
    List.filter_eq_self.mpr registered
  unfold applyDiscovered
  rw [meets_registry]
  dsimp only
  rw [kept, remembers, meets_ok]
  let redundant := sortTexts (redundantItems stored discovered)
  let message := Manifest.uninstallCommand name redundant
  have update (between : Engine)
      (sameRegistry : between.registry = { now.1.registry with
        reported := announced options name redundant now.1.registry.reported }) :
      Meets Disk.alone (do
        onlyIf (!(sortTexts (missingItems stored discovered)).isEmpty) (notice installNotice)
        modifyRegistry (·.setDependencies name discovered)
        updateDocuments project workspace (missingNames stored discovered)
          (prunedNames options stored discovered) discovered) .none .any start (between, now.2)
        ending := by
    have known : between.registry.setDependencies name discovered
        = learned options name stored discovered now.1.registry := by
      rw [sameRegistry]
      rfl
    refine meets_onlyIf (fun _ => ?_) fun _ => ?_
    · exact follows { between with
        registry := between.registry.setDependencies name discovered, notices := _ } known
    · exact follows { between with
        registry := between.registry.setDependencies name discovered } known
  refine meets_onlyIf (fun reports => ?_) fun silent => ?_
  · change Meets Disk.alone (onlyIf (!now.1.registry.reported.contains message) _ >>= _) .none .any
      start now ending
    have said : announced options name redundant now.1.registry.reported
        = now.1.registry.reported.insert message := if_pos reports
    refine meets_onlyIf (fun fresh => ?_) fun known => ?_
    · refine update { now.1 with
        registry := now.1.registry.report message, log := now.1.log ++ [⟨.warning, _⟩] } ?_
      rw [said]
      rfl
    · refine update now.1 ?_
      rw [said, TextSet.insert, if_pos (by simpa using known)]
  · exact update now.1 (by rw [announced, if_neg (Bool.not_eq_true _ ▸ silent)])

/-- A workspace takes over the names that its artifact refers to. -/
theorem meets_applyDiscovered (stem : IsStem workspace) (same : now.2.project = project)
    (knows : Knows workspace name stored now.1.registry)
    (finds : Finds workspace artifact manifest config entries now.2) {discovered : List String}
    (registered : ∀ found ∈ discovered, (now.1.registry.findPath found).isSome = true)
    {start : Engine × Disk} {ending : Ending Unit Disk}
    (ends : ∀ after, after.1.registry = learned options name stored discovered now.1.registry →
      Synchronizes project options workspace name discovered stored manifest entries now after →
      ending (.ok ()) after after) :
    Meets Disk.alone (applyDiscovered project options workspace name discovered) .none .any start now
      ending := by
  refine meets_learn knows.dependencies registered fun between learns => ?_
  have targets : Update.IsTarget project between.registry = Update.IsTarget project now.1.registry := by
    funext workspace names
    refine Update.isTarget_eq project ?_ workspace names
    rw [learns]
    rfl
  have aliases : Update.targetAliases project between.registry
      = Update.targetAliases project now.1.registry := by
    rw [learns]
    rfl
  have filled : ∀ name path, between.registry.findPath name = some path → path ≠ "" := by
    rw [learns]
    exact knows.filled
  let after : Engine × Disk := (between, now.2)
  have sameThere : after.2.project = project := same
  have foundThere : Finds workspace artifact manifest config entries after.2 := finds
  refine meets_updateDocuments stem sameThere filled foundThere discovered _ _
    fun joins brings inLine rewrites => ?_
  have registry := brings.registry.trans learns
  rw [targets] at brings inLine
  refine ends joins registry ⟨⟨_, _, registry⟩, brings.project, brings.files, ?_, inLine, brings.disk⟩
  exact ⟨rewrites.manifest, aliases ▸ rewrites.config⟩

theorem meets_readRetrying {α : Type} {path shown : String} {attempts : Int} {delay : Duration}
    {value : Json} (reads : now.2.read path = .ok value) {rest : Except Unreadable Json → Routine α}
    {start : Engine × Disk} {ending : Ending α Disk}
    (goesOn : Meets Disk.alone (rest (.ok value)) .none .any now now ending) :
    Meets Disk.alone (readRetrying path shown attempts delay >>= rest) .none .any start now ending := by
  refine (meets_bind _ _ _).mpr ?_
  rw [readRetrying, readAgain.eq_def]
  refine ⟨trivial, ?_⟩
  rintro _ rfl
  refine ⟨trivial, ?_⟩
  rintro _ rfl
  have answer : (Disk.alone (.read path) now).1 = .ok value := reads
  rw [answer]
  exact goesOn

/-- Being marked as missing or not says nothing about a workspace. -/
theorem Synchronizes.of_marked {before after : Engine × Disk} {discovered : List String}
    (synchronizes : Synchronizes project options workspace name discovered stored manifest entries
      now after) {missing : TextSet}
    (same : now.1.registry = { before.1.registry with missingArtifacts := missing })
    (disk : now.2 = before.2) :
    Synchronizes project options workspace name discovered stored manifest entries before after := by
  have targets : Update.IsTarget project now.1.registry workspace discovered
      = Update.IsTarget project before.1.registry workspace discovered := by
    refine Update.isTarget_eq project ?_ workspace discovered
    rw [same]
  have aliases : Update.targetAliases project now.1.registry
      = Update.targetAliases project before.1.registry := by
    rw [same]
    rfl
  obtain ⟨registry, project, files, rewrites, inLine, idle⟩ := synchronizes
  rw [targets] at inLine idle
  rw [disk] at project files idle rewrites
  obtain ⟨marked, reported, relearns⟩ := registry
  rw [same] at relearns
  exact ⟨⟨marked, reported, relearns⟩, project, files, ⟨rewrites.manifest, aliases ▸ rewrites.config⟩,
    inLine, idle⟩

/-- An artifact that can be read tells its workspace which names it refers to. -/
theorem meets_artifactWritten (stem : IsStem workspace)
    (ready : now.1.registry.isReady workspace = true)
    (named : now.1.registry.findName workspace = some name) {value : Json}
    (reads : now.2.read (Workspace.artifactPath workspace) = .ok value)
    (valid : Artifact.validate value = .ok artifact) {start : Engine × Disk} {ending : Ending Unit Disk}
    (goesOn : Meets Disk.alone (applyDiscovered project options workspace name (discoveredNames project
        now.1.registry (Workspace.artifactPath workspace) name artifact)) .none .any now now ending) :
    Meets Disk.alone (artifactWritten project options (Workspace.artifactPath workspace)) .none .any
      start now ending := by
  unfold artifactWritten
  dsimp only
  rw [meets_registry, Workspace.ofArtifact_artifactPath stem, ready]
  change Meets Disk.alone (ofExcept Fault.registry (now.1.registry.nameOf workspace) >>= _)
    .none .any start now ending
  rw [Registry.nameOf, named]
  dsimp only
  rw [meets_ok]
  refine meets_readRetrying reads ?_
  rw [artifactOf.eq_def]
  dsimp only
  rw [valid]
  change Meets Disk.alone (artifactRead project options (Workspace.artifactPath workspace) workspace
    name artifact) .none .any now now ending
  unfold artifactRead
  rw [meets_registry, named, ready, beq_self_eq_true]
  exact goesOn

/-- The event of an artifact that is there is handled like that of one that was written. Where it was
missing before, a message says that it no longer is. -/
theorem meets_handle_present {path : String} {change : Change} (present : change ≠ .delete)
    {start : Engine × Disk} {ending : Ending Unit Disk}
    (written : ∀ records, Meets Disk.alone (artifactWritten project options path) .none .any start
      ({ now.1 with
        registry := noticed change path now.1.registry
        log := now.1.log ++ records }, now.2) ending) :
    Meets Disk.alone (handle project options .artifact change path) .none .any start now ending := by
  have silent (same : noticed change path now.1.registry = now.1.registry) :
      Meets Disk.alone (artifactWritten project options path) .none .any start now ending := by
    have continues := written []
    rwa [same, List.append_nil] at continues
  cases change with
  | delete => exact absurd rfl present
  | update => exact silent rfl
  | create =>
      change Meets Disk.alone (artifactCreated project options path) .none .any start now ending
      unfold artifactCreated
      rw [meets_registry]
      refine meets_onlyIf (fun _ => ?_) fun there => silent (unmarkMissing_of_not_mem there)
      refine (meets_bind _ _ _).mpr ?_
      rw [meets_modifyRegistry]
      exact written [⟨.info, "The " ++ Update.label now.1.registry (Workspace.ofArtifact path)
        ++ " tsconfig.tsbuildinfo has been created, resuming processing"⟩]

/-- The same goes for its event, whether or not the artifact was missing. -/
theorem meets_handle (stem : IsStem workspace) (ready : now.1.registry.isReady workspace = true)
    (named : now.1.registry.findName workspace = some name) {value : Json}
    (reads : now.2.read (Workspace.artifactPath workspace) = .ok value)
    (valid : Artifact.validate value = .ok artifact) {change : Change} (present : change ≠ .delete)
    {start : Engine × Disk} {ending : Ending Unit Disk}
    (goesOn : ∀ marked : Engine × Disk,
      marked.1.registry = noticed change (Workspace.artifactPath workspace) now.1.registry →
      marked.2 = now.2 →
      Meets Disk.alone (applyDiscovered project options workspace name (discoveredNames project
        now.1.registry (Workspace.artifactPath workspace) name artifact)) .none .any marked marked
        ending) :
    Meets Disk.alone (handle project options .artifact change (Workspace.artifactPath workspace)) .none
      .any start now ending := by
  refine meets_handle_present present fun records => ?_
  let path := Workspace.artifactPath workspace
  let marked : Engine × Disk := ({ now.1 with
    registry := noticed change path now.1.registry
    log := now.1.log ++ records }, now.2)
  obtain ⟨missing, marks⟩ := noticed_eq change path now.1.registry
  have same : marked.1.registry = { now.1.registry with missingArtifacts := missing } := marks
  have names : discoveredNames project marked.1.registry path name artifact
      = discoveredNames project now.1.registry path name artifact := by
    rw [same]
    rfl
  have continues := goesOn marked rfl rfl
  rw [← names] at continues
  have stillReady : marked.1.registry.isReady workspace = true := by
    rw [same]
    exact ready
  have stillNamed : marked.1.registry.findName workspace = some name := by
    rw [same]
    exact named
  exact meets_artifactWritten stem stillReady stillNamed reads valid continues

end

/-! ### Whole events -/

attribute [local irreducible] start dispatch

section

variable {project : Project} {options : SyncOptions} {workspace name : String} {artifact : Artifact}
  {stored : TextSet} {manifest config : Document} {entries : Table Json} {now : Engine × Disk}

/-- The event of an artifact that is recognized brings its workspace in line, and the registry
takes over the names that the artifact refers to. -/
theorem meets_dispatch_learned (relative : project.IsRelative workspace)
    (apart : Workspace.IsApart project workspace) (same : now.2.project = project)
    (knows : Knows workspace name stored now.1.registry)
    (finds : Finds workspace artifact manifest config entries now.2) {event : Event}
    (change : event.change ≠ .delete)
    (path : project.relative event.path = project.relative (Workspace.artifactPath workspace))
    {start : Engine × Disk} {ending : Ending Unit Disk}
    (ends : ∀ after, after.1.registry = learned options name stored
        (discoveredNames project now.1.registry (Workspace.artifactPath workspace) name artifact)
        (noticed event.change (Workspace.artifactPath workspace) now.1.registry) →
      Synchronizes project options workspace name
        (discoveredNames project now.1.registry (Workspace.artifactPath workspace) name artifact)
        stored manifest entries now after → ending (.ok ()) after after) :
    Meets Disk.alone (dispatch project options event) .none .any start now ending := by
  have stem := relative.spelled.stem
  rw [(Workspace.relative_artifactPath relative).mpr apart] at path
  have classified : classify project now.1.registry event.path = some .artifact := by
    rw [classify, path]
    exact knows.artifact
  obtain ⟨value, reads, valid⟩ := finds.readArtifact
  unfold dispatch
  rw [meets_registry, classified, path]
  change Meets Disk.alone ((handle project options .artifact event.change
    (Workspace.artifactPath workspace)).recover (settle event.change
      (Workspace.artifactPath workspace))) .none .any start now ending
  refine (meets_recover _ _ _).mpr (meets_handle stem knows.ready knows.named reads valid change
    fun marked registry disk => ?_)
  obtain ⟨missing, marks⟩ := noticed_eq event.change (Workspace.artifactPath workspace) now.1.registry
  have marks := registry.trans marks
  have known : Knows workspace name stored marked.1.registry := by
    rw [marks]
    exact { knows with }
  refine meets_applyDiscovered stem (by rw [disk, same]) known (disk ▸ finds) ?_
    fun after learns synchronizes => ends after (registry ▸ learns) (synchronizes.of_marked marks disk)
  rw [marks]
  exact discoveredNames_registered _ knows.registered

/-- The event of an artifact that is recognized brings its workspace in line. -/
theorem meets_dispatch (relative : project.IsRelative workspace)
    (apart : Workspace.IsApart project workspace) (same : now.2.project = project)
    (knows : Knows workspace name stored now.1.registry)
    (finds : Finds workspace artifact manifest config entries now.2) {event : Event}
    (change : event.change ≠ .delete)
    (path : project.relative event.path = project.relative (Workspace.artifactPath workspace))
    {start : Engine × Disk} {ending : Ending Unit Disk}
    (ends : ∀ after, Synchronizes project options workspace name
        (discoveredNames project now.1.registry (Workspace.artifactPath workspace) name artifact)
        stored manifest entries now after → ending (.ok ()) after after) :
    Meets Disk.alone (dispatch project options event) .none .any start now ending :=
  meets_dispatch_learned relative apart same knows finds change path fun after _ => ends after

end

/-- The event of an artifact that is not recognized changes nothing. -/
theorem meets_dispatch_ignored {project : Project} {options : SyncOptions} {workspace : String}
    {state : Engine × Disk} (sound : state.1.registry.Sound project)
    (relative : project.IsRelative workspace) (lost : ¬Workspace.IsApart project workspace)
    {event : Event}
    (path : project.relative event.path = project.relative (Workspace.artifactPath workspace)) :
    Meets Disk.alone (dispatch project options event) .none .any state state
      fun result _ now => result = .ok () ∧ now = state := by
  have classified : classify project state.1.registry event.path = none := by
    rw [classify, path]
    exact classify_of_not_apart sound relative lost
  unfold dispatch
  rw [meets_registry, classified]
  exact ⟨rfl, rfl⟩

section

variable {project : Project} {options : SyncOptions} {workspace name : String}

theorem knows_of_orderly {engine : Engine} (orderly : engine.Orderly project False [])
    (ready : engine.registry.isReady workspace = true)
    (named : engine.registry.findName workspace = some name)
    (watched : Workspace.artifactPath workspace ∈ engine.registry.artifacts) :
    project.IsRelative workspace ∧ ∃ stored, Knows workspace name stored engine.registry := by
  have sound := orderly.sound
  have watches := sound.watches_of_named named
  have relative := sound.relative watches
  obtain ⟨stored, found⟩ := Option.isSome_iff_exists.mp
    (orderly.settled workspace List.not_mem_nil (Or.inr watched) name named)
  refine ⟨relative, stored, ready, named, ?_, classify_of_artifact sound relative watched,
    fun name path held => ?_, fun other name held => ?_⟩
  · rw [Registry.dependenciesOf, found]
  · exact (sound.watches_of_named ((sound.inverse path name).mpr held)).1.filled
  · rw [(sound.inverse other name).mp held]
    rfl

/-- Whether a workspace has been brought in line with some names: its references, its
dependencies as far as they are not those it had before, and what is remembered. -/
structure Synchronized (project : Project) (options : SyncOptions) (workspace name : String)
    (discovered : List String) (stored : TextSet) (manifest : Document) (registry : Registry)
    (after : Engine × Disk) : Prop where
  references : ∃ config entries, after.2.read (Workspace.configPath workspace) = .ok (.obj config)
    ∧ Config.Lists config entries ∧ entries.keys.Nodup
    ∧ ∀ path, path ∈ entries.keys ↔ Update.IsTarget project registry workspace discovered path
  dependencies : ∃ adjusted : Document,
    after.2.read (Workspace.manifestPath workspace) = .ok (.obj adjusted)
    ∧ (∀ other ∈ discovered, other ∉ stored →
      other ∈ (Manifest.declared adjusted "dependencies").keys
        ∨ other ∈ (Manifest.declared adjusted "devDependencies").keys)
    ∧ (options.pruneRedundant = true → ∀ other ∈ stored, other ∉ discovered →
      ∀ field ∈ Manifest.dependencyFields, other ∉ (Manifest.declared adjusted field).keys)
    ∧ (∀ other, ¬(other ∈ discovered ∧ other ∉ stored) →
      ¬(options.pruneRedundant = true ∧ other ∈ stored ∧ other ∉ discovered) →
      ∀ field ∈ Manifest.dependencyFields,
        (Manifest.declared adjusted field).get? other = (Manifest.declared manifest field).get? other)
    ∧ ∀ key, key ∉ Manifest.dependencyFields → adjusted.get? key = manifest.get? key
  remembered : ∃ dependencies, after.1.registry.dependenciesOf name = .ok dependencies
    ∧ ∀ other, other ∈ dependencies ↔ other ∈ discovered

theorem mem_missingNames {stored : TextSet} {discovered : List String} {other : String} :
    other ∈ missingNames stored discovered ↔ other ∈ discovered ∧ other ∉ stored := by
  rw [missingNames, mem_sortTexts, mem_missingItems]

theorem mem_prunedNames {stored : TextSet} {discovered : List String} {other : String} :
    other ∈ prunedNames options stored discovered
      ↔ options.pruneRedundant = true ∧ other ∈ stored ∧ other ∉ discovered := by
  unfold prunedNames
  cases options.pruneRedundant with
  | true => rw [if_pos rfl, mem_sortTexts, mem_redundantItems, and_iff_right rfl]
  | false => exact ⟨nofun, fun both => nomatch both.1⟩

section

variable {discovered : List String} {stored : TextSet} {manifest : Document} {entries : Table Json}
  {before after : Engine × Disk} (synchronizes : Synchronizes project options workspace name
    discovered stored manifest entries before after)

include synchronizes

theorem Synchronizes.remembers :
    after.1.registry.dependenciesOf name = .ok (distinct discovered) := by
  obtain ⟨missing, reported, same⟩ := synchronizes.registry
  rw [same, Registry.dependenciesOf, Table.get?_set, if_pos rfl]

/-- The artifact refers to the same names as before. -/
theorem Synchronizes.sameNames (path : String) (artifact : Artifact) :
    discoveredNames project after.1.registry path name artifact
      = discoveredNames project before.1.registry path name artifact := by
  obtain ⟨missing, reported, same⟩ := synchronizes.registry
  rw [same]
  rfl

theorem Synchronizes.synchronized :
    Synchronized project options workspace name discovered stored manifest before.1.registry after := by
  obtain ⟨adjusted, reads, adjusts⟩ := synchronizes.inLine.manifest
  refine ⟨synchronizes.inLine.config, ⟨adjusted, reads, fun other found lacks => ?_,
    fun prunes other held gone field known => ?_, fun other notAdded notPruned field known => ?_,
    adjusts.others⟩, _, synchronizes.remembers, fun other => mem_distinct⟩
  · refine adjusts.declares (mem_missingNames.mpr ⟨found, lacks⟩) fun pruned => ?_
    exact (mem_prunedNames.mp pruned).2.2 found
  · exact adjusts.drops (mem_prunedNames.mpr ⟨prunes, held, gone⟩) known
  · exact adjusts.keeps (mt mem_missingNames.mp notAdded) (mt mem_prunedNames.mp notPruned) known

/-- What is known and found after an event, for the next one. -/
theorem Synchronizes.again {artifact : Artifact} {config : Document} (stem : IsStem workspace)
    (sameProject : before.2.project = project) (knows : Knows workspace name stored before.1.registry)
    (finds : Finds workspace artifact manifest config entries before.2) :
    Knows workspace name (distinct discovered) after.1.registry
      ∧ ∃ adjusted listing entries, Finds workspace artifact adjusted listing entries after.2
        ∧ Settles (Update.IsTarget project after.1.registry workspace discovered)
          (missingNames (distinct discovered) discovered)
          (prunedNames options (distinct discovered) discovered) entries := by
  have remembers := synchronizes.remembers
  have targets : Update.IsTarget project after.1.registry workspace discovered
      = Update.IsTarget project before.1.registry workspace discovered := by
    obtain ⟨missing, reported, same⟩ := synchronizes.registry
    refine Update.isTarget_eq project ?_ workspace discovered
    rw [same]
  obtain ⟨adjusted, readsManifest, _⟩ := synchronizes.inLine.manifest
  obtain ⟨listing, others, readsConfig, lists, once, items⟩ := synchronizes.inLine.config
  constructor
  · obtain ⟨missing, reported, same⟩ := synchronizes.registry
    rw [same] at remembers ⊢
    exact ⟨knows.ready, knows.named, remembers, knows.artifact, knows.filled, knows.registered⟩
  · refine ⟨adjusted, listing, others, ⟨?_, readsManifest, readsConfig, lists⟩, ?_, ?_, once, ?_⟩
    · obtain ⟨value, reads, valid⟩ := finds.readArtifact
      refine ⟨value, Disk.read_keeps synchronizes.same synchronizes.files.keeps reads ?_, valid⟩
      rw [sameProject]
      exact artifactPlace_apart project stem stem
    · apply List.eq_nil_iff_forall_not_mem.mpr
      intro other member
      obtain ⟨found, lacks⟩ := mem_missingNames.mp member
      exact lacks (mem_distinct.mpr found)
    · apply List.eq_nil_iff_forall_not_mem.mpr
      intro other member
      obtain ⟨_, held, gone⟩ := mem_prunedNames.mp member
      exact gone (mem_distinct.mp held)
    · intro path
      rw [targets]
      exact items path

end

end

/-! ### Two workspaces, the artifact of one referring to a file of the other -/

/-- The text of an artifact whose only file refers to another one. -/
def linkText (file : String) : List Char :=
  "\x7b\"program\":\x7b\"fileNames\":[\"../a.ts\",\"".toList ++ file.toList
    ++ "\"],\"referencedMap\":[[1,1]],\"fileIdsList\":[[2]]\x7d\x7d".toList

def linkArtifact (file : String) : Artifact where
  fileNames := [(0, "../a.ts"), (1, file)]
  referencedMap := [(1, 1)]
  fileIdsList := [(0, [2])]

theorem finds_of_checks {disk : Disk} {workspace : String} {artifact : Artifact}
    (artifacts : ((disk.read (Workspace.artifactPath workspace)).toOption.any
      fun value => decide (Artifact.validate value = .ok artifact)) = true)
    (manifests : ((disk.read (Workspace.manifestPath workspace)).toOption.any
      fun value => value matches .obj _) = true)
    (configs : ((disk.read (Workspace.configPath workspace)).toOption.any
      fun value => value matches .obj []) = true) :
    ∃ manifest, Finds workspace artifact manifest [] [] disk := by
  obtain ⟨value, readsArtifact, valid⟩ := ok_of_any artifacts
  obtain ⟨manifest, readsManifest, isManifest⟩ := ok_of_any manifests
  obtain ⟨config, readsConfig, isConfig⟩ := ok_of_any configs
  cases manifest with
  | obj manifest =>
      cases config with
      | obj config =>
          cases config with
          | nil =>
              have lists : Config.Lists [] [] := ⟨nofun, Or.inr ⟨rfl, rfl⟩⟩
              exact ⟨manifest, ⟨value, readsArtifact, of_decide_eq_true valid⟩, readsManifest,
                readsConfig, lists⟩
          | cons _ _ => cases isConfig
      | _ => cases isConfig
  | _ => cases isManifest

/-- What is found depends on the files alone. -/
theorem Finds.elsewhere {workspace : String} {artifact : Artifact} {manifest config : Document}
    {entries : Table Json} {project : Project} {files : FileTree} {disk : Disk}
    (finds : Finds workspace artifact manifest config entries { project := project, files := files })
    (same : disk.project = project) :
    Finds workspace artifact manifest config entries { disk with files := files } := by
  exact finds.keeps same (FileTree.Keeps.refl (fun _ => False) files) id fun _ _ => id

/-- A project with two workspaces, one of them perhaps the root itself. -/
def pairFiles (root : String) (others : List (Place × Entry)) : FileTree where
  entries :=
    [(["p"], .directory), (["p", "package.json"], .file (.text root.toList)),
      (["p", "b"], .directory), (["p", "b", "package.json"], .file (.text "\x7b\"name\":\"b\"\x7d".toList))]
      ++ others

/-- The files of a workspace that has been compiled. -/
def compiledFiles (directory : Place) (file : String) : List (Place × Entry) :=
  [(directory ++ ["tsconfig.json"], .file (.text "\x7b\x7d".toList)),
    (directory ++ [".ts"], .directory),
    (directory ++ [".ts", "tsconfig.tsbuildinfo"], .file (.text (linkText file)))]

end Watch
end RefSync
