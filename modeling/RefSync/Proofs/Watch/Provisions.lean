/-
Workspaces that have all that bringing them up takes: a manifest that is an object, a config that
can be worked with or a place for one, and an artifact that can be looked for. Nothing goes wrong
with them, whatever their artifacts hold: each gets a config and is watched.
-/

import RefSync.Proofs.Update
import RefSync.Proofs.Watch.BringUp

namespace RefSync

open Routine Path Update

namespace Disk

variable {disk : Disk}

/-- Whether a path is not refused for its length. -/
def IsShort (disk : Disk) (path : String) : Prop :=
  FileTree.hasNull (disk.project.absolute path) = true
    ∨ FileTree.isLongPath (disk.project.absolute path) = false

theorem isShort_of_isPresent {path : String} {there : Bool} (looked : disk.isPresent path = .ok there) :
    disk.IsShort path := by
  unfold isPresent locate FileTree.walk at looked
  cases null : FileTree.hasNull (disk.project.absolute path) with
  | true => exact Or.inl null
  | false =>
      cases long : FileTree.isLongPath (disk.project.absolute path) with
      | false => exact Or.inr long
      | true =>
          rw [null, long] at looked
          cases looked

/-- An artifact can be looked for in a directory that is there, unless its path is too long. -/
theorem isPresent_artifactPath {workspace : String} (stem : IsStem workspace) {place : Place}
    (walked : disk.files.walk (disk.project.absolute workspace) = .ok place)
    (short : disk.IsShort (Workspace.artifactPath workspace)) :
    ∃ there, disk.isPresent (Workspace.artifactPath workspace) = .ok there := by
  have components := Workspace.parts_absolute_artifactPath disk.project stem
  obtain ⟨_, _, entered⟩ := FileTree.walk_eq_ok.mp walked
  have below : disk.files.walkFrom place [Config.artifactDirectory, Config.artifactFile]
      ≠ .error .tooLong := by
    have down : (Config.artifactDirectory == "..") = false ∧ (Config.artifactFile == "..") = false
        ∧ FileTree.isLongName Config.artifactDirectory = false
        ∧ FileTree.isLongName Config.artifactFile = false := by decide
    obtain ⟨first, second, firstShort, secondShort⟩ := down
    simp only [FileTree.walkFrom, first, second, firstShort, secondShort]
    repeat' split
    all_goals simp
  unfold isPresent locate FileTree.walk
  cases null : FileTree.hasNull (disk.project.absolute (Workspace.artifactPath workspace)) with
  | true => exact ⟨false, rfl⟩
  | false =>
      rw [short.resolve_left (by rw [null]; exact Bool.false_ne_true), components, FileTree.walkFrom_goesOn entered]
      cases ends : disk.files.walkFrom place [Config.artifactDirectory, Config.artifactFile] with
      | ok place => exact ⟨true, rfl⟩
      | error why =>
          cases why with
          | tooLong => exact absurd ends below
          | missing => exact ⟨false, rfl⟩
          | notDirectory => exact ⟨false, rfl⟩
          | nullCharacter => exact ⟨false, rfl⟩

theorem Accepts.known_of_read {path : String} {kind : Document → Prop} {document : Document}
    (accepts : disk.Accepts path kind) (reads : disk.read path = .ok (.obj document)) :
    kind document := by
  obtain ⟨found, finds, known⟩ := accepts.finds
  cases found with
  | none =>
      obtain ⟨shown, missing⟩ := finds
      rw [missing] at reads
      cases reads
  | some other =>
      rw [show disk.read path = .ok (.obj other) from finds] at reads
      cases reads
      exact known document rfl

theorem Accepts.paused {path : String} {kind : Document → Prop} (accepts : disk.Accepts path kind)
    (pauses : List Duration) : { disk with pauses := pauses }.Accepts path kind :=
  ⟨accepts.opens.keeps rfl (FileTree.Keeps.refl (fun _ => False) disk.files), accepts.held⟩

end Disk

namespace Watch

/-- What bringing up workspaces takes. -/
structure Provided (project : Project) (present : List String) (state : Engine × Disk) : Prop where
  same : state.2.project = project
  active : state.1.active = true
  orderly : state.1.Orderly project True []
  root : state.2.Accepts configFile fun _ => True
  config workspace : workspace ∈ present →
    state.2.Accepts (Workspace.configPath workspace) Config.Usable
  manifest workspace : workspace ∈ present → ∃ document,
    state.2.read (Workspace.manifestPath workspace) = .ok (.obj document)
  there workspace : workspace ∈ present →
    ∃ place, state.2.files.walk (state.2.project.absolute workspace) = .ok place
  short workspace : workspace ∈ present → state.2.IsShort (Workspace.artifactPath workspace)

/-- What an engine that brings up workspaces does not lose. -/
structure Grows (before after : Engine) : Prop where
  names workspace : after.registry.findName workspace = before.registry.findName workspace
  manifests : after.registry.manifests = before.registry.manifests
  configs workspace : (before.registry.readinessOf workspace).config = true →
    (after.registry.readinessOf workspace).config = true
  artifacts path : path ∈ before.registry.artifacts → path ∈ after.registry.artifacts
  generation : after.generation = before.generation

theorem Grows.refl (engine : Engine) : Grows engine engine :=
  ⟨fun _ => rfl, rfl, fun _ => id, fun _ => id, rfl⟩

theorem Grows.trans {before between after : Engine} (one : Grows before between)
    (two : Grows between after) : Grows before after where
  names workspace := (two.names workspace).trans (one.names workspace)
  manifests := two.manifests.trans one.manifests
  configs workspace bit := two.configs workspace (one.configs workspace bit)
  artifacts path member := two.artifacts path (one.artifacts path member)
  generation := two.generation.trans one.generation

/-- Bringing up workspaces takes nothing away that it needs. -/
def providing (project : Project) (present : List String) : Conduct Disk where
  allows before after := Provided project present before →
    Provided project present after ∧ Grows before.1 after.1
  refl state provided := ⟨provided, .refl state.1⟩
  trans first second provided := by
    obtain ⟨between, one⟩ := first provided
    obtain ⟨after, two⟩ := second between
    exact ⟨after, one.trans two⟩

/-- What watched workspaces have got they keep. -/
theorem endures_providing {project : Project} {present : List String} (holds : Registry → String → Prop)
    (grows : ∀ before after : Engine, Grows before after → ∀ workspace,
      holds before.registry workspace → holds after.registry workspace) (workspace : String) :
    Endures (providing project present) fun state => Provided project present state
      ∧ (Workspace.manifestPath workspace ∈ state.1.registry.manifests →
        holds state.1.registry workspace) := by
  rintro before after allowed ⟨provided, held⟩
  obtain ⟨still, more⟩ := allowed provided
  refine ⟨still, fun watched => grows _ _ more workspace (held ?_)⟩
  rwa [← more.manifests]

/-- What bringing up workspaces asks for. -/
inductive Attends (present : List String) : Request → Prop where
  | config {workspace : String} (member : workspace ∈ present) :
      Attends present (.read (Workspace.configPath workspace))
  | manifest {workspace : String} (member : workspace ∈ present) :
      Attends present (.read (Workspace.manifestPath workspace))
  | sources {workspace : String} (member : workspace ∈ present) :
      Attends present (.hasJsx workspace)
  | artifact {workspace : String} (member : workspace ∈ present) :
      Attends present (.isPresent (Workspace.artifactPath workspace))

theorem attends_document {present : List String} {path : String}
    (attends : Attends present (.read path)) : ∃ workspace ∈ present,
      path = Workspace.configPath workspace ∨ path = Workspace.manifestPath workspace := by
  cases attends with
  | config member => exact ⟨_, member, Or.inl rfl⟩
  | manifest member => exact ⟨_, member, Or.inr rfl⟩

section

variable {project : Project} {options : SyncOptions} {present : List String} {now : Engine × Disk}
  {workspace : String}

attribute [local irreducible] Disk.write

namespace Provided

variable (provided : Provided project present now)

include provided

theorem changed {engine : Engine} (active : engine.active = true)
    (orderly : engine.Orderly project True []) : Provided project present (engine, now.2) :=
  { provided with active, orderly }

theorem changes {after : Registry} (sound : after.Sound project)
    (settled : ∀ workspace, now.1.registry.Settled workspace → after.Settled workspace) :
    Provided project present ({ now.1 with registry := after }, now.2) := by
  refine provided.changed provided.active ⟨sound, fun workspace absent _ => ?_, fun inactive => ?_⟩
  · exact settled workspace (provided.orderly.settled workspace absent (Or.inl trivial))
  · have active := provided.active
    rw [show now.1.active = false from inactive] at active
    cases active

/-- With workspaces that are provided for nothing goes wrong. -/
theorem faultless (below : ∀ workspace ∈ present, project.IsRelative workspace ∧ workspace ≠ ".")
    {fault : Fault} : ¬Arises project (Attends present) now fault := by
  intro arises
  cases arises with
  | unread may known failed =>
      cases may with
      | config member =>
          obtain ⟨found, finds, _⟩ := (provided.config _ member).finds
          cases found with
          | none =>
              obtain ⟨shown, missing⟩ := finds
              exact known (Workspace.last_configPath _) shown missing
          | some config =>
              rw [show now.2.read _ = .ok (.obj config) from finds] at failed
              cases failed
      | manifest member =>
          obtain ⟨document, reads⟩ := provided.manifest _ member
          rw [reads] at failed
          cases failed
  | unwritten may failed =>
      cases may with
      | config member =>
          rw [(provided.config _ member).write] at failed
          cases failed
      | manifest member =>
          obtain ⟨document, reads⟩ := provided.manifest _ member
          have accepts : now.2.Accepts _ fun _ => True := Disk.accepts_of_read reads trivial
            (Workspace.last_manifestPath _) (by decide)
          rw [accepts.write] at failed
          cases failed
  | unscanned may failed =>
      cases may with
      | sources member =>
          obtain ⟨place, walked⟩ := provided.there _ member
          obtain ⟨jsx, scanned⟩ := Disk.hasJsx_of_walk walked
          rw [scanned] at failed
          cases failed
  | unseen may failed =>
      cases may with
      | artifact member =>
          obtain ⟨place, walked⟩ := provided.there _ member
          obtain ⟨there, looked⟩ := Disk.isPresent_artifactPath (below _ member).1.spelled.stem walked
            (provided.short _ member)
          rw [looked] at failed
          cases failed
  | unplaced failed =>
      have sound := provided.orderly.sound
      have filled (name path : String) (found : now.1.registry.findPath name = some path) :
          path ≠ "" :=
        (sound.watches_of_named ((sound.inverse path name).mpr found)).1.filled
      obtain ⟨aliases, resolved, _⟩ := targetAliases_ok filled _ _
      rw [resolved] at failed
      cases failed
  | unrooted may failed =>
      obtain ⟨workspace, member, same | same⟩ := attends_document may
      · obtain ⟨relative, notRoot⟩ := below workspace member
        exact Workspace.configPath_apart project relative.spelled.stem (relative.apart notRoot)
          (congrArg project.resolved same.symm)
      · have last := Workspace.last_manifestPath workspace
        rw [← same] at last
        exact absurd last (by decide)
  | unusable may last reads failed =>
      obtain ⟨workspace, member, same | same⟩ := attends_document may
      · subst same
        obtain ⟨paths, given⟩ := (provided.config workspace member).known_of_read reads
        rw [given] at failed
        cases failed
      · rw [same, Workspace.last_manifestPath] at last
        exact absurd last (by decide)
  | unnamed ready failed =>
      obtain ⟨name, named⟩ := Option.isSome_iff_exists.mp
        (Registry.Sound.named_of_ready provided.orderly.sound ready)
      rw [Registry.nameOf, named] at failed
      cases failed
  | unlearned named failed =>
      obtain ⟨stored, known⟩ := Option.isSome_iff_exists.mp
        (provided.orderly.settled _ List.not_mem_nil (Or.inl trivial) _ named)
      rw [Registry.dependenciesOf, known] at failed
      cases failed
  | unmapped member failed =>
      obtain ⟨path, found⟩ := Option.isSome_iff_exists.mp
        (provided.orderly.sound.findPath_of_dependent member)
      rw [Registry.pathOf, found] at failed
      cases failed

/-- A document that is written takes no place from another one. -/
theorem written {path : String} {kind : Document → Prop} {document : Document}
    (target : now.2.Accepts path kind) (clean : Document.Clean document)
    (root : path = configFile ∨ project.resolved configFile ≠ project.resolved path)
    (config : ∀ workspace ∈ present, path = Workspace.configPath workspace ∧ Config.Usable document
      ∨ project.resolved (Workspace.configPath workspace) ≠ project.resolved path)
    (manifest : ∀ workspace ∈ present, path = Workspace.manifestPath workspace
      ∨ project.resolved (Workspace.manifestPath workspace) ≠ project.resolved path) :
    Provided project present (now.1, (now.2.write path document).2) := by
  have same : (now.2.write path document).2.project = now.2.project := by
    rw [(Disk.puts_write now.2 path document).2]
  have keeps := Disk.keeps_write now.2 path document
  refine ⟨same.trans provided.same, provided.active, provided.orderly, ?_, ?_, ?_, ?_, ?_⟩
  · rcases root with rfl | apart
    · exact provided.root.again clean trivial
    · apply provided.root.elsewhere target
      rwa [provided.same]
  · intro workspace member
    rcases config workspace member with ⟨rfl, usable⟩ | apart
    · exact (provided.config workspace member).again clean usable
    · apply (provided.config workspace member).elsewhere target
      rwa [provided.same]
  · intro workspace member
    rcases manifest workspace member with rfl | apart
    · exact ⟨document, target.read_write clean⟩
    · obtain ⟨held, reads⟩ := provided.manifest workspace member
      refine ⟨held, Disk.read_keeps same keeps reads ?_⟩
      rwa [provided.same]
  · intro workspace member
    obtain ⟨place, walked⟩ := provided.there workspace member
    refine ⟨place, ?_⟩
    rw [same]
    exact keeps.walk walked
  · intro workspace member
    rw [Disk.IsShort, same]
    exact provided.short workspace member

end Provided

theorem grows_same (engine : Engine) {after : Engine} (same : after.registry = engine.registry)
    (generation : after.generation = engine.generation) : Grows engine after := by
  refine ⟨fun _ => ?_, ?_, fun _ bit => ?_, fun _ member => ?_, generation⟩ <;> rw [same] <;>
    assumption

/-- A config more. -/
theorem grows_addConfig (engine : Engine) (workspace : String) : Grows engine
    { engine with registry := engine.registry.addReadiness workspace .onlyConfig } := by
  refine ⟨fun _ => rfl, rfl, fun other bit => ?_, fun _ => id, rfl⟩
  rw [Registry.readinessOf_addReadiness]
  split
  · exact Bool.or_true _
  · exact bit

theorem grows_setDependencies (engine : Engine) (name : String) (dependencies : List String) :
    Grows engine { engine with registry := engine.registry.setDependencies name dependencies } :=
  ⟨fun _ => rfl, rfl, fun _ => id, fun _ => id, rfl⟩

/-- An artifact more. -/
theorem grows_watchArtifact (engine : Engine) (path : String) :
    Grows engine { engine with registry := engine.registry.watchArtifact path } :=
  ⟨fun _ => rfl, rfl, fun _ => id, fun _ watched => TextSet.mem_insert.mpr (Or.inr watched), rfl⟩

theorem permits_provided {may : Request → Prop} {bearable : Fault → Prop}
    (faults : ∀ state fault, Provided project present state → Arises project may state fault →
      bearable fault) :
    Permits project may (providing project present) bearable (Provided project present) where
  endures _ _ allowed provided := (allowed provided).1
  notes state engine _ same active generation provided := by
    refine ⟨provided.changed (active.trans provided.active) ?_, grows_same state.1 same generation⟩
    exact ⟨same ▸ provided.orderly.sound, fun workspace absent due =>
      same ▸ provided.orderly.settled workspace absent (Or.inl trivial), fun inactive =>
        same ▸ provided.orderly.idle (active.symm.trans inactive)⟩
  faults := faults

section

variable (below : ∀ workspace ∈ present, project.IsRelative workspace ∧ workspace ≠ ".")

include below

theorem permitsConfig_provided (member : workspace ∈ present) :
    PermitsConfig (Attends present) (providing project present) (Provided project present)
      (Workspace.configPath workspace) := by
  refine ⟨.config member, fun asks found updated now before finds made _ provided => ?_⟩
  have isUsable : Config.Usable updated := by
    apply made.usable
    rintro config rfl
    exact (before.config workspace member).known_of_read finds
  have relative := (below workspace member).1
  refine ⟨provided.written (provided.config workspace member) made.clean (Or.inr ?_) ?_ ?_,
    grows_same now.1 rfl rfl⟩
  · exact (Workspace.configPath_apart project relative.spelled.stem
      (relative.apart (below workspace member).2)).symm
  · intro other inPresent
    rcases (documents_apart relative (below other inPresent).1).1 with rfl | apart
    · exact Or.inl ⟨rfl, isUsable⟩
    · exact Or.inr apart
  · exact fun other inPresent => Or.inr (documents_apart relative (below other inPresent).1).2.2

theorem permitsRoot_provided :
    PermitsConfig (fun _ => True) (providing project present) (Provided project present) configFile := by
  refine ⟨trivial, fun asks found updated now _ _ made _ provided => ?_⟩
  refine ⟨provided.written provided.root made.clean (Or.inl rfl) ?_ ?_, grows_same now.1 rfl rfl⟩
  · intro workspace member
    obtain ⟨relative, notRoot⟩ := below workspace member
    exact Or.inr (Workspace.configPath_apart project relative.spelled.stem (relative.apart notRoot))
  · refine fun workspace member => Or.inr fun same => ?_
    have last := project.last_resolved (Workspace.last_manifestPath workspace) (by decide)
    have configLast : (project.resolved configFile).getLast? = some configFile :=
      project.last_resolved (by decide) (by decide)
    rw [same, configLast] at last
    exact absurd last (by decide)

theorem permitsManifest_provided (member : workspace ∈ present) {change : Document → Option Document}
    (clean : ∀ manifest updated, Document.Clean manifest → change manifest = some updated →
      Document.Clean updated) :
    PermitsManifest (Attends present) (providing project present) (Provided project present)
      (Workspace.manifestPath workspace) change := by
  refine ⟨.manifest member, fun asks manifest updated now before reads update _ provided => ?_⟩
  have relative := (below workspace member).1
  obtain ⟨document, held⟩ := provided.manifest workspace member
  have target : now.2.Accepts _ fun _ => True := Disk.accepts_of_read held trivial
    (Workspace.last_manifestPath workspace) (by decide)
  have isClean := clean manifest updated (Document.clean_obj.mp (Disk.clean_of_read reads)) update
  refine ⟨provided.written target isClean (Or.inr fun same => ?_) ?_ ?_, grows_same now.1 rfl rfl⟩
  · have last := project.last_resolved (Workspace.last_manifestPath workspace) (by decide)
    have configLast : (project.resolved configFile).getLast? = some configFile :=
      project.last_resolved (by decide) (by decide)
    rw [← same, configLast] at last
    exact absurd last (by decide)
  · exact fun other inPresent =>
      Or.inr (documents_apart (below other inPresent).1 relative).2.2.symm
  · exact fun other inPresent => ((documents_apart relative (below other inPresent).1).2.1).imp_left
      fun same => congrArg Workspace.manifestPath same.symm

theorem permitsArtifact_provided (ends : PausesEnd options) (member : workspace ∈ present) :
    PermitsArtifact (Attends present) (providing project present) (fun _ => False)
      (Provided project present) options workspace where
  config := permitsConfig_provided below member
  manifest _ _ _ missing redundant _ _ _ _ _ := by
    apply permitsManifest_provided below member
    intro manifest updated clean update
    exact (Manifest.adjusted_update clean missing redundant).2 updated update
  learns state name discovered _ named _ provided := by
    refine ⟨provided.changes ?_ fun _ settled => settled.setDependencies _ _,
      fun _ => rfl, rfl, fun _ => id, fun _ => id, rfl⟩
    apply provided.orderly.sound.setDependencies
    rw [(provided.orderly.sound.inverse _ name).mp named]
    rfl
  marks state missing reported _ within provided := by
    refine ⟨provided.changes ?_ fun _ => id, fun _ => rfl, rfl, fun _ => id, fun _ => id, rfl⟩
    have sound := provided.orderly.sound
    exact { sound with missing := fun path marked => sound.missing path (within path marked) }
  pauses state pauses _ provided := ⟨{ provided with
    root := provided.root.paused pauses
    config := fun workspace member => (provided.config workspace member).paused pauses },
    grows_same state.1 rfl rfl⟩
  endless failures within endless := by
    have some := ends failures within
    rw [endless] at some
    cases some

/-- A workspace that is brought up gets its config, if it is still watched. -/
theorem abides_bootstrap_provided (member : workspace ∈ present) :
    Abides Disk.alone (providing project present) (fun _ => False) (Provided project present)
      (bootstrapConfig workspace) fun _ state => Provided project present state
        ∧ (Workspace.manifestPath workspace ∈ state.1.registry.manifests →
          (state.1.registry.readinessOf workspace).config = true) := by
  have permits : Permits project (Attends present) (providing project present) (fun _ => False)
      (Provided project present) := permits_provided fun _ _ provided => provided.faultless below
  have stem := (below workspace member).1.spelled.stem
  apply abides_bootstrapped
    (abides_configure permits (permitsConfig_provided below member) (.sources member) false)
  intro state provided watched
  have watches := watches_of_isWatched stem watched
  have sound := provided.orderly.sound.addReadiness watches .onlyConfig nofun
  have after := provided.changes sound fun other settled => settled.of_same rfl rfl
  exact ⟨fun _ => ⟨after, grows_addConfig state.1 workspace⟩, after⟩

/-- A workspace that is brought up has its artifact watched, if it is still watched itself. -/
theorem abides_watch_provided (ends : PausesEnd options) (member : workspace ∈ present) :
    Abides Disk.alone (providing project present) (fun _ => False) (Provided project present)
      (watchArtifact project options workspace) fun _ state => Provided project present state
        ∧ (Workspace.manifestPath workspace ∈ state.1.registry.manifests →
          Workspace.artifactPath workspace ∈ state.1.registry.artifacts) := by
  have permits : Permits project (Attends present) (providing project present) (fun _ => False)
      (Provided project present) := permits_provided fun _ _ provided => provided.faultless below
  have stem := (below workspace member).1.spelled.stem
  have artifact := permitsArtifact_provided below ends member
  rw [← Workspace.ofArtifact_artifactPath stem] at artifact
  apply abides_watched permits (.artifact member) artifact
  · intro state provided watched
    have watches := watches_of_isWatched stem watched
    have stage := stage_watchArtifact provided.orderly watches
      (provided.orderly.settled workspace List.not_mem_nil (Or.inl trivial))
    exact fun _ => ⟨provided.changes stage.orderly.sound stage.settled, grows_watchArtifact state.1 _⟩
  · exact endures_providing
      (fun registry workspace => Workspace.artifactPath workspace ∈ registry.artifacts)
      (fun _ _ more _ => more.artifacts _) workspace

/-- All workspaces that are provided for are brought up. -/
theorem leads_bringUp_provided {workspaces : List String} {generation : Nat} (ends : PausesEnd options)
    (isPresent : workspaces.filter (now.1.registry.hasReadiness · .onlyManifest) = present)
    (current : now.1.generation = generation) (provided : Provided project present now)
    (poised : Poised project now) :
    Leads Disk.alone (bringUp project options workspaces generation) now fun result later =>
      result = .ok () ∧ Provided project present later ∧ Grows now.1 later.1
        ∧ ∀ workspace ∈ present, Workspace.manifestPath workspace ∈ now.1.registry.manifests →
          (later.1.registry.readinessOf workspace).config = true
            ∧ Workspace.artifactPath workspace ∈ later.1.registry.artifacts := by
  have furnished : Furnished project present now := ⟨poised,
    fun workspace member => (provided.config workspace member).weaken fun _ _ => trivial,
    provided.there⟩
  have configures : Leads Disk.alone (forAll present bootstrapConfig) now _ :=
    ((abides_all (fun _ _ allowed provided => (allowed provided).1)
      (endures_providing (fun registry workspace => (registry.readinessOf workspace).config = true)
        fun _ _ more => more.configs)
      fun workspace member => abides_bootstrap_provided below member).leads provided).both
    ((abides_group (fun _ _ kept => kept) fun workspace member =>
      (abides_furnish below member).weaken fun _ _ _ => trivial).leads furnished)
  unfold bringUp
  apply leads_registry
  dsimp only
  rw [isPresent]
  apply configures.bind
  · rintro _ later ⟨⟨grown, still, configs⟩, _, furnished⟩
    obtain ⟨_, grows⟩ := grown provided
    have permits : Permits project (fun _ => True) (providing project present) (fun _ => True)
        (Provided project present) := permits_provided fun _ _ _ _ => trivial
    have updates : Leads Disk.alone (configureRoot project) later _ :=
      (leads_configureRoot furnished.poised).both
        ((abides_configureRoot permits (permitsRoot_provided below)).leads still)
    apply updates.bind
    · rintro _ after ⟨_, grownAgain, stillAfter⟩
      obtain ⟨_, growsAgain⟩ := grownAgain still
      have isCurrent : isCurrent after.1 generation = true := by
        rw [Watch.isCurrent, stillAfter.active, growsAgain.generation, grows.generation, current,
          beq_self_eq_true]
        rfl
      have watches : Leads Disk.alone (forAll present (watchArtifact project options)) after _ :=
        (abides_all (fun _ _ allowed provided => (allowed provided).1)
          (endures_providing (fun registry workspace =>
            Workspace.artifactPath workspace ∈ registry.artifacts) fun _ _ more _ => more.artifacts _)
          fun workspace member => abides_watch_provided below ends member).leads stillAfter
      apply leads_engine
      rw [isCurrent]
      apply watches.bind
      · rintro _ final ⟨grownLast, stillLast, artifacts⟩
        obtain ⟨_, growsLast⟩ := grownLast stillAfter
        have all : Grows now.1 final.1 := (grows.trans growsAgain).trans growsLast
        refine leads_pure ⟨rfl, stillLast, all, fun workspace member watched => ⟨?_, ?_⟩⟩
        · apply growsLast.configs
          apply growsAgain.configs
          apply (configs workspace member).2
          rwa [grows.manifests]
        · apply (artifacts workspace member).2
          rwa [all.manifests]
      · rintro failure final ⟨_, ⟨_, impossible⟩, _⟩
        exact impossible.elim
    · rintro failure after ⟨⟨failed, _⟩, _⟩
      cases failed
  · rintro failure later ⟨⟨_, ⟨_, impossible⟩, _⟩, _⟩
    exact impossible.elim

end

end

end Watch
end RefSync
