/-
A rename on its way to the other manifests. It reaches a workspace through the dependencies that
are known of it: one of which the old name is known gets the new name in the same place, and its
manifest is left alone by everything else that the event leads to.
-/

import RefSync.Proofs.Manifest.Dependencies
import RefSync.Proofs.Watch.Permitted
import RefSync.Proofs.Watch.Pruning
import RefSync.Proofs.Watch.Registering

namespace RefSync

open Routine Path Update

/-- The manifest of a workspace that a rename concerns, and what it becomes. -/
structure Moving (project : Project) where
  workspace : String
  relative : project.IsRelative workspace
  old : String
  new : String
  differs : old ≠ new
  document : Document
  clean : Document.Clean document

namespace Moving

variable {project : Project} (moving : Moving project)

def path : String :=
  Workspace.manifestPath moving.workspace

def renamed : Document :=
  (Manifest.renameDependency? moving.document moving.old moving.new).getD moving.document

end Moving

namespace Watch

attribute [local irreducible] Disk.write

/-- The manifest is as it was or has been renamed, and the latter where that is done. -/
structure Carries {project : Project} (moving : Moving project) (done : Prop)
    (state : Engine × Disk) : Prop where
  same : state.2.project = project
  held : state.2.read moving.path = .ok (.obj moving.document)
    ∨ state.2.read moving.path = .ok (.obj moving.renamed)
  carried : done → state.2.read moving.path = .ok (.obj moving.renamed)

/-- What is done stays done. -/
def carrying {project : Project} (moving : Moving project) : Conduct Disk where
  allows before after := ∀ done, Carries moving done before → Carries moving done after
  refl _ _ := id
  trans first second done := second done ∘ first done

section

variable {project : Project} {options : SyncOptions} {moving : Moving project} {done : Prop}
  {now : Engine × Disk} {workspace : String}

theorem Carries.elsewhere (carries : Carries moving done now) {path : String} {document : Document}
    (apart : project.resolved moving.path ≠ project.resolved path) :
    Carries moving done (now.1, (now.2.write path document).2) := by
  have same : (now.2.write path document).2.project = now.2.project := by
    rw [(Disk.puts_write now.2 path document).2]
  have elsewhere : now.2.project.resolved moving.path ≠ now.2.project.resolved path := by
    rw [carries.same]
    exact apart
  have keeps (value : Json) (reads : now.2.read moving.path = .ok value) :
      (now.2.write path document).2.read moving.path = .ok value :=
    Disk.read_keeps same (Disk.keeps_write now.2 path document) reads elsewhere
  refine ⟨same.trans carries.same, ?_, fun isDone => ?_⟩
  · exact carries.held.imp (keeps _) (keeps _)
  · exact keeps _ (carries.carried isDone)

/-- Writing the renamed manifest is what it takes. -/
theorem Carries.renames (carries : Carries moving done now) {updated : Document}
    (update : Manifest.renameDependency? moving.document moving.old moving.new = some updated) :
    Carries moving True (now.1, (now.2.write moving.path updated).2) := by
  obtain ⟨_, clean⟩ := Manifest.renamed_rename moving.differs moving.clean
  have renamed : moving.renamed = updated := by
    rw [Moving.renamed, update]
    rfl
  obtain ⟨value, reads⟩ : ∃ value, now.2.read moving.path = .ok value := by
    rcases carries.held with reads | reads
    · exact ⟨_, reads⟩
    · exact ⟨_, reads⟩
  obtain ⟨content, _, holds, _⟩ := Disk.read_eq_ok.mp reads
  have written : (now.2.write moving.path updated).2.read moving.path
      = .ok (.obj moving.renamed) := by
    rw [renamed]
    exact Disk.read_write holds (Workspace.last_manifestPath moving.workspace) (by decide)
      (clean updated update)
  refine ⟨?_, Or.inr written, fun _ => written⟩
  rw [(Disk.puts_write now.2 moving.path updated).2]
  exact carries.same

theorem Carries.weaken (carries : Carries moving True now) : Carries moving done now :=
  ⟨carries.same, carries.held, fun _ => carries.carried trivial⟩

/-- What was read is what there was, or the rename has been done. -/
theorem Carries.cases (carries : Carries moving done now) :
    now.2.read moving.path = .ok (.obj moving.document) ∨ Carries moving True now
      ∧ now.2.read moving.path = .ok (.obj moving.renamed) :=
  carries.held.imp_right fun reads => ⟨⟨carries.same, carries.held, fun _ => reads⟩, reads⟩

theorem permits_carries :
    Permits project (fun _ => True) (carrying moving) (fun _ => True) (Carries moving done) where
  endures _ _ allowed := allowed done
  notes _ _ _ _ _ _ _ carries := ⟨carries.same, carries.held, carries.carried⟩
  faults _ _ _ _ := trivial

theorem permitsConfig_carries {path : String} (last : (parts path).getLast? = some configFile) :
    PermitsConfig (fun _ => True) (carrying moving) (Carries moving done) path := by
  refine ⟨trivial, fun _ _ _ _ _ _ _ _ _ carries => carries.elsewhere fun same => ?_⟩
  have manifest := project.last_resolved (Workspace.last_manifestPath moving.workspace) (by decide)
  have config := project.last_resolved last (by decide)
  rw [← same] at config
  exact absurd (manifest.symm.trans config) (by decide)

theorem permitsManifest_carries (relative : project.IsRelative workspace)
    (other : workspace ≠ moving.workspace) (change : Document → Option Document) :
    PermitsManifest (fun _ => True) (carrying moving) (Carries moving done)
      (Workspace.manifestPath workspace) change := by
  refine ⟨trivial, fun _ _ _ _ _ _ _ _ _ carries => carries.elsewhere fun same => ?_⟩
  rw [Moving.path, Workspace.resolved_manifestPath _ relative.spelled.stem,
    Workspace.resolved_manifestPath _ moving.relative.spelled.stem] at same
  exact other (relative.injective moving.relative (List.append_inj_left' same rfl).symm)

theorem permitsArtifact_carries (relative : project.IsRelative workspace)
    (other : workspace ≠ moving.workspace) :
    PermitsArtifact (fun _ => True) (carrying moving) (fun _ => True) (Carries moving done) options
      workspace where
  config := permitsConfig_carries (Workspace.last_configPath workspace)
  manifest _ _ _ _ _ _ _ _ _ _ := permitsManifest_carries relative other _
  learns _ _ _ _ _ _ _ carries := ⟨carries.same, carries.held, carries.carried⟩
  marks _ _ _ _ _ _ carries := ⟨carries.same, carries.held, carries.carried⟩
  pauses _ _ _ _ carries := ⟨carries.same, carries.held, carries.carried⟩
  endless _ _ _ := trivial

/-- The manifest that a rename concerns is renamed, if it was not before. -/
theorem abides_carry_own : Abides Disk.alone (carrying moving) (fun _ => True) (Carries moving done)
    (dependencyName moving.workspace moving.old moving.new) fun _ => Carries moving True := by
  apply abides_anyRegistry
  intro registry
  have asks : Abides Disk.alone (carrying moving) (fun _ => True) (Carries moving done)
      (ask (.read moving.path)) fun given state =>
        Carries moving done state ∧ given = .ok (.obj moving.document)
          ∨ Carries moving True state ∧ given = .ok (.obj moving.renamed) := by
    apply (abides_ask (.read moving.path) permits_carries.endures fun _ _ =>
      (carrying moving).refl _).weaken
    rintro given state ⟨holds, asked, before, same, allowed⟩
    rcases before.cases with reads | ⟨renamed, reads⟩
    · exact Or.inl ⟨holds, same.trans reads⟩
    · exact Or.inr ⟨allowed True renamed, same.trans reads⟩
  have reads : Abides Disk.alone (carrying moving) (fun _ => True) (Carries moving done)
      (readObject moving.path) fun document state =>
        Carries moving done state ∧ document = moving.document
          ∨ Carries moving True state ∧ document = moving.renamed := by
    apply asks.bind
    intro given
    apply Abides.or
    · apply Abides.given
      rintro rfl
      exact abides_pure fun _ holds => Or.inl ⟨holds, rfl⟩
    · apply Abides.given
      rintro rfl
      exact abides_pure fun _ holds => Or.inr ⟨holds, rfl⟩
  apply reads.bind
  intro document
  apply Abides.or
  · apply Abides.given
    rintro rfl
    cases update : Manifest.renameDependency? moving.document moving.old moving.new with
    | none =>
        refine abides_pure fun state carries => ?_
        have nothing : moving.renamed = moving.document := by
          rw [Moving.renamed, update]
          rfl
        have still := carries.held
        rw [nothing, or_self] at still
        exact ⟨carries.same, carries.held, fun _ => by rw [nothing]; exact still⟩
    | some updated =>
        have writes : Abides Disk.alone (carrying moving) (fun _ => True) (Carries moving done)
            (ask (.write moving.path updated)) fun _ => Carries moving True := by
          have permitted (state : Engine × Disk) (carries : Carries moving done state) :
              (carrying moving).allows state (Disk.alone (.write moving.path updated) state).2 := by
            rw [Disk.alone_write]
            exact fun _ before => (before.renames update).weaken
          apply (abides_ask _ permits_carries.endures permitted).weaken
          rintro given state ⟨_, asked, before, _, allowed⟩
          rw [Disk.alone_write] at allowed
          exact allowed True (before.renames update)
        apply Abides.bind (fun _ => Carries moving True)
        · apply writes.bind
          intro given
          exact abides_ofExcept (fun _ _ _ => id) fun _ _ => trivial
        intro _
        apply (abides_log permits_carries _ _).bind
        exact fun _ => abides_pure fun _ => id
  · apply Abides.given
    rintro rfl
    rw [Moving.renamed, Manifest.rename_again moving.differs moving.clean]
    exact abides_pure fun _ => id

/-- A rename is carried to all workspaces that it concerns. -/
theorem abides_carry {workspaces : List String}
    (relative : ∀ workspace ∈ workspaces, project.IsRelative workspace) :
    Abides Disk.alone (carrying moving) (fun _ => True) (Carries moving False)
      (forAll workspaces fun workspace => do
        let _ ← dependencyName workspace moving.old moving.new
        aliases project workspace (some (moving.old, moving.new)))
      fun _ => Carries moving (moving.workspace ∈ workspaces) := by
  have each (workspace : String) (member : workspace ∈ workspaces) :
      Abides Disk.alone (carrying moving) (fun _ => True) (Carries moving False) (do
        let _ ← dependencyName workspace moving.old moving.new
        aliases project workspace (some (moving.old, moving.new)))
        fun _ => Carries moving (workspace = moving.workspace) := by
    have config : PermitsConfig (fun _ => True) (carrying moving) (Carries moving (workspace = moving.workspace))
        (Workspace.configPath workspace) :=
      permitsConfig_carries (Workspace.last_configPath workspace)
    apply Abides.bind (fun _ => Carries moving (workspace = moving.workspace))
    · by_cases own : workspace = moving.workspace
      · subst own
        exact abides_carry_own.weaken fun _ _ => Carries.weaken
      · apply (abides_dependencyName permits_carries
          (permitsManifest_carries (relative workspace member) own _)).weaken
        intro _ _ carries
        exact ⟨carries.same, carries.held, fun same => absurd same own⟩
    · exact fun _ => abides_aliases permits_carries config _
  apply (abides_all permits_carries.endures (fun _ => permits_carries.endures) each).weaken
  rintro _ state ⟨holds, ends⟩
  exact ⟨holds.same, holds.held, fun member => (ends moving.workspace member).carried rfl⟩

/-- The rename reaches the workspace that it concerns, if that one depends on the new name. -/
theorem leads_name (sound : now.1.registry.Sound project) (begins : Carries moving False now)
    (depends : moving.renamed ≠ moving.document → ∃ name ∈ now.1.registry.dependentsOf moving.new,
      now.1.registry.findPath name = some moving.workspace) :
    Leads Disk.alone (Update.name project moving.old moving.new) now fun result later =>
      (∃ dependents, result = .ok dependents) → Carries moving True later := by
  have path {name workspace : String} (found : now.1.registry.pathOf name = .ok workspace) :
      now.1.registry.findPath name = some workspace := by
    unfold Registry.pathOf at found
    split at found <;> cases found
    assumption
  unfold Update.name
  apply leads_registry
  dsimp only
  cases mapped : (now.1.registry.dependentsOf moving.new).mapM now.1.registry.pathOf with
  | error fault =>
      refine leads_throw (β := List String) ?_
      rintro ⟨_, failed⟩
      cases failed
  | ok workspaces =>
      have relative (workspace : String) (member : workspace ∈ workspaces) :
          project.IsRelative workspace := by
        obtain ⟨name, _, found⟩ := (mem_mapM mapped workspace).mp member
        exact sound.relative (sound.watches_of_named ((sound.inverse workspace name).mpr (path found)))
      apply leads_ok rfl
      apply ((abides_carry relative).leads begins).bind
      · rintro values later ⟨_, carries⟩
        apply leads_pure
        intro _
        refine ⟨carries.same, carries.held, fun _ => ?_⟩
        by_cases nothing : moving.renamed = moving.document
        · have still := carries.held
          rw [nothing, or_self] at still
          rw [nothing]
          exact still
        · obtain ⟨name, member, found⟩ := depends nothing
          apply carries.carried
          refine (mem_mapM mapped moving.workspace).mpr ⟨name, member, ?_⟩
          rw [Registry.pathOf, found]
      · rintro failure later _ ⟨_, failed⟩
        cases failed

section

variable {manifest : Manifest} (sound : now.1.registry.Sound project)
  (begins : Carries moving False now) (other : workspace ≠ moving.workspace)
  (named : now.1.registry.findName workspace = some moving.old)
  (reads : manifestOf (now.2.read (Workspace.manifestPath workspace)) = .ok manifest)
  (given : manifest.name = some moving.new)
  (free : now.1.registry.findPath moving.new = none)
  (known : moving.renamed ≠ moving.document → ∃ name stored,
    now.1.registry.findName moving.workspace = some name
      ∧ now.1.registry.dependencies.get? name = some stored ∧ moving.old ∈ stored)

include sound begins other named reads given free known

theorem leads_loadManifest_renamed :
    Leads Disk.alone (loadManifest project workspace) now fun result later =>
      (∃ loaded, result = .ok loaded) → Carries moving True later := by
  have watches := sound.watches_of_named named
  have watched : isWatched now.1.registry workspace = true := List.contains_iff_mem.mpr watches.2
  apply leads_loadManifest
  · intro fault failed
    rw [reads] at failed
    cases failed
  · intro fault failed
    rw [reads] at failed
    cases failed
  intro read same
  rw [reads] at same
  cases same
  apply leads_registerManifest
  · intro unwatched
    rw [watched] at unwatched
    cases unwatched
  · intro _ taken
    obtain ⟨holder, found, _⟩ := taken moving.new given
    rw [free] at found
    cases found
  · intro _ name assigned previous asked keeps _
    rw [given] at asked
    cases asked
    rw [named] at keeps
    rcases keeps with absent | same
    · cases absent
    · exact absurd (Option.some.inj same) moving.differs
  · intro _ name previous renamed old asked held _ rename log
    rw [given] at asked
    cases asked
    rw [named] at held
    cases held
    have renames := Registry.rename_eq_ok rename
    have after : renamed.Sound project := (sound.addReadiness watches .onlyManifest nofun).rename renames
    have fresh (name : String) (found : now.1.registry.findName moving.workspace = some name) :
        name ≠ moving.old ∧ name ≠ moving.new := by
      refine ⟨fun same => other ?_, fun same => ?_⟩
      · exact sound.one_workspace named (same ▸ found)
      · have path := (sound.inverse moving.workspace name).mp found
        rw [same, free] at path
        cases path
    have carries : Carries moving False ({ now.1 with registry := renamed, log := log }, now.2) :=
      ⟨begins.same, begins.held, nofun⟩
    obtain rfl : moving.old = old := by
      have found : now.1.registry.findName workspace = some old := renames.findOld
      rw [named] at found
      exact Option.some.inj found
    apply (leads_name after carries fun changes => ?_).bind
    · intro dependents later carried
      unfold confirmName
      apply leads_registry
      split
      · apply leads_modifyRegistry
        apply leads_pure
        intro _
        have done := carried ⟨dependents, rfl⟩
        exact ⟨done.same, done.held, done.carried⟩
      · exact leads_pure fun _ => carried ⟨dependents, rfl⟩
    · rintro failure later _ ⟨_, failed⟩
      cases failed
    · obtain ⟨name, stored, found, holds, member⟩ := known changes
      obtain ⟨notOld, notNew⟩ := fresh name found
      refine ⟨name, renames.mem_dependentsOf notOld notNew holds member, ?_⟩
      rw [renames.findPath, if_neg notNew, if_neg notOld]
      exact (sound.inverse moving.workspace name).mp found

theorem leads_manifestWritten_renamed {path : String} (owned : Workspace.ofDocument path = workspace) :
    Leads Disk.alone (manifestWritten project options path) now fun result later =>
      result = .ok () → Carries moving True later := by
  subst owned
  have relative := sound.relative (sound.watches_of_named named)
  have goesOn {routine : Routine Unit} {later : Engine × Disk} (carries : Carries moving True later)
      (abides : Abides Disk.alone (carrying moving) (fun _ => True) (Carries moving True) routine
        fun _ => Carries moving True) :
      Leads Disk.alone routine later fun result after => result = .ok () → Carries moving True after :=
    (abides.leads carries).weaken fun _ _ ended _ => ended.1 True carries
  have root : PermitsConfig (fun _ => True) (carrying moving) (Carries moving True) configFile :=
    permitsConfig_carries (by decide)
  unfold manifestWritten
  apply leads_registry
  apply (leads_loadManifest_renamed sound begins other named reads given free known).bind
  · intro loaded later carried
    have carries := carried ⟨loaded, rfl⟩
    cases loaded with
    | none => exact goesOn carries (abides_whenever (abides_configureRoot permits_carries root))
    | some manifest =>
        apply goesOn carries
        apply abides_manifestLoaded permits_carries
          (fun _ _ _ _ _ _ _ before => ⟨before.same, before.held, before.carried⟩) trivial trivial
        · exact root
        · exact permitsConfig_carries (Workspace.last_configPath _)
        · rw [Workspace.ofArtifact_artifactPath relative.spelled.stem]
          exact permitsArtifact_carries relative other
  · rintro failure later _ failed
    cases failed

end

end

/-- A rename that is handled without a fault reaches the manifest of every other workspace, as long
as the old name is known as a dependency of those that declare it. -/
theorem rename_reaches_dependents (project : Project) (options : SyncOptions)
    {allowed : Disk → Prop} {state after : Engine × Disk}
    (reached : Reached project options allowed state) {event : Event}
    (classified : classify project state.1.registry event.path = some .workspaceManifest)
    (present : event.change ≠ .delete) (handled : Handled project options event state after)
    {old new : String} {manifest : Manifest} (named : state.1.registry.findName
      (Workspace.ofDocument (project.relative event.path)) = some old)
    (reads : manifestOf (state.2.read (project.relative event.path)) = .ok manifest)
    (given : manifest.name = some new) (differs : old ≠ new)
    (free : state.1.registry.findPath new = none) {workspace name : String}
    (other : workspace ≠ Workspace.ofDocument (project.relative event.path))
    (registered : state.1.registry.findName workspace = some name) {before : Document}
    (held : state.2.read (Workspace.manifestPath workspace) = .ok (.obj before))
    (known : ∀ field ∈ Manifest.dependencyFields, old ∈ (Manifest.declared before field).keys →
      ∃ stored, state.1.registry.dependenciesOf name = .ok stored ∧ old ∈ stored) :
    ∃ later, after.2.read (Workspace.manifestPath workspace) = .ok (.obj later)
      ∧ Manifest.Renamed before later old new := by
  obtain ⟨orderly, same⟩ := reached.orderly (False.elim : False → ∀ disk, allowed disk →
    disk.PlainManifests)
  have sound := orderly.sound
  have watched : project.relative event.path ∈ state.1.registry.manifests :=
    classifyRelative_eq_some classified
  obtain ⟨_, back, _⟩ := sound.watches_ofDocument watched
  have clean : Document.Clean before := Document.clean_obj.mp (Disk.clean_of_read held)
  let moving : Moving project :=
    { workspace, relative := sound.relative (sound.watches_of_named registered), old, new, differs
      document := before, clean }
  have begins : Carries moving False state := ⟨same, Or.inl held, nofun⟩
  have depends (changes : moving.renamed ≠ moving.document) : ∃ name stored,
      state.1.registry.findName workspace = some name
        ∧ state.1.registry.dependencies.get? name = some stored ∧ old ∈ stored := by
    obtain ⟨field, declares, held⟩ : ∃ field ∈ Manifest.dependencyFields,
        (Manifest.declared before field).get? old ≠ none := by
      by_contra none
      apply changes
      have absent : Manifest.renameDependency? before old new = .none :=
        Manifest.renameDependency?_eq_none.mpr fun field known =>
          not_not.mp fun held => none ⟨field, known, held⟩
      rw [Moving.renamed, absent]
      rfl
    obtain ⟨stored, found, member⟩ := known field declares
      (Table.mem_keys_iff.mpr (Option.isSome_iff_ne_none.mpr held))
    refine ⟨name, stored, registered, ?_, member⟩
    unfold Registry.dependenciesOf at found
    split at found <;> cases found
    assumption
  have leads : Leads Disk.alone (manifestWritten project options (project.relative event.path)) state
      fun result later => result = .ok () → Carries moving True later :=
    leads_manifestWritten_renamed sound begins (Ne.symm other) named (back.symm ▸ reads) given free
      depends rfl
  cases handled with
  | ignored unclassified =>
      rw [unclassified] at classified
      cases classified
  | completed kind finishes =>
      rw [classified] at kind
      cases kind
      have written : handle project options .workspaceManifest event.change
          (project.relative event.path)
          = manifestWritten project options (project.relative event.path) := by
        cases change : event.change with
        | delete => exact absurd change present
        | _ => rfl
      rw [written] at finishes
      have carried := (leads.finishes finishes rfl).carried trivial
      exact ⟨moving.renamed, carried, (Manifest.renamed_rename differs clean).1⟩

/-- A project with two workspaces, of which the second one depends on the first. -/
def dependentFiles (first : List (Place × Entry)) : FileTree where
  entries := [(["p"], .directory),
    (["p", "package.json"], .file (.text "\x7b\"workspaces\":[\"a\",\"b\"]\x7d".toList)),
    (["p", "a"], .directory), (["p", "b"], .directory),
    (["p", "b", "package.json"], .file (.text
      "\x7b\"name\":\"b\",\"dependencies\":\x7b\"a\":\"*\"\x7d\x7d".toList))] ++ first

def firstManifest (text : String) : List (Place × Entry) :=
  [(["p", "a", "package.json"], .file (.text text.toList))]

/-- The first one is renamed, and the second one depends on it by its new name. -/
theorem dependent_is_renamed :
    ∃ state after, Reached ⟨"/p"⟩ {} (fun _ => True) state
      ∧ Handled ⟨"/p"⟩ {} { change := .update, path := "/p/a/package.json" } state after
      ∧ state.1.registry.findName "a" = some "a"
      ∧ ∃ before later, state.2.read (Workspace.manifestPath "b") = .ok (.obj before)
        ∧ after.2.read (Workspace.manifestPath "b") = .ok (.obj later)
        ∧ (Manifest.declared later "dependencies").get? "a" = none
        ∧ (Manifest.declared later "dependencies").get? "a2" = some (.str "*") := by
  let disk : Disk := { project := ⟨"/p"⟩
                       files := dependentFiles (firstManifest "\x7b\"name\":\"a\"\x7d") }
  let files := dependentFiles (firstManifest "\x7b\"name\":\"a2\"\x7d")
  let event : Event := { change := .update, path := "/p/a/package.json" }
  obtain ⟨begun, isBegun⟩ : ∃ begun, (start ⟨"/p"⟩ {}).run Disk.alone ({}, disk) = begun := ⟨_, rfl⟩
  let state : Engine × Disk := (begun.2.1, { begun.2.2 with files := files })
  obtain ⟨done, isDone⟩ : ∃ done, (handle ⟨"/p"⟩ {} .workspaceManifest .update
      "a/package.json").run Disk.alone state = done := ⟨_, rfl⟩
  obtain ⟨starts, ends, classified, spelled, named, free, registered, known, given, there⟩ :
      begun.1 = .ok () ∧ done.1 = .ok ()
      ∧ classify ⟨"/p"⟩ state.1.registry event.path = some .workspaceManifest
      ∧ (Project.mk "/p").relative event.path = "a/package.json"
      ∧ state.1.registry.findName "a" = some "a"
      ∧ state.1.registry.findPath "a2" = none
      ∧ state.1.registry.findName "b" = some "b"
      ∧ state.1.registry.dependencies.get? "b" = some ["a"]
      ∧ (manifestOf (state.2.read "a/package.json")).toOption.bind (·.name) = some "a2"
      ∧ ((state.2.read (Workspace.manifestPath "b")).toOption.any fun value =>
          value.members?.any fun manifest =>
            ((Manifest.declared manifest "dependencies").get? "a").any (· == .str "*")) = true := by
    subst isDone isBegun
    decide +kernel
  have first := run_finishes Disk.alone (start ⟨"/p"⟩ {}) ({}, disk)
  rw [isBegun, starts] at first
  have reached : Reached ⟨"/p"⟩ {} (fun _ => True) state :=
    .edited (.started disk rfl trivial first) files
  have second := run_finishes Disk.alone (handle ⟨"/p"⟩ {} .workspaceManifest .update "a/package.json")
    state
  rw [isDone, ends, ← spelled] at second
  have handled : Handled ⟨"/p"⟩ {} event state done.2 := .completed classified second
  obtain ⟨manifest, reads, asked⟩ : ∃ manifest,
      manifestOf (state.2.read "a/package.json") = .ok manifest ∧ manifest.name = some "a2" := by
    cases reads : manifestOf (state.2.read "a/package.json") with
    | error fault =>
        rw [reads] at given
        cases given
    | ok manifest =>
        rw [reads] at given
        exact ⟨manifest, rfl, given⟩
  obtain ⟨before, held, version⟩ := declares_of_check there
  have own : Workspace.ofDocument ((Project.mk "/p").relative event.path) = "a" := by
    rw [spelled]
    decide +kernel
  obtain ⟨later, written, renamed⟩ := rename_reaches_dependents ⟨"/p"⟩ {} reached classified (by decide)
    handled (by rw [own]; exact named) (by rw [spelled]; exact reads) asked (by decide) free
    (by rw [own]; decide) registered held fun _ _ _ => ⟨["a"], by
      rw [Registry.dependenciesOf, known], by decide⟩
  exact ⟨state, done.2, reached, handled, named, before, later, held, written,
    renamed.gone "dependencies" (by decide), renamed.moved "dependencies" _ (by decide) version⟩

/-- A workspace that comes after one that depends on it is not known as its dependency, and a rename
passes the dependent by. -/
theorem rename_misses_dependent :
    ∃ state after, Reached ⟨"/p"⟩ {} (fun _ => True) state
      ∧ Handled ⟨"/p"⟩ {} { change := .update, path := "/p/a/package.json" } state after
      ∧ state.1.registry.findName "a" = some "a" ∧ after.1.registry.findName "a" = some "a2"
      ∧ state.1.registry.findPath "a2" = none ∧ state.1.registry.findName "b" = some "b"
      ∧ after.2.Declares (Workspace.manifestPath "b") "dependencies" "a" (.str "*") := by
  let disk : Disk := { project := ⟨"/p"⟩, files := dependentFiles [] }
  let come := dependentFiles (firstManifest "\x7b\"name\":\"a\"\x7d")
  let files := dependentFiles (firstManifest "\x7b\"name\":\"a2\"\x7d")
  let created : Event := { change := .create, path := "/p/a/package.json" }
  let event : Event := { change := .update, path := "/p/a/package.json" }
  obtain ⟨begun, isBegun⟩ : ∃ begun, (start ⟨"/p"⟩ {}).run Disk.alone ({}, disk) = begun := ⟨_, rfl⟩
  let edited : Engine × Disk := (begun.2.1, { begun.2.2 with files := come })
  obtain ⟨added, isAdded⟩ : ∃ added, (dispatch ⟨"/p"⟩ {} created).run Disk.alone edited = added :=
    ⟨_, rfl⟩
  let state : Engine × Disk := (added.2.1, { added.2.2 with files := files })
  obtain ⟨done, isDone⟩ : ∃ done, (handle ⟨"/p"⟩ {} .workspaceManifest .update
      "a/package.json").run Disk.alone state = done := ⟨_, rfl⟩
  obtain ⟨starts, adds, ends, classified, spelled, named, renamed, free, registered, there⟩ :
      begun.1 = .ok () ∧ added.1 = .ok () ∧ done.1 = .ok ()
      ∧ classify ⟨"/p"⟩ state.1.registry event.path = some .workspaceManifest
      ∧ (Project.mk "/p").relative event.path = "a/package.json"
      ∧ state.1.registry.findName "a" = some "a" ∧ done.2.1.registry.findName "a" = some "a2"
      ∧ state.1.registry.findPath "a2" = none ∧ state.1.registry.findName "b" = some "b"
      ∧ ((done.2.2.read (Workspace.manifestPath "b")).toOption.any fun value =>
          value.members?.any fun manifest =>
            ((Manifest.declared manifest "dependencies").get? "a").any (· == .str "*")) = true := by
    subst isDone isAdded isBegun
    decide +kernel
  have first := run_finishes Disk.alone (start ⟨"/p"⟩ {}) ({}, disk)
  rw [isBegun, starts] at first
  have second := run_finishes Disk.alone (dispatch ⟨"/p"⟩ {} created) edited
  rw [isAdded, adds] at second
  have reached : Reached ⟨"/p"⟩ {} (fun _ => True) state :=
    .edited (.dispatched (.edited (.started disk rfl trivial first) come) trivial created second) files
  have third := run_finishes Disk.alone (handle ⟨"/p"⟩ {} .workspaceManifest .update "a/package.json")
    state
  rw [isDone, ends, ← spelled] at third
  exact ⟨state, done.2, reached, .completed classified third, named, renamed, free, registered,
    declares_of_check there⟩

end Watch
end RefSync
