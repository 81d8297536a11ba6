/-
What pruning leaves alone. The event of an artifact takes nothing from any manifest but
dependencies that were known of the artifact's workspace; what is known of it may be the name
of a workspace that is gone by then.
-/

import RefSync.Proofs.Manifest.Dependencies
import RefSync.Proofs.Watch.Permitted
import RefSync.Proofs.Watch.Settling
import RefSync.Proofs.Watch.Runs
import RefSync.Proofs.Workspace.Places

namespace RefSync

open Routine Path Update

/-- Whether a manifest declares a version of something. -/
def Disk.Declares (disk : Disk) (path field key : String) (version : Json) : Prop :=
  ∃ manifest, disk.read path = .ok (.obj manifest)
    ∧ (Manifest.declared manifest field).get? key = some version

namespace Disk

variable {disk after : Disk} {path field key : String} {version : Json}

theorem Declares.elsewhere (declares : disk.Declares path field key version) (written : String)
    (document : Document) (elsewhere : disk.project.resolved path ≠ disk.project.resolved written) :
    (disk.write written document).2.Declares path field key version := by
  obtain ⟨manifest, reads, declared⟩ := declares
  refine ⟨manifest, read_keeps ?_ (keeps_write disk written document) reads elsewhere, declared⟩
  rw [(puts_write disk written document).2]

/-- The place of a manifest is none of a config. -/
theorem manifest_elsewhere (project : Project) (workspace other : String) :
    project.resolved (Workspace.manifestPath workspace)
      ≠ project.resolved (Workspace.configPath other) := by
  intro same
  have manifest := project.last_resolved (Workspace.last_manifestPath workspace) (by decide)
  rw [same, project.last_resolved (Workspace.last_configPath other) (by decide)] at manifest
  exact absurd manifest (by decide)

end Disk

theorem Manifest.Adjusted.keeps_version {before after : Document} {missing redundant : List String}
    (adjusted : Manifest.Adjusted before after missing redundant) {field key : String}
    (known : field ∈ Manifest.dependencyFields) (stays : key ∉ redundant) {version : Json}
    (declared : (Manifest.declared before field).get? key = some version) :
    (Manifest.declared after field).get? key = some version :=
  (adjusted.keeps_declared stays known fun _ _ =>
    ⟨field, known, Table.mem_keys_iff.mpr (declared ▸ rfl)⟩).trans declared

namespace Watch

/-- A dependency of a workspace that the artifact of another one, or of the same, leaves alone:
it is no name of a workspace, and not known of the one to be pruned. -/
structure Foreign (project : Project) (prunes : Prop) (pruned workspace field key : String)
    (version : Json) (state : Engine × Disk) : Prop where
  same : state.2.project = project
  unregistered : state.1.registry.findPath key = none
  unknown name stored : prunes → workspace = pruned →
    state.1.registry.findName pruned = some name →
    state.1.registry.dependenciesOf name = .ok stored → key ∉ stored
  declares : state.2.Declares (Workspace.manifestPath workspace) field key version

attribute [local irreducible] Disk.write start dispatch

section

variable {project : Project} {options : SyncOptions} {pruned workspace field key : String}
  {version : Json}

theorem Foreign.writes {prunes : Prop} {state : Engine × Disk} {path : String} {document : Document}
    (foreign : Foreign project prunes pruned workspace field key version state)
    (declares : (state.2.write path document).2.Declares (Workspace.manifestPath workspace) field key
      version) :
    Foreign project prunes pruned workspace field key version
      (state.1, (state.2.write path document).2) := by
  refine ⟨?_, foreign.unregistered, foreign.unknown, declares⟩
  rw [(Disk.puts_write state.2 path document).2]
  exact foreign.same

theorem permits_foreign : Permits project (fun _ => True)
    (.preserving (Foreign project (options.pruneRedundant = true) pruned workspace field key version))
    (fun _ => True) (Foreign project (options.pruneRedundant = true) pruned workspace field key version)
    where
  endures _ _ kept := kept
  notes _ _ _ same _ _ foreign :=
    ⟨foreign.same, same ▸ foreign.unregistered, same ▸ foreign.unknown, foreign.declares⟩
  faults _ _ _ _ := trivial

theorem permitsArtifact_foreign (relative : project.IsRelative workspace)
    (prunedRelative : project.IsRelative pruned) (known : field ∈ Manifest.dependencyFields) :
    PermitsArtifact (fun _ => True)
      (.preserving (Foreign project (options.pruneRedundant = true) pruned workspace field key version))
      (fun _ => True)
      (Foreign project (options.pruneRedundant = true) pruned workspace field key version)
      options pruned where
  config := by
    refine ⟨trivial, fun _ _ updated now _ _ _ _ foreign => ?_⟩
    exact foreign.writes (foreign.declares.elsewhere (Workspace.configPath pruned) updated
      (Disk.manifest_elsewhere now.2.project workspace pruned))
  manifest := by
    intro state name stored missing redundant begun named holds within keeps
    refine ⟨trivial, fun asks manifest updated now asked reads update _ foreign => ?_⟩
    apply foreign.writes
    by_cases same : workspace = pruned
    · subst same
      have stays : key ∉ redundant := by
        intro gone
        cases prunes : options.pruneRedundant with
        | false =>
            rw [keeps prunes] at gone
            cases gone
        | true => exact begun.unknown name stored prunes rfl named holds (within key gone)
      obtain ⟨adjusted, clean⟩ := Manifest.adjusted_update
        (Document.clean_obj.mp (Disk.clean_of_read reads)) missing redundant
      have made : Manifest.updateDependencies? manifest missing redundant = some updated := update
      rw [made] at adjusted
      obtain ⟨document, readsThen, declared⟩ := asked.declares
      rw [reads] at readsThen
      cases readsThen
      obtain ⟨_, readsNow, _⟩ := foreign.declares
      obtain ⟨content, _, there, _⟩ := Disk.read_eq_ok.mp readsNow
      exact ⟨updated, Disk.read_write there (Workspace.last_manifestPath workspace) (by decide)
        (clean updated made), adjusted.keeps_version known stays declared⟩
    · apply foreign.declares.elsewhere (Workspace.manifestPath pruned) updated
      intro place
      rw [Workspace.resolved_manifestPath _ relative.spelled.stem,
        Workspace.resolved_manifestPath _ prunedRelative.spelled.stem, foreign.same] at place
      exact same (relative.injective prunedRelative (List.append_inj_left' place rfl))
  learns := by
    intro state name discovered begun named registered foreign
    refine ⟨foreign.same, foreign.unregistered, fun other stored prunes same held holds => ?_,
      foreign.declares⟩
    rw [Registry.dependenciesOf, Registry.setDependencies] at holds
    dsimp only at holds
    rw [Table.get?_set] at holds
    by_cases own : other = name
    · rw [if_pos own] at holds
      cases holds
      intro member
      have path := registered key (mem_distinct.mp member)
      rw [foreign.unregistered] at path
      cases path
    · rw [if_neg own] at holds
      exact foreign.unknown other stored prunes same held (by rw [Registry.dependenciesOf]; exact holds)
  marks := fun _ _ _ _ _ foreign =>
    ⟨foreign.same, foreign.unregistered, foreign.unknown, foreign.declares⟩
  pauses := fun _ _ _ foreign =>
    ⟨foreign.same, foreign.unregistered, foreign.unknown, foreign.declares⟩
  endless _ _ _ := trivial

theorem leads_artifact {now : Engine × Disk} {event : Event}
    (foreign : Foreign project (options.pruneRedundant = true) pruned workspace field key version now)
    (relative : project.IsRelative workspace) (prunedRelative : project.IsRelative pruned)
    (known : field ∈ Manifest.dependencyFields)
    (artifact : classify project now.1.registry event.path = some .artifact)
    (owned : Workspace.ofArtifact (project.relative event.path) = pruned) :
    Leads Disk.alone (dispatch project options event) now fun _ later =>
      later.2.Declares (Workspace.manifestPath workspace) field key version := by
  have handles : Leads Disk.alone
      (handle project options .artifact event.change (project.relative event.path)) now
      fun _ later => later.2.Declares (Workspace.manifestPath workspace) field key version := by
    subst owned
    cases event.change with
    | create =>
        exact ((abides_artifactCreated permits_foreign
          (permitsArtifact_foreign relative prunedRelative known)).leads foreign).weaken
            fun _ _ ended => (ended.1 foreign).declares
    | update =>
        exact ((abides_artifactWritten permits_foreign
          (permitsArtifact_foreign relative prunedRelative known)).leads foreign).weaken
            fun _ _ ended => (ended.1 foreign).declares
    | delete =>
        intro start
        change Meets Disk.alone (artifactDeleted (project.relative event.path)) .none .any start now _
        unfold artifactDeleted
        rw [meets_registry, meets_log]
        exact foreign.declares
  apply (leads_dispatch artifact handles).weaken
  rintro result later (⟨_, declares⟩ | ⟨failure, between, declares, settled⟩)
  · exact declares
  · cases settled with
    | logged => exact declares
    | fatal => exact declares
    | raised => exact declares

end

/-- The event of an artifact takes no version from any manifest, unless it belongs to the name of
a workspace or to something that is known of the workspace that is pruned. -/
theorem pruning_keeps_foreign (project : Project) (options : SyncOptions) {allowed : Disk → Prop}
    {state : Engine × Disk} (reached : Reached project options allowed state) {event : Event}
    (artifact : classify project state.1.registry event.path = some .artifact)
    {workspace : String} (relative : project.IsRelative workspace) {field key : String} {version : Json}
    (known : field ∈ Manifest.dependencyFields)
    (declares : state.2.Declares (Workspace.manifestPath workspace) field key version)
    (unregistered : state.1.registry.findPath key = none)
    (unknown : ∀ name stored, options.pruneRedundant = true →
      workspace = Workspace.ofArtifact (project.relative event.path) →
      state.1.registry.findName workspace = some name →
      state.1.registry.dependenciesOf name = .ok stored → key ∉ stored) :
    ∀ result after, Finishes Disk.alone (dispatch project options event) state result after →
      after.2.Declares (Workspace.manifestPath workspace) field key version := by
  intro result after finishes
  obtain ⟨orderly, same⟩ := reached.orderly (False.elim : False → ∀ disk, allowed disk →
    disk.PlainManifests)
  have watched := classifyRelative_eq_some artifact
  have watches := (orderly.sound.ofArtifact watched).1
  have foreign : Foreign project (options.pruneRedundant = true)
      (Workspace.ofArtifact (project.relative event.path)) workspace field key version state := by
    refine ⟨same, unregistered, fun name stored prunes owner => ?_, declares⟩
    rw [← owner]
    exact unknown name stored prunes owner
  exact (leads_artifact foreign relative (orderly.sound.relative watches) known artifact rfl).finishes
    finishes

/-! ### A workspace with a dependency that is none of the project -/

theorem declares_of_check {disk : Disk} {path field key text : String}
    (check : ((disk.read path).toOption.any fun value => value.members?.any fun manifest =>
      ((Manifest.declared manifest field).get? key).any (· == .str text)) = true) :
    disk.Declares path field key (.str text) := by
  cases reads : disk.read path with
  | error fault =>
      rw [reads] at check
      cases check
  | ok value =>
      rw [reads] at check
      cases value with
      | obj manifest =>
          cases declared : (Manifest.declared manifest field).get? key with
          | none =>
              simp [Except.toOption, Json.members?, declared] at check
          | some version =>
              simp only [Except.toOption, Json.members?, Option.any_some, declared] at check
              exact ⟨manifest, reads, declared.trans (congrArg some (Config.beq_str.mp check))⟩
      | _ => cases check

/-- The artifact of a workspace refers to nothing, and what is installed from elsewhere stays. -/
theorem external_dependency_stays :
    ∃ state, Reached ⟨"/p"⟩ { pruneRedundant := true } (fun _ => True) state
      ∧ ∃ after, Finishes Disk.alone (dispatch ⟨"/p"⟩ { pruneRedundant := true }
          { change := .create, path := "/p/a/.ts/tsconfig.tsbuildinfo" }) state (.ok ()) after
        ∧ after.2.Declares (Workspace.manifestPath "a") "dependencies" "x" (.str "1") := by
  let options : SyncOptions := { pruneRedundant := true }
  let manifest := "\x7b\"name\":\"a\",\"dependencies\":\x7b\"x\":\"1\"\x7d\x7d"
  let disk : Disk := { project := ⟨"/p"⟩, files := soleFiles manifest }
  let files : FileTree := ⟨(soleFiles manifest).entries ++ [(["p", "a", ".ts"], .directory),
    (["p", "a", ".ts", "tsconfig.tsbuildinfo"], .file (.text "\x7b\"program\":\x7b\"fileNames\":[]\x7d\x7d".toList))]⟩
  let event : Event := { change := .create, path := "/p/a/.ts/tsconfig.tsbuildinfo" }
  obtain ⟨begun, isBegun⟩ : ∃ begun, (start ⟨"/p"⟩ options).run Disk.alone ({}, disk) = begun :=
    ⟨_, rfl⟩
  let state : Engine × Disk := (begun.2.1, { begun.2.2 with files := files })
  obtain ⟨done, isDone⟩ : ∃ done, (dispatch ⟨"/p"⟩ options event).run Disk.alone state = done :=
    ⟨_, rfl⟩
  obtain ⟨starts, ends, artifact, there, unregistered, named, known⟩ : begun.1 = .ok ()
      ∧ done.1 = .ok () ∧ classify ⟨"/p"⟩ state.1.registry event.path = some .artifact
      ∧ ((state.2.read (Workspace.manifestPath "a")).toOption.any fun value =>
          value.members?.any fun manifest =>
            ((Manifest.declared manifest "dependencies").get? "x").any (· == .str "1")) = true
      ∧ state.1.registry.findPath "x" = none
      ∧ state.1.registry.findName "a" = some "a"
      ∧ state.1.registry.dependencies.get? "a" = some [] := by
    subst isDone isBegun
    decide +kernel
  have first := run_finishes Disk.alone (start ⟨"/p"⟩ options) ({}, disk)
  rw [isBegun, starts] at first
  have reached : Reached ⟨"/p"⟩ options (fun _ => True) state :=
    .edited (.started disk rfl trivial first) files
  have second := run_finishes Disk.alone (dispatch ⟨"/p"⟩ options event) state
  rw [isDone, ends] at second
  have relative : (Project.mk "/p").IsRelative "a" := ⟨"a", by decide +kernel⟩
  refine ⟨state, reached, done.2, second, pruning_keeps_foreign ⟨"/p"⟩ options reached artifact
    relative (by decide) (declares_of_check there) unregistered ?_ _ _ second⟩
  intro name stored _ _ held holds
  rw [named] at held
  cases held
  rw [Registry.dependenciesOf, known] at holds
  cases holds
  exact List.not_mem_nil

/-- What is known of a workspace may be the name of one that is gone, and then it is pruned. -/
theorem stale_dependency_goes :
    ∃ state, Reached ⟨"/p"⟩ { pruneRedundant := true } (fun _ => True) state
      ∧ classify ⟨"/p"⟩ state.1.registry "/p/a/.ts/tsconfig.tsbuildinfo" = some .artifact
      ∧ state.2.Declares (Workspace.manifestPath "a") "dependencies" "b" (.str "1")
      ∧ state.1.registry.findPath "b" = none
      ∧ ∃ after, Finishes Disk.alone (dispatch ⟨"/p"⟩ { pruneRedundant := true }
          { change := .create, path := "/p/a/.ts/tsconfig.tsbuildinfo" }) state (.ok ()) after
        ∧ ¬after.2.Declares (Workspace.manifestPath "a") "dependencies" "b" (.str "1") := by
  let options : SyncOptions := { pruneRedundant := true }
  let tree (globs : String) (compiled : List (Place × Entry)) : FileTree := ⟨[(["p"], .directory),
    (["p", "package.json"], .file (.text globs.toList)), (["p", "a"], .directory),
    (["p", "a", "package.json"], .file (.text
      "\x7b\"name\":\"a\",\"dependencies\":\x7b\"b\":\"1\"\x7d\x7d".toList)),
    (["p", "b"], .directory),
    (["p", "b", "package.json"], .file (.text "\x7b\"name\":\"b\"\x7d".toList))] ++ compiled⟩
  let disk : Disk := { project := ⟨"/p"⟩, files := tree "\x7b\"workspaces\":[\"a\",\"b\"]\x7d" [] }
  let files := tree "\x7b\"workspaces\":[\"a\"]\x7d" [(["p", "a", ".ts"], .directory),
    (["p", "a", ".ts", "tsconfig.tsbuildinfo"], .file (.text "\x7b\"program\":\x7b\"fileNames\":[]\x7d\x7d".toList))]
  let rootEvent : Event := { change := .update, path := "/p/package.json" }
  let event : Event := { change := .create, path := "/p/a/.ts/tsconfig.tsbuildinfo" }
  obtain ⟨begun, isBegun⟩ : ∃ begun, (start ⟨"/p"⟩ options).run Disk.alone ({}, disk) = begun :=
    ⟨_, rfl⟩
  let edited : Engine × Disk := (begun.2.1, { begun.2.2 with files := files })
  obtain ⟨removed, isRemoved⟩ :
      ∃ removed, (dispatch ⟨"/p"⟩ options rootEvent).run Disk.alone edited = removed := ⟨_, rfl⟩
  obtain ⟨done, isDone⟩ :
      ∃ done, (dispatch ⟨"/p"⟩ options event).run Disk.alone removed.2 = done := ⟨_, rfl⟩
  obtain ⟨starts, removes, ends, artifact, there, unregistered, gone⟩ : begun.1 = .ok ()
      ∧ removed.1 = .ok () ∧ done.1 = .ok ()
      ∧ classify ⟨"/p"⟩ removed.2.1.registry event.path = some .artifact
      ∧ ((removed.2.2.read (Workspace.manifestPath "a")).toOption.any fun value =>
          value.members?.any fun manifest =>
            ((Manifest.declared manifest "dependencies").get? "b").any (· == .str "1")) = true
      ∧ removed.2.1.registry.findPath "b" = none
      ∧ ((done.2.2.read (Workspace.manifestPath "a")).toOption.all fun value =>
          value.members?.all fun manifest =>
            ((Manifest.declared manifest "dependencies").get? "b").isNone) = true := by
    subst isDone isRemoved isBegun
    decide +kernel
  have first := run_finishes Disk.alone (start ⟨"/p"⟩ options) ({}, disk)
  rw [isBegun, starts] at first
  have second := run_finishes Disk.alone (dispatch ⟨"/p"⟩ options rootEvent) edited
  rw [isRemoved, removes] at second
  have third := run_finishes Disk.alone (dispatch ⟨"/p"⟩ options event) removed.2
  rw [isDone, ends] at third
  have reached : Reached ⟨"/p"⟩ options (fun _ => True) removed.2 :=
    .dispatched (.edited (.started disk rfl trivial first) files) trivial rootEvent second
  refine ⟨removed.2, reached, artifact, declares_of_check there, unregistered, done.2, third, ?_⟩
  rintro ⟨manifest, reads, declared⟩
  rw [reads] at gone
  simp only [Except.toOption, Json.members?, Option.all_some, declared] at gone
  cases gone

end Watch
end RefSync
