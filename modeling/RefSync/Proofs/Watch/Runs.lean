/-
Whole runs. The registry is coherent in every state between two events, and no routine of
a run ends the process, as long as every manifest is a file or is not there.
-/

import RefSync.Proofs.Routine.Schedule
import RefSync.Proofs.Watch.Dispatch
import RefSync.Watch.Runs

namespace RefSync

open Routine

/-- What the tables of a registry have to do with one another. -/
structure Registry.Coherent (registry : Registry) : Prop where
  inverse workspace name :
    registry.findName workspace = some name ↔ registry.findPath name = some workspace
  nameBit workspace :
    (registry.readinessOf workspace).name = true ↔ (registry.findName workspace).isSome
  manifestBit workspace :
    (registry.readinessOf workspace).name = true → (registry.readinessOf workspace).manifest = true
  dependencies name : name ∈ registry.dependencies.keys ↔ name ∈ registry.allNames
  named workspace : (registry.findName workspace).isSome →
    Workspace.manifestPath workspace ∈ registry.manifests
  ready workspace : registry.readinessOf workspace ≠ .none →
    Workspace.manifestPath workspace ∈ registry.manifests
  artifacts path : path ∈ registry.artifacts →
    Workspace.manifestPath (Workspace.ofArtifact path) ∈ registry.manifests
  missing path : path ∈ registry.missingArtifacts → path ∈ registry.artifacts

namespace Watch

attribute [local irreducible] start dispatch

section

variable {project : Project} {options : SyncOptions}

theorem LeavesOrderly.finishes {full : Prop} {routine : Routine Unit} {before after : Engine × Disk}
    {post : Unit → Engine → Prop} {result : Except Failure Unit}
    (leaves : LeavesOrderly project full routine before post)
    (finishes : Finishes Disk.alone routine before result after) :
    orderlyEnd project full post result before after :=
  Meets.finishes (leaves before) finishes

/-- No routine leaves its project. -/
theorem sameProject_of_finishes {routine : Routine Unit} {before after : Engine × Disk}
    {result : Except Failure Unit} (finishes : Finishes Disk.alone routine before result after)
    (same : before.2.project = project) : after.2.project = project := by
  let holds (disk : Disk) : Prop := disk.project = project
  have each (asked : Request) (state : Engine × Disk) (held : holds state.2) :
      holds (Disk.alone asked state).2.2 :=
    (state.2.answer_project asked).trans held
  have stays : holds after.2 := Finishes.keeps_world Disk.alone each finishes same
  exact stays

/-- With `full`, the disks that routines begin with have plain manifests only. -/
theorem Reached.orderly {full : Prop} {allowed : Disk → Prop} {state : Engine × Disk}
    (plain : full → ∀ disk, allowed disk → disk.PlainManifests)
    (reached : Reached project options allowed state) :
    state.1.Orderly project full [] ∧ state.2.project = project := by
  induction reached with
  | started disk same allows finishes =>
      have leaves : LeavesOrderly project full (start project options) ({}, disk) fun _ _ => True :=
        orderly_start same fun isFull => plain isFull disk allows
      exact ⟨(leaves.finishes finishes).1, sameProject_of_finishes finishes same⟩
  | edited _ _ ih => exact ih
  | @dispatched before _ allows event after finishes ih =>
      have leaves : LeavesOrderly project full (dispatch project options event) before
          fun _ _ => True :=
        leavesOrderly_dispatch event ih.1 ih.2 fun isFull => plain isFull before.2 allows
      exact ⟨(leaves.finishes finishes).1, sameProject_of_finishes finishes ih.2⟩

theorem coherent_of_orderly {engine : Engine} (orderly : engine.Orderly project True []) :
    engine.registry.Coherent := by
  have sound := orderly.sound
  have dependencies (name : String) :
      name ∈ engine.registry.dependencies.keys ↔ name ∈ engine.registry.allNames := by
    rw [Registry.allNames, Table.mem_keys_iff, Table.mem_keys_iff]
    constructor
    · exact sound.dependenciesNamed name
    · intro named
      obtain ⟨workspace, held⟩ := Option.isSome_iff_exists.mp named
      exact orderly.settled workspace List.not_mem_nil (Or.inl trivial) name
        ((sound.inverse workspace name).mpr held)
  refine ⟨sound.inverse, sound.nameBit, sound.manifestBit, dependencies, ?_, ?_, ?_, sound.missing⟩
  · intro workspace named
    obtain ⟨name, held⟩ := Option.isSome_iff_exists.mp named
    exact (sound.watches_of_named held).2
  · exact fun workspace ready => (sound.ready workspace ready).2
  · exact fun path watched => (sound.ofArtifact watched).1.2

/-- Whatever happens to the files between events, the registry of a run stays coherent, it is
empty while the engine is inactive, and no routine of the run fails with a fatal fault. -/
theorem runs_coherent (project : Project) (options : SyncOptions) :
    (∀ disk : Disk, disk.project = project → disk.PlainManifests →
      ∀ failure after, Finishes Disk.alone (start project options) ({}, disk) (.error failure) after →
        ∀ fault ∈ failure, fault.isFatal = false)
    ∧ ∀ state, Reached project options Disk.PlainManifests state →
      state.1.registry.Coherent
      ∧ (state.1.active = false → state.1.registry = .empty)
      ∧ (state.2.PlainManifests → ∀ event failure after,
          Finishes Disk.alone (dispatch project options event) state (.error failure) after →
            ∀ fault ∈ failure, fault.isFatal = false) := by
  constructor
  · intro disk same plain failure after finishes fault member
    have leaves : LeavesOrderly project True (start project options) ({}, disk) fun _ _ => True :=
      orderly_start same fun _ => plain
    exact (leaves.finishes finishes).2 fault member trivial
  · intro state reached
    have always : True → ∀ disk, Disk.PlainManifests disk → disk.PlainManifests := fun _ _ => id
    obtain ⟨orderly, same⟩ := reached.orderly always
    refine ⟨coherent_of_orderly orderly, orderly.idle, ?_⟩
    intro plain event failure after finishes fault member
    have leaves : LeavesOrderly project True (dispatch project options event) state
        fun _ _ => True := leavesOrderly_dispatch event orderly same fun _ => plain
    exact (leaves.finishes finishes).2 fault member trivial

end

/-- A project with one workspace. -/
def soleFiles (manifest : String) : FileTree where
  entries :=
    [(["p"], .directory), (["p", "package.json"], .file (.text "\x7b\"workspaces\":[\"a\"]\x7d".toList)),
      (["p", "a"], .directory), (["p", "a", "package.json"], .file (.text manifest.toList))]

/-- The workspace has a name, gets another one, and the registry follows. -/
theorem coherent_after_rename :
    ∃ state, Reached ⟨"/p"⟩ {} Disk.PlainManifests state
      ∧ state.1.registry.names = [("a", "new")]
      ∧ state.1.registry.Coherent := by
  let disk : Disk := { project := ⟨"/p"⟩, files := soleFiles "\x7b\"name\":\"old\"\x7d" }
  let files := soleFiles "\x7b\"name\":\"new\"\x7d"
  let begun := (start ⟨"/p"⟩ {}).run Disk.alone ({}, disk)
  let edited : Engine × Disk := (begun.2.1, { begun.2.2 with files := files })
  let event : Event := { change := .update, path := "/p/a/package.json" }
  let done := (dispatch ⟨"/p"⟩ {} event).run Disk.alone edited
  obtain ⟨starts, renames, names⟩ : begun.1 = .ok () ∧ done.1 = .ok ()
      ∧ done.2.1.registry.names = [("a", "new")] := by decide +kernel
  have plainBefore : disk.PlainManifests :=
    Disk.plainManifests_of_directories (by decide +kernel) (by decide +kernel)
  have plainEdited : edited.2.PlainManifests :=
    Disk.plainManifests_of_directories (by decide +kernel) (by decide +kernel)
  have first := run_finishes Disk.alone (start ⟨"/p"⟩ {}) ({}, disk)
  rw [starts] at first
  have second := run_finishes Disk.alone (dispatch ⟨"/p"⟩ {} event) edited
  rw [renames] at second
  have reached : Reached ⟨"/p"⟩ {} Disk.PlainManifests done.2 :=
    .dispatched (.edited (.started disk rfl plainBefore first) _) plainEdited event second
  exact ⟨done.2, reached, names, ((runs_coherent ⟨"/p"⟩ {}).2 done.2 reached).1⟩

end Watch
end RefSync
