/-
Bringing up workspaces. Beside every manifest there is a place for a config, and beside the root
manifest one for the root config; so nothing fails until the root config is in line with the
workspaces that are ready.
-/

import RefSync.Proofs.Watch.Reloading

namespace RefSync

open Routine Path Update

namespace Watch

/-- What workspaces that are there are found with: a place for each of their configs, and one for
the root config. -/
structure Furnished (project : Project) (present : List String) (state : Engine × Disk) : Prop where
  poised : Poised project state
  config workspace : workspace ∈ present →
    state.2.Accepts (Workspace.configPath workspace) fun _ => True
  there workspace : workspace ∈ present →
    ∃ place, state.2.files.walk (state.2.project.absolute workspace) = .ok place

section

variable {project : Project} {options : SyncOptions} {present : List String} {now : Engine × Disk}
  {workspace : String}

theorem Furnished.changed (furnished : Furnished project present now) {engine : Engine}
    (active : engine.active = now.1.active)
    (manifests : engine.registry.manifests = now.1.registry.manifests) :
    Furnished project present (engine, now.2) :=
  ⟨furnished.poised.changed active manifests, furnished.config, furnished.there⟩

attribute [local irreducible] Disk.write

section

variable (below : ∀ workspace ∈ present, project.IsRelative workspace ∧ workspace ≠ ".")

include below

/-- A config that is written takes no place from another one. -/
theorem Furnished.writes (furnished : Furnished project present now) (member : workspace ∈ present)
    {document : Document} (clean : Document.Clean document) :
    Furnished project present
      (now.1, (now.2.write (Workspace.configPath workspace) document).2) := by
  have accepts := furnished.config workspace member
  have same : (now.2.write (Workspace.configPath workspace) document).2.project = now.2.project := by
    rw [(Disk.puts_write now.2 (Workspace.configPath workspace) document).2]
  obtain ⟨relative, notRoot⟩ := below workspace member
  refine ⟨{ furnished.poised with same := same.trans furnished.poised.same, accepts := ?_ },
    fun other inPresent => ?_, fun other inPresent => ?_⟩
  · apply furnished.poised.accepts.elsewhere accepts
    rw [furnished.poised.same]
    exact (Workspace.configPath_apart project relative.spelled.stem (relative.apart notRoot)).symm
  · by_cases own : other = workspace
    · subst own
      exact accepts.again clean trivial
    · apply (furnished.config other inPresent).elsewhere accepts
      obtain ⟨otherRelative, _⟩ := below other inPresent
      rw [furnished.poised.same, Workspace.resolved_configPath project relative.spelled.stem,
        Workspace.resolved_configPath project otherRelative.spelled.stem]
      intro together
      exact own (otherRelative.injective relative (List.append_cancel_right together))
  · obtain ⟨place, walked⟩ := furnished.there other inPresent
    refine ⟨place, ?_⟩
    rw [same]
    exact (Disk.keeps_write now.2 (Workspace.configPath workspace) document).walk walked

/-- There is a place for the config that is written. -/
theorem abides_furnish_write (member : workspace ∈ present) {document : Document}
    (clean : Document.Clean document) :
    Abides Disk.alone (.preserving (Furnished project present)) (fun _ => False)
      (Furnished project present) (writeDocument (Workspace.configPath workspace) document)
      fun _ => Furnished project present := by
  have endures : Endures (.preserving (Furnished project present) : Conduct Disk)
      (Furnished project present) := fun _ _ kept => kept
  have asks : Abides Disk.alone (.preserving (Furnished project present)) (fun _ => False)
      (Furnished project present) (ask (.write (Workspace.configPath workspace) document)) _ :=
    abides_ask _ endures fun state furnished => by
      rw [Disk.alone_write]
      exact fun _ => furnished.writes below member clean
  have done : Abides Disk.alone (.preserving (Furnished project present)) (fun _ => False)
      (Furnished project present) (ask (.write (Workspace.configPath workspace) document))
      fun given state => Furnished project present state ∧ given = .ok () := by
    apply asks.weaken
    rintro given state ⟨holds, asked, before, same, _⟩
    refine ⟨holds, same.trans ?_⟩
    rw [Disk.alone_write]
    exact (before.config workspace member).write document
  apply done.follow
  rintro _ rfl
  exact abides_pure fun _ => id

/-- The config of a workspace that is there can be read and brought in form. -/
theorem abides_furnish_configure (member : workspace ∈ present) :
    Abides Disk.alone (.preserving (Furnished project present)) (fun _ => False)
      (Furnished project present) (configure workspace false)
      fun _ => Furnished project present := by
  have endures : Endures (.preserving (Furnished project present) : Conduct Disk)
      (Furnished project present) := fun _ _ kept => kept
  have writes (document : Document) (clean : Document.Clean document) : Abides Disk.alone
      (.preserving (Furnished project present)) (fun _ => False) (Furnished project present) (do
        writeDocument (Workspace.configPath workspace) document
        log .info ("Configured " ++ label (← registry) workspace ++ " tsconfig.json")
        return true) fun _ => Furnished project present := by
    apply (abides_furnish_write below member clean).bind
    intro _
    apply abides_anyRegistry
    intro registry
    have notes : Abides Disk.alone (.preserving (Furnished project present)) (fun _ => False)
        (Furnished project present)
        (log .info ("Configured " ++ label registry workspace ++ " tsconfig.json"))
        fun _ => Furnished project present :=
      abides_modify fun state furnished =>
        ⟨fun _ => furnished.changed rfl rfl, furnished.changed rfl rfl⟩
    exact notes.bind _ fun _ => abides_pure fun _ => id
  apply (abides_look endures (.hasJsx workspace) fun _ => rfl).follow
  rintro given ⟨asked, before, rfl⟩
  obtain ⟨place, walked⟩ := before.there workspace member
  obtain ⟨jsx, scanned⟩ := Disk.hasJsx_of_walk walked
  have given : (Disk.alone (.hasJsx workspace) asked).1 = .ok jsx := scanned
  rw [given]
  apply (abides_look endures (.read (Workspace.configPath workspace)) fun _ => rfl).follow
  rintro read ⟨reads, still, same⟩
  obtain ⟨found, finds, _⟩ := (still.config workspace member).finds
  cases found with
  | none =>
      obtain ⟨shown, missing⟩ := finds
      have absent : read = .error (.missing shown) := same.trans missing
      rw [absent]
      exact writes _ (Config.clean_newWorkspace jsx)
  | some config =>
      have present : read = .ok (.obj config) := same.trans finds
      rw [present]
      conv => arg 5; whnf
      dsimp only
      cases update : Config.configure? config jsx false with
      | none => exact abides_pure fun _ => id
      | some updated =>
          exact writes updated ((Config.revises_configure update).clean
            (Document.clean_obj.mp (Disk.clean_of_read finds)))

/-- Configuring a workspace that is there goes through. -/
theorem abides_furnish (member : workspace ∈ present) :
    Abides Disk.alone (.preserving (Furnished project present)) (fun _ => False)
      (Furnished project present) (bootstrapConfig workspace)
      fun _ => Furnished project present := by
  apply (abides_furnish_configure below member).bind
  intro _
  apply abides_anyRegistry
  intro registry
  apply abides_onlyIf
  · intro _
    exact abides_modify fun state furnished =>
      ⟨fun _ => furnished.changed rfl rfl, furnished.changed rfl rfl⟩
  · exact fun _ _ => id

end

/-- The root config follows the workspaces that are brought up. -/
theorem leads_bringUp {workspaces : List String} {generation : Nat}
    (below : ∀ workspace ∈ workspaces, project.IsRelative workspace ∧ workspace ≠ ".")
    (furnished : Furnished project
      (workspaces.filter (now.1.registry.hasReadiness · .onlyManifest)) now) :
    Leads Disk.alone (bringUp project options workspaces generation) now
      fun _ later => Following project later := by
  let present := workspaces.filter (now.1.registry.hasReadiness · .onlyManifest)
  have presentBelow : ∀ workspace ∈ present, project.IsRelative workspace ∧ workspace ≠ "." :=
    fun workspace member => below workspace (List.mem_filter.mp member).1
  have configures : Leads Disk.alone (forAll present bootstrapConfig) now _ :=
    (abides_group (fun _ _ kept => kept) fun workspace member =>
      (abides_furnish presentBelow member).weaken fun _ _ _ => trivial).leads furnished
  unfold bringUp
  apply leads_registry
  apply configures.bind
  · rintro _ later ⟨_, furnished⟩
    apply (leads_configureRoot furnished.poised).bind
    · rintro _ after ⟨_, poised, follows, _⟩
      have following : Following project after := ⟨poised, follows⟩
      apply leads_engine
      apply leads_onlyIf
      · intro _
        apply following.leads
        intro config
        apply (abides_group (fun _ _ kept => kept) fun workspace member => ?_).bind
        · exact fun _ => abides_pure fun _ => id
        · obtain ⟨relative, notRoot⟩ := presentBelow workspace member
          exact (abides_watch_stands relative notRoot).weaken fun _ _ _ => trivial
      · exact fun _ => following
    · rintro failure after ⟨failed, _⟩
      cases failed
  · rintro failure later ⟨_, ⟨_, impossible⟩, _⟩
    exact impossible.elim

end

end Watch
end RefSync
