/-
What the contents of documents can do to a run. A config whose references cannot be worked with
raises from whatever handler comes upon it; where there is none, no event raises, as every update
leaves configs that can be worked with. The start raises over documents still: nobody settles
what becomes of it.
-/

import RefSync.Proofs.Watch.Runs
import RefSync.Proofs.Watch.Throughout
import RefSync.Proofs.Workspace.Places

namespace RefSync

open Routine Path Update

/-- The value that a file holds, if it can be read. -/
def Content.value? (content : Content) : Option Json :=
  match content.decode with
  | .ok chars => (Json.readChars (normalizeNewlines chars)).toOption
  | .error _ => none

/-- Whether the references of every config can be worked with. -/
def FileTree.UsableConfigs (tree : FileTree) : Prop :=
  ∀ place content config, tree.get? place = some (.file content) →
    place.getLast? = some configFile → content.value? = some (.obj config) → Config.Usable config

namespace Disk

variable {disk : Disk} {path : String}

theorem read_eq_value {value : Json} :
    disk.read path = .ok value ↔ ∃ content, disk.Holds path content ∧ content.value? = some value := by
  rw [read_eq_ok]
  apply exists_congr
  intro content
  unfold Content.value?
  cases decoded : content.decode with
  | error malformed => simp
  | ok chars =>
      cases parsed : Json.readChars (normalizeNewlines chars) <;> simp [parsed, Except.toOption]

theorem usable_of_read (usable : disk.files.UsableConfigs) {config : Document}
    (last : (parts path).getLast? = some configFile) (reads : disk.read path = .ok (.obj config)) :
    Config.Usable config := by
  obtain ⟨content, holds, value⟩ := read_eq_value.mp reads
  exact usable _ content config holds.found (disk.project.last_resolved last (by decide)) value

/-- A write puts no unusable config anywhere, unless it writes one. -/
theorem usableConfigs_write (usable : disk.files.UsableConfigs) {name : String}
    (last : (parts path).getLast? = some name) (named : name ≠ "..") {document : Document}
    (writes : name = configFile → Document.Clean document ∧ Config.Usable document) :
    (disk.write path document).2.files.UsableConfigs := by
  intro place content config found isConfig value
  rcases (puts_write disk path document).1.files place content found with before | ⟨rfl, rfl⟩
  · exact usable place content config before isConfig value
  · rw [disk.project.last_resolved last named] at isConfig
    obtain ⟨clean, isUsable⟩ := writes (Option.some.inj isConfig)
    have written : Content.value? (.text (Json.obj document).contents) = some (.obj document) := by
      unfold Content.value? Content.decode
      dsimp only
      rw [Json.normalizeNewlines_contents (Document.clean_obj.mpr clean),
        Json.readChars_contents (Document.clean_obj.mpr clean)]
      rfl
    rw [written] at value
    cases value
    exact isUsable

end Disk

namespace Watch

/-- The faults that a handler may fail with while configs can be worked with. -/
def IsOrdinary (fault : Fault) : Prop :=
  fault.isDocumentFault = true ∨ fault.isFatal = true

attribute [local irreducible] Disk.write start dispatch

section

variable {project : Project} {options : SyncOptions} {now : Engine × Disk}

private theorem permits_usable : Permits project (fun _ => True)
    (.preserving fun state => state.2.files.UsableConfigs) IsOrdinary (fun state : Engine × Disk => state.2.files.UsableConfigs) where
  endures _ _ kept := kept
  notes _ _ _ _ _ _ usable := usable
  faults _ fault usable arises := by
    rcases arises.kinds with document | fatal | ⟨_, _, _, last, reads, unusable⟩
    · exact Or.inl document
    · exact Or.inr fatal
    · obtain ⟨paths, given⟩ := Disk.usable_of_read usable last reads
      rw [given] at unusable
      cases unusable

private theorem permitsConfig_usable {path : String} (last : (parts path).getLast? = some configFile) :
    PermitsConfig (fun _ => True) (.preserving fun state => state.2.files.UsableConfigs)
      (fun state : Engine × Disk => state.2.files.UsableConfigs) path := by
  refine ⟨trivial, fun asks found updated now before finds made _ kept => ?_⟩
  refine Disk.usableConfigs_write kept last (by decide) fun _ => ⟨made.clean, made.usable ?_⟩
  rintro config rfl
  exact Disk.usable_of_read before last finds

private theorem permitsManifest_usable (workspace : String) (change : Document → Option Document) :
    PermitsManifest (fun _ => True) (.preserving fun state => state.2.files.UsableConfigs)
      (fun state : Engine × Disk => state.2.files.UsableConfigs) (Workspace.manifestPath workspace)
      change := by
  refine ⟨trivial, fun asks manifest updated now _ _ _ _ kept => ?_⟩
  exact Disk.usableConfigs_write kept (Workspace.last_manifestPath workspace) (by decide)
    fun same => absurd same (by decide)

private theorem permitsAll_usable (ends : PausesEnd options) :
    PermitsAll project (.preserving fun state => state.2.files.UsableConfigs) IsOrdinary
      (fun state : Engine × Disk => state.2.files.UsableConfigs) options where
  permits := permits_usable
  documents _ document := Or.inl document
  fatal _ fatal := Or.inr fatal
  engines _ _ _ usable := usable
  pauses _ _ _ usable := usable
  endless failures within endless := by
    have some := ends failures within
    rw [endless] at some
    cases some
  rootConfig := permitsConfig_usable (by decide)
  config workspace := permitsConfig_usable (Workspace.last_configPath workspace)
  updates workspace _ _ := permitsManifest_usable workspace _
  renames workspace _ _ := permitsManifest_usable workspace _

/-- An event raises nothing but a lookup that ends the process. -/
theorem leads_dispatch_usable (ends : PausesEnd options) (usable : now.2.files.UsableConfigs)
    (event : Event) :
    Leads Disk.alone (dispatch project options event) now fun result _ =>
      result = .ok () ∨ ∃ fault, result = .error [fault] ∧ fault.isFatal = true := by
  cases classified : classify project now.1.registry event.path with
  | none => exact (leads_dispatch_ignored classified).weaken fun _ _ ended => Or.inl ended.1
  | some kind =>
      have abides : Abides Disk.alone _ IsOrdinary _ (handle project options kind event.change
          (project.relative event.path)) _ := abides_handle (permitsAll_usable ends) kind _ _
      apply (leads_dispatch classified (abides.leads usable)).weaken
      rintro result later (⟨ok, _⟩ | ⟨failure, between, failed, settled⟩)
      · exact Or.inl ok
      · cases settled with
        | logged => exact Or.inl rfl
        | fatal fault _ fatal => exact Or.inr ⟨fault, rfl, fatal⟩
        | raised harmless fault member other =>
            rcases failed.2.2 fault member with document | fatal
            · rw [document] at other
              cases other
            · rw [harmless fault member] at fatal
              cases fatal

/-- Where the references of every config can be worked with, every event ends well, and the
start fails over documents at most. -/
theorem usable_contents_never_raise (project : Project) (options : SyncOptions)
    (ends : PausesEnd options) :
    (∀ disk : Disk, disk.project = project → disk.PlainManifests → disk.files.UsableConfigs →
      ∀ failure after, Finishes Disk.alone (start project options) ({}, disk) (.error failure) after →
        ∀ fault ∈ failure, fault.isDocumentFault = true)
    ∧ ∀ state, Reached project options
        (fun disk => disk.PlainManifests ∧ disk.files.UsableConfigs) state →
      state.2.PlainManifests → state.2.files.UsableConfigs → ∀ event,
        (∃ after, Finishes Disk.alone (dispatch project options event) state (.ok ()) after)
        ∧ ∀ result after, Finishes Disk.alone (dispatch project options event) state result after →
          result = .ok () := by
  constructor
  · intro disk same plain usable failure after finishes fault member
    have leaves : LeavesOrderly project True (start project options) ({}, disk) fun _ _ => True :=
      orderly_start same fun _ => plain
    have harmless := (leaves.finishes finishes).2 fault member trivial
    have abides : Abides Disk.alone _ IsOrdinary _ (start project options) _ :=
      abides_start (permitsAll_usable ends)
    have leads : Leads Disk.alone (start project options) ({}, disk) _ := abides.leads usable
    rcases (leads.finishes finishes).2.2 fault member with document | fatal
    · exact document
    · rw [harmless] at fatal
      cases fatal
  · intro state reached plain usable event
    obtain ⟨orderly, same⟩ := reached.orderly fun (_ : True) _ allowed => allowed.1
    have succeeds (result : Except Failure Unit) (after : Engine × Disk)
        (finishes : Finishes Disk.alone (dispatch project options event) state result after) :
        result = .ok () := by
      have leaves : LeavesOrderly project True (dispatch project options event) state
          fun _ _ => True := leavesOrderly_dispatch event orderly same fun _ => plain
      rcases (leads_dispatch_usable ends usable event).finishes finishes with ok | ⟨fault, rfl, fatal⟩
      · exact ok
      · have harmless := (leaves.finishes finishes).2 fault List.mem_cons_self trivial
        rw [harmless] at fatal
        cases fatal
    refine ⟨?_, succeeds⟩
    have finishes := run_finishes Disk.alone (dispatch project options event) state
    rw [succeeds _ _ finishes] at finishes
    exact ⟨_, finishes⟩

/-! ### Whatever documents hold -/

/-- Whether an entry is no config that cannot be worked with. -/
def isUsableEntry : Place × Entry → Bool
  | (_, .directory) => true
  | (place, .file content) => place.getLast? != some configFile
      || (content.value?.bind Json.members?).all fun config => decide (Config.Usable config)

theorem usableConfigs_of_entries {tree : FileTree}
    (each : tree.entries.all isUsableEntry = true) : tree.UsableConfigs := by
  intro place content config found isConfig value
  cases place with
  | nil => cases isConfig
  | cons first rest =>
      have held : tree.entries.lookup (first :: rest) = some (.file content) := found
      obtain ⟨before, after, spelled, _⟩ := List.lookup_eq_some_iff.mp held
      have here := List.all_eq_true.mp each (first :: rest, .file content) (by
        rw [spelled]
        exact List.mem_append_right before List.mem_cons_self)
      simpa [isUsableEntry, isConfig, value, Json.members?] using here

/-- The manifest and the config of a workspace become texts that are no documents, and the event
ends well. -/
theorem torn_documents_end_well :
    ∃ state, Reached ⟨"/p"⟩ {} (fun disk => disk.PlainManifests ∧ disk.files.UsableConfigs) state
      ∧ (state.2.read (Workspace.manifestPath "a")).isOk = false
      ∧ (state.2.read (Workspace.configPath "a")).isOk = false
      ∧ ∃ after, Finishes Disk.alone
          (dispatch ⟨"/p"⟩ {} { change := .update, path := "/p/a/package.json" }) state (.ok ())
          after := by
  let disk : Disk := { project := ⟨"/p"⟩, files := soleFiles "\x7b\"name\":\"a\"\x7d" }
  let files : FileTree := ⟨(soleFiles "\x7b\"name\"").entries
    ++ [(["p", "a", "tsconfig.json"], .file (.text "\x7b\"references\"".toList))]⟩
  obtain ⟨begun, isBegun⟩ : ∃ begun, (start ⟨"/p"⟩ {}).run Disk.alone ({}, disk) = begun := ⟨_, rfl⟩
  let state : Engine × Disk := (begun.2.1, { begun.2.2 with files := files })
  obtain ⟨starts, top, each, usable, noManifest, noConfig⟩ : begun.1 = .ok ()
      ∧ state.2.PlainManifest (state.2.project.fromRoot [])
      ∧ (∀ entry ∈ state.2.files.entries, entry.2 = .directory →
        state.2.PlainManifest (state.2.project.fromRoot entry.1))
      ∧ state.2.files.entries.all isUsableEntry = true
      ∧ (state.2.read (Workspace.manifestPath "a")).isOk = false
      ∧ (state.2.read (Workspace.configPath "a")).isOk = false := by
    subst isBegun
    decide +kernel
  have first := run_finishes Disk.alone (start ⟨"/p"⟩ {}) ({}, disk)
  rw [isBegun, starts] at first
  have allowed : disk.PlainManifests ∧ disk.files.UsableConfigs :=
    ⟨Disk.plainManifests_of_directories (by decide +kernel) (by decide +kernel),
      usableConfigs_of_entries (by decide +kernel)⟩
  have reached : Reached ⟨"/p"⟩ {} (fun disk => disk.PlainManifests ∧ disk.files.UsableConfigs) state :=
    .edited (.started disk rfl allowed first) files
  exact ⟨state, reached, noManifest, noConfig, ((usable_contents_never_raise ⟨"/p"⟩ {}
    (by decide +kernel)).2 state reached (Disk.plainManifests_of_directories top each)
      (usableConfigs_of_entries usable) _).1⟩

private theorem error_of_notOk {ε α : Type} {outcome : Except ε α} (raised : outcome.isOk = false) :
    ∃ problem, outcome = .error problem := by
  cases outcome with
  | error problem => exact ⟨problem, rfl⟩
  | ok value => cases raised

/-- The text of a workspace's config raises from the start, and a list of references that is a
number from an event. -/
theorem contents_raise :
    (∃ disk : Disk, disk.project = ⟨"/p"⟩ ∧ disk.PlainManifests
      ∧ ∃ failure after, Finishes Disk.alone (start ⟨"/p"⟩ {}) ({}, disk) (.error failure) after)
    ∧ ∃ state, Reached ⟨"/p"⟩ {} Disk.PlainManifests state ∧ state.2.PlainManifests
      ∧ ∃ event failure after,
        Finishes Disk.alone (dispatch ⟨"/p"⟩ {} event) state (.error failure) after := by
  constructor
  · let disk : Disk := { project := ⟨"/p"⟩, files := ⟨(soleFiles "\x7b\"name\":\"a\"\x7d").entries
      ++ [(["p", "a", "tsconfig.json"], .file (.text "not json".toList))]⟩ }
    obtain ⟨begun, isBegun⟩ : ∃ begun, (start ⟨"/p"⟩ {}).run Disk.alone ({}, disk) = begun := ⟨_, rfl⟩
    have plain : disk.PlainManifests :=
      Disk.plainManifests_of_directories (by decide +kernel) (by decide +kernel)
    obtain ⟨failure, fails⟩ := error_of_notOk (show begun.1.isOk = false by
      subst isBegun
      decide +kernel)
    have finishes := run_finishes Disk.alone (start ⟨"/p"⟩ {}) ({}, disk)
    rw [isBegun, fails] at finishes
    exact ⟨disk, rfl, plain, failure, _, finishes⟩
  · let manifest := "\x7b\"name\":\"a\"\x7d"
    let disk : Disk := { project := ⟨"/p"⟩, files := soleFiles manifest }
    let files : FileTree := ⟨(soleFiles manifest).entries
      ++ [(["p", "a", "tsconfig.json"], .file (.text "\x7b\"references\":7\x7d".toList)),
        (["p", "a", ".ts"], .directory), (["p", "a", ".ts", "tsconfig.tsbuildinfo"],
          .file (.text "\x7b\"program\":\x7b\"fileNames\":[]\x7d\x7d".toList))]⟩
    let event : Event := { change := .create, path := "/p/a/.ts/tsconfig.tsbuildinfo" }
    obtain ⟨begun, isBegun⟩ : ∃ begun, (start ⟨"/p"⟩ {}).run Disk.alone ({}, disk) = begun := ⟨_, rfl⟩
    let state : Engine × Disk := (begun.2.1, { begun.2.2 with files := files })
    obtain ⟨done, isDone⟩ : ∃ done, (dispatch ⟨"/p"⟩ {} event).run Disk.alone state = done := ⟨_, rfl⟩
    obtain ⟨starts, raised, top, each⟩ : begun.1 = .ok () ∧ done.1.isOk = false
        ∧ state.2.PlainManifest (state.2.project.fromRoot [])
        ∧ ∀ entry ∈ state.2.files.entries, entry.2 = .directory →
          state.2.PlainManifest (state.2.project.fromRoot entry.1) := by
      subst isDone isBegun
      decide +kernel
    have first := run_finishes Disk.alone (start ⟨"/p"⟩ {}) ({}, disk)
    rw [isBegun, starts] at first
    obtain ⟨failure, fails⟩ := error_of_notOk raised
    have second := run_finishes Disk.alone (dispatch ⟨"/p"⟩ {} event) state
    rw [isDone, fails] at second
    have plain : disk.PlainManifests :=
      Disk.plainManifests_of_directories (by decide +kernel) (by decide +kernel)
    exact ⟨state, .edited (.started disk rfl plain first) files,
      Disk.plainManifests_of_directories top each, event, failure, _, second⟩

end

end Watch
end RefSync
