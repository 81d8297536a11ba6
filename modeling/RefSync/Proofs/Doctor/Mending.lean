/-
What repairs do to a disk: documents come to be in directories that have files, and nothing else
is different. So what is seen of a workspace is the same while other ones are repaired.
-/

import RefSync.Doctor.Run
import RefSync.Proofs.Disk.Scanning
import RefSync.Proofs.FileTree.Clearing
import RefSync.Proofs.Update.Permitted

namespace RefSync

open Routine Path

namespace Doctor

/-- What there is in the place of a document, if it can be got at. -/
def presented (path : String) (given : Except ReadFault Json) : Except Fault (Option Document) :=
  match objectOf path given with
  | .ok document => .ok (some document)
  | .error (.read fault) => if fault.isAccess then .ok none else .error (.read fault)
  | .error _ => .ok none

theorem present?_eq (path : String) :
    present? path = ask (.read path) >>= fun given => ofExcept id (presented path given) := by
  unfold present?
  refine congrArg (ask (.read path) >>= ·) (funext fun given => ?_)
  unfold presented
  cases objectOf path given with
  | ok document => rfl
  | error fault =>
      cases fault with
      | read fault =>
          dsimp only
          split <;> rfl
      | _ => rfl

theorem presented_eq_some {path : String} {given : Except ReadFault Json} {document : Document} :
    presented path given = .ok (some document) ↔ given = .ok (.obj document) := by
  constructor
  · intro same
    unfold presented at same
    split at same
    · rename_i other object
      cases same
      exact objectOf_eq_ok.mp object
    · split at same <;> cases same
    · cases same
  · rintro rfl
    rfl

/-- A document that is no file that can be read is absent, as long as its path is one. -/
theorem presented_of_unreadable {disk : Disk} {path : String} (unreadable : ¬disk.Readable path) :
    presented path (disk.read path) = if FileTree.hasNull (disk.project.absolute path)
      then .error (.read .nullCharacter) else .ok none := by
  have refused {fault : ReadFault} (unread : disk.readText path = .error fault) :
      disk.read path = .error fault := by
    unfold Disk.read
    rw [unread]
    rfl
  cases walked : disk.files.walk (disk.project.absolute path) with
  | error why =>
      have unread : disk.readText path = (disk.locate (disk.project.absolute path)).bind _ :=
        disk.readText_eq path
      rw [Disk.locate, walked] at unread
      cases null : FileTree.hasNull (disk.project.absolute path) with
      | true =>
          rw [FileTree.walk, null] at walked
          cases walked
          rw [refused unread]
          rfl
      | false =>
          cases why with
          | nullCharacter =>
              rw [FileTree.hasNull_of_walk walked] at null
              cases null
          | missing =>
              rw [refused unread]
              rfl
          | notDirectory =>
              rw [refused unread]
              rfl
          | tooLong =>
              rw [refused unread]
              rfl
  | ok place =>
      have plain := (FileTree.walk_eq_ok.mp walked).1
      have placed : place = disk.project.resolved path := by
        rw [FileTree.walk_place walked, Project.resolved_eq]
      have unread := Disk.readText_of_walk walked
      rw [plain, if_neg (by decide)]
      cases found : disk.files.get? place with
      | none =>
          rw [found] at unread
          rw [refused unread]
          rfl
      | some entry =>
          rw [found] at unread
          cases entry with
          | directory =>
              rw [refused unread]
              rfl
          | file content =>
              rw [placed] at walked found
              exact absurd ⟨content, walked, found⟩ unreadable

/-- What a repair may do: in places of its own documents come to be or become others. Whoever looks
for sources or for empty directories finds what was there before. -/
structure Mends (own : Place → Prop) (before after : Disk) : Prop where
  same : after.project = before.project
  gains : FileTree.Gains own before.files after.files
  distinct : before.files.IsDistinct → after.files.IsDistinct
  sources directory : after.sources directory = before.sources directory
  hasFiles directory : after.hasFiles directory = before.hasFiles directory

namespace Mends

variable {own : Place → Prop} {before between after : Disk}

theorem refl (own : Place → Prop) (disk : Disk) : Mends own disk disk :=
  ⟨rfl, .refl own _, id, fun _ => rfl, fun _ => rfl⟩

theorem trans (first : Mends own before between) (second : Mends own between after) :
    Mends own before after where
  same := second.same.trans first.same
  gains := first.gains.trans second.gains
  distinct := second.distinct ∘ first.distinct
  sources directory := (second.sources directory).trans (first.sources directory)
  hasFiles directory := (second.hasFiles directory).trans (first.hasFiles directory)

theorem weaken {more : Place → Prop} (mends : Mends own before after)
    (wider : ∀ place, own place → more place) : Mends more before after :=
  { mends with gains := mends.gains.weaken wider }

section

variable {directory path name : String} (mends : Mends own before after)
  (inside : before.project.Inside directory path name) (apart : ¬own (before.project.resolved path))

include mends inside apart

theorem read (filled : before.hasFiles directory = true) : after.read path = before.read path := by
  have enters := Disk.enters_of_hasFiles filled
  exact Disk.read_congr inside mends.same enters (enters.gains mends.same mends.gains)
    (mends.gains.apart apart)

/-- What is apart from the places of a repair is seen as before. -/
theorem presented : presented path (after.read path) = Doctor.presented path (before.read path) := by
  cases filled : before.hasFiles directory with
  | true => rw [mends.read inside apart filled]
  | false =>
      have filledAfter : after.hasFiles directory = false := (mends.hasFiles directory).trans filled
      have unreadable : ¬before.Readable path := fun readable => by
        rw [Disk.hasFiles_of_readable inside readable] at filled
        cases filled
      have unreadableAfter : ¬after.Readable path := fun readable => by
        rw [Disk.hasFiles_of_readable (mends.same ▸ inside) readable] at filledAfter
        cases filledAfter
      rw [presented_of_unreadable unreadable, presented_of_unreadable unreadableAfter, mends.same]

end

end Mends

/-- Writing a document beside a file is a repair. -/
theorem mends_write {disk : Disk} {directory path name : String}
    (inside : disk.project.Inside directory path name) (filled : disk.hasFiles directory = true)
    (plain : (name.endsWith ".ts" || name.endsWith ".tsx") = false) (document : Document) :
    Mends (· = disk.project.resolved path) disk (disk.write path document).2 := by
  have enters := Disk.enters_of_hasFiles filled
  have same : (disk.write path document).2.project = disk.project :=
    disk.answer_project (.write path document)
  have written := Disk.write_inside inside enters document
  generalize disk.write path document = made at same written ⊢
  rcases written with ⟨_, files⟩ | ⟨free, _, puts⟩
  · refine ⟨same, files ▸ .refl _ _, fun distinct => files ▸ distinct, fun directory => ?_,
      fun directory => ?_⟩
    · unfold Disk.sources Disk.filesBelow Disk.entriesBelow
      rw [same, files]
    · unfold Disk.hasFiles Disk.filesBelow Disk.entriesBelow
      rw [same, files]
  · have last : (disk.project.resolved path).getLast? = some name := by
      rw [inside.resolved, List.getLast?_concat]
    have gains : FileTree.Gains (· = disk.project.resolved path) disk.files made.2.files := by
      rw [puts]
      refine FileTree.gains_put ?_ free _
      rfl
    refine ⟨same, gains, fun distinct => puts ▸ distinct.put _ _,
      Disk.sources_put last plain free same puts, ?_⟩
    rw [inside.resolved] at free puts
    exact Disk.hasFiles_put enters.walk filled free same puts

/-! ### What is seen of a workspace -/

/-- The places of the documents that a repair of a workspace may write. -/
def IsDocumentOf (project : Project) (workspace : String) (place : Place) : Prop :=
  place = project.resolved (Workspace.manifestPath workspace)
    ∨ place = project.resolved (Workspace.configPath workspace)

/-- The places of all documents that a repair may write. -/
def IsDocument (project : Project) (found : List String) (place : Place) : Prop :=
  place = project.resolved configFile ∨ ∃ workspace ∈ found, IsDocumentOf project workspace place

/-- What the doctor sees of a workspace. -/
structure Shows (workspace : String) (raw config : Option Document) (sources : List (List String))
    (filled : Bool) (disk : Disk) : Prop where
  manifest : presented (Workspace.manifestPath workspace)
    (disk.read (Workspace.manifestPath workspace)) = .ok raw
  config : presented (Workspace.configPath workspace)
    (disk.read (Workspace.configPath workspace)) = .ok config
  sources : disk.sources workspace = sources
  filled : disk.hasFiles workspace = filled

/-- Whether a path is that of a workspace below the root. -/
structure IsBelow (project : Project) (workspace : String) : Prop where
  relative : project.IsRelative workspace
  notRoot : workspace ≠ "."

namespace IsBelow

variable {project : Project} {workspace : String} (below : IsBelow project workspace)

include below

theorem manifest : project.Inside workspace (Workspace.manifestPath workspace) manifestFile := by
  rw [Workspace.manifestPath_of_stem below.relative.spelled.stem]
  exact Project.inside_slash below.relative below.notRoot isName_manifestFile

theorem config : project.Inside workspace (Workspace.configPath workspace) configFile := by
  rw [Workspace.configPath_of_stem below.relative.spelled.stem]
  exact Project.inside_slash below.relative below.notRoot isName_configFile

/-- No two workspaces share a document. -/
theorem apart {other : String} (otherBelow : IsBelow project other) (differs : workspace ≠ other)
    {place : Place} (mine : IsDocumentOf project workspace place) :
    ¬IsDocumentOf project other place := by
  have placesDiffer : project.resolved workspace ≠ project.resolved other := fun same =>
    differs (below.relative.injective otherBelow.relative same)
  unfold IsDocumentOf at mine ⊢
  rw [below.manifest.resolved, below.config.resolved] at mine
  rw [otherBelow.manifest.resolved, otherBelow.config.resolved]
  rcases mine with rfl | rfl
  all_goals
    rintro (same | same)
    all_goals exact placesDiffer (List.append_inj_left' same rfl)

theorem configApart : project.resolved (Workspace.manifestPath workspace)
    ≠ project.resolved (Workspace.configPath workspace) := by
  rw [below.manifest.resolved, below.config.resolved]
  intro same
  exact absurd (List.append_inj_right' same rfl) (by decide)

end IsBelow

namespace Shows

variable {workspace : String} {raw config : Option Document} {sources : List (List String)}
  {filled : Bool} {disk after : Disk} (below : IsBelow disk.project workspace)

include below

variable (shows_ : Shows workspace raw config sources true disk) {document : Document}
  (clean : Document.Clean document)

include shows_ clean

theorem manifest_written
    (written : (disk.write (Workspace.manifestPath workspace) document).1 = .ok ()) :
    Shows workspace (some document) config sources true
      (disk.write (Workspace.manifestPath workspace) document).2 := by
  have mends := mends_write below.manifest shows_.filled (by decide +kernel) document
  have reads := Disk.read_written (Workspace.last_manifestPath workspace) (by decide) clean written
  refine ⟨presented_eq_some.mpr reads, ?_, ?_, ?_⟩
  · exact (mends.presented below.config fun same => below.configApart same.symm).trans shows_.config
  · exact (mends.sources workspace).trans shows_.sources
  · exact (mends.hasFiles workspace).trans shows_.filled

theorem config_written
    (written : (disk.write (Workspace.configPath workspace) document).1 = .ok ()) :
    Shows workspace raw (some document) sources true
      (disk.write (Workspace.configPath workspace) document).2 := by
  have mends := mends_write below.config shows_.filled (by decide +kernel) document
  have reads := Disk.read_written (Workspace.last_configPath workspace) (by decide) clean written
  refine ⟨?_, presented_eq_some.mpr reads, ?_, ?_⟩
  · exact (mends.presented below.manifest below.configApart).trans shows_.manifest
  · exact (mends.sources workspace).trans shows_.sources
  · exact (mends.hasFiles workspace).trans shows_.filled

end Shows

end Doctor
end RefSync
