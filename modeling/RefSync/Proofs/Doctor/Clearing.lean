/-
Directories that are removed because nothing is in them. Nothing of the other workspaces is seen to
go with one, as long as it is none of the directories that lead to them.
-/

import RefSync.Proofs.Doctor.Mending

namespace RefSync

open Routine Path

namespace Disk

variable {disk after : Disk} {empty directory : String}

theorem filesBelow_of_unfilled (unfilled : disk.hasFiles directory = false) :
    disk.filesBelow directory = [] := by
  rw [hasFiles, Bool.not_eq_false'] at unfilled
  exact List.isEmpty_iff.mp unfilled

theorem removeDirectory_cases (disk : Disk) (directory : String) :
    (∃ fault, disk.removeDirectory directory = (.error fault, disk))
      ∨ disk.Enters directory ∧ disk.removeDirectory directory
        = (.ok (), { disk with files := disk.files.remove (disk.project.resolved directory) }) := by
  unfold removeDirectory
  dsimp only
  cases located : disk.locate (disk.project.absolute directory) with
  | error fault => exact Or.inl ⟨fault, rfl⟩
  | ok here =>
      have walked : disk.files.walk (disk.project.absolute directory) = .ok here := by
        unfold locate at located
        split at located
        · rename_i walked
          rw [walked, Except.ok.inj located]
        all_goals cases located
      dsimp only
      split
      · rename_i entered
        have enters := enters_of_walk walked entered
        rw [Except.ok.inj (walked.symm.trans enters.walk)]
        exact Or.inr ⟨enters, rfl⟩
      · exact Or.inl ⟨_, rfl⟩

/-- Whether a directory in which nothing was found has been removed. -/
structure Removes (empty : String) (before after : Disk) : Prop where
  same : after.project = before.project
  below : before.project.resolved empty ≠ []
  enters : before.Enters empty
  unfilled : before.hasFiles empty = false
  files : after.files = before.files.remove (before.project.resolved empty)

namespace Removes

variable (removes : Removes empty disk after)

include removes

theorem keeps : FileTree.Keeps (fun _ => False) after.files disk.files := by
  rw [removes.files]
  exact FileTree.keeps_remove _ _

theorem get?_within {place : Place} (within : disk.project.resolved empty <+: place) :
    after.files.get? place = none := by
  have below : place ≠ [] := by
    rintro rfl
    exact removes.below (List.prefix_nil.mp within)
  rw [removes.files, FileTree.get?_remove _ _ _ below, if_pos (List.isPrefixOf_iff_prefix.mpr within)]

theorem get?_apart {place : Place} (apart : ¬disk.project.resolved empty <+: place) :
    after.files.get? place = disk.files.get? place := by
  cases place with
  | nil => rfl
  | cons first rest =>
      rw [removes.files, FileTree.get?_remove _ _ _ (List.cons_ne_nil first rest),
        if_neg (mt List.isPrefixOf_iff_prefix.mp apart)]

theorem entersBefore (enters : after.Enters directory) : disk.Enters directory := by
  obtain ⟨walked, entered⟩ := enters
  rw [removes.same] at walked entered
  exact ⟨removes.keeps.walk walked, removes.keeps.isDirectory entered⟩

/-- A directory that can still be entered is not in the one that is gone. -/
theorem apart (enters : after.Enters directory) :
    ¬disk.project.resolved empty <+: disk.project.resolved directory := by
  intro within
  have entered := enters.isDirectory
  rw [removes.same, FileTree.isDirectory, removes.get?_within within] at entered
  cases entered

/-- No file has come to be. -/
theorem filled (there : after.hasFiles directory = true) : disk.hasFiles directory = true := by
  obtain ⟨here, walked, entered, rest, entry, some, member, isFile, isOpen⟩ := hasFiles_iff.mp there
  rw [removes.same] at walked
  refine hasFiles_iff.mpr ⟨here, removes.keeps.walk walked, removes.keeps.isDirectory entered, rest,
    entry, some, ?_, isFile, isOpen⟩
  rw [removes.files] at member
  exact List.mem_of_mem_filter member

/-- The files of a directory are all there. -/
theorem filesBelow (distinct : disk.files.IsDistinct)
    (enters : disk.hasFiles directory = true → after.Enters directory) :
    after.filesBelow directory = disk.filesBelow directory := by
  by_cases entered : after.Enters directory
  · have enteredBefore := removes.entersBefore entered
    have apart := removes.apart entered
    have there := contents_of_directory entered.walk entered.isDirectory
    have thereBefore := contents_of_directory enteredBefore.walk enteredBefore.isDirectory
    unfold Disk.filesBelow entriesBelow
    rw [there, thereBefore, removes.same, FileTree.below, FileTree.below, removes.files,
      FileTree.remove, List.filterMap_filterMap, List.filterMap_filterMap, List.filterMap_filter]
    refine List.filterMap_congr fun entry member => ?_
    obtain ⟨place, entry⟩ := entry
    dsimp only
    split
    · rfl
    rename_i within
    rw [Bool.not_eq_true, Bool.not_eq_false', List.isPrefixOf_iff_prefix] at within
    obtain ⟨rest, rfl⟩ := within
    -- What goes is a directory, or has an ignored one above it.
    split
    · rename_i found
      rw [Bool.and_eq_true, List.isPrefixOf_iff_prefix] at found
      obtain ⟨way, onTheWay⟩ := (List.prefix_or_prefix_of_prefix found.1
        (List.prefix_append (disk.project.resolved empty) rest)).resolve_right apart
      rw [← onTheWay, List.append_assoc, List.drop_left]
      refine (if_pos ?_).symm
      by_contra seen
      rw [Bool.or_eq_true, beq_iff_eq, List.any_eq_true, not_or, not_exists] at seen
      obtain ⟨isFile, isOpen⟩ := seen
      by_cases here : rest = []
      · rw [here, List.append_nil] at member
        have found := distinct.get? member removes.below
        rw [eq_of_beq removes.enters.isDirectory] at found
        exact isFile (Option.some.inj found).symm
      · have filled : disk.hasFiles empty = true := by
          refine hasFiles_iff.mpr ⟨_, removes.enters.walk, removes.enters.isDirectory, rest, entry,
            here, member, isFile, fun part inside ignored => ?_⟩
          refine isOpen part ⟨?_, List.contains_iff_mem.mpr ignored⟩
          rw [List.dropLast_append_of_ne_nil here]
          exact List.mem_append_right way inside
        rw [removes.unfilled] at filled
        cases filled
    · rfl
  · have unfilled : disk.hasFiles directory = false :=
      Bool.eq_false_iff.mpr fun filled => entered (enters filled)
    rw [filesBelow_of_unfilled unfilled]
    have closed : after.files.isDirectoryPath (after.project.absolute directory) = false := by
      rw [Bool.eq_false_iff]
      intro directoryPath
      obtain ⟨here, walked, isDirectory⟩ := FileTree.isDirectoryPath_iff.mp directoryPath
      exact entered (enters_of_walk walked isDirectory)
    unfold Disk.filesBelow entriesBelow
    rw [contents_of_closed closed]
    rfl

theorem hasFiles (distinct : disk.files.IsDistinct)
    (enters : disk.hasFiles directory = true → after.Enters directory) :
    after.hasFiles directory = disk.hasFiles directory := by
  unfold Disk.hasFiles
  rw [removes.filesBelow distinct enters]

/-- The documents of a directory that can still be entered are all there. -/
theorem presented {path name : String} (inside : disk.project.Inside directory path name)
    (enters : after.Enters directory) :
    Doctor.presented path (after.read path) = Doctor.presented path (disk.read path) := by
  have enteredBefore := removes.entersBefore enters
  have apart := removes.apart enters
  by_cases within : disk.project.resolved empty <+: disk.project.resolved path
  · -- The directory that is gone was in the place of the document.
    rw [inside.resolved, List.prefix_concat_iff] at within
    have placed := within.resolve_right apart
    have unreadable : ¬disk.Readable path := by
      rintro ⟨content, holds⟩
      have found := holds.found
      rw [inside.resolved, ← placed, eq_of_beq removes.enters.isDirectory] at found
      cases found
    have unreadableAfter : ¬after.Readable path := by
      rintro ⟨content, holds⟩
      have found := holds.found
      rw [removes.same, inside.resolved, ← placed,
        removes.get?_within List.prefix_rfl] at found
      cases found
    rw [Doctor.presented_of_unreadable unreadable, Doctor.presented_of_unreadable unreadableAfter,
      removes.same]
  · rw [read_congr inside removes.same enteredBefore enters (removes.get?_apart within)]

end Removes

/-- A disk without some directories and everything in them. -/
def without (disk : Disk) (directories : List String) : Disk :=
  { disk with files := disk.files.removeAll (directories.map disk.project.resolved) }

/-- The way to a workspace goes on from the root. -/
theorem walk_relative {workspace : String} (relative : disk.project.IsRelative workspace)
    (root : disk.Enters ".") : disk.files.walk (disk.project.absolute workspace)
      = if FileTree.hasNull (disk.project.absolute workspace) then .error .nullCharacter
        else if FileTree.isLongPath (disk.project.absolute workspace) then .error .tooLong
        else disk.files.walkFrom (disk.project.resolved ".")
          (climb (disk.project.resolved "") (disk.project.resolved workspace)) := by
  have here : parts (disk.project.absolute ".") = parts disk.project.root := by
    rw [Project.parts_absolute, if_neg (by decide), show parts "." = [] by decide, List.append_nil]
  have goesOn : parts (disk.project.absolute workspace) = parts disk.project.root
      ++ climb (disk.project.resolved "") (disk.project.resolved workspace) := by
    rw [Project.parts_absolute, relative.spelled.notAbsolute, if_neg (by decide), relative.parts_eq]
  obtain ⟨_, _, walked⟩ := FileTree.walk_eq_ok.mp root.walk
  rw [here] at walked
  rw [FileTree.walk, goesOn, FileTree.walkFrom_goesOn walked]

/-- A workspace that is left can still be entered, when the root can. -/
theorem Enters.without {gone : List String} {workspace : String} (enters : disk.Enters workspace)
    (relative : disk.project.IsRelative workspace) (root : (disk.without gone).Enters ".")
    (left : (disk.without gone).files.isDirectory (disk.project.resolved workspace) = true) :
    (disk.without gone).Enters workspace := by
  have keeps : FileTree.Keeps (fun _ => False) (disk.without gone).files disk.files :=
    (FileTree.Clears.refl _ _ disk.files).keeps
  have rootBefore : disk.Enters "." := ⟨keeps.walk root.walk, keeps.isDirectory root.isDirectory⟩
  have rootLeft : (disk.without gone).files.isDirectory (disk.project.resolved ".") = true :=
    root.isDirectory
  have above {place : Place} (there : (disk.without gone).files.isDirectory place = true) :
      ∀ other, other <+: place → (disk.without gone).files.get? other = disk.files.get? other :=
    @FileTree.get?_above disk.files (gone.map disk.project.resolved) place there
  have climbs : (disk.without gone).files.walkFrom (disk.project.resolved ".")
      (climb (disk.project.resolved "") (disk.project.resolved workspace))
        = disk.files.walkFrom (disk.project.resolved ".")
          (climb (disk.project.resolved "") (disk.project.resolved workspace)) := by
    rw [disk.project.resolved_here] at rootLeft ⊢
    exact @FileTree.walkFrom_climb_same disk.files (disk.without gone).files [] (disk.project.resolved "")
      (disk.project.resolved workspace) (not_mem_resolve _) (above rootLeft) (above left)
  have same : (disk.without gone).project.IsRelative workspace := relative
  have walked := enters.walk
  rw [walk_relative relative rootBefore, ← climbs] at walked
  exact ⟨(walk_relative same root).trans walked, left⟩

end Disk

namespace Doctor

/-- Whether what is seen of a workspace is left as it is, to the last character of its manifest. -/
structure Leaves (workspace : String) (before after : Disk) : Prop where
  same : after.project = before.project
  manifest : presented (Workspace.manifestPath workspace) (after.read (Workspace.manifestPath workspace))
    = presented (Workspace.manifestPath workspace) (before.read (Workspace.manifestPath workspace))
  config : presented (Workspace.configPath workspace) (after.read (Workspace.configPath workspace))
    = presented (Workspace.configPath workspace) (before.read (Workspace.configPath workspace))
  sources : after.sources workspace = before.sources workspace
  hasFiles : after.hasFiles workspace = before.hasFiles workspace
  stored content : before.hasFiles workspace = true →
    before.files.get? (before.project.resolved (Workspace.manifestPath workspace))
      = some (.file content) →
    after.files.get? (before.project.resolved (Workspace.manifestPath workspace)) = some (.file content)

namespace Leaves

variable {workspace : String} {before between after : Disk}

theorem refl (workspace : String) (disk : Disk) : Leaves workspace disk disk :=
  ⟨rfl, rfl, rfl, rfl, rfl, fun _ _ => id⟩

theorem trans (first : Leaves workspace before between) (second : Leaves workspace between after) :
    Leaves workspace before after where
  same := second.same.trans first.same
  manifest := second.manifest.trans first.manifest
  config := second.config.trans first.config
  sources := second.sources.trans first.sources
  hasFiles := second.hasFiles.trans first.hasFiles
  stored content filled found := by
    rw [← first.same]
    refine second.stored content (first.hasFiles.trans filled) ?_
    rw [first.same]
    exact first.stored content filled found

theorem shows_ {raw config : Option Document} {sources : List (List String)} {filled : Bool}
    (leaves : Leaves workspace before after) (seen : Shows workspace raw config sources filled before) :
    Shows workspace raw config sources filled after where
  manifest := leaves.manifest.trans seen.manifest
  config := leaves.config.trans seen.config
  sources := leaves.sources.trans seen.sources
  filled := leaves.hasFiles.trans seen.filled

end Leaves

section

variable {workspace empty : String} {before after : Disk} (below : IsBelow before.project workspace)

include below

/-- What is apart from the places of a repair is left as it is. -/
theorem Mends.leaves {own : Place → Prop} (mends : Mends own before after)
    (apart : ∀ place, IsDocumentOf before.project workspace place → ¬own place) :
    Leaves workspace before after where
  same := mends.same
  manifest := mends.presented below.manifest (apart _ (Or.inl rfl))
  config := mends.presented below.config (apart _ (Or.inr rfl))
  sources := mends.sources workspace
  hasFiles := mends.hasFiles workspace
  stored _ _ found := (mends.gains.apart (apart _ (Or.inl rfl))).trans found

/-- A directory that is removed leaves the workspaces alone that are not in it. -/
theorem leaves_removed (removes : Disk.Removes empty before after)
    (distinct : before.files.IsDistinct)
    (enters : before.hasFiles workspace = true → after.Enters workspace) :
    Leaves workspace before after := by
  have files := removes.filesBelow distinct enters
  have hasFiles := removes.hasFiles distinct enters
  have shown {path name : String} (placed : before.project.Inside workspace path name) :
      presented path (after.read path) = presented path (before.read path) := by
    cases filled : before.hasFiles workspace with
    | true => exact removes.presented placed (enters filled)
    | false =>
        have unreadable : ¬before.Readable path := fun readable => by
          rw [Disk.hasFiles_of_readable placed readable] at filled
          cases filled
        have unreadableAfter : ¬after.Readable path := fun readable => by
          rw [← hasFiles, Disk.hasFiles_of_readable (removes.same ▸ placed) readable] at filled
          cases filled
        rw [presented_of_unreadable unreadable, presented_of_unreadable unreadableAfter, removes.same]
  refine ⟨removes.same, shown below.manifest, shown below.config, ?_, hasFiles,
    fun content filled found => ?_⟩
  · unfold Disk.sources
    rw [files]
  · rw [removes.get?_apart fun within => ?_]
    · exact found
    · rw [below.manifest.resolved, List.prefix_concat_iff] at within
      have placed := within.resolve_right (removes.apart (enters filled))
      rw [below.manifest.resolved, ← placed, eq_of_beq removes.enters.isDirectory] at found
      cases found

end

/-! ### Runs that remove and repair -/

/-- What a run may have done to a disk: some workspaces are gone, and there are documents of others. -/
structure Clears (gone found : List String) (before after : Disk) : Prop where
  same : after.project = before.project
  files : FileTree.Clears (FileTree.IsUnder (gone.map before.project.resolved))
    (IsDocument before.project found) before.files after.files
  distinct : before.files.IsDistinct → after.files.IsDistinct
  filled directory : after.hasFiles directory = true → before.hasFiles directory = true

namespace Clears

variable {gone found : List String} {before between after : Disk}

theorem refl (gone found : List String) (disk : Disk) : Clears gone found disk disk :=
  ⟨rfl, .refl _ _ _, id, fun _ => id⟩

theorem trans (first : Clears gone found before between) (second : Clears gone found between after) :
    Clears gone found before after where
  same := second.same.trans first.same
  files := by
    have later := second.files
    rw [first.same] at later
    exact first.files.trans later
  distinct := second.distinct ∘ first.distinct
  filled directory := first.filled directory ∘ second.filled directory

/-- What leads to a directory that is not to go leads there all the time. -/
theorem enters (clears : Clears gone found before after) {directory : String}
    (stays : (before.without gone).Enters directory) : after.Enters directory := by
  constructor
  · rw [clears.same]
    exact clears.files.keeps.walk stays.walk
  · rw [clears.same]
    exact clears.files.keeps.isDirectory stays.isDirectory

end Clears

theorem Mends.clears {own : Place → Prop} {gone found : List String} {before after : Disk}
    (mends : Mends own before after) (documents : ∀ place, own place → IsDocument before.project found place) :
    Clears gone found before after where
  same := mends.same
  files := mends.gains.clears.weaken documents
  distinct := mends.distinct
  filled directory := (mends.hasFiles directory).symm.trans

theorem clears_removed {empty : String} {gone found : List String} {before after : Disk}
    (removes : Disk.Removes empty before after) (member : empty ∈ gone) :
    Clears gone found before after where
  same := removes.same
  files := by
    rw [removes.files]
    exact FileTree.clears_remove _ fun place within => ⟨_, List.mem_map_of_mem member, within⟩
  distinct distinct := by
    rw [removes.files]
    exact distinct.remove _
  filled _ := removes.filled

/-- What makes workspaces ones that can be removed: nothing leads through them to the other ones. -/
structure Removable (gone found : List String) (disk : Disk) : Prop where
  distinct : disk.files.IsDistinct
  members : ∀ workspace ∈ found, disk.hasFiles workspace = false → workspace ∈ gone
  below : ∀ workspace ∈ gone, disk.project.resolved workspace ≠ []
  enters : ∀ workspace ∈ found, disk.hasFiles workspace = true → (disk.without gone).Enters workspace

/-- Repairs and removals that go on from some disk and leave some workspaces as they are. -/
def mending (origin : Disk) (gone found : List String) (spared : String → Prop) : Conduct Disk where
  allows before after := Clears gone found origin before.2 →
    Clears gone found before.2 after.2 ∧ ∀ workspace, spared workspace → Leaves workspace before.2 after.2
  refl state _ := ⟨.refl gone found state.2, fun workspace _ => .refl workspace state.2⟩
  trans first second reached := by
    obtain ⟨firstClears, firstLeaves⟩ := first reached
    obtain ⟨secondClears, secondLeaves⟩ := second (reached.trans firstClears)
    exact ⟨firstClears.trans secondClears, fun workspace spared =>
      (firstLeaves workspace spared).trans (secondLeaves workspace spared)⟩

end Doctor
end RefSync
