/-
Places that accept a document. Beside a document that is there another one can be opened, and
what can be opened can be written unless a directory is in its place. Documents that are
accepted go on to be accepted while others are written.
-/

import RefSync.Proofs.Disk.Documents
import RefSync.Proofs.Workspace.Places

namespace RefSync

open Path

/-- What a document is found to be, if there is one. -/
def Disk.Finds? (disk : Disk) (path : String) : Option Document → Prop
  | none => ∃ shown, disk.read path = .error (.missing shown)
  | some config => disk.read path = .ok (.obj config)

namespace Disk

variable {disk : Disk} {path other : String}

/-! ### Documents beside each other -/

/-- Beside what leads to a document that can be read another one can be opened, unless something is
wrong with its path. -/
theorem opens_beside (readable : disk.Readable path) {above rest : List String}
    {first name shown : String} (here : parts (disk.project.absolute path) = above ++ first :: rest)
    (beside : parts (disk.project.absolute other) = above ++ [name]) (notParent : name ≠ "..")
    (fits : FileTree.isLongName name = false)
    (missing : disk.read other = .error (.missing shown)) : disk.Opens other := by
  obtain ⟨content, holds⟩ := readable
  obtain ⟨_, _, walked⟩ := FileTree.walk_eq_ok.mp holds.walk
  rw [here] at walked
  obtain ⟨directory, walkedAbove, walkedLast⟩ := FileTree.walkFrom_append walked
  have isDirectory : disk.files.isDirectory directory = true := (FileTree.walkFrom_cons walkedLast).1
  have unread := unread_of_access missing rfl
  rw [readText_eq, locate] at unread
  cases null : FileTree.hasNull (disk.project.absolute other) with
  | true =>
      rw [FileTree.walk, null] at unread
      cases unread
  | false =>
      cases long : FileTree.isLongPath (disk.project.absolute other) with
      | true =>
          rw [FileTree.walk, null, long] at unread
          cases unread
      | false =>
          exact ⟨null, long, above, name, directory, beside, notParent, fits, walkedAbove, isDirectory⟩

/-- What can be opened and is missing is not there. -/
theorem Opens.absent (opens : disk.Opens path) {shown : String}
    (missing : disk.read path = .error (.missing shown)) :
    disk.files.get? (disk.project.resolved path) = none := by
  cases found : disk.files.get? (disk.project.resolved path) with
  | none => rfl
  | some entry =>
      have unread := unread_of_access missing rfl
      have walked := opens.walk
      rw [found] at walked
      rw [readText_of_walk walked, found] at unread
      cases entry with
      | directory => cases unread
      | file content =>
          rw [textOf] at unread
          cases decoded : content.decode <;> rw [decoded] at unread <;> cases unread

/-! ### What is accepted -/

/-- Whether a document can be put at a path: it can be opened, and there is nothing yet, or a
document of some kind. -/
structure Accepts (disk : Disk) (path : String) (kind : Document → Prop) : Prop where
  opens : disk.Opens path
  held : disk.files.get? (disk.project.resolved path) = none
    ∨ ∃ document, disk.read path = .ok (.obj document) ∧ kind document

theorem accepts_of_opens {kind : Document → Prop} (opens : disk.Opens path) {found : Option Document}
    (finds : disk.Finds? path found) (known : ∀ document, found = some document → kind document) :
    disk.Accepts path kind := by
  refine ⟨opens, ?_⟩
  cases found with
  | none =>
      obtain ⟨shown, missing⟩ := finds
      exact Or.inl (opens.absent missing)
  | some document => exact Or.inr ⟨document, finds, known document rfl⟩

theorem accepts_of_read {kind : Document → Prop} {document : Document} {name : String}
    (reads : disk.read path = .ok (.obj document)) (known : kind document)
    (last : (parts path).getLast? = some name) (named : name ≠ "..") : disk.Accepts path kind := by
  obtain ⟨content, holds⟩ := readable_of_read reads
  exact ⟨holds.opens last named, Or.inr ⟨document, reads, known⟩⟩

namespace Accepts

variable {kind otherKind : Document → Prop} (accepts : disk.Accepts path kind)

include accepts

theorem file : disk.files.get? (disk.project.resolved path) = none
    ∨ ∃ content, disk.files.get? (disk.project.resolved path) = some (.file content) := by
  rcases accepts.held with absent | ⟨document, reads, _⟩
  · exact Or.inl absent
  · obtain ⟨content, holds⟩ := readable_of_read reads
    exact Or.inr ⟨content, holds.found⟩

theorem free : disk.files.isDirectory (disk.project.resolved path) = false := by
  rcases accepts.file with absent | ⟨content, found⟩
  · rw [FileTree.isDirectory, absent]
    rfl
  · rw [FileTree.isDirectory, found]
    rfl

theorem inside : disk.project.resolved path ≠ [] := by
  intro top
  have free := accepts.free
  rw [top] at free
  cases free

theorem finds : ∃ found, disk.Finds? path found ∧ ∀ document, found = some document → kind document := by
  rcases accepts.held with absent | ⟨document, reads, known⟩
  · exact ⟨none, ⟨_, accepts.opens.read_missing absent⟩, nofun⟩
  · refine ⟨some document, reads, ?_⟩
    rintro _ ⟨rfl⟩
    exact known

theorem weaken {wider : Document → Prop} (implies : ∀ document, kind document → wider document) :
    disk.Accepts path wider :=
  ⟨accepts.opens, accepts.held.imp_right fun ⟨document, reads, known⟩ =>
    ⟨document, reads, implies document known⟩⟩

theorem write (document : Document) : (disk.write path document).1 = .ok () := by
  rw [accepts.opens.write accepts.free document]

theorem read_write {document : Document} (clean : Document.Clean document) :
    (disk.write path document).2.read path = .ok (.obj document) :=
  (accepts.opens.holds_write accepts.free accepts.inside document).read clean

/-- What was written is accepted again. -/
theorem again {document : Document} (clean : Document.Clean document) (known : kind document) :
    (disk.write path document).2.Accepts path kind := by
  refine ⟨?_, Or.inr ⟨document, accepts.read_write clean, known⟩⟩
  apply accepts.opens.keeps _ (keeps_write disk path document)
  rw [(puts_write disk path document).2]

/-- A document that is written elsewhere is nothing to this one. -/
theorem elsewhere (target : disk.Accepts other otherKind)
    (apart : disk.project.resolved path ≠ disk.project.resolved other) (document : Document) :
    (disk.write other document).2.Accepts path kind := by
  have same : (disk.write other document).2.project = disk.project := by
    rw [(puts_write disk other document).2]
  have keeps := keeps_write disk other document
  refine ⟨accepts.opens.keeps same keeps, ?_⟩
  rcases accepts.held with absent | ⟨present, reads, known⟩
  · left
    rw [same, target.opens.write target.free document]
    exact (FileTree.get?_put _ _ _ _ accepts.inside).trans ((if_neg apart).trans absent)
  · exact Or.inr ⟨present, read_keeps same keeps reads apart, known⟩

end Accepts

/-! ### The documents of a workspace -/

/-- Beside the manifest of a workspace there is a place for its config. -/
theorem opens_configPath {workspace shown : String} (stem : IsStem workspace)
    (readable : disk.Readable (Workspace.manifestPath workspace))
    (missing : disk.read (Workspace.configPath workspace) = .error (.missing shown)) :
    disk.Opens (Workspace.configPath workspace) := by
  obtain ⟨above, manifest⟩ : ∃ above,
      parts (disk.project.absolute (Workspace.manifestPath workspace)) = above ++ [manifestFile] :=
    List.getLast?_eq_some_iff.mp (Opens.last_absolute (Workspace.last_manifestPath workspace))
  have config : parts (disk.project.absolute (Workspace.configPath workspace))
      = above ++ [configFile] := by
    rw [Workspace.manifestPath_of_stem stem,
      Project.parts_slash_absolute stem isName_manifestFile.component] at manifest
    rw [Workspace.configPath_of_stem stem,
      Project.parts_slash_absolute stem isName_configFile.component,
      (List.append_inj' manifest rfl).1]
  exact opens_beside readable manifest config (by decide) (by decide) missing

/-- Beside the artifact of a workspace there is a place for its config too. -/
theorem opens_configPath_of_artifact {workspace shown : String} (stem : IsStem workspace)
    (readable : disk.Readable (Workspace.artifactPath workspace))
    (missing : disk.read (Workspace.configPath workspace) = .error (.missing shown)) :
    disk.Opens (Workspace.configPath workspace) := by
  have artifact := Workspace.parts_absolute_artifactPath disk.project stem
  have config : parts (disk.project.absolute (Workspace.configPath workspace))
      = parts (disk.project.absolute workspace) ++ [configFile] := by
    rw [Workspace.configPath_of_stem stem]
    exact Project.parts_slash_absolute stem isName_configFile.component
  exact opens_beside readable artifact config (by decide) (by decide) missing

/-- Beside an artifact that is there, a config that is missing leaves its place to nobody. -/
theorem vacant_of_missing {workspace shown : String} (stem : IsStem workspace)
    (readable : disk.Readable (Workspace.artifactPath workspace))
    (missing : disk.read (Workspace.configPath workspace) = .error (.missing shown)) :
    disk.Vacant (Workspace.configPath workspace) := by
  intro content found
  rw [(opens_configPath_of_artifact stem readable missing).absent missing] at found
  cases found

theorem accepts_configFile {kind : Document → Prop} {config : Document}
    (reads : disk.read configFile = .ok (.obj config)) (known : kind config) :
    disk.Accepts configFile kind := by
  have last : (parts configFile).getLast? = some configFile := by decide
  exact accepts_of_read reads known last (by decide)

/-- A directory in which something can be read is there. -/
theorem walk_inside {directory name : String} (inside : disk.project.Inside directory path name)
    (readable : disk.Readable path) :
    ∃ here, disk.files.walk (disk.project.absolute directory) = .ok here
      ∧ disk.files.isDirectory here = true := by
  obtain ⟨content, holds⟩ := readable
  obtain ⟨more, text⟩ := inside.text
  obtain ⟨plain, short, walked⟩ := FileTree.walk_eq_ok.mp holds.walk
  have plainAbove : FileTree.hasNull (disk.project.absolute directory) = false := by
    rw [FileTree.hasNull, List.contains_eq_mem, decide_eq_false_iff_not, text, String.toList_append,
      List.mem_append, not_or] at plain
    rw [FileTree.hasNull, List.contains_eq_mem, decide_eq_false_iff_not]
    exact plain.1
  have shortAbove : FileTree.isLongPath (disk.project.absolute directory) = false := by
    rw [FileTree.isLongPath, decide_eq_false_iff_not, text, String.utf8ByteSize_append] at short
    rw [FileTree.isLongPath, decide_eq_false_iff_not]
    omega
  rw [inside.parts] at walked
  obtain ⟨here, walkedAbove, walkedLast⟩ := FileTree.walkFrom_append walked
  exact ⟨here, FileTree.walk_eq_ok.mpr ⟨plainAbove, shortAbove, walkedAbove⟩,
    (FileTree.walkFrom_name inside.named.notParent walkedLast).1⟩

/-- A workspace whose manifest can be read is there. -/
theorem walk_workspace {workspace : String} (relative : disk.project.IsRelative workspace)
    (below : workspace ≠ ".") (readable : disk.Readable (Workspace.manifestPath workspace)) :
    ∃ place, disk.files.walk (disk.project.absolute workspace) = .ok place := by
  rw [Workspace.manifestPath_of_stem relative.spelled.stem] at readable
  obtain ⟨here, walked, _⟩ :=
    walk_inside (Project.inside_slash relative below isName_manifestFile) readable
  exact ⟨here, walked⟩

theorem hasJsx_of_walk {directory : String} {place : Place}
    (walked : disk.files.walk (disk.project.absolute directory) = .ok place) :
    ∃ jsx, disk.hasJsx directory = .ok jsx := by
  unfold hasJsx isPresent locate
  rw [walked]
  exact ⟨_, rfl⟩

theorem isPresent_of_walk {place : Place}
    (walked : disk.files.walk (disk.project.absolute path) = .ok place) :
    disk.isPresent path = .ok true := by
  unfold isPresent locate
  rw [walked]

/-- Beside the root manifest there is a place for the root config. -/
theorem opens_configFile {shown : String} (readable : disk.Readable manifestFile)
    (missing : disk.read configFile = .error (.missing shown)) : disk.Opens configFile := by
  have manifest : parts (disk.project.absolute manifestFile)
      = parts disk.project.root ++ [manifestFile] := disk.project.parts_absolute manifestFile
  have config : parts (disk.project.absolute configFile) = parts disk.project.root ++ [configFile] :=
    disk.project.parts_absolute configFile
  exact opens_beside readable manifest config (by decide) (by decide) missing

end Disk
end RefSync
