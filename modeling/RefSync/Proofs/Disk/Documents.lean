/-
Documents as they are read and written. What a write does not replace stays readable, and a
document that was read can be written: it is found again as it was written.
-/

import RefSync.Proofs.Disk
import RefSync.Proofs.Json.RoundTrip

namespace RefSync.Disk

open Path

variable {disk after : Disk} {path : String}

/-- Whether the file at a path has a content. -/
structure Holds (disk : Disk) (path : String) (content : Content) : Prop where
  walk : disk.files.walk (disk.project.absolute path) = .ok (disk.project.resolved path)
  found : disk.files.get? (disk.project.resolved path) = some (.file content)

/-- The text of what there is at a path. -/
def textOf (path : String) : Option Entry → Except ReadFault (List Char)
  | some (.file content) => (content.decode.mapError ReadFault.undecodable).map normalizeNewlines
  | some .directory => .error (.isDirectory path)
  | none => .error (.missing path)

theorem readText_eq (disk : Disk) (path : String) :
    disk.readText path = disk.locate (disk.project.absolute path) >>= fun place =>
      textOf (disk.project.absolute path) (disk.files.get? place) :=
  rfl

theorem readText_of_walk {place : Place}
    (walked : disk.files.walk (disk.project.absolute path) = .ok place) :
    disk.readText path = textOf (disk.project.absolute path) (disk.files.get? place) := by
  rw [readText_eq, locate, walked]
  rfl

private theorem textOf_missing {entry : Option Entry} {shown missing : String}
    (refused : textOf shown entry = .error (.missing missing)) : entry = none := by
  match entry with
  | none => rfl
  | some .directory => cases refused
  | some (.file content) =>
      rw [textOf] at refused
      cases decoded : content.decode with
      | ok chars =>
          rw [decoded] at refused
          cases refused
      | error malformed =>
          rw [decoded] at refused
          cases refused

private theorem readText_eq_ok {chars : List Char} :
    disk.readText path = .ok chars ↔ ∃ content decoded, disk.Holds path content
      ∧ content.decode = .ok decoded ∧ normalizeNewlines decoded = chars := by
  have decodes (content : Content) : ((content.decode.mapError ReadFault.undecodable).map
      normalizeNewlines = .ok chars) ↔ ∃ decoded, content.decode = .ok decoded
        ∧ normalizeNewlines decoded = chars := by
    cases content.decode with
    | error malformed => exact ⟨nofun, nofun⟩
    | ok decoded =>
        constructor
        · intro same
          cases same
          exact ⟨decoded, rfl, rfl⟩
        · rintro ⟨_, ⟨rfl⟩, rfl⟩
          rfl
  cases walked : disk.files.walk (disk.project.absolute path) with
  | error fault =>
      rw [readText_eq, locate, walked]
      refine ⟨fun reads => ?_, fun ⟨_, _, holds, _⟩ => ?_⟩
      · cases fault <;> cases reads
      · rw [holds.walk] at walked
        cases walked
  | ok place =>
      have placed : place = disk.project.resolved path := by
        rw [FileTree.walk_place walked, Project.resolved_eq]
      subst placed
      rw [readText_of_walk walked]
      constructor
      · intro reads
        unfold textOf at reads
        split at reads
        · rename_i content found
          rcases (decodes content).mp reads with ⟨decoded, same⟩
          exact ⟨content, decoded, ⟨walked, found⟩, same⟩
        · cases reads
        · cases reads
      · rintro ⟨content, decoded, holds, same⟩
        rw [holds.found]
        exact (decodes content).mpr ⟨decoded, same⟩

theorem read_eq_ok {value : Json} :
    disk.read path = .ok value ↔ ∃ content decoded, disk.Holds path content
      ∧ content.decode = .ok decoded ∧ Json.readChars (normalizeNewlines decoded) = .ok value := by
  have parses (chars : List Char) : (Json.readChars chars).mapError ReadFault.malformed = .ok value
      ↔ Json.readChars chars = .ok value := by
    cases Json.readChars chars with
    | error malformed => exact ⟨nofun, nofun⟩
    | ok read => exact ⟨fun same => congrArg Except.ok (Except.ok.inj same), fun same => same ▸ rfl⟩
  constructor
  · intro reads
    unfold read at reads
    cases taken : disk.readText path with
    | error fault =>
        rw [taken] at reads
        cases reads
    | ok chars =>
        rw [taken] at reads
        rcases readText_eq_ok.mp taken with ⟨content, decoded, holds, decodes, rfl⟩
        exact ⟨content, decoded, holds, decodes, (parses _).mp reads⟩
  · rintro ⟨content, decoded, holds, decodes, parsed⟩
    unfold read
    rw [readText_eq_ok.mpr ⟨content, decoded, holds, decodes, rfl⟩]
    exact (parses _).mpr parsed

theorem clean_of_read {value : Json} (reads : disk.read path = .ok value) : value.Clean := by
  rcases read_eq_ok.mp reads with ⟨_, _, _, _, parsed⟩
  exact Json.clean_of_readChars parsed

/-- Two paths to one place lead to the same document. -/
theorem read_alike {other : String} {value given : Json} (reads : disk.read path = .ok value)
    (beside : disk.read other = .ok given)
    (alike : disk.project.resolved other = disk.project.resolved path) : given = value := by
  obtain ⟨content, decoded, holds, decodes, parsed⟩ := read_eq_ok.mp reads
  obtain ⟨otherContent, otherDecoded, otherHolds, otherDecodes, otherParsed⟩ := read_eq_ok.mp beside
  have found := otherHolds.found
  rw [alike, holds.found] at found
  cases found
  rw [decodes] at otherDecodes
  cases otherDecodes
  rw [parsed] at otherParsed
  exact (Except.ok.inj otherParsed).symm

/-! ### What a change of files leaves alone -/

section

variable {free : Place → Prop} (same : after.project = disk.project)
  (stays : FileTree.Keeps free disk.files after.files)

include same stays

theorem Holds.keeps {content : Content} (holds : disk.Holds path content)
    (elsewhere : ¬free (disk.project.resolved path)) : after.Holds path content := by
  constructor
  · rw [same]
    exact stays.walk holds.walk
  · rw [same]
    exact stays.get? elsewhere holds.found

theorem read_keeps {value : Json} (reads : disk.read path = .ok value)
    (elsewhere : ¬free (disk.project.resolved path)) : after.read path = .ok value := by
  rcases read_eq_ok.mp reads with ⟨content, decoded, holds, rest⟩
  exact read_eq_ok.mpr ⟨content, decoded, holds.keeps same stays elsewhere, rest⟩

end

/-! ### What a write does -/

theorem puts_makeParents (target : Place) (content : Content) (disk : Disk) (path : String) :
    disk.files.Puts target content (disk.makeParents path).2.files
      ∧ (disk.makeParents path).2 = { disk with files := (disk.makeParents path).2.files } := by
  have made := FileTree.puts_makeFrom target content (parts path).dropLast false [] disk.files
  unfold makeParents
  dsimp only
  split
  · exact ⟨FileTree.puts_refl target content disk.files, rfl⟩
  · split
    · exact ⟨FileTree.puts_refl target content disk.files, rfl⟩
    · split
      · rename_i makes
        rw [makes] at made
        exact ⟨made, rfl⟩
      · rename_i makes
        rw [makes] at made
        exact ⟨made, rfl⟩

/-- The directories above a document are there once they were made. -/
theorem makeParents_walk {place : Place} (makes : (disk.makeParents path).1 = .ok place) :
    (disk.makeParents path).2.files.walkFrom [] (parts path).dropLast = .ok place
      ∧ (disk.makeParents path).2.files.isDirectory place = true := by
  unfold makeParents at makes ⊢
  dsimp only at makes ⊢
  split at makes
  · cases makes
  · rename_i plain
    split at makes
    · cases makes
    · rename_i short
      rw [if_neg plain, if_neg short]
      split at makes
      · rename_i same
        cases makes
        have made := FileTree.walk_of_makeFrom (congrArg Prod.fst same)
        rw [same] at made
        exact made
      · cases makes

private theorem makeParents_place {place : Place} (makes : (disk.makeParents path).1 = .ok place) :
    place = resolve true (parts path).dropLast :=
  FileTree.walkFrom_place List.not_mem_nil (makeParents_walk makes).1

/-- A write puts nothing but the file it is meant for, and is remembered. -/
theorem puts_write (disk : Disk) (path : String) (document : Document) :
    disk.files.Puts (disk.project.resolved path) (.text (Json.obj document).contents)
        (disk.write path document).2.files
      ∧ (disk.write path document).2 = { disk with
          written := disk.written ++ [path]
          files := (disk.write path document).2.files } := by
  obtain ⟨made, others⟩ := puts_makeParents (disk.project.resolved path)
    (.text (Json.obj document).contents) { disk with written := disk.written ++ [path] }
    (disk.project.absolute path)
  unfold write writeText
  dsimp only
  split
  · rename_i makes
    rw [makes] at made others
    exact ⟨made, others⟩
  · rename_i directory between makes
    have placed := makeParents_place (congrArg Prod.fst makes)
    rw [makes] at made others
    split
    · exact ⟨made, others⟩
    · split
      · exact ⟨made, others⟩
      · split
        · exact ⟨made, others⟩
        · rename_i notParent
          split
          · exact ⟨made, others⟩
          · rename_i noDirectory
            have here : directory ++ (parts (disk.project.absolute path)).getLast?.toList
                = disk.project.resolved path := by
              cases last : (parts (disk.project.absolute path)).getLast? with
              | none =>
                  have empty := List.getLast?_eq_none_iff.mp last
                  rw [last, placed, empty] at noDirectory
                  exact absurd rfl noDirectory
              | some name =>
                  have named : name ≠ ".." := by
                    rintro rfl
                    rw [last] at notParent
                    exact notParent rfl
                  obtain ⟨above, split⟩ := List.getLast?_eq_some_iff.mp last
                  rw [Project.resolved_eq, placed, split, List.dropLast_concat,
                    resolve_append_name above named]
                  rfl
            rw [here] at noDirectory ⊢
            have free : between.files.isDirectory (disk.project.resolved path) = false := by
              simpa using noDirectory
            refine ⟨⟨made.keeps.trans (FileTree.keeps_put (Or.inr ⟨nofun, rfl, free⟩)),
              made.stays.trans (FileTree.stays_put (Or.inr ⟨_, rfl⟩)), ?_⟩, ?_⟩
            · intro place held found
              cases place with
              | nil => cases found
              | cons first rest =>
                  rw [FileTree.get?_put _ _ _ _ (List.cons_ne_nil first rest)] at found
                  split at found
                  · rename_i same
                    exact Or.inr ⟨same, by cases found; rfl⟩
                  · exact made.files _ held found
            · exact congrArg (fun made : Disk => { made with
                files := made.files.put (disk.project.resolved path)
                  (.file (.text (Json.obj document).contents)) }) others

/-- A write replaces nothing but the file it is meant for. -/
theorem keeps_write (disk : Disk) (path : String) (document : Document) :
    FileTree.Keeps (· = disk.project.resolved path) disk.files (disk.write path document).2.files :=
  (puts_write disk path document).1.keeps

/-- A write that fails puts no file anywhere. -/
theorem puts_failed {problem : WriteFault} {document : Document}
    (failed : (disk.write path document).1 = .error problem) (content : Content) :
    disk.files.Puts [] content (disk.write path document).2.files := by
  have made := (puts_makeParents [] content { disk with written := disk.written ++ [path] }
    (disk.project.absolute path)).1
  unfold write writeText at failed ⊢
  dsimp only at failed ⊢
  split at failed
  · rename_i makes
    rw [makes] at made
    exact made
  · rename_i makes
    rw [makes] at made
    split at failed
    · rename_i null
      rw [if_pos null]
      exact made
    · rename_i plain
      rw [if_neg plain]
      split at failed
      · rename_i long
        rw [if_pos long]
        exact made
      · rename_i short
        rw [if_neg short]
        split at failed
        · rename_i isParent
          rw [if_pos isParent]
          exact made
        · rename_i notParent
          rw [if_neg notParent]
          split at failed
          · rename_i isDirectory
            rw [if_pos isDirectory]
            exact made
          · cases failed

theorem alone_eq (asked : Request) (state : Engine × Disk) :
    alone asked state = ((state.2.answer asked).1, state.1, (state.2.answer asked).2) :=
  rfl

theorem alone_write (path : String) (document : Document) (state : Engine × Disk) :
    alone (.write path document) state
      = ((state.2.write path document).1, state.1, (state.2.write path document).2) :=
  alone_eq _ state

/-! ### What is written is read -/

private theorem bytes_of_sublist {fewer more : List Char} (within : fewer.Sublist more) :
    (String.ofList fewer).utf8ByteSize ≤ (String.ofList more).utf8ByteSize := by
  induction within with
  | slnil => exact Nat.le_refl _
  | cons char within ih =>
      rw [String.ofList_cons (c := char), String.utf8ByteSize_append]
      omega
  | cons_cons char within ih =>
      rw [String.ofList_cons, String.ofList_cons, String.utf8ByteSize_append,
        String.utf8ByteSize_append]
      omega

/-- What is above a path is no longer than the path. -/
private theorem above_fits (path : String) :
    (FileTree.hasNull path = false →
      FileTree.hasNull (anchor path ++ joinParts (parts path).dropLast) = false)
    ∧ (FileTree.isLongPath path = false →
      FileTree.isLongPath (anchor path ++ joinParts (parts path).dropLast) = false) := by
  have within := above_sublist path
  constructor
  · intro plain
    rw [FileTree.hasNull, List.contains_eq_mem, decide_eq_false_iff_not] at plain ⊢
    exact fun member => plain (within.subset member)
  · intro short
    have bytes := bytes_of_sublist within
    rw [String.ofList_toList, String.ofList_toList] at bytes
    rw [FileTree.isLongPath, decide_eq_false_iff_not] at short ⊢
    omega

/-- Whether a document can be opened: its path is one that paths can be, and the directory it
is in is there. -/
structure Opens (disk : Disk) (path : String) : Prop where
  plain : FileTree.hasNull (disk.project.absolute path) = false
  short : FileTree.isLongPath (disk.project.absolute path) = false
  inside : ∃ above name directory, parts (disk.project.absolute path) = above ++ [name]
    ∧ name ≠ ".." ∧ FileTree.isLongName name = false
    ∧ disk.files.walkFrom [] above = .ok directory ∧ disk.files.isDirectory directory = true

namespace Opens

theorem last_absolute {name : String} (last : (parts path).getLast? = some name) :
    (parts (disk.project.absolute path)).getLast? = some name := by
  rw [Project.parts_absolute]
  split
  · exact last
  · rw [List.getLast?_append, last]
    rfl

private theorem placed_in_directory {above : List String} {name : String} {directory : Place}
    (spelled : parts (disk.project.absolute path) = above ++ [name]) (named : name ≠ "..")
    (walked : disk.files.walkFrom [] above = .ok directory) :
    disk.project.resolved path = directory ++ [name] := by
  rw [Project.resolved_eq, spelled, resolve_append_name above named,
    FileTree.walkFrom_place List.not_mem_nil walked]
  rfl

variable (opens : disk.Opens path)

include opens

theorem keeps {free : Place → Prop} (same : after.project = disk.project)
    (stays : FileTree.Keeps free disk.files after.files) : after.Opens path := by
  obtain ⟨above, name, directory, spelled, named, fits, walked, entered⟩ := opens.inside
  exact ⟨by rw [same]; exact opens.plain, by rw [same]; exact opens.short, above, name, directory,
    by rw [same]; exact spelled, named, fits, stays.walkFrom walked, stays.isDirectory entered⟩

/-- A walk to the document comes to its place, if there is something. -/
theorem walk : disk.files.walk (disk.project.absolute path)
    = if (disk.files.get? (disk.project.resolved path)).isSome
      then .ok (disk.project.resolved path) else .error .missing := by
  obtain ⟨above, name, directory, spelled, named, fits, walked, entered⟩ := opens.inside
  have placed := placed_in_directory spelled named walked
  unfold FileTree.walk
  rw [opens.plain, opens.short, spelled, FileTree.walkFrom_goesOn walked, FileTree.walkFrom, entered,
    fits, if_neg (mt eq_of_beq named), placed]
  simp only [Bool.not_true, Bool.false_eq_true, if_false]
  cases disk.files.get? (directory ++ [name]) <;> rfl

theorem holds {content : Content}
    (found : disk.files.get? (disk.project.resolved path) = some (.file content)) :
    disk.Holds path content := by
  refine ⟨?_, found⟩
  rw [opens.walk, found]
  rfl

/-- Where nothing is, a document is missing. -/
theorem read_missing (absent : disk.files.get? (disk.project.resolved path) = none) :
    disk.read path = .error (.missing (disk.project.absolute path)) := by
  have nothing : disk.readText path = .error (.missing (disk.project.absolute path)) := by
    rw [readText_eq, locate, opens.walk, absent]
    rfl
  unfold read
  rw [nothing]
  rfl

/-- A document can be written unless a directory is in its place. -/
theorem write (free : disk.files.isDirectory (disk.project.resolved path) = false)
    (document : Document) :
    disk.write path document = (.ok (), { disk with
      written := disk.written ++ [path]
      files := disk.files.put (disk.project.resolved path)
        (.file (.text (Json.obj document).contents)) }) := by
  obtain ⟨above, name, directory, spelled, named, fits, walked, entered⟩ := opens.inside
  have placed := placed_in_directory spelled named walked
  have front : (parts (disk.project.absolute path)).dropLast = above := by
    rw [spelled, List.dropLast_concat]
  have last : (parts (disk.project.absolute path)).getLast? = some name := by
    rw [spelled, List.getLast?_concat]
  have shorter := above_fits (disk.project.absolute path)
  rw [front] at shorter
  have makes : ({ disk with written := disk.written ++ [path] } : Disk).makeParents
      (disk.project.absolute path)
        = (.ok directory, { disk with written := disk.written ++ [path] }) := by
    unfold makeParents
    dsimp only
    rw [front, shorter.1 opens.plain, shorter.2 opens.short,
      FileTree.makeFrom_of_walkFrom walked entered]
    rfl
  have notParent : (some name == some "..") = false := beq_false_of_ne fun same =>
    named (Option.some.inj same)
  rw [placed] at free ⊢
  unfold Disk.write writeText
  dsimp only
  rw [makes]
  dsimp only
  rw [last, opens.plain, opens.short, notParent]
  simp only [Option.toList_some, Option.any_some, fits, free, Bool.false_eq_true, if_false,
    Bool.or_self]

end Opens

/-- What can be read can be opened. -/
theorem Holds.opens {content : Content} (holds : disk.Holds path content) {name : String}
    (last : (parts path).getLast? = some name) (named : name ≠ "..") : disk.Opens path := by
  have ends : (parts (disk.project.absolute path)).getLast? = some name := Opens.last_absolute last
  obtain ⟨above, split⟩ := List.getLast?_eq_some_iff.mp ends
  obtain ⟨plain, short, walked⟩ := FileTree.walk_eq_ok.mp holds.walk
  rw [split] at walked
  obtain ⟨directory, walkedAbove, walkedLast⟩ := FileTree.walkFrom_append walked
  obtain ⟨isDirectory, shortName, _⟩ := FileTree.walkFrom_name named walkedLast
  exact ⟨plain, short, above, name, directory, split, named, shortName, walkedAbove, isDirectory⟩

/-- A document that is there can be written. -/
theorem write_of_holds {content : Content} (holds : disk.Holds path content) {name : String}
    (last : (parts path).getLast? = some name) (named : name ≠ "..") (document : Document) :
    disk.write path document = (.ok (), { disk with
      written := disk.written ++ [path]
      files := disk.files.put (disk.project.resolved path)
        (.file (.text (Json.obj document).contents)) }) := by
  apply (holds.opens last named).write
  rw [FileTree.isDirectory, holds.found]
  rfl

/-- A clean document is read as it was printed. -/
theorem Holds.read {document : Document}
    (holds : disk.Holds path (.text (Json.obj document).contents)) (clean : Document.Clean document) :
    disk.read path = .ok (.obj document) := by
  refine read_eq_ok.mpr ⟨_, _, holds, rfl, ?_⟩
  rw [Json.normalizeNewlines_contents (Document.clean_obj.mpr clean)]
  exact Json.readChars_contents (Document.clean_obj.mpr clean)

/-- What was written is found there. -/
theorem read_write {content : Content} (holds : disk.Holds path content) {name : String}
    (last : (parts path).getLast? = some name) (named : name ≠ "..") {document : Document}
    (clean : Document.Clean document) :
    (disk.write path document).2.read path = .ok (.obj document) := by
  have walked := (keeps_write disk path document).walk holds.walk
  rw [write_of_holds holds last named document] at walked ⊢
  refine Holds.read ⟨walked, ?_⟩ clean
  have inside : disk.project.resolved path ≠ [] := by
    intro top
    have found := holds.found
    rw [top] at found
    cases found
  exact (FileTree.get?_put _ _ _ _ inside).trans (if_pos rfl)

/-- What was written is found under any path that leads there. -/
theorem read_write_alike {other name : String} {value given : Json} (reads : disk.read path = .ok value)
    (beside : disk.read other = .ok given)
    (alike : disk.project.resolved other = disk.project.resolved path)
    (last : (parts path).getLast? = some name) (named : name ≠ "..") {document : Document}
    (clean : Document.Clean document) :
    (disk.write path document).2.read other = .ok (.obj document) := by
  obtain ⟨content, _, holds, _⟩ := read_eq_ok.mp reads
  obtain ⟨_, _, otherHolds, _⟩ := read_eq_ok.mp beside
  have same : (disk.write path document).2.project = disk.project := by
    rw [(puts_write disk path document).2]
  obtain ⟨later, decoded, laterHolds, decodes, parsed⟩ :=
    read_eq_ok.mp (read_write holds last named clean)
  have walked : (disk.write path document).2.files.walk (disk.project.absolute other)
      = .ok (disk.project.resolved other) := (keeps_write disk path document).walk otherHolds.walk
  have found := laterHolds.found
  rw [same, ← alike] at found
  have there : (disk.write path document).2.Holds other later := by
    constructor
    · rw [same]
      exact walked
    · rw [same]
      exact found
  exact read_eq_ok.mpr ⟨later, decoded, there, decodes, parsed⟩

/-! ### What can be read -/

/-- Whether there is a file at a path, whatever it holds. -/
def Readable (disk : Disk) (path : String) : Prop :=
  ∃ content, disk.Holds path content

theorem readable_of_read {value : Json} (reads : disk.read path = .ok value) : disk.Readable path := by
  rcases read_eq_ok.mp reads with ⟨content, _, holds, _⟩
  exact ⟨content, holds⟩

/-- A document that cannot be got at has no text. -/
theorem unread_of_access {fault : ReadFault} (refused : disk.read path = .error fault)
    (access : fault.isAccess = true) : disk.readText path = .error fault := by
  unfold read at refused
  cases taken : disk.readText path with
  | error given =>
      rw [taken] at refused
      cases refused
      rfl
  | ok chars =>
      rw [taken] at refused
      change (Json.readChars chars).mapError ReadFault.malformed = _ at refused
      cases parsed : Json.readChars chars with
      | ok value =>
          rw [parsed] at refused
          cases refused
      | error malformed =>
          rw [parsed] at refused
          cases refused
          cases access

/-- What a write that goes through puts is found there. -/
theorem holds_written {name : String} (last : (parts path).getLast? = some name) (named : name ≠ "..")
    {document : Document} (written : (disk.write path document).1 = .ok ()) :
    (disk.write path document).2.Holds path (.text (Json.obj document).contents) := by
  have ends : (parts (disk.project.absolute path)).getLast? = some name := Opens.last_absolute last
  obtain ⟨above, spelled⟩ := List.getLast?_eq_some_iff.mp ends
  have others := (puts_makeParents (disk.project.resolved path) (.text (Json.obj document).contents)
    { disk with written := disk.written ++ [path] } (disk.project.absolute path)).2
  unfold write writeText at written ⊢
  dsimp only at written ⊢
  rw [spelled, List.getLast?_concat] at written ⊢
  split at written
  · cases written
  · rename_i directory between makes
    obtain ⟨walked, isDirectory⟩ := makeParents_walk (congrArg Prod.fst makes)
    rw [makes] at others walked isDirectory
    rw [spelled, List.dropLast_concat] at walked
    split at written
    · cases written
    · rename_i plain
      split at written
      · cases written
      · rename_i short
        split at written
        · cases written
        · split at written
          · cases written
          · rename_i notParent free
            rw [if_neg plain, if_neg short, if_neg notParent, if_neg free]
            have same : between.project = disk.project := (congrArg Disk.project others :)
            have placed : disk.project.resolved path = directory ++ [name] := by
              rw [Project.resolved_eq, spelled, resolve_append_name above named,
                FileTree.walkFrom_place List.not_mem_nil walked]
              rfl
            have opens : between.Opens path := by
              rw [Bool.or_eq_true, not_or] at short
              rw [Bool.not_eq_true, ← same] at plain
              rw [Bool.not_eq_true, Bool.not_eq_true, ← same] at short
              exact ⟨plain, short.1, above, name, directory, same ▸ spelled, named, short.2,
                walked, isDirectory⟩
            have nothing := (Bool.not_eq_true _).mp free
            have puts : FileTree.Keeps (· = directory ++ [name]) between.files
                (between.files.put (directory ++ [name])
                  (.file (.text (Json.obj document).contents))) :=
              FileTree.keeps_put (Or.inr ⟨nofun, rfl, nothing⟩)
            have opensLater : Opens { between with
                files := between.files.put (directory ++ [name])
                  (.file (.text (Json.obj document).contents)) } path :=
              opens.keeps rfl puts
            apply opensLater.holds
            change FileTree.get? _ (between.project.resolved path) = _
            rw [same, placed]
            exact (FileTree.get?_put _ _ _ _ (by simp)).trans (if_pos rfl)

/-- A clean document is read as it was written. -/
theorem read_written {name : String} (last : (parts path).getLast? = some name) (named : name ≠ "..")
    {document : Document} (clean : Document.Clean document)
    (written : (disk.write path document).1 = .ok ()) :
    (disk.write path document).2.read path = .ok (.obj document) :=
  (holds_written last named written).read clean

/-- After it was written a document that can be opened holds what was written. -/
theorem Opens.holds_write (opens : disk.Opens path)
    (free : disk.files.isDirectory (disk.project.resolved path) = false)
    (inside : disk.project.resolved path ≠ []) (document : Document) :
    (disk.write path document).2.Holds path (.text (Json.obj document).contents) := by
  have opensLater : (disk.write path document).2.Opens path := by
    apply opens.keeps _ (keeps_write disk path document)
    rw [(puts_write disk path document).2]
  apply opensLater.holds
  rw [opens.write free document]
  exact (FileTree.get?_put _ _ _ _ inside).trans (if_pos rfl)

/-- A missing document stays missing where nothing but the content of files changes. -/
theorem missing_of_alters {own : Place → Prop} {shown : String} (same : after.project = disk.project)
    (alters : FileTree.Alters own disk.files after.files)
    (missing : disk.read path = .error (.missing shown)) :
    after.read path = .error (.missing shown) := by
  have unread := unread_of_access missing rfl
  have unreadLater : after.readText path = .error (.missing shown) := by
    rw [readText_eq, locate] at unread ⊢
    rw [same, alters.walk]
    cases walked : disk.files.walk (disk.project.absolute path) with
    | error reason =>
        rw [walked] at unread
        cases reason <;> exact unread
    | ok place =>
        rw [walked] at unread
        have absent : disk.files.get? place = none := textOf_missing unread
        rcases alters place with still | ⟨_, ⟨content, held⟩, _⟩
        · change textOf _ (after.files.get? place) = _
          rw [still]
          exact unread
        · rw [held] at absent
          cases absent
  unfold read
  rw [unreadLater]
  rfl

/-! ### Where no file is -/

/-- Whether no file is at a path. -/
def Vacant (disk : Disk) (path : String) : Prop :=
  ∀ content, disk.files.get? (disk.project.resolved path) ≠ some (.file content)

theorem Vacant.unread (vacant : disk.Vacant path) (value : Json) : disk.read path ≠ .ok value := by
  intro reads
  obtain ⟨content, _, holds, _⟩ := read_eq_ok.mp reads
  exact vacant content holds.found

theorem Vacant.puts {target : Place} {content : Content} (vacant : disk.Vacant path)
    (same : after.project = disk.project) (puts : disk.files.Puts target content after.files)
    (elsewhere : disk.project.resolved path ≠ target) : after.Vacant path := by
  intro held found
  rw [same] at found
  rcases puts.files _ held found with before | ⟨place, _⟩
  · exact vacant held before
  · exact elsewhere place

end RefSync.Disk
