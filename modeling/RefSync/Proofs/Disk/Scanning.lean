/-
What is found by looking through directories. Documents that come to be are no sources, they make
no directories, and where one is put into a directory with files there were files already.
-/

import RefSync.Proofs.Disk.Accepts
import RefSync.Proofs.Glob

namespace RefSync

open Path

theorem sortTexts_congr {texts others : List String} (once : texts.Nodup) (otherOnce : others.Nodup)
    (same : ∀ text, text ∈ texts ↔ text ∈ others) : sortTexts texts = sortTexts others := by
  have perm : (sortTexts texts).Perm (sortTexts others) :=
    (sortBy_perm texts).trans (((List.perm_ext_iff_of_nodup once otherOnce).mpr same).trans
      (sortBy_perm others).symm)
  exact perm.eq_of_pairwise (fun _ _ _ _ => String.le_antisymm) (sortTexts_pairwise texts)
    (sortTexts_pairwise others)

namespace Disk

variable {disk after : Disk}

/-- Files that come to be change nothing about the workspaces that globs match. -/
theorem discover_gains {own : Place → Prop} (same : after.project = disk.project)
    (gains : FileTree.Gains own disk.files after.files) (proper : disk.files.IsProper)
    (named : ∀ place name, own (place ++ [name]) → IsName name) (globs : List String) :
    after.discover globs = disk.discover globs := by
  have expands (pattern path : String)
      (directory : disk.files.isDirectoryPath (disk.project.absolute path) = true) :
      path ∈ Glob.expand after.files disk.project.root pattern
        ↔ path ∈ Glob.expand disk.files disk.project.root pattern := by
    unfold Glob.expand
    split
    · rfl
    · rw [Glob.mem_expandFrom, Glob.mem_expandFrom]
      refine ⟨fun matched => Glob.matches_of_gains gains proper named matched ?_,
        Glob.matches_gains gains⟩
      rw [← gains.isDirectoryPath] at directory
      obtain ⟨place, walked, entered⟩ := FileTree.isDirectoryPath_iff.mp directory
      have leads := (FileTree.walk_eq_ok.mp walked).2.2
      rw [Project.parts_absolute] at leads
      exact ⟨place, leads, entered⟩
  unfold discover
  dsimp only
  rw [same]
  split
  · rfl
  · refine congrArg Except.ok (sortTexts_congr (distinct_nodup _) (distinct_nodup _) fun text => ?_)
    rw [mem_distinct, mem_distinct, List.mem_map, List.mem_map]
    refine exists_congr fun path => and_congr_left fun _ => ?_
    rw [List.mem_filter, List.mem_filter, gains.isDirectoryPath]
    refine and_congr_left fun directory => ?_
    rw [List.mem_flatMap, List.mem_flatMap]
    exact exists_congr fun pattern => and_congr_right fun _ => expands pattern path directory

/-! ### Files below a directory -/

section

variable {tree : FileTree} {place : Place} {content : Content}

theorem filterMap_putIn {β : Type} {choose : Place × Entry → Option β} {entry : Entry}
    (silent : ∀ entry, choose (place, entry) = none) (entries : List (Place × Entry)) :
    (FileTree.putIn place entry entries).filterMap choose = entries.filterMap choose := by
  induction entries with
  | nil => simp only [FileTree.putIn, List.filterMap_cons, silent, List.filterMap_nil]
  | cons head rest ih =>
      obtain ⟨other, present⟩ := head
      rw [FileTree.putIn]
      split
      · rename_i same
        rw [eq_of_beq same, List.filterMap_cons, List.filterMap_cons, silent, silent]
      · rw [List.filterMap_cons, List.filterMap_cons, ih]

theorem contents_of_directory {path : String} {here : Place} (walked : tree.walk path = .ok here)
    (entered : tree.isDirectory here = true) : tree.contents path = tree.below here := by
  unfold FileTree.contents
  rw [walked]
  exact if_pos entered

theorem contents_of_closed {path : String} (closed : tree.isDirectoryPath path = false) :
    tree.contents path = [] := by
  unfold FileTree.contents
  split
  · rename_i here walked
    refine if_neg fun entered => ?_
    rw [FileTree.isDirectoryPath_iff.mpr ⟨here, walked, entered⟩] at closed
    cases closed
  · rfl

/-- What is below the same directory before and after some file has come to be. -/
theorem contents_put {β : Type} {choose : List String × Entry → Option β}
    (free : tree.isDirectory place = false)
    (silent : ∀ length entry, length < place.length → choose (place.drop length, entry) = none)
    (path : String) : ((tree.put place (.file content)).contents path).filterMap choose
      = (tree.contents path).filterMap choose := by
  have gains : FileTree.Gains (place = ·) tree (tree.put place (.file content)) :=
    FileTree.gains_put rfl free content
  cases directory : tree.isDirectoryPath path with
  | false =>
      rw [contents_of_closed directory, contents_of_closed ((gains.isDirectoryPath path).trans directory)]
  | true =>
      obtain ⟨here, walked, entered⟩ := FileTree.isDirectoryPath_iff.mp directory
      rw [contents_of_directory walked entered, contents_of_directory (gains.keeps.walk walked)
        ((gains.isDirectory here).trans entered), FileTree.below, FileTree.below,
        List.filterMap_filterMap, List.filterMap_filterMap, FileTree.put]
      refine filterMap_putIn (fun entry => ?_) tree.entries
      dsimp only
      split
      · rename_i inside
        rw [Bool.and_eq_true, decide_eq_true_eq] at inside
        exact silent here.length entry inside.2
      · rfl

theorem mem_contents {path : String} {rest : List String} {entry : Entry} :
    (rest, entry) ∈ tree.contents path ↔ ∃ here, tree.walk path = .ok here
      ∧ tree.isDirectory here = true ∧ rest ≠ [] ∧ (here ++ rest, entry) ∈ tree.entries := by
  have belowIff (here : Place) : (rest, entry) ∈ tree.below here
      ↔ rest ≠ [] ∧ (here ++ rest, entry) ∈ tree.entries := by
    rw [FileTree.below, List.mem_filterMap]
    constructor
    · rintro ⟨⟨other, present⟩, member, chosen⟩
      dsimp only at chosen
      split at chosen
      · rename_i inside
        cases chosen
        rw [Bool.and_eq_true, decide_eq_true_eq, List.isPrefixOf_iff_prefix] at inside
        obtain ⟨⟨after, rfl⟩, longer⟩ := inside
        rw [List.length_append] at longer
        rw [List.drop_left]
        refine ⟨fun empty => ?_, member⟩
        rw [empty, List.length_nil] at longer
        omega
      · cases chosen
    · rintro ⟨some, member⟩
      refine ⟨_, member, ?_⟩
      have longer : here.length < (here ++ rest).length := by
        have := List.length_pos_iff.mpr some
        rw [List.length_append]
        omega
      have inside : (here.isPrefixOf (here ++ rest)) = true :=
        List.isPrefixOf_iff_prefix.mpr (List.prefix_append here rest)
      dsimp only
      rw [inside, decide_eq_true longer, List.drop_left]
      rfl
  cases directory : tree.isDirectoryPath path with
  | false =>
      rw [contents_of_closed directory]
      refine ⟨nofun, ?_⟩
      rintro ⟨here, walked, entered, _⟩
      rw [FileTree.isDirectoryPath_iff.mpr ⟨here, walked, entered⟩] at directory
      cases directory
  | true =>
      obtain ⟨here, walked, entered⟩ := FileTree.isDirectoryPath_iff.mp directory
      rw [contents_of_directory walked entered, belowIff]
      constructor
      · rintro ⟨some, member⟩
        exact ⟨here, walked, entered, some, member⟩
      · rintro ⟨other, again, _, some, member⟩
        cases walked.symm.trans again
        exact ⟨some, member⟩

theorem mem_putIn {other : Place} {entry present : Entry} {entries : List (Place × Entry)}
    (member : (other, present) ∈ FileTree.putIn place entry entries) :
    (other = place ∧ present = entry) ∨ (other, present) ∈ entries := by
  induction entries with
  | nil => exact Or.inl (Prod.mk.inj (List.mem_singleton.mp member))
  | cons head rest ih =>
      obtain ⟨first, held⟩ := head
      rw [FileTree.putIn] at member
      split at member
      · rcases List.mem_cons.mp member with same | inRest
        · exact Or.inl (Prod.mk.inj same)
        · exact Or.inr (List.mem_cons_of_mem _ inRest)
      · rcases List.mem_cons.mp member with same | inRest
        · exact Or.inr (same ▸ List.mem_cons_self)
        · exact (ih inRest).imp_right (List.mem_cons_of_mem _)

theorem mem_putIn_of_mem {other : Place} {entry present : Entry} {entries : List (Place × Entry)}
    (member : (other, present) ∈ entries) : (other, present) ∈ FileTree.putIn place entry entries
      ∨ (other, entry) ∈ FileTree.putIn place entry entries := by
  induction entries with
  | nil => cases member
  | cons head rest ih =>
      obtain ⟨first, held⟩ := head
      rw [FileTree.putIn]
      split
      · rename_i same
        rcases List.mem_cons.mp member with here | inRest
        · rw [(Prod.mk.inj here).1, eq_of_beq same]
          exact Or.inr List.mem_cons_self
        · exact Or.inl (List.mem_cons_of_mem _ inRest)
      · rcases List.mem_cons.mp member with here | inRest
        · exact Or.inl (here ▸ List.mem_cons_self)
        · exact (ih inRest).imp (List.mem_cons_of_mem _) (List.mem_cons_of_mem _)

end

/-- A document that comes to be is no source. -/
theorem sources_put {place : Place} {name : String} (last : place.getLast? = some name)
    (plain : (name.endsWith ".ts" || name.endsWith ".tsx") = false)
    (free : disk.files.isDirectory place = false) {content : Content}
    (same : after.project = disk.project) (puts : after.files = disk.files.put place (.file content))
    (directory : String) : after.sources directory = disk.sources directory := by
  unfold sources filesBelow entriesBelow
  rw [List.filter_filterMap, List.filter_filterMap, puts, same]
  refine congrArg (sortBy textsPrecede) (contents_put free (fun length entry shorter => ?_) _)
  dsimp only
  split
  · rfl
  · have ends : (place.drop length).getLast? = some name := by
      rw [List.getLast?_drop, if_neg (by omega), last]
    rw [Option.filter_some, isSource, ends, Option.any_some, plain]
    rfl

/-- Whether components lead through no ignored directory. -/
def IsOpenWay (components : List String) : Prop :=
  ∀ part ∈ components, part ∉ ignoredDirectories

theorem mem_filesBelow {directory : String} {parts : List String} :
    parts ∈ disk.filesBelow directory
      ↔ ∃ entry, (parts, entry) ∈ disk.entriesBelow directory ∧ entry ≠ .directory
        ∧ IsOpenWay parts.dropLast := by
  have chosen (rest : List String) (entry : Entry) :
      (if entry == .directory || rest.dropLast.any ignoredDirectories.contains then none
        else some rest) = some parts
        ↔ entry ≠ .directory ∧ IsOpenWay rest.dropLast ∧ rest = parts := by
    split
    · rename_i hidden
      refine ⟨nofun, ?_⟩
      rintro ⟨notDirectory, isOpen, _⟩
      rw [Bool.or_eq_true, beq_iff_eq, List.any_eq_true] at hidden
      obtain ⟨part, member, ignored⟩ := hidden.resolve_left notDirectory
      exact absurd (List.contains_iff_mem.mp ignored) (isOpen part member)
    · rename_i seen
      rw [Bool.or_eq_true, beq_iff_eq, List.any_eq_true, not_or] at seen
      refine ⟨fun same => ⟨seen.1, fun part member ignored => ?_, Option.some.inj same⟩,
        fun ⟨_, _, same⟩ => congrArg some same⟩
      exact seen.2 ⟨part, member, List.contains_iff_mem.mpr ignored⟩
  unfold filesBelow
  rw [List.mem_filterMap]
  constructor
  · rintro ⟨⟨rest, entry⟩, there, same⟩
    obtain ⟨notDirectory, isOpen, rfl⟩ := (chosen rest entry).mp same
    exact ⟨entry, there, notDirectory, isOpen⟩
  · rintro ⟨entry, there, notDirectory, isOpen⟩
    exact ⟨(parts, entry), there, (chosen parts entry).mpr ⟨notDirectory, isOpen, rfl⟩⟩

theorem hasFiles_iff {directory : String} : disk.hasFiles directory = true
    ↔ ∃ here, disk.files.walk (disk.project.absolute directory) = .ok here
      ∧ disk.files.isDirectory here = true ∧ ∃ rest entry, rest ≠ []
        ∧ (here ++ rest, entry) ∈ disk.files.entries ∧ entry ≠ .directory ∧ IsOpenWay rest.dropLast := by
  unfold hasFiles
  rw [Bool.not_eq_true', List.isEmpty_eq_false_iff_exists_mem]
  constructor
  · rintro ⟨rest, member⟩
    obtain ⟨entry, there, notDirectory, isOpen⟩ := mem_filesBelow.mp member
    obtain ⟨here, walked, entered, some, held⟩ := mem_contents.mp there
    exact ⟨here, walked, entered, rest, entry, some, held, notDirectory, isOpen⟩
  · rintro ⟨here, walked, entered, rest, entry, some, held, notDirectory, isOpen⟩
    have there : (rest, entry) ∈ disk.entriesBelow directory :=
      mem_contents.mpr ⟨here, walked, entered, some, held⟩
    exact ⟨rest, mem_filesBelow.mpr ⟨entry, there, notDirectory, isOpen⟩⟩

/-- A document that comes to be in a directory with files is not the first file anywhere. -/
theorem hasFiles_put {owner name : String} {here : Place}
    (walked : disk.files.walk (disk.project.absolute owner) = .ok here)
    (filled : disk.hasFiles owner = true) (free : disk.files.isDirectory (here ++ [name]) = false)
    {content : Content} (same : after.project = disk.project)
    (puts : after.files = disk.files.put (here ++ [name]) (.file content)) (directory : String) :
    after.hasFiles directory = disk.hasFiles directory := by
  have gains : FileTree.Gains (here ++ [name] = ·) disk.files after.files := by
    rw [puts]
    exact FileTree.gains_put rfl free content
  have entries : after.files.entries
      = FileTree.putIn (here ++ [name]) (.file content) disk.files.entries := by
    rw [puts]
    rfl
  rw [Bool.eq_iff_iff, hasFiles_iff, hasFiles_iff, same]
  constructor
  · rintro ⟨above, leads, entered, rest, entry, some, member, notDirectory, isOpen⟩
    refine ⟨above, gains.walk leads entered, gains.isDirectory above ▸ entered, ?_⟩
    rw [entries] at member
    rcases mem_putIn member with ⟨placed, _⟩ | before
    · -- The way to the new file goes on to a file that was there.
      obtain ⟨front, last, rfl⟩ : ∃ front last, rest = front ++ [last] :=
        ⟨_, _, (List.dropLast_concat_getLast some).symm⟩
      rw [← List.append_assoc] at placed
      have inside : above ++ front = here := (List.append_inj' placed rfl).1
      rw [List.dropLast_concat] at isOpen
      obtain ⟨other, again, _, more, present, filled, held, isFile, goesOn⟩ := hasFiles_iff.mp filled
      cases walked.symm.trans again
      refine ⟨front ++ more, present, List.append_ne_nil_of_right_ne_nil _ filled, ?_, isFile, ?_⟩
      · rw [← List.append_assoc, inside]
        exact held
      · rw [List.dropLast_append_of_ne_nil filled]
        intro part member
        rcases List.mem_append.mp member with before | after
        · exact isOpen part before
        · exact goesOn part after
    · exact ⟨rest, entry, some, before, notDirectory, isOpen⟩
  · rintro ⟨above, leads, entered, rest, entry, some, member, notDirectory, isOpen⟩
    refine ⟨above, gains.keeps.walk leads, (gains.isDirectory above).trans entered, ?_⟩
    rw [entries]
    rcases mem_putIn_of_mem member with stays | becomes
    · exact ⟨rest, entry, some, stays, notDirectory, isOpen⟩
    · exact ⟨rest, _, some, becomes, nofun, isOpen⟩

/-! ### Documents in a directory -/

/-- Whether a path leads to a directory. -/
structure Enters (disk : Disk) (directory : String) : Prop where
  walk : disk.files.walk (disk.project.absolute directory) = .ok (disk.project.resolved directory)
  isDirectory : disk.files.isDirectory (disk.project.resolved directory) = true

theorem enters_of_walk {directory : String} {here : Place}
    (walked : disk.files.walk (disk.project.absolute directory) = .ok here)
    (entered : disk.files.isDirectory here = true) : disk.Enters directory := by
  have placed : here = disk.project.resolved directory := by
    rw [FileTree.walk_place walked, Project.resolved_eq]
  rw [placed] at walked entered
  exact ⟨walked, entered⟩

theorem enters_of_hasFiles {directory : String} (filled : disk.hasFiles directory = true) :
    disk.Enters directory := by
  obtain ⟨here, walked, entered, _⟩ := hasFiles_iff.mp filled
  exact enters_of_walk walked entered

theorem Enters.gains {own : Place → Prop} {directory : String} (enters : disk.Enters directory)
    (same : after.project = disk.project) (gains : FileTree.Gains own disk.files after.files) :
    after.Enters directory := by
  constructor
  · rw [same]
    exact gains.keeps.walk enters.walk
  · rw [same, gains.isDirectory]
    exact enters.isDirectory

section

variable {directory path name : String} (inside : disk.project.Inside directory path name)

include inside

/-- A document that can be read is a file of its directory. -/
theorem hasFiles_of_readable (readable : disk.Readable path) : disk.hasFiles directory = true := by
  obtain ⟨here, walked, entered⟩ := walk_inside inside readable
  have placed : here = disk.project.resolved directory := by
    rw [FileTree.walk_place walked, Project.resolved_eq]
  obtain ⟨content, holds⟩ := readable
  have found := holds.found
  have filled : (disk.project.resolved directory ++ [name]).isEmpty = false := by simp
  rw [inside.resolved, FileTree.get?, filled, if_neg (by decide)] at found
  obtain ⟨front, rest, spelled, _⟩ := List.lookup_eq_some_iff.mp found
  refine hasFiles_iff.mpr ⟨here, walked, entered, [name], .file content, List.cons_ne_nil _ _, ?_,
    (fun impossible => by cases impossible), List.forall_mem_nil _⟩
  rw [spelled, placed]
  exact List.mem_append_right _ List.mem_cons_self

/-- What is read in a directory is a matter of what is in that place. -/
theorem read_congr (same : after.project = disk.project) (enters : disk.Enters directory)
    (entersAfter : after.Enters directory)
    (held : after.files.get? (disk.project.resolved path) = disk.files.get? (disk.project.resolved path)) :
    after.read path = disk.read path := by
  have walked : after.files.walk (after.project.absolute path)
      = disk.files.walk (disk.project.absolute path) := by
    have above := (FileTree.walk_eq_ok.mp enters.walk).2.2
    have aboveAfter := (FileTree.walk_eq_ok.mp entersAfter.walk).2.2
    have entered := entersAfter.isDirectory
    rw [same] at aboveAfter entered
    rw [inside.resolved] at held
    have last : after.files.walkFrom (disk.project.resolved directory) [name]
        = disk.files.walkFrom (disk.project.resolved directory) [name] := by
      simp only [FileTree.walkFrom, entered, enters.isDirectory, held]
    unfold FileTree.walk
    rw [same, inside.parts, FileTree.walkFrom_goesOn above, FileTree.walkFrom_goesOn aboveAfter, last]
  unfold read
  rw [readText_eq, readText_eq, locate, locate, walked]
  cases place : disk.files.walk (disk.project.absolute path) with
  | error fault =>
      rw [same]
      cases fault <;> rfl
  | ok there =>
      have placed : there = disk.project.resolved path := by
        rw [FileTree.walk_place place, Project.resolved_eq]
      change (textOf _ (after.files.get? there) >>= _) = (textOf _ (disk.files.get? there) >>= _)
      rw [placed, held, same]

variable (enters : disk.Enters directory)

include enters

theorem makeParents_inside :
    (∃ fault, disk.makeParents (disk.project.absolute path) = (.error fault, disk))
      ∨ disk.makeParents (disk.project.absolute path) = (.ok (disk.project.resolved directory), disk) := by
  have makes : disk.files.makeFrom false [] (parts (disk.project.absolute directory))
      = (.ok (disk.project.resolved directory), disk.files) :=
    FileTree.makeFrom_of_walkFrom (FileTree.walk_eq_ok.mp enters.walk).2.2 enters.isDirectory
  unfold makeParents
  dsimp only
  rw [inside.parts, List.dropLast_concat, makes]
  split
  · exact Or.inl ⟨_, rfl⟩
  · split
    · exact Or.inl ⟨_, rfl⟩
    · exact Or.inr rfl

theorem writeText_inside (text : List Char) :
    (∃ problem, (disk.writeText path text).1 = .error problem)
        ∧ (disk.writeText path text).2.files = disk.files
      ∨ disk.files.isDirectory (disk.project.resolved path) = false
        ∧ (disk.writeText path text).1 = .ok ()
        ∧ (disk.writeText path text).2.files
          = disk.files.put (disk.project.resolved path) (.file (.text text)) := by
  unfold writeText
  dsimp only
  rcases makeParents_inside inside enters with ⟨fault, refused⟩ | made
  · rw [refused]
    exact Or.inl ⟨⟨fault, rfl⟩, rfl⟩
  · rw [made, inside.parts, List.getLast?_concat, inside.resolved]
    dsimp only
    split
    · exact Or.inl ⟨⟨_, rfl⟩, rfl⟩
    · split
      · exact Or.inl ⟨⟨_, rfl⟩, rfl⟩
      · split
        · exact Or.inl ⟨⟨_, rfl⟩, rfl⟩
        · split
          · exact Or.inl ⟨⟨_, rfl⟩, rfl⟩
          · rename_i free
            exact Or.inr ⟨(Bool.not_eq_true _).mp free, rfl, rfl⟩

/-- A document is put into the directory that is there, or nothing is. -/
theorem write_inside (document : Document) :
    (∃ problem, (disk.write path document).1 = .error problem)
        ∧ (disk.write path document).2.files = disk.files
      ∨ disk.files.isDirectory (disk.project.resolved path) = false
        ∧ (disk.write path document).1 = .ok ()
        ∧ (disk.write path document).2.files
          = disk.files.put (disk.project.resolved path) (.file (.text (Json.obj document).contents)) := by
  let noted : Disk := { disk with written := disk.written ++ [path] }
  have insideThen : noted.project.Inside directory path name := inside
  have entersThen : noted.Enters directory := ⟨enters.walk, enters.isDirectory⟩
  exact writeText_inside insideThen entersThen (Json.obj document).contents

end

end Disk
end RefSync
