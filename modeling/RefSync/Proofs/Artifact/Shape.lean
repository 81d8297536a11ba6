/-
The documents of a program. File names and lists stand in arrays or under the texts of their
positions, pairs and ids in any order and as often as one likes: what is read of a document is the
program, so the workspaces that its files belong to are the same whichever way it was written.
-/

import Mathlib.Data.List.Perm.Basic
import Mathlib.Data.Nat.Digits.Defs
import RefSync.Proofs.Json.Number
import RefSync.Proofs.Watch.Discovery

namespace RefSync

open Validation

/-! ### Positions as keys -/

/-- A position is read from its text, as long as that is not too long for an integer. -/
theorem integerText_toString {position : Nat} (short : position < 10 ^ integerLimit) :
    integerText (toString position) = .ok position := by
  have whole := Json.isWhole_toDigits position
  have spelled : (toString position).toList = Nat.toDigits 10 position := by simp
  have fits : (Nat.toDigits 10 position).length ≤ integerLimit :=
    (Nat.length_toDigits_le_iff (by decide) (by decide)).mpr short
  rw [integerText, spelled, plainInteger_digits whole.all whole.filled whole.bare fits,
    Nat.ofDigitChars_ten_toDigits]

namespace Artifact

/-- Values with their positions. -/
def positions {α : Type} (values : List α) : List (Int × α) :=
  values.mapIdx fun index value => ((index : Int), value)

theorem mem_positions {α : Type} {values : List α} {index : Int} {value : α} :
    (index, value) ∈ positions values
      ↔ ∃ position : Nat, index = position ∧ values[position]? = some value := by
  rw [positions, List.mem_mapIdx]
  constructor
  · rintro ⟨position, bound, same⟩
    cases same
    exact ⟨position, rfl, List.getElem?_eq_getElem bound⟩
  · rintro ⟨position, rfl, found⟩
    obtain ⟨bound, rfl⟩ := List.getElem?_eq_some_iff.mp found
    exact ⟨position, bound, rfl⟩

/-- Whether a value holds some others by their positions: in an array, or in an object under the
texts of the positions, in any order. -/
inductive Indexes (values : List Json) : Json → Prop where
  | array : Indexes values (.arr values)
  | object (members : Document)
      (keyed : members.Perm (values.mapIdx fun index value => (toString index, value))) :
      Indexes values (.obj members)

theorem setEntry_of_absent {α : Type} {key : Int} (value : α) {entries : List (Int × α)}
    (absent : key ∉ entries.map (·.1)) : setEntry key value entries = entries ++ [(key, value)] := by
  induction entries with
  | nil => rfl
  | cons head rest ih =>
      obtain ⟨first, present⟩ := head
      rw [List.map_cons, List.mem_cons, not_or] at absent
      rw [setEntry, if_neg (Ne.symm absent.1), ih absent.2]
      rfl

/-- Keys that stand once each are all kept, in their order. -/
theorem collapse_of_distinct {α : Type} {entries : List (Int × α)} (distinct : KeysDistinct entries) :
    collapse entries = entries := by
  have general : ∀ rest before : List (Int × α), KeysDistinct (before ++ rest) →
      rest.foldl (fun table entry => setEntry entry.1 entry.2 table) before = before ++ rest := by
    intro rest
    induction rest with
    | nil => exact fun before _ => (List.append_nil before).symm
    | cons head others ih =>
        intro before distinct
        have absent : head.1 ∉ before.map (·.1) := by
          unfold KeysDistinct at distinct
          rw [List.map_append, List.map_cons, List.nodup_append] at distinct
          exact fun member => distinct.2.2 head.1 member head.1 List.mem_cons_self rfl
        have moved : before ++ head :: others = before ++ [head] ++ others := by
          rw [List.append_assoc, List.singleton_append]
        rw [List.foldl_cons, setEntry_of_absent head.2 absent, moved]
        exact ih _ (moved ▸ distinct)
  exact general entries [] distinct

section

variable {α : Type} {check : Json → Checked α} {values : List Json} {results : List α}

theorem items_eq_ok (checked : List.Forall₂ (fun value result => check value = .ok result) values results) :
    items check values = .ok results := by
  rw [items, every_eq_ok_iff]
  apply List.ext_getElem
  · rw [List.length_mapIdx, List.length_map, checked.length_eq]
  · intro position bound otherBound
    rw [List.getElem_mapIdx, List.getElem_map]
    rw [List.length_mapIdx] at bound
    exact within_eq_ok_iff.mpr (checked.get bound (checked.length_eq ▸ bound))

theorem entry_toString {position : Nat} {value : Json} {result : α}
    (read : integerText (toString position) = .ok (position : Int)) (checked : check value = .ok result) :
    entry check (toString position) value = .ok ((position : Int), result) := by
  have index : integer (.str (toString position)) = .ok (position : Int) := by
    rw [integer, integerOfText, read]
  exact both_eq_ok_iff.mpr
    ⟨within_eq_ok_iff.mpr (within_eq_ok_iff.mpr index), within_eq_ok_iff.mpr checked⟩

/-- Entries that were each read are all there, whatever their order in the object. -/
theorem table_obj_eq_ok {members : Document} {entries : List (Int × α)}
    (each : List.Forall₂ (fun (member : String × Json) read =>
      entry check member.1 member.2 = .ok read) members entries)
    (distinct : KeysDistinct entries) : table check (.obj members) = .ok entries := by
  have all : every (members.map fun member => entry check member.1 member.2) = .ok entries := by
    rw [every_eq_ok_iff, ← List.forall₂_eq_eq_eq, List.forall₂_map_left_iff,
      List.forall₂_map_right_iff]
    exact each
  exact map_eq_ok_iff.mpr ⟨entries, all, collapse_of_distinct distinct⟩

/-- Values that are held by their positions are read with these. -/
theorem table_eq_ok {value : Json} (indexes : Indexes values value)
    (checked : List.Forall₂ (fun value result => check value = .ok result) values results)
    (read : ∀ position < values.length, integerText (toString position) = .ok (position : Int)) :
    ∃ entries, table check value = .ok entries ∧ entries.Perm (positions results) := by
  cases indexes with
  | array =>
      refine ⟨positions results, ?_, .refl _⟩
      rw [table, items_eq_ok checked]
      rfl
  | object members keyed =>
      have each : List.Forall₂ (fun (member : String × Json) result =>
          entry check member.1 member.2 = .ok result)
          (values.mapIdx fun index value => (toString index, value)) (positions results) := by
        rw [List.forall₂_iff_get]
        have lengths := checked.length_eq
        refine ⟨by rw [positions, List.length_mapIdx, List.length_mapIdx, lengths], ?_⟩
        intro position bound otherBound
        rw [List.length_mapIdx] at bound
        simp only [positions, List.get_eq_getElem, List.getElem_mapIdx]
        exact entry_toString (read position bound) (checked.get bound (lengths ▸ bound))
      obtain ⟨entries, checkedEntries, order⟩ := List.perm_comp_forall₂ keyed each
      refine ⟨entries, table_obj_eq_ok checkedEntries ?_, order⟩
      exact (order.map _).nodup_iff.mpr (keysDistinct_positions results)

end

/-! ### Programs -/

/-- A program as its documents spell it: the file names and the lists of file ids in the order of
their positions, and the pairs that lead from a file id to a list id. -/
structure Program where
  fileNames : List String
  fileIdsLists : List (List Int)
  pairs : List (Int × Int)

namespace Program

def nameValues (program : Program) : List Json :=
  program.fileNames.map .str

def listValues (program : Program) : List Json :=
  program.fileIdsLists.map fun ids => .arr (ids.map .int)

def pairValues (program : Program) : List Json :=
  program.pairs.map fun (file, list) => .arr [.int file, .int list]

/-- Whether a value is a document of a program; other members of it say nothing. -/
structure IsSpelledBy (program : Program) (value : Json) : Prop where
  tables : ∃ document members names lists, value = .obj document
    ∧ Table.get? document "program" = some (.obj members)
    ∧ Table.get? members "fileNames" = some names ∧ Indexes program.nameValues names
    ∧ Table.get? members "referencedMap" = some (.arr program.pairValues)
    ∧ Table.get? members "fileIdsList" = some lists ∧ Indexes program.listValues lists

/-- The same names, and the same pairs and ids, in any order and as often as one likes. -/
structure Same (program other : Program) : Prop where
  fileNames : other.fileNames = program.fileNames
  fileIdsLists : List.Forall₂ (fun ids others => ∀ id : Int, id ∈ others ↔ id ∈ ids)
    program.fileIdsLists other.fileIdsLists
  pairs : ∀ pair, pair ∈ other.pairs ↔ pair ∈ program.pairs

theorem Same.symm {program other : Program} (same : program.Same other) : other.Same program where
  fileNames := same.fileNames.symm
  fileIdsLists := same.fileIdsLists.flip.imp fun _ _ members id => (members id).symm
  pairs pair := (same.pairs pair).symm

/-- The texts of all positions that a program has are read as these. -/
def PositionsRead (program : Program) : Prop :=
  ∀ position < max program.fileNames.length program.fileIdsLists.length,
    integerText (toString position) = .ok (position : Int)

theorem Same.positionsRead {program other : Program} (same : program.Same other)
    (read : program.PositionsRead) : other.PositionsRead := by
  unfold PositionsRead
  rw [same.fileNames, ← same.fileIdsLists.length_eq]
  exact read

/-- As many positions as an integer can have digits for are few enough. -/
theorem positionsRead_of_short {program : Program}
    (short : max program.fileNames.length program.fileIdsLists.length ≤ 10 ^ integerLimit) :
    program.PositionsRead :=
  fun _ below => integerText_toString (below.trans_le short)

theorem checked_names (program : Program) :
    List.Forall₂ (fun value name => text value = .ok name) program.nameValues program.fileNames := by
  rw [nameValues, List.forall₂_map_left_iff]
  exact List.forall₂_same.mpr fun _ _ => rfl

theorem checked_pairs (program : Program) :
    List.Forall₂ (fun value both => pair value = .ok both) program.pairValues program.pairs := by
  rw [pairValues, List.forall₂_map_left_iff]
  exact List.forall₂_same.mpr fun _ _ => rfl

theorem checked_lists (program : Program) :
    List.Forall₂ (fun value ids => list integer value = .ok ids) program.listValues
      program.fileIdsLists := by
  rw [listValues, List.forall₂_map_left_iff]
  refine List.forall₂_same.mpr fun ids _ => items_eq_ok ?_
  rw [List.forall₂_map_left_iff]
  exact List.forall₂_same.mpr fun _ _ => rfl

/-- A document of a program is read as the program: its tables are those of the positions. -/
theorem validate_of_spelled {program : Program} {value : Json} (spelled : program.IsSpelledBy value)
    (read : program.PositionsRead) :
    ∃ artifact, validate value = .ok artifact
      ∧ artifact.fileNames.Perm (positions program.fileNames)
      ∧ artifact.referencedMap = program.pairs
      ∧ artifact.fileIdsList.Perm (positions program.fileIdsLists) := by
  obtain ⟨document, members, names, lists, rfl, held, named, namesIndexed, paired, listed,
    listsIndexed⟩ := spelled.tables
  obtain ⟨fileNames, namesRead, namesOrder⟩ := table_eq_ok namesIndexed program.checked_names
    fun position below => read position (lt_max_of_lt_left (program.checked_names.length_eq ▸ below))
  obtain ⟨fileIdsList, listsRead, listsOrder⟩ := table_eq_ok listsIndexed program.checked_lists
    fun position below => read position (lt_max_of_lt_right (program.checked_lists.length_eq ▸ below))
  have pairsRead : list pair (.arr program.pairValues) = .ok program.pairs :=
    items_eq_ok program.checked_pairs
  have checkedNames : checkFileNames (lookup members "fileNames" "file_names") = .ok fileNames := by
    rw [lookup, named]
    exact namesRead
  have checkedPairs :
      checkReferencedMap (lookup members "referencedMap" "referenced_map") = .ok program.pairs := by
    rw [lookup, paired]
    exact pairsRead
  have checkedLists : checkFileIdsList (lookup members "fileIdsList" "file_ids_list") = .ok fileIdsList := by
    rw [lookup, listed]
    exact listsRead
  refine ⟨⟨fileNames, program.pairs, fileIdsList⟩, ?_, namesOrder, rfl, listsOrder⟩
  refine mapError_eq_ok_iff.mpr (within_eq_ok_iff.mpr ?_)
  rw [held]
  refine map_eq_ok_iff.mpr ⟨(fileNames, program.pairs, fileIdsList), ?_, rfl⟩
  exact both_eq_ok_iff.mpr ⟨within_eq_ok_iff.mpr checkedNames,
    both_eq_ok_iff.mpr ⟨within_eq_ok_iff.mpr checkedPairs, within_eq_ok_iff.mpr checkedLists⟩⟩

end Program

/-! ### What an artifact tells -/

/-- Whether an artifact tells all that another one tells. -/
structure Includes (artifact other : Artifact) : Prop where
  fileNames : other.fileNames ⊆ artifact.fileNames
  referencedMap : other.referencedMap ⊆ artifact.referencedMap
  fileIdsList : ∀ index files, (index, files) ∈ other.fileIdsList →
    ∃ more, (index, more) ∈ artifact.fileIdsList ∧ files ⊆ more

theorem RefersTo.mono {artifact other : Artifact} {name : String} (includes : artifact.Includes other)
    (refers : other.RefersTo name) : artifact.RefersTo name := by
  obtain ⟨⟨index, file, list, files, id, present, isLocal, paired, listed, inFiles, named⟩, filled⟩ :=
    refers
  obtain ⟨more, moreListed, contained⟩ := includes.fileIdsList (list - 1) files listed
  exact ⟨⟨index, file, list, more, id, includes.fileNames present, isLocal,
    includes.referencedMap paired, moreListed, contained inFiles, includes.fileNames named⟩, filled⟩

theorem Includes.referencedNames_subset {artifact other : Artifact} (includes : artifact.Includes other)
    (distinct : KeysDistinct artifact.fileNames ∧ KeysDistinct artifact.fileIdsList)
    (otherDistinct : KeysDistinct other.fileNames ∧ KeysDistinct other.fileIdsList) :
    other.referencedNames ⊆ artifact.referencedNames := by
  intro name told
  have refers := (mem_referencedNames otherDistinct.1 otherDistinct.2).mp told
  exact (mem_referencedNames distinct.1 distinct.2).mpr (refers.mono includes)

/-- An artifact of a program tells all that one of the same program tells. -/
theorem includes_of_same {program other : Program} (same : program.Same other) {artifact changed : Artifact}
    (names : artifact.fileNames.Perm (positions program.fileNames))
    (otherNames : changed.fileNames.Perm (positions other.fileNames))
    (pairs : artifact.referencedMap = program.pairs) (otherPairs : changed.referencedMap = other.pairs)
    (lists : artifact.fileIdsList.Perm (positions program.fileIdsLists))
    (otherLists : changed.fileIdsList.Perm (positions other.fileIdsLists)) :
    artifact.Includes changed where
  fileNames := by
    rw [same.fileNames] at otherNames
    exact (otherNames.trans names.symm).subset
  referencedMap pair member := by
    rw [pairs, ← same.pairs, ← otherPairs]
    exact member
  fileIdsList index files member := by
    obtain ⟨position, rfl, found⟩ := mem_positions.mp (otherLists.subset member)
    obtain ⟨bound, rfl⟩ := List.getElem?_eq_some_iff.mp found
    have within := same.fileIdsLists.length_eq ▸ bound
    refine ⟨program.fileIdsLists[position], lists.symm.subset
      (mem_positions.mpr ⟨position, rfl, List.getElem?_eq_getElem within⟩), ?_⟩
    exact fun id => (same.fileIdsLists.get within bound id).mp

end Artifact

namespace Watch

open Artifact

theorem discoveredNames_mono (project : Project) (registry : Registry) (path owner : String)
    {artifact other : Artifact} (more : other.referencedNames ⊆ artifact.referencedNames) :
    discoveredNames project registry path owner other
      ⊆ discoveredNames project registry path owner artifact := by
  intro name member
  rw [discoveredNames, mem_distinct] at member ⊢
  exact List.filterMap_subset _ more member

/-- What is found out about a workspace depends on the program of its artifact alone: not on whether
names and lists stand in arrays or under their positions, nor on the order and the repetitions of
pairs and ids. -/
theorem discovery_ignores_shape (project : Project) (registry : Registry) (path owner : String)
    {program other : Program} (same : program.Same other) {value variant : Json}
    (spelled : program.IsSpelledBy value) (respelled : other.IsSpelledBy variant)
    (read : program.PositionsRead) :
    ∃ artifact changed, validate value = .ok artifact ∧ validate variant = .ok changed
      ∧ ∀ name, name ∈ discoveredNames project registry path owner changed
        ↔ name ∈ discoveredNames project registry path owner artifact := by
  obtain ⟨artifact, validated, names, pairs, lists⟩ := Program.validate_of_spelled spelled read
  obtain ⟨changed, revalidated, otherNames, otherPairs, otherLists⟩ :=
    Program.validate_of_spelled respelled (same.positionsRead read)
  have forth := includes_of_same same names otherNames pairs otherPairs lists otherLists
  have back := includes_of_same same.symm otherNames names otherPairs pairs otherLists lists
  have distinct := keysDistinct_of_validate validated
  have otherDistinct := keysDistinct_of_validate revalidated
  refine ⟨artifact, changed, validated, revalidated, fun name => ⟨?_, ?_⟩⟩
  · exact fun member => discoveredNames_mono project registry path owner
      (forth.referencedNames_subset distinct otherDistinct) member
  · exact fun member => discoveredNames_mono project registry path owner
      (back.referencedNames_subset otherDistinct distinct) member

/-- A local file that refers to another one and to a file of another workspace. -/
def arrayProgram : Program :=
  { fileNames := ["../../b/index.ts", "../index.ts", "../util.ts"]
    fileIdsLists := [[3], [1, 3]]
    pairs := [(2, 1), (2, 2)] }

def arrayDocument : Json :=
  .obj [("program", .obj
    [("fileNames", .arr [.str "../../b/index.ts", .str "../index.ts", .str "../util.ts"]),
      ("fileIdsList", .arr [.arr [.int 3], .arr [.int 1, .int 3]]),
      ("referencedMap", .arr [.arr [.int 2, .int 1], .arr [.int 2, .int 2]])])]

/-- The same program with pairs and ids in another order, some of them twice. -/
def keyedProgram : Program :=
  { arrayProgram with fileIdsLists := [[3, 3], [3, 1, 3]], pairs := [(2, 2), (2, 1), (2, 2)] }

def keyedDocument : Json :=
  .obj [("program", .obj
    [("fileNames", .obj
        [("2", .str "../util.ts"), ("0", .str "../../b/index.ts"), ("1", .str "../index.ts")]),
      ("fileIdsList", .obj [("1", .arr [.int 3, .int 1, .int 3]), ("0", .arr [.int 3, .int 3])]),
      ("referencedMap", .arr [.arr [.int 2, .int 2], .arr [.int 2, .int 1], .arr [.int 2, .int 2]])])]

/-- Positions as keys, in another order, tell what the arrays tell. -/
theorem keyed_document_tells_the_same :
    arrayProgram.Same keyedProgram ∧ arrayProgram.IsSpelledBy arrayDocument
      ∧ keyedProgram.IsSpelledBy keyedDocument ∧ arrayProgram.PositionsRead
      ∧ ∃ artifact changed, validate arrayDocument = .ok artifact ∧ validate keyedDocument = .ok changed
        ∧ ∀ name,
          name ∈ discoveredNames ⟨"/repo"⟩ nestedRegistry "packages/a/.ts/tsconfig.tsbuildinfo" "a" changed
          ↔ name ∈ discoveredNames ⟨"/repo"⟩ nestedRegistry "packages/a/.ts/tsconfig.tsbuildinfo" "a"
            artifact := by
  have same : arrayProgram.Same keyedProgram :=
    { fileNames := rfl
      fileIdsLists := by
        refine .cons (fun id => ?_) (.cons (fun id => ?_) .nil)
        · simp only [List.mem_cons, List.not_mem_nil, or_false, or_self]
        · simp only [List.mem_cons, List.not_mem_nil, or_false]
          tauto
      pairs := by
        intro pair
        simp only [arrayProgram, keyedProgram, List.mem_cons, List.not_mem_nil, or_false]
        tauto }
  have spelled : arrayProgram.IsSpelledBy arrayDocument :=
    ⟨⟨_, _, _, _, rfl, rfl, rfl, .array, rfl, rfl, .array⟩⟩
  have respelled : keyedProgram.IsSpelledBy keyedDocument :=
    ⟨⟨_, _, _, _, rfl, rfl, rfl, .object _ (List.perm_append_singleton _ [_, _]).symm, rfl, rfl,
      .object _ (.swap _ _ [])⟩⟩
  have read : arrayProgram.PositionsRead :=
    Program.positionsRead_of_short ((by decide : 3 ≤ 10 ^ 1).trans
      (Nat.pow_le_pow_right (by decide) (by decide)))
  exact ⟨same, spelled, respelled, read, discovery_ignores_shape ⟨"/repo"⟩ nestedRegistry
    "packages/a/.ts/tsconfig.tsbuildinfo" "a" same spelled respelled read⟩

end Watch
end RefSync
