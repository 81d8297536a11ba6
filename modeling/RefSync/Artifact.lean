/-
The build artifact of the incremental compiler. It stores its program graph with
two indirections:

    fileNames:     file index -> file name         counted from 0
    referencedMap: [file id, list id] pairs        an id is an index + 1
    fileIdsList:   list index -> [file id, …]

Either table is an array or an object keyed by the index, depending on the
compiler's version; reading makes them tables of integers.
-/

import RefSync.Validation

namespace RefSync

open Validation

structure Artifact where
  fileNames : List (Int × String)
  referencedMap : List (Int × Int)
  fileIdsList : List (Int × List Int)
deriving DecidableEq, Repr

namespace Artifact

/-! ### Integers -/

/-- A double stands for an integer below `2 ^ 63` in size if it is one. -/
def ofReal (value : Binary64) : Checked Int :=
  match value with
  | .nan | .infinite _ => fail .notFinite
  | value =>
      match value.toInt? with
      | none => fail .hasFraction
      | some whole => if whole.natAbs < Nat.pow 2 63 then .ok whole else fail .tooLarge

def integer : Json → Checked Int
  | .int value => .ok value
  | .bool value => .ok (if value then 1 else 0)
  | .real value => ofReal value
  | .str text => integerOfText text
  | _ => fail .notInteger

/-! ### Tables -/

/-- Adds an entry; a key that is there keeps its position and takes the new value. -/
def setEntry {α : Type} (key : Int) (value : α) : List (Int × α) → List (Int × α)
  | [] => [(key, value)]
  | (other, present) :: rest =>
      if other = key then (key, value) :: rest else (other, present) :: setEntry key value rest

def collapse {α : Type} (entries : List (Int × α)) : List (Int × α) :=
  entries.foldl (fun table (key, value) => setEntry key value table) []

def entry {α : Type} (check : Json → Checked α) (key : String) (value : Json) :
    Checked (Int × α) :=
  let index := within (.field key) (within (.field "[key]") (integer (.str key)))
  both index (within (.field key) (check value))

/-- An array counts from 0; an object is keyed by the index. -/
def table {α : Type} (check : Json → Checked α) : Json → Checked (List (Int × α))
  | .arr values =>
      (items check values).map fun values => values.mapIdx fun index value => ((index : Int), value)
  | .obj members => (every (members.map fun (key, value) => entry check key value)).map collapse
  | _ => fail .notTable

def pair : Json → Checked (Int × Int)
  | .arr [] =>
      .error [⟨[.index 0], .missing⟩, ⟨[.index 1], .missing⟩]
  | .arr [first] => both (within (.index 0) (integer first)) (within (.index 1) (fail .missing))
  | .arr [first, second] =>
      both (within (.index 0) (integer first)) (within (.index 1) (integer second))
  | .arr _ => fail .tooLong
  | _ => fail .notPair

def checkFileNames : Option Json → Checked (List (Int × String))
  | none => fail .missing
  | some value => table text value

def checkReferencedMap : Option Json → Checked (List (Int × Int))
  | none | some .null => .ok []
  | some value => list pair value

def checkFileIdsList : Option Json → Checked (List (Int × List Int))
  | none => .ok []
  | some value => table (list integer) value

def checkProgram : Option Json → Checked Artifact
  | none => fail .missing
  | some (.obj program) =>
      let fileNames :=
        within (.field "fileNames") (checkFileNames (lookup program "fileNames" "file_names"))
      let referencedMap :=
        within (.field "referencedMap")
          (checkReferencedMap (lookup program "referencedMap" "referenced_map"))
      let fileIdsList :=
        within (.field "fileIdsList")
          (checkFileIdsList (lookup program "fileIdsList" "file_ids_list"))
      (both fileNames (both referencedMap fileIdsList)).map
        fun (fileNames, referencedMap, fileIdsList) => { fileNames, referencedMap, fileIdsList }
  | some _ => fail .notObject

def validate (value : Json) : Except Rejection Artifact :=
  let checked := match value with
    | .obj document => within (.field "program") (checkProgram (Table.get? document "program"))
    | _ => fail .notObject
  checked.mapError fun issues => { model := "BuildInfo", issues }

/-! ### The program graph -/

/-- The lists the file at an index refers to, in the order of the pairs. -/
def listIdsFor (artifact : Artifact) (index : Int) : List Int :=
  artifact.referencedMap.filterMap fun (file, list) => if file = index + 1 then some list else none

/-- The files of some lists; a list that is not there has none. -/
def fileIdsIn (artifact : Artifact) (lists : List Int) : List Int :=
  (lists.flatMap fun list => (artifact.fileIdsList.lookup (list - 1)).getD []).eraseDups

/-- The names of some files, without those that are empty or not there. -/
def namesOf (artifact : Artifact) (files : List Int) : List String :=
  ((files.filterMap fun file => artifact.fileNames.lookup (file - 1)).filter (· != "")).eraseDups

/-- Whether a text occurs in another one. -/
def occursIn (text : List Char) : List Char → Bool
  | [] => text.isEmpty
  | char :: rest => text.isPrefixOf (char :: rest) || occursIn text rest

/-- Names are relative to the artifact's directory: two levels up is another
workspace, and installed packages are nobody's sources. -/
def isLocal (name : String) : Bool :=
  !occursIn "../../".toList name.toList && !occursIn "../node_modules".toList name.toList

def localIndices (artifact : Artifact) : List Int :=
  (artifact.fileNames.filter fun (_, name) => isLocal name).map (·.1)

/-- The names of all files that local files refer to. -/
def referencedNames (artifact : Artifact) : List String :=
  (artifact.localIndices.flatMap fun index =>
    artifact.namesOf (artifact.fileIdsIn (artifact.listIdsFor index))).eraseDups

end Artifact
end RefSync
