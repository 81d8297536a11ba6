/-
Files and directories. A tree maps absolute component lists to entries; the root is
always a directory. Paths are walked component by component, so `..` leads to the
parent of a directory that exists. Names and paths have a greatest length, and no null
character. Symbolic links and permissions are not modelled.
-/

import RefSync.Path
import RefSync.Text.Newline
import RefSync.Text.Utf8

namespace RefSync

/-- File contents: text, or bytes that are kept as they are. -/
inductive Content where
  | text (chars : List Char)
  | bytes (bytes : List UInt8)
deriving DecidableEq, Repr

/-- Bytes that are text become text. -/
def Content.ofBytes (bytes : List UInt8) : Content :=
  match Utf8.decode bytes with
  | .ok decoded => .text decoded
  | .error _ => .bytes bytes

def Content.decode : Content → Except Utf8.Malformed (List Char)
  | .text decoded => .ok decoded
  | .bytes raw => Utf8.decode raw

inductive Entry where
  | file (content : Content)
  | directory
deriving DecidableEq, Repr

/-- An absolute place: the components from the root. -/
abbrev Place := List String

structure FileTree where
  entries : List (Place × Entry)
deriving Repr

/-- Why a place cannot be reached. -/
inductive Unreachable where
  | missing
  | notDirectory
  | tooLong
  | nullCharacter
deriving DecidableEq, Repr

namespace FileTree

/-- The bytes that a name has at most. -/
def nameLimit : Nat := 255

/-- The bytes that a path has at most. -/
def pathLimit : Nat := 4095

def isLongName (name : String) : Bool :=
  nameLimit < name.utf8ByteSize

def isLongPath (path : String) : Bool :=
  pathLimit < path.utf8ByteSize

def hasNull (path : String) : Bool :=
  path.toList.contains '\x00'

def empty : FileTree :=
  { entries := [] }

def get? (tree : FileTree) (place : Place) : Option Entry :=
  if place.isEmpty then some .directory else tree.entries.lookup place

def isDirectory (tree : FileTree) (place : Place) : Bool :=
  tree.get? place == some .directory

def putIn (place : Place) (entry : Entry) :
    List (Place × Entry) → List (Place × Entry)
  | [] => [(place, entry)]
  | (other, present) :: rest =>
      if other == place then (place, entry) :: rest
      else (other, present) :: putIn place entry rest

/-- Sets one entry; the directories above it are the caller's concern. -/
def put (tree : FileTree) (place : Place) (entry : Entry) : FileTree :=
  { entries := putIn place entry tree.entries }

/-- Removes an entry with everything below it. -/
def remove (tree : FileTree) (place : Place) : FileTree :=
  { entries := tree.entries.filter fun (other, _) => !place.isPrefixOf other }

/-- The walk along components from a directory. -/
def walkFrom (tree : FileTree) : Place → List String → Except Unreachable Place
  | here, [] => .ok here
  | here, part :: rest =>
      if !tree.isDirectory here then .error .notDirectory
      else if part == ".." then walkFrom tree here.dropLast rest
      else if isLongName part then .error .tooLong
      else
        match tree.get? (here ++ [part]) with
        | none => .error .missing
        | some _ => walkFrom tree (here ++ [part]) rest

/-- The place of something that exists. -/
def walk (tree : FileTree) (path : String) : Except Unreachable Place :=
  if hasNull path then .error .nullCharacter
  else if isLongPath path then .error .tooLong
  else tree.walkFrom [] (Path.parts path)

def found (tree : FileTree) (path : String) : Option Entry :=
  match tree.walk path with
  | .ok place => tree.get? place
  | .error _ => none

def exists? (tree : FileTree) (path : String) : Bool :=
  (tree.found path).isSome

def isDirectoryPath (tree : FileTree) (path : String) : Bool :=
  tree.found path == some .directory

/-- Whether a path means a file. One that ends like that of a directory does not. -/
def isFilePath (tree : FileTree) (path : String) : Bool :=
  !(["", "."].contains (Path.baseName path)) && tree.exists? path && !tree.isDirectoryPath path

/-- The names directly below a place. -/
def names (tree : FileTree) (place : Place) : List String :=
  tree.entries.filterMap fun (other, _) =>
    match other.getLast? with
    | some name => if other.dropLast == place then some name else none
    | none => none

/-- The entries below a place, with the way from it. -/
def below (tree : FileTree) (place : Place) : List (List String × Entry) :=
  tree.entries.filterMap fun (other, entry) =>
    if place.isPrefixOf other && place.length < other.length then
      some (other.drop place.length, entry)
    else none

/-- The entries below a directory, none if there is no such directory. -/
def contents (tree : FileTree) (path : String) : List (List String × Entry) :=
  match tree.walk path with
  | .ok place => if tree.isDirectory place then tree.below place else []
  | .error _ => []

/-- Why a directory cannot be made. -/
inductive DirectoryFault where
  | taken
  | belowFile
  | tooLong
deriving DecidableEq, Repr

/-- Makes the directories along components, and yields the last one. What was made stays
if a later one cannot be. The fault is that of the whole way until something was made,
and then that of the component: the components after the faulty one are counted. -/
def makeFrom (tree : FileTree) (made : Bool) :
    Place → List String → Except (DirectoryFault × Nat) Place × FileTree
  | here, [] => (.ok here, tree)
  | here, part :: rest =>
      let refused (fault : DirectoryFault) : Except (DirectoryFault × Nat) Place × FileTree :=
        (.error (fault, if made then rest.length else 0), tree)
      if part == ".." then makeFrom tree made here.dropLast rest
      else if isLongName part then refused .tooLong
      else
        let next := here ++ [part]
        match tree.get? next with
        | some .directory => makeFrom tree made next rest
        | some (.file _) => refused (if made || rest.isEmpty then .taken else .belowFile)
        | none => makeFrom (tree.put next .directory) true next rest

/-! ### What the operations do to the entries -/

theorem lookup_putIn (place other : Place) (entry : Entry) (entries : List (Place × Entry)) :
    (putIn place entry entries).lookup other
      = if other = place then some entry else entries.lookup other := by
  induction entries with
  | nil =>
      by_cases same : other = place
      · simp [putIn, same]
      · simp [putIn, List.lookup_cons, same, beq_false_of_ne same]
  | cons head rest ih =>
      obtain ⟨first, present⟩ := head
      by_cases found : first = place
      · by_cases same : other = place
        · simp [putIn, found, same]
        · simp [putIn, found, List.lookup_cons, same, beq_false_of_ne same]
      · by_cases asked : other = first
        · simp [putIn, found, asked]
        · simp [putIn, found, List.lookup_cons, beq_false_of_ne asked, ih]

theorem get?_put (tree : FileTree) (place other : Place) (entry : Entry) (below : other ≠ []) :
    (tree.put place entry).get? other
      = if other = place then some entry else tree.get? other := by
  simp [get?, put, below, lookup_putIn]

theorem lookup_filter (keep : Place → Bool) (other : Place) (entries : List (Place × Entry)) :
    (entries.filter fun (place, _) => keep place).lookup other
      = if keep other then entries.lookup other else none := by
  induction entries with
  | nil => simp
  | cons head rest ih =>
      obtain ⟨first, present⟩ := head
      by_cases asked : other = first
      · subst asked
        by_cases kept : keep other = true
        · simp [List.filter, kept]
        · simpa [List.filter, kept] using ih
      · by_cases kept : keep first = true
        · simp [List.filter, kept, List.lookup_cons, beq_false_of_ne asked, ih]
        · simp [List.filter, kept, List.lookup_cons, beq_false_of_ne asked, ih]

theorem get?_remove (tree : FileTree) (place other : Place) (below : other ≠ []) :
    (tree.remove place).get? other
      = if place.isPrefixOf other then none else tree.get? other := by
  have kept := lookup_filter (fun present => !place.isPrefixOf present) other tree.entries
  have named : other.isEmpty = false := by simpa using below
  simp only [get?, remove, named, Bool.false_eq_true, if_false]
  rw [kept]
  cases place.isPrefixOf other <;> rfl

end FileTree
end RefSync
