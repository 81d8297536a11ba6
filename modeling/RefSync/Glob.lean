/-
Workspace globs. `*`, `?` and `[…]` match inside one component and never a leading
dot that the component does not spell out; `**` is `*`. A component without
wildcards only has to exist. Matches are paths as the pattern spells them.
-/

import RefSync.FileTree

namespace RefSync.Glob

/-- A position of a component pattern. -/
inductive Item where
  | star
  | anyChar
  | oneOf (negated : Bool) (ranges : List (Char × Char))
  | literal (char : Char)
deriving DecidableEq, Repr

/-- The pieces of a bracket between the hyphens that make ranges. Such a hyphen has a
character before it, and two at least between it and the one before; at the end it is
itself. `kept` characters are not looked at. -/
def chunksFrom : (kept : Nat) → (chunk : List Char) → List Char → List (List Char)
  | _, chunk, [] => [chunk.reverse]
  | 0, chunk, '-' :: rest =>
      if rest.isEmpty then [('-' :: chunk).reverse] else chunk.reverse :: chunksFrom 2 [] rest
  | kept, chunk, char :: rest => chunksFrom (kept - 1) (char :: chunk) rest

/-- A range between two pieces that is reversed is dropped with both its ends, and the
pieces become one. -/
def dropReversed : List (List Char) → List (List Char)
  | [] => []
  | chunk :: rest =>
      match chunk.getLast?, dropReversed rest with
      | some low, (high :: tail) :: others =>
          if high < low then (chunk.dropLast ++ tail) :: others
          else chunk :: (high :: tail) :: others
      | _, rest => chunk :: rest

/-- The characters of each piece, and the ranges from one to the next. A hyphen with no
piece before it is itself. -/
def members : List (List Char) → List (Char × Char)
  | [] => []
  | chunk :: rest =>
      let range := match chunk.getLast?, rest with
        | some low, (high :: _) :: _ => [(low, high)]
        | none, _ :: _ => [('-', '-')]
        | _, _ => []
      chunk.map (fun char => (char, char)) ++ range ++ members rest

/-- The inside of a bracket and the text after it. A bracket that closes at once
holds its `]`. -/
def bracket? (text : List Char) : Option (List Char × List Char) :=
  let (sign, text) := match text with
    | '!' :: rest => (['!'], rest)
    | text => ([], text)
  let (first, text) := match text with
    | ']' :: rest => ([']'], rest)
    | text => ([], text)
  let inside := text.takeWhile (· != ']')
  match text.dropWhile (· != ']') with
  | _ :: rest => some (sign ++ first ++ inside, rest)
  | [] => none

/-- What a bracket matches. An exclamation mark that is in front once reversed ranges are
dropped stands for all other characters. -/
def bracketItem (inside : List Char) : Item :=
  let kept := if inside.head? == some '!' then 2 else 1
  match dropReversed (chunksFrom kept [] inside) with
  | ('!' :: first) :: rest => .oneOf true (members (first :: rest))
  | chunks => .oneOf false (members chunks)

/-- The items of a component pattern. Fuel is the length of the text. -/
def itemsFrom : Nat → List Char → List Item
  | 0, _ => []
  | _ + 1, [] => []
  | fuel + 1, char :: rest =>
      match char with
      | '*' => .star :: itemsFrom fuel rest
      | '?' => .anyChar :: itemsFrom fuel rest
      | '[' =>
          match bracket? rest with
          | some (inside, after) => bracketItem inside :: itemsFrom fuel after
          | none => .literal '[' :: itemsFrom fuel rest
      | char => .literal char :: itemsFrom fuel rest

def items (component : List Char) : List Item :=
  itemsFrom component.length component

def Item.admits (char : Char) : Item → Bool
  | .star => false
  | .anyChar => true
  | .oneOf negated ranges =>
      (ranges.any fun (low, high) => decide (low ≤ char) && decide (char ≤ high)) != negated
  | .literal other => char == other

/-- Each flag, or one after it. -/
def orLater (flags : List Bool) : List Bool :=
  flags.foldr (fun flag later => (flag || later.headD false) :: later) []

/-- Whether items match a name, the name without its first character, and so on down to
the empty one. -/
def admitted (name : List Char) : List Item → List Bool
  | [] => name.map (fun _ => false) ++ [true]
  | .star :: rest => orLater (admitted name rest)
  | item :: rest =>
      List.zipWith (fun char later => item.admits char && later) name (admitted name rest).tail
        ++ [false]

/-- Whether a name as a whole matches a component pattern. -/
def admitsAll (items : List Item) (name : List Char) : Bool :=
  (admitted name items).headD false

def isWildcard (char : Char) : Bool :=
  char == '*' || char == '?' || char == '['

def hasWildcard (text : List Char) : Bool :=
  text.any isWildcard

/-- The directory that a pattern with wildcards leads to before the first of them. -/
def literalDirectory (pattern : String) : String :=
  let text := pattern.toList
  if hasWildcard text then
    String.ofList (Path.splitLast (text.takeWhile fun char => !isWildcard char)).1
  else ""

def isHidden (name : List Char) : Bool :=
  name.head? == some '.'

/-- The names in a directory that a component pattern matches. -/
def matchingNames (tree : FileTree) (directory : String) (component : List Char)
    (onlyDirectories : Bool) : List String :=
  match tree.walk directory with
  | .error _ => []
  | .ok place =>
      (tree.names place).filter fun name =>
        (!onlyDirectories || tree.isDirectory (place ++ [name]))
          && (isHidden component || !isHidden name.toList)
          && admitsAll (items component) name.toList

/-- A component without wildcards in a directory. The empty one stands for the
directory itself. -/
def literalName (tree : FileTree) (directory : String) (component : String) :
    List String :=
  if component.isEmpty then if tree.isDirectoryPath directory then [""] else []
  else if tree.exists? (Path.join directory component) then [component]
  else []

/-- The directory seen from the root; the empty path is the root itself. -/
def fromRoot (root directory : String) : String :=
  if directory.isEmpty then root else Path.join root directory

/-- The paths below `root` that a pattern matches. -/
def expandFrom (tree : FileTree) (root : String) (pattern : List Char)
    (onlyDirectories : Bool) : List String :=
  let head := (Path.splitLast pattern).1
  let last := (Path.splitLast pattern).2
  let directory := String.ofList head
  if !hasWildcard pattern then
    let path := String.ofList pattern
    let present :=
      if last.isEmpty then tree.isDirectoryPath (fromRoot root directory)
      else tree.exists? (Path.join root path)
    if present then [path] else []
  else if head.isEmpty then matchingNames tree root last onlyDirectories
  else
    let directories :=
      if hasWildcard head then
        if head.length < pattern.length then expandFrom tree root head true else []
      else [directory]
    directories.flatMap fun directory =>
      let inside := fromRoot root directory
      let names :=
        if hasWildcard last then matchingNames tree inside last onlyDirectories
        else literalName tree inside (String.ofList last)
      names.map (Path.join directory)
termination_by pattern.length

/-- The paths that a pattern matches; the empty pattern matches nothing. -/
def expand (tree : FileTree) (root pattern : String) : List String :=
  if pattern.isEmpty then [] else expandFrom tree root pattern.toList false

end RefSync.Glob
