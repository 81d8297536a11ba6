/-
What words become: their parameters, commands and arithmetic are put in, unquoted results
are split into fields, and fields that are patterns become the names they match.
-/

import RefSync.Compiler.Shell.Arithmetic
import RefSync.Compiler.Shell.State
import RefSync.Glob
import RefSync.Sorted

namespace RefSync.Compiler.Shell

/-! ### Marks -/

/-- A part of an expanded word. Soft characters come from an expansion and may be
separators; a quote makes a field even if it is empty. -/
inductive Mark where
  | char (char : Char) (quoted soft : Bool)
  | quote
  | border
deriving DecidableEq

def marksOf (bytes : Bytes) (quoted soft : Bool) : List Mark :=
  bytes.map (.char · quoted (soft && !quoted))

/-- The characters of a word that is not split. -/
def plainMarks (marks : List Mark) : List (Char × Bool) :=
  marks.filterMap fun
    | .char char quoted _ => some (char, quoted)
    | .quote => none
    | .border => some (' ', true)

def textOf (marks : List Mark) : Bytes :=
  (plainMarks marks).map (·.1)

/-! ### Patterns -/

/-- Ranges of characters that names in brackets stand for. -/
def characterClasses : List (String × List (Char × Char)) :=
  let digits := [('0', '9')]
  let letters := [('A', 'Z'), ('a', 'z')]
  [("[:alpha:]", letters), ("[:digit:]", digits), ("[:alnum:]", digits ++ letters),
    ("[:upper:]", [('A', 'Z')]), ("[:lower:]", [('a', 'z')]),
    ("[:blank:]", [(' ', ' '), ('\t', '\t')]),
    ("[:space:]", [(' ', ' '), ('\t', '\x0d')]),
    ("[:xdigit:]", digits ++ [('A', 'F'), ('a', 'f')]),
    ("[:punct:]", [('!', '/'), (':', '@'), ('[', '\x60'), ('\x7b', '~')]),
    ("[:cntrl:]", [('\x00', '\x1f'), ('\x7f', '\x7f')]), ("[:graph:]", [('!', '~')]),
    ("[:print:]", [(' ', '~')])]

/-- What is inside of a bracket, as ranges of characters, and what follows it. -/
def bracketFrom :
    Nat → List (Char × Bool) → Option (List (Char × Char) × List (Char × Bool))
  | 0, _ | _, [] => none
  | fuel + 1, (char, quoted) :: rest =>
      if char == ']' && !quoted then some ([], rest)
      else
        let text := char :: rest.map (·.1)
        let (ranges, rest) :=
          match characterClasses.find? fun (name, _) => name.toList.isPrefixOf text with
          | some (name, ranges) => (ranges, rest.drop (name.length - 1))
          | none => single char rest
        (bracketFrom fuel rest).map fun (more, after) => (ranges ++ more, after)
where
  single (low : Char) (rest : List (Char × Bool)) :
      List (Char × Char) × List (Char × Bool) :=
    match rest with
    | ('-', false) :: (high, quoted) :: rest =>
        if high == ']' && !quoted then ([(low, low)], ('-', false) :: (high, quoted) :: rest)
        else ([(low, high)], rest)
    | rest => ([(low, low)], rest)

/-- A bracket after its opening: what it stands for and what follows. A closing bracket at
the start stands for itself. -/
def bracketOf? (pattern : List (Char × Bool)) : Option (Glob.Item × List (Char × Bool)) :=
  let (negated, rest) := match pattern with
    | ('!', false) :: rest => (true, rest)
    | rest => (false, rest)
  let rest := match rest with
    | (']', _) :: rest => (']', true) :: rest
    | rest => rest
  (bracketFrom (rest.length + 1) rest).map fun (ranges, after) => (.oneOf negated ranges, after)

/-- The items of a pattern. Quoted characters stand for themselves. -/
def patternItems : Nat → List (Char × Bool) → List Glob.Item
  | 0, _ => []
  | _ + 1, [] => []
  | fuel + 1, ('*', false) :: rest => .star :: patternItems fuel rest
  | fuel + 1, ('?', false) :: rest => .anyChar :: patternItems fuel rest
  | fuel + 1, ('[', false) :: rest =>
      match bracketOf? rest with
      | some (item, after) => item :: patternItems fuel after
      | none => .literal '[' :: patternItems fuel rest
  | fuel + 1, ('\\', false) :: (char, _) :: rest => .literal char :: patternItems fuel rest
  | fuel + 1, (char, _) :: rest => .literal char :: patternItems fuel rest

def itemsOf (pattern : List (Char × Bool)) : List Glob.Item :=
  patternItems (pattern.length + 1) pattern

def isPattern (field : List (Char × Bool)) : Bool :=
  field.any fun (char, quoted) => !quoted && (char == '*' || char == '?' || char == '[')

/-- The texts that arguments are, which a null character divides where each of them is a
field of its own. -/
def beforeNull (text : Bytes) : Bytes :=
  text.takeWhile (· != '\x00')

/-- A value without what a pattern matches at its start or its end. What is matched lies
within one argument. -/
def without (atEnd longest : Bool) (pattern : List (Char × Bool)) (value : Bytes) : Bytes :=
  let items := itemsOf pattern
  let places := if atEnd == longest then List.range ((beforeNull value).length + 1)
    else (List.range (value.length + 1)).reverse
  let found := places.find? fun place =>
    Glob.admitsAll items (beforeNull (if atEnd then value.drop place else value.take place))
  match found with
  | some place => if atEnd then value.take place else value.drop place
  | none => value

/-! ### Fields -/

/-- Fields while they are collected, the last one first. After a blank that ended a field,
another separator says nothing more. -/
structure Fields where
  done : List (List (Char × Bool)) := []
  current : Option (List (Char × Bool)) := none
  afterBlank : Bool := false

def Fields.close (fields : Fields) : Fields :=
  match fields.current with
  | some field => { fields with done := field.reverse :: fields.done, current := none }
  | none => fields

def Fields.add (fields : Fields) (char : Char) (quoted : Bool) : Fields :=
  { fields with current := some ((char, quoted) :: fields.current.getD []), afterBlank := false }

def Fields.mark (separators : Bytes) (fields : Fields) : Mark → Fields
  | .border => { fields.close with afterBlank := false }
  | .quote => { fields with current := some (fields.current.getD []), afterBlank := false }
  | .char char quoted soft =>
      if !soft || !separators.contains char then fields.add char quoted
      else if char == ' ' || char == '\t' || char == '\n' then
        if fields.current.isSome then { fields.close with afterBlank := true } else fields
      else if fields.current.isSome then { fields.close with afterBlank := false }
      else if fields.afterBlank then { fields with afterBlank := false }
      else { fields with done := [] :: fields.done }

def fieldsOf (separators : Bytes) (marks : List Mark) : List (List (Char × Bool)) :=
  ((marks.foldl (Fields.mark separators) {}).close.done).reverse

def separatorsOf (scope : Scope) : Bytes :=
  (scope.value? "IFS").getD [' ', '\t', '\n']

/-! ### Names -/

/-- The components of a field, divided at slashes. -/
def componentsOf : List (Char × Bool) → List (List (Char × Bool))
  | [] => [[]]
  | ('/', _) :: rest => [] :: componentsOf rest
  | mark :: rest =>
      match componentsOf rest with
      | component :: others => (mark :: component) :: others
      | [] => [[mark]]

/-- The names in a directory that a component matches, sorted. -/
def namesFor (files : FileTree) (directory : String) (component : List (Char × Bool)) :
    List Bytes :=
  let text := component.map (·.1)
  if !isPattern component then
    if text.isEmpty || files.exists? (Path.join directory (Bytes.shown text)) then [text] else []
  else
    match files.walk directory with
    | .error _ => []
    | .ok place =>
        let names := ['.'] :: ['.', '.'] :: (files.names place).map Bytes.ofString
        let matching := names.filter fun name =>
          (name.head? != some '.' || text.head? == some '.')
            && Glob.admitsAll (itemsOf component) name
        sortBy Bytes.precedes matching

/-- The paths that components match, seen from what was matched so far. -/
def pathsFor (files : FileTree) (directory : String) :
    Bytes → List (List (Char × Bool)) → List Bytes
  | sofar, [] => [sofar]
  | sofar, [component] =>
      (namesFor files (Path.join directory (Bytes.shown sofar)) component).map (sofar ++ ·)
  | sofar, component :: rest =>
      (namesFor files (Path.join directory (Bytes.shown sofar)) component).flatMap fun name =>
        pathsFor files directory (sofar ++ name ++ ['/']) rest

/-- A field as it is, or the paths it matches. -/
def matchesOf (state : State) (field : List (Char × Bool)) : List Bytes :=
  let text := field.map (·.1)
  if state.scope.flags.keepPatterns || !isPattern field then [text]
  else
    match pathsFor state.files state.scope.directory [] (componentsOf field) with
    | [] => [text]
    | found => found

/-! ### Parameters -/

/-- A parameter that is not all arguments. The numbers of other processes count up from that
of their shell. -/
def parameter? (state : State) (name : String) : Option Bytes :=
  match name with
  | "#" => some (decimalText state.scope.arguments.length)
  | "?" => some (decimalText state.status)
  | "$" => some (decimalText state.pid)
  | "!" => if state.started = 0 then none else some (decimalText (state.pid + state.started))
  | "-" => some (flagLetters state.scope.flags)
  | "0" => some (Bytes.ofString state.name)
  | name =>
      match natural? name.toList with
      | some number => if number = 0 then none else state.scope.arguments[number - 1]?
      | none => state.scope.value? name
where
  flagLetters (flags : Flags) : Bytes :=
    (if flags.refuseUnset then ['u'] else []) ++ (if flags.trace then ['x'] else [])
      ++ (if flags.keepPatterns then ['f'] else []) ++ (if flags.stopOnFailure then ['e'] else [])

/-- All arguments as one text. A null character divides them if each is to be a field. -/
def allArguments (scope : Scope) (divided : Bool) : Bytes :=
  let separator := if divided then ['\x00'] else
    match scope.value? "IFS" with
    | some separators => separators.take 1
    | none => [' ']
  (scope.arguments.intersperse separator).flatten

/-- The texts between null characters. -/
def betweenNulls : Bytes → List Bytes
  | [] => [[]]
  | '\x00' :: rest => [] :: betweenNulls rest
  | char :: rest =>
      match betweenNulls rest with
      | text :: others => (char :: text) :: others
      | [] => [[char]]

/-- Arguments that are fields of their own. -/
def dividedMarks (scope : Scope) (value : Bytes) (quoted : Bool) : List Mark :=
  let one (argument : Bytes) : List Mark :=
    (if quoted then [.quote] else []) ++ marksOf argument quoted true
  if scope.arguments.isEmpty then []
  else (((betweenNulls value).map one).intersperse [.border]).flatten

def isAll (name : String) : Bool :=
  name == "@" || name == "*"

def unsetMessage (name : String) (whenEmpty : Bool) : Bytes :=
  (name ++ ": parameter not set" ++ if whenEmpty then " or null" else "").toList

def assignTo (name : String) (value : Bytes) : Action Unit := do
  if ((← scope).bindings.get? name).any (·.isFixed) then
    refuse (name.toList ++ ": is read only".toList)
  modifyScope (·.assign name value)

/-! ### Words -/

/-- The value of arithmetic, with its assignments made. -/
def calculate (text : Bytes) : Action Bytes := do
  let scope ← scope
  match (Arithmetic.parse text).bind fun expression =>
      Arithmetic.evaluate scope.valueOf expression [] with
  | .ok (value, assigned) =>
      assigned.forM fun (name, value) => assignTo name (decimalText value)
      return decimalText value
  | .error (.illegalNumber number) => refuse ("Illegal number: ".toList ++ number)
  | .error .divisionByZero => fault "division by zero"
  | .error (.expecting what) => fault ("expecting " ++ what)
where
  fault (reason : String) : Action Bytes :=
    refuse (("arithmetic expression: " ++ reason ++ ": \"").toList ++ text ++ ['"'])

/-! ### Home directories -/

/-- The home directory that a tilde and a name stand for. -/
def home? (scope : Scope) : Bytes → Option Bytes
  | [] => scope.value? "HOME"
  | name => if name == "root".toList then some "/root".toList else none

/-- A home directory in place of a tilde at the start of unquoted text. -/
def textWithHome (scope : Scope) (isWhole : Bool) (text : Bytes) : List Piece :=
  match text with
  | '~' :: rest =>
      let name := rest.takeWhile (· != '/')
      let path := rest.drop name.length
      match if isWhole || !path.isEmpty then home? scope name else none with
      | some home => [.text home true, .text path false]
      | none => [.text text false]
  | text => [.text text false]

def withHome (scope : Scope) : List Piece → List Piece
  | .text text false :: others => textWithHome scope others.isEmpty text ++ others
  | pieces => pieces

/-- The texts between colons. -/
def betweenColons : Bytes → List Bytes
  | [] => [[]]
  | ':' :: rest => [] :: betweenColons rest
  | char :: rest =>
      match betweenColons rest with
      | text :: others => (char :: text) :: others
      | [] => [[char]]

/-- Home directories in place of the tildes at the start and after colons, as in the value
of a variable. -/
def withHomes (scope : Scope) : (atStart : Bool) → List Piece → List Piece
  | _, [] => []
  | atStart, .text text false :: others =>
      let texts := betweenColons text
      let pieces := texts.zipIdx.flatMap fun (part, index) =>
        let isWhole := index + 1 < texts.length || others.isEmpty
        (if index = 0 then [] else [.text [':'] false])
          ++ if atStart || index ≠ 0 then textWithHome scope isWhole part
            else [.text part false]
      pieces ++ withHomes scope false others
  | _, piece :: others => piece :: withHomes scope false others

/-- Where in a word a tilde stands for a home directory. -/
inductive Homes where
  | nowhere
  | atStart
  | betweenColons

def Homes.put (scope : Scope) : Homes → List Piece → List Piece
  | .nowhere, pieces => pieces
  | .atStart, pieces => withHome scope pieces
  | .betweenColons, pieces => withHomes scope true pieces

/-! ### Pieces -/

/-- The way in which the output of a command is taken. -/
abbrev Capture := Command → Action Bytes

/-- How a word is expanded: whether it is divided into fields, whether its own text may be
divided too, and where there may be home directories. -/
structure Manner where
  full : Bool := false
  soft : Bool := false
  homes : Homes := .nowhere

/-- What a piece becomes. Words inside of it are expanded by another expansion. -/
def expandPiece (capture : Capture) (inner : Manner → List Piece → Action (List Mark))
    (manner : Manner) (piece : Piece) : Action (List Mark) := do
  match piece with
  | .meaningless => refuse "Bad substitution".toList
  | .text bytes quoted =>
      return (if quoted then [.quote] else []) ++ marksOf bytes quoted manner.soft
  | .output command quoted =>
      return marksOf (← capture command) quoted true
  | .arithmetic expression quoted =>
      return marksOf (← calculate (textOf (← inner {} expression))) quoted true
  | .parameter name form quoted =>
      let state ← get
      let divided := isAll name && manner.full && (!quoted || name == "@")
      let value := if isAll name then some (allArguments state.scope divided)
        else parameter? state name
      let marks (value : Bytes) : List Mark :=
        if divided then dividedMarks state.scope value quoted else marksOf value quoted true
      let needed : Action Unit :=
        if value.isNone && state.scope.flags.refuseUnset then refuse (unsetMessage name false)
        else return
      match form with
      | .value =>
          needed
          return marks (value.getD [])
      | .length =>
          needed
          return marksOf (decimalText (value.getD []).length) quoted true
      | .without atEnd longest pattern =>
          needed
          let pattern := plainMarks (← inner { homes := .atStart } pattern)
          return marks (without atEnd longest pattern (value.getD []))
      | .fallback kind whenEmpty word =>
          let isPresent := value.isSome && !(whenEmpty && value == some [])
          let manner := { manner with
            soft := !quoted, homes := if quoted then .nowhere else manner.homes }
          match kind with
          | .use => if isPresent then return marks (value.getD []) else inner manner word
          | .replace => if isPresent then inner manner word else return []
          | .refuse =>
              if isPresent then return marks (value.getD [])
              if word.isEmpty then refuse (unsetMessage name whenEmpty)
              refuse (name.toList ++ ": ".toList ++ textOf (← inner { homes := .atStart } word))
          | .assign =>
              if isPresent then return marks (value.getD [])
              let text := textOf (← inner { homes := .atStart } word)
              if !isName name.toList then refuse (name.toList ++ ": bad variable name".toList)
              assignTo name text
              return marksOf text quoted true

/-- What pieces become. The depth bounds the nesting of words. -/
def expand (capture : Capture) : (depth : Nat) → Manner → List Piece → Action (List Mark)
  | 0, _, _ => return []
  | depth + 1, manner, pieces => do
      let pieces := manner.homes.put (← scope) pieces
      return (← pieces.mapM (expandPiece capture (expand capture depth) manner)).flatten

def nesting : Nat := 100

/-- A word as one text. -/
def wordText (capture : Capture) (pieces : List Piece) : Action Bytes := do
  return textOf (← expand capture nesting { homes := .atStart } pieces)

/-- A word as the value of a variable. -/
def wordValue (capture : Capture) (pieces : List Piece) : Action Bytes := do
  return textOf (← expand capture nesting { homes := .betweenColons } pieces)

/-- A word as a pattern. -/
def wordPattern (capture : Capture) (pieces : List Piece) : Action (List (Char × Bool)) := do
  return plainMarks (← expand capture nesting { homes := .atStart } pieces)

/-- A word as the fields it becomes. -/
def wordFields (capture : Capture) (pieces : List Piece) : Action (List Bytes) := do
  let marks ← expand capture nesting { full := true, homes := .atStart } pieces
  let state ← get
  return (fieldsOf (separatorsOf state.scope) marks).flatMap (matchesOf state)

end RefSync.Compiler.Shell
