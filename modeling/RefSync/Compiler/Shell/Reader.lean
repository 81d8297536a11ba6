/-
Reading commands. A text is read line by line, as each line runs before the next one is
looked at; a line is a list of commands that may go on over several lines of text. The
contents of here-documents follow the line that mentions them and are kept by number.
-/

import RefSync.Compiler.Shell.Syntax

namespace RefSync.Compiler.Shell

structure SyntaxFault where
  line : Nat
  message : String
deriving Repr

/-- A here-document that is mentioned but not read yet. -/
structure Pending where
  number : Nat
  mark : Bytes
  quoted : Bool
  indented : Bool

/-- What is left of a text, and the here-documents so far. -/
structure Source where
  rest : Bytes
  line : Nat := 1
  pending : List Pending := []
  documents : List (List Piece) := []

abbrev Reader := StateT Source (Except SyntaxFault)

namespace Reader

def reject {α : Type} (message : String) : Reader α := do
  throw ⟨(← get).line, message⟩

def peek : Reader (Option Char) := do
  return (← get).rest.head?

def advance : Reader (Option Char) := do
  let source ← get
  match source.rest with
  | [] => return none
  | char :: rest =>
      set { source with rest, line := if char == '\n' then source.line + 1 else source.line }
      return some char

/-- Reads a character if it is the next one. -/
def accept (char : Char) : Reader Bool := do
  if (← peek) == some char then
    let _ ← advance
    return true
  else return false

/-- Steps that are bounded by what is left to read. -/
def bound : Reader Nat := do
  return 2 * (← get).rest.length + 2

/-- The characters up to one that fails a test. -/
def charsWhile (test : Char → Bool) : Reader Bytes := do
  let source ← get
  let taken := source.rest.takeWhile test
  set { source with
    rest := source.rest.drop taken.length
    line := source.line + taken.countP (· == '\n') }
  return taken

/-! ### Tokens -/

/-- Characters that end a word. -/
def isBreak (char : Char) : Bool :=
  " \t\n;&|()<>".toList.contains char

/-- A token as far as its first characters say what it is. -/
inductive Token where
  | word
  | keyword (name : String)
  | operator (text : String)
  | redirection
  | newline
  | finish
deriving DecidableEq

def keywords : List String :=
  ["!", "\x7b", "\x7d", "case", "do", "done", "elif", "else", "esac", "fi", "for", "if", "in",
    "then", "until", "while"]

def Token.name : Token → String
  | .word => "word"
  | .keyword text | .operator text => "\"" ++ text ++ "\""
  | .redirection => "redirection"
  | .newline => "newline"
  | .finish => "end of file"

/-- Whether a list of commands ends before a token. -/
def Token.endsList : Token → Bool
  | .finish => true
  | .operator text => [")", ";;"].contains text
  | .keyword name => ["do", "done", "elif", "else", "esac", "fi", "then", "\x7d"].contains name
  | _ => false

/-- What is said of a token in the wrong place. -/
def Token.fault (token : Token) (expected : Option Token) : String :=
  token.name ++ " unexpected" ++ match expected with
    | some expected => " (expecting " ++ expected.name ++ ")"
    | none => ""

/-- Blanks, comments, and the ends of lines that a backslash takes away. -/
def skipBlanks : Nat → Reader Unit
  | 0 => return
  | fuel + 1 => do
      match (← get).rest with
      | ' ' :: _ | '\t' :: _ =>
          let _ ← advance
          skipBlanks fuel
      | '\\' :: '\n' :: _ =>
          let _ ← advance
          let _ ← advance
          skipBlanks fuel
      | '#' :: _ =>
          let _ ← charsWhile (· != '\n')
      | _ => return

/-- The operator that a text starts with, of those that are no redirections. -/
def operatorOf? : Bytes → Option String
  | '&' :: '&' :: _ => some "&&"
  | '|' :: '|' :: _ => some "||"
  | ';' :: ';' :: _ => some ";;"
  | char :: _ => if "&|;()".toList.contains char then some (String.ofList [char]) else none
  | [] => none

def startsRedirection : Bytes → Bool
  | '<' :: _ | '>' :: _ => true
  | digit :: '<' :: _ | digit :: '>' :: _ => digit.isDigit
  | _ => false

def tokenOf (text : Bytes) : Token :=
  match text with
  | [] => .finish
  | '\n' :: _ => .newline
  | text =>
      match operatorOf? text with
      | some operator => .operator operator
      | none =>
          if startsRedirection text then .redirection
          else
            let name := String.ofList (text.takeWhile fun char => !isBreak char)
            if keywords.contains name then .keyword name else .word

/-- What comes next on the line. -/
def glance : Reader Token := do
  skipBlanks (← bound)
  return tokenOf (← get).rest

/-- Reads what `glance` has seen, unless that is a word or a redirection. -/
def discard (token : Token) : Reader Unit := do
  let length := match token with
    | .keyword text | .operator text => text.length
    | .newline => 1
    | _ => 0
  modify fun source => { source with
    rest := source.rest.drop length
    line := if token == .newline then source.line + 1 else source.line }

/-! ### Words -/

/-- What a piece of text is inside of, which says how it ends and what is special. -/
inductive Context where
  | word
  | quotes
  | braces (quoted : Bool)
  | expression (depth : Nat)
  | document

def Context.isQuoted : Context → Bool
  | .word | .braces false => false
  | _ => true

/-- A character in front of pieces, joined to text of its kind. -/
def addChar (char : Char) (quoted : Bool) : List Piece → List Piece
  | .text bytes same :: rest =>
      if same == quoted then .text (char :: bytes) quoted :: rest
      else .text [char] quoted :: .text bytes same :: rest
  | pieces => .text [char] quoted :: pieces

/-- Characters that a backslash takes the meaning from. -/
def Context.escapes : Context → Char → Bool
  | .word, _ | .braces false, _ => true
  | .quotes, char => "$`\"\\".toList.contains char
  | .braces true, char => "$`\"\\\x7d".toList.contains char
  | .expression _, char | .document, char => "$`\\".toList.contains char

/-- The text of a backquoted command, without the backslashes that protect it. -/
def backquoted : (inQuotes : Bool) → Bytes → Option (Bytes × Bytes)
  | _, [] => none
  | _, '\x60' :: rest => some ([], rest)
  | inQuotes, '\\' :: char :: rest =>
      let kept := if char == '\x60' || char == '$' || char == '\\' || (inQuotes && char == '"')
        then [char] else ['\\', char]
      (backquoted inQuotes rest).map fun (inside, after) => (kept ++ inside, after)
  | inQuotes, char :: rest =>
      (backquoted inQuotes rest).map fun (inside, after) => (char :: inside, after)

/-- A backquoted command. Its text is read by itself, from its own first line on, as far as
there are commands in it. -/
def backquote (commands : Reader Command) (quoted : Bool) : Reader Piece := do
  let source ← get
  match backquoted quoted source.rest with
  | none =>
      set { source with line := source.line + source.rest.countP (· == '\n') }
      reject "EOF in backquote substitution"
  | some (inside, after) =>
      set { source with rest := inside, line := 1 }
      let command ← commands
      let lines := source.rest.countP (· == '\n') - after.countP (· == '\n')
      modify fun inner => { inner with rest := after, line := source.line + lines }
      return .output command quoted

def isSpecialName (char : Char) : Bool :=
  "@*#?-$!".toList.contains char

/-- The name after an opening brace, if what follows can be one. -/
def bracedName : Reader (Option String) := do
  match ← peek with
  | some char =>
      if isNameStart char then return some (String.ofList (← charsWhile isNameChar))
      else if char.isDigit then return some (String.ofList (← charsWhile Char.isDigit))
      else if isSpecialName char then
        let _ ← advance
        return some (String.ofList [char])
      else return none
  | none => return none

def fallbackOf? : Char → Option Fallback
  | '-' => some .use
  | '=' => some .assign
  | '?' => some .refuse
  | '+' => some .replace
  | _ => none

/-- A parameter in braces, after the opening one. What cannot be understood is read to its
end and has no meaning. -/
def braced (inner : Context → Reader (List Piece)) (quoted : Bool) : Reader Piece := do
  let rest := (← get).rest
  let isLength := rest.head? == some '#'
    && (rest.drop 1).head?.any fun char => char != '\x7d'
      && (isNameChar char || (rest.drop 2).head? == some '\x7d')
  if isLength then
    let _ ← advance
  match ← bracedName with
  | none => meaningless
  | some name =>
      if ← accept '\x7d' then
        return .parameter name (if isLength then .length else .value) quoted
      if isLength then return ← meaningless
      let before ← get
      let whenEmpty ← accept ':'
      match ← advance with
      | some '%' => trimmed name true
      | some '#' => trimmed name false
      | some char =>
          match fallbackOf? char with
          | some kind =>
              return .parameter name (.fallback kind whenEmpty (← inner (.braces quoted))) quoted
          | none =>
              if !whenEmpty then set before
              meaningless
      | none => meaningless
where
  meaningless : Reader Piece := do
    let _ ← inner (.braces quoted)
    return .meaningless
  trimmed (name : String) (atEnd : Bool) : Reader Piece := do
    let longest ← accept (if atEnd then '%' else '#')
    return .parameter name (.without atEnd longest (← inner (.braces false))) quoted

/-- What a dollar sign begins. -/
def dollar (commands : Reader Command) (inner : Context → Reader (List Piece)) (quoted : Bool) :
    Reader Piece := do
  match ← peek with
  | some '(' =>
      let _ ← advance
      if ← accept '(' then return .arithmetic (← inner (.expression 0)) quoted
      let command ← commands
      let token ← glance
      if token != .operator ")" then reject (token.fault (some (.operator ")")))
      discard token
      return .output command quoted
  | some '{' =>
      let _ ← advance
      braced inner quoted
  | some char =>
      if isNameStart char then
        return .parameter (String.ofList (← charsWhile isNameChar)) .value quoted
      else if char.isDigit || isSpecialName char then
        let _ ← advance
        return .parameter (String.ofList [char]) .value quoted
      else return .text ['$'] quoted
  | none => return .text ['$'] quoted

def Context.atEnd : Context → Reader (List Piece)
  | .word | .document => return []
  | .quotes | .braces true => reject "Unterminated quoted string"
  | .braces false => reject "Missing '\x7d'"
  | .expression _ => reject "Missing '))'"

/-- Pieces up to the end of their context. -/
def pieces (commands : Reader Command) : Nat → Context → Reader (List Piece)
  | 0, _ => return []
  | fuel + 1, context => do
      let before ← get
      let quoted := context.isQuoted
      let more := pieces commands fuel
      match ← advance with
      | none => context.atEnd
      | some '\\' =>
          match ← peek with
          | none => return addChar '\\' true (← more context)
          | some '\n' => let _ ← advance; more context
          | some char =>
              if context.escapes char then
                let _ ← advance
                return addChar char true (← more context)
              else return addChar '\\' quoted (← more context)
      | some '$' => return (← dollar commands more quoted) :: (← more context)
      | some '\x60' => return (← backquote commands quoted) :: (← more context)
      | some char =>
          match context with
          | .word =>
              if isBreak char then set before; return []
              else if char == '\'' then single more context
              else if char == '"' then double more context
              else return addChar char false (← more context)
          | .quotes =>
              if char == '"' then return [] else return addChar char true (← more context)
          | .braces quoted =>
              if char == '\x7d' then return []
              else if char == '"' then double more context
              else if char == '\'' && !quoted then single more context
              else return addChar char quoted (← more context)
          | .expression depth =>
              if char == '(' then return addChar char true (← more (.expression (depth + 1)))
              else if char == ')' && 0 < depth then
                return addChar char true (← more (.expression (depth - 1)))
              else if char == ')' then
                if ← accept ')' then return [] else return addChar char true (← more context)
              else return addChar char true (← more context)
          | .document => return addChar char true (← more context)
where
  single (more : Context → Reader (List Piece)) (context : Context) : Reader (List Piece) := do
    let inside ← charsWhile (· != '\'')
    if ← accept '\'' then return .text inside true :: (← more context)
    else reject "Unterminated quoted string"
  double (more : Context → Reader (List Piece)) (context : Context) : Reader (List Piece) := do
    match ← more .quotes with
    | [.parameter "@" .value true] => return .parameter "@" .value true :: (← more context)
    | inside => return .text [] true :: inside ++ (← more context)

/-! ### Here-documents -/

/-- The text of a here-document and what follows its mark. -/
def documentText (mark : Bytes) (indented : Bool) : Nat → Bytes → Bytes × Bytes
  | 0, text => ([], text)
  | fuel + 1, text =>
      if text.isEmpty then ([], [])
      else
        let line := text.takeWhile (· != '\n')
        let after := text.drop (line.length + 1)
        let ending := (text.drop line.length).take 1
        let line := if indented then line.dropWhile (· == '\t') else line
        if line == mark then ([], after)
        else
          let (more, rest) := documentText mark indented fuel after
          (line ++ ending ++ more, rest)

/-- Reads one of the here-documents that were mentioned, at the start of a line. -/
def readDocument (commands : Reader Command) (document : Pending) : Reader Unit := do
  let source ← get
  let (text, rest) := documentText document.mark document.indented source.rest.length source.rest
  let line := source.line + source.rest.countP (· == '\n') - rest.countP (· == '\n')
  set { source with rest := text }
  let content ← if document.quoted then pure [.text text true]
    else pieces commands (← bound) .document
  modify fun after =>
    { after with rest, line, documents := after.documents.set document.number content }

def readDocuments (commands : Reader Command) : Reader Unit := do
  let pending := (← get).pending
  modify fun source => { source with pending := [] }
  pending.forM (readDocument commands)

def skipLinesWithin (commands : Reader Command) : Nat → Reader Unit
  | 0 => return
  | fuel + 1 => do
      if (← glance) == .newline then
        discard .newline
        readDocuments commands
        skipLinesWithin commands fuel

/-- What comes next, on this line or a later one. -/
def glanceBeyond (commands : Reader Command) : Reader Token := do
  skipLinesWithin commands (← bound)
  glance

def word (commands : Reader Command) : Reader (List Piece) := do
  skipBlanks (← bound)
  pieces commands (← bound) .word

/-- Rejects a token, but reads it before, as it may hold faults of its own. -/
def refuseToken {α : Type} (commands : Reader Command) (token : Token)
    (expected : Option Token) : Reader α := do
  match token with
  | .word =>
      let _ ← word commands
  | token => discard token
  reject (token.fault expected)

def unexpected {α : Type} (commands : Reader Command) (token : Token) : Reader α :=
  refuseToken commands token none

/-- Reads a token that has to come next. -/
def expect (commands : Reader Command) (expected : Token) : Reader Unit := do
  let token ← glanceBeyond commands
  if token == expected then discard token else refuseToken commands token (some expected)

/-! ### Parts of commands -/

def plainText? : List Piece → Option Bytes
  | [.text bytes false] => some bytes
  | _ => none

/-- The unquoted text of a word that marks the end of a here-document. -/
def markOf (pieces : List Piece) : Bytes × Bool :=
  (pieces.flatMap fun
    | .text bytes _ => bytes
    | _ => [],
   pieces.any fun
    | .text _ quoted => quoted
    | _ => false)

/-- A redirection operator after its stream. -/
def redirectionOperator : Reader String := do
  let first := (← advance).getD '<'
  let second := (← peek).getD ' '
  let longer := if first == '>' then ">|&".toList else "<&>".toList
  if !longer.contains second then return String.ofList [first]
  let _ ← advance
  if first == '<' && second == '<' then
    if ← accept '-' then return "<<-"
  return String.ofList [first, second]

/-- The here-document of a redirection; it is read when its line ends. -/
def mention (pieces : List Piece) (indented : Bool) : Reader Nat := do
  let number := (← get).documents.length
  let (mark, quoted) := markOf pieces
  let document : Pending := { number, mark, quoted, indented }
  modify fun source => { source with
    documents := source.documents ++ [[]]
    pending := source.pending ++ [document] }
  return number

def redirection (commands : Reader Command) : Reader Redirection := do
  let stream ← charsWhile Char.isDigit
  let operator ← redirectionOperator
  match ← glance with
  | .word | .keyword _ =>
      let pieces ← word commands
      let into (fallback : Nat) (target : Target) : Redirection :=
        .into ((stream.head?.map fun digit => digit.toNat - '0'.toNat).getD fallback) target
      match operator with
      | ">" | ">|" => return into 1 (.write pieces)
      | ">>" => return into 1 (.append pieces)
      | "<>" => return into 0 (.update pieces)
      | ">&" => return into 1 (.stream pieces)
      | "<&" => return into 0 (.stream pieces)
      | "<<" => return into 0 (.text (← mention pieces false))
      | "<<-" => return into 0 (.text (← mention pieces true))
      | _ => return into 0 (.read pieces)
  | token => unexpected commands token

/-- The redirections that follow a command. -/
def redirections (commands : Reader Command) : Nat → Reader (List Redirection)
  | 0 => return []
  | fuel + 1 => do
      if (← glance) == .redirection then
        return (← redirection commands) :: (← redirections commands fuel)
      else return []

/-- The name and the value of an assignment, if a word is one. -/
def assignment? : List Piece → Option (String × List Piece)
  | .text bytes false :: rest =>
      let name := bytes.takeWhile isNameChar
      match bytes.drop name.length with
      | '=' :: value =>
          if isName name then
            some (String.ofList name, if value.isEmpty then rest else .text value false :: rest)
          else none
      | _ => none
  | _ => none

/-! ### Simple commands and functions -/

/-- Commands whose names no function can have. -/
def specialNames : List String :=
  [".", ":", "break", "continue", "eval", "exec", "exit", "export", "local", "readonly",
    "return", "set", "shift", "times", "trap", "unset"]

/-- A simple command as far as it is read. Its line is the one where its first word ends. -/
structure Draft where
  line : Nat
  assignments : List (String × List Piece) := []
  words : List (List Piece) := []
  redirections : List Redirection := []

def Draft.isEmpty (draft : Draft) : Bool :=
  draft.words.isEmpty && draft.assignments.isEmpty && draft.redirections.isEmpty

def Draft.command (draft : Draft) : Command :=
  .simple draft.line draft.assignments draft.words draft.redirections

/-- A function after its name and the opening parenthesis. -/
def definition (commands command : Reader Command) (name : List Piece) : Reader Command := do
  let token := match ← glance with
    | .keyword _ => .word
    | token => token
  if token != .operator ")" then refuseToken commands token (some (.operator ")"))
  discard token
  match plainText? name with
  | some text =>
      if !isName text || specialNames.contains (String.ofList text) then
        reject "Bad function name"
      skipLinesWithin commands (← bound)
      return .definition (String.ofList text) (← command)
  | none => reject "Bad function name"

def simple (commands command : Reader Command) : Nat → Draft → Reader Command
  | 0, draft => return draft.command
  | fuel + 1, draft => do
      match ← glance with
      | .word | .keyword _ =>
          let pieces ← word commands
          let line := (← get).line
          let draft := if draft.isEmpty then { draft with line } else draft
          match if draft.words.isEmpty then assignment? pieces else none with
          | some assignment =>
              simple commands command fuel
                { draft with assignments := draft.assignments ++ [assignment] }
          | none =>
              simple commands command fuel { draft with words := draft.words ++ [pieces] }
      | .redirection =>
          let found ← redirection commands
          simple commands command fuel
            { draft with redirections := draft.redirections ++ [found] }
      | .operator "(" =>
          match draft.words, draft.assignments, draft.redirections with
          | [name], [], [] =>
              discard (.operator "(")
              definition commands command name
          | _, _, _ => return draft.command
      | _ => return draft.command

/-! ### Lists -/

/-- The stages of a pipeline after the first one. -/
def stages (commands command : Reader Command) : Nat → Reader (List Command)
  | 0 => return []
  | fuel + 1 => do
      let token ← glance
      if token == .operator "|" then
        discard token
        let stage ← command
        return stage :: (← stages commands command fuel)
      else return []

def pipeline (commands command : Reader Command) : Reader Command := do
  let token ← glanceBeyond commands
  let isNegated := token == .keyword "!"
  if isNegated then
    discard token
    if (← glance) == .newline then unexpected commands .newline
  let first ← command
  let whole := match ← stages commands command (← bound) with
    | [] => first
    | others => .pipeline (first :: others)
  return if isNegated then .negation whole else whole

/-- Pipelines joined by `&&` and `||`, after the first one. -/
def joined (commands command : Reader Command) : Nat → Command → Reader Command
  | 0, first => return first
  | fuel + 1, first => do
      let token ← glance
      if token == .operator "&&" then
        discard token
        joined commands command fuel (.both first (← pipeline commands command))
      else if token == .operator "||" then
        discard token
        joined commands command fuel (.either first (← pipeline commands command))
      else return first

def follow : Command → Command → Command
  | .nothing, command => command
  | first, command => .sequence first command

/-- Which commands a list holds: those of a line, or those inside of something, where one
may be required. -/
inductive Extent where
  | line
  | body
  | optional
deriving DecidableEq

/-- A list of commands after those that were read. -/
def listAfter (commands command : Reader Command) (extent : Extent) :
    Nat → (found : Bool) → Command → Reader Command
  | 0, _, sofar => return sofar
  | fuel + 1, found, sofar => do
      let start ← if extent == .line then glance else glanceBeyond commands
      if start == .newline then
        discard start
        readDocuments commands
        return sofar
      if start == .finish then return sofar
      if extent != .line && start.endsList && (found || extent == .optional) then return sofar
      let next ← joined commands command (← bound) (← pipeline commands command)
      let token ← glance
      match token with
      | .operator "&" =>
          discard token
          listAfter commands command extent fuel true (follow sofar (.background next))
      | .operator ";" =>
          discard token
          listAfter commands command extent fuel true (follow sofar next)
      | .newline | .finish => listAfter commands command extent fuel true (follow sofar next)
      | token => if extent == .line then unexpected commands token else return follow sofar next

def list (commands command : Reader Command) (extent : Extent) : Reader Command := do
  listAfter commands command extent (← bound) false .nothing

/-! ### Compound commands -/

/-- A list of commands up to a keyword, which is read too. -/
def listUpTo (commands command : Reader Command) (keyword : String) : Reader Command := do
  let body ← list commands command .body
  expect commands (.keyword keyword)
  return body

/-- The branches of an `if` after the keyword. -/
def branches (commands command : Reader Command) : Nat → Reader Command
  | 0 => return .nothing
  | fuel + 1 => do
      let condition ← listUpTo commands command "then"
      let whenTrue ← list commands command .body
      let token ← glanceBeyond commands
      match token with
      | .keyword "elif" =>
          discard token
          return .branch condition whenTrue (← branches commands command fuel)
      | .keyword "else" =>
          discard token
          return .branch condition whenTrue (← listUpTo commands command "fi")
      | _ =>
          expect commands (.keyword "fi")
          return .branch condition whenTrue .nothing

def loopOf (commands command : Reader Command) (goal : Bool) : Reader Command := do
  let condition ← listUpTo commands command "do"
  return .loop goal condition (← listUpTo commands command "done")

/-- The words up to the end of a line. -/
def wordsOfLine (commands : Reader Command) : Nat → Reader (List (List Piece))
  | 0 => return []
  | fuel + 1 => do
      let token ← glance
      match token with
      | .word | .keyword _ => return (← word commands) :: (← wordsOfLine commands fuel)
      | .newline | .operator ";" =>
          discard token
          return []
      | token => unexpected commands token

/-- A `for` after the keyword. Without words it goes through the arguments. -/
def forEach (commands command : Reader Command) : Reader Command := do
  let line := (← get).line
  let pieces ← match ← glance with
    | .word | .keyword _ => word commands
    | token =>
        discard token
        pure []
  let name := (plainText? pieces).getD []
  if !isName name then reject "Bad for loop variable"
  let token ← glanceBeyond commands
  let words ← match token with
    | .keyword "in" =>
        discard token
        wordsOfLine commands (← bound)
    | token =>
        if token == .operator ";" then discard token
        pure [[.parameter "@" .value true]]
  expect commands (.keyword "do")
  return .each line (String.ofList name) words (← listUpTo commands command "done")

/-- The patterns of a case up to the closing parenthesis. What is no word is passed over. -/
def patterns (commands : Reader Command) : Nat → Reader (List (List Piece))
  | 0 => return []
  | fuel + 1 => do
      let pattern ← match ← glance with
        | .word | .keyword _ => word commands
        | token =>
            discard token
            pure []
      let token ← glance
      match token with
      | .operator "|" =>
          discard token
          return pattern :: (← patterns commands fuel)
      | .operator ")" =>
          discard token
          return [pattern]
      | token => refuseToken commands token (some (.operator ")"))

def cases (commands command : Reader Command) : Nat → Reader (List (List (List Piece) × Command))
  | 0 => return []
  | fuel + 1 => do
      let token ← glanceBeyond commands
      if token == .keyword "esac" then
        discard token
        return []
      if token == .operator "(" then discard token
      let found ← patterns commands (← bound)
      let body ← list commands command .optional
      let token ← glanceBeyond commands
      match token with
      | .keyword "esac" =>
          discard token
          return [(found, body)]
      | .operator ";;" =>
          discard token
          return (found, body) :: (← cases commands command fuel)
      | token => refuseToken commands token (some (.operator ";;"))

def choiceOf (commands command : Reader Command) : Reader Command := do
  let line := (← get).line
  let subject ← match ← glance with
    | .word | .keyword _ => word commands
    | token => refuseToken commands token (some .word)
  expect commands (.keyword "in")
  return .choice line subject (← cases commands command (← bound))

/-- A compound command, if the next token starts one. -/
def compound? (commands command : Reader Command) (start : Token) : Reader (Option Command) := do
  match start with
  | .keyword "if" =>
      discard start
      return some (← branches commands command (← bound))
  | .keyword "while" =>
      discard start
      return some (← loopOf commands command true)
  | .keyword "until" =>
      discard start
      return some (← loopOf commands command false)
  | .keyword "for" =>
      discard start
      return some (← forEach commands command)
  | .keyword "case" =>
      discard start
      return some (← choiceOf commands command)
  | .keyword "\x7b" =>
      discard start
      return some (← listUpTo commands command "\x7d")
  | .operator "(" =>
      discard start
      let line := (← get).line
      let body ← list commands command .body
      expect commands (.operator ")")
      return some (.subshell line body)
  | _ => return none

/-- A command whose inner commands are read by other readers. -/
def commandWith (commands command : Reader Command) : Reader Command := do
  let start ← glanceBeyond commands
  let line := (← get).line
  match ← compound? commands command start with
  | some body =>
      match ← redirections commands (← bound) with
      | [] => return body
      | found => return .redirected line body found
  | none =>
      match start with
      | .word | .redirection => simple commands command (← bound) { line }
      | token => unexpected commands token

/-- Readers of one command and of a list of commands, which are nested to a depth. -/
def readers : (depth : Nat) → Reader Command × Reader Command
  | 0 => (reject "too deep", reject "too deep")
  | depth + 1 =>
      let (command, commands) := readers depth
      (commandWith commands command, list commands command .optional)

/-- The commands of the next line. Commands within commands take a character at least. -/
def line : Reader Command := do
  let (command, commands) := readers ((← get).rest.length + 1)
  list commands command .line

end Reader

/-- The commands of the next line, if anything is left, and what comes after it. -/
def readLine (source : Source) : Except SyntaxFault (Option (Command × Source)) :=
  if source.rest.isEmpty then .ok none else (Reader.line.run source).map some

end RefSync.Compiler.Shell
