/-
Path texts with slashes. A path is read as its components; empty components and
`.` say nothing, `..` is kept until it is resolved against a directory. Every
function is lexical: no file is looked at.
-/

namespace RefSync.Path

/-- The pieces between slashes, at least one. -/
def pieces : List Char → List (List Char)
  | [] => [[]]
  | '/' :: rest => [] :: pieces rest
  | char :: rest =>
      match pieces rest with
      | piece :: others => (char :: piece) :: others
      | [] => [[char]]

/-- The components that name something. -/
def parts (path : String) : List String :=
  ((pieces path.toList).filter fun piece => piece != [] && piece != ['.']).map String.ofList

def isAbsolute (path : String) : Bool :=
  path.toList.head? == some '/'

/-- The slashes an absolute path starts with once repeated ones are dropped. Exactly
two are a root of their own. -/
def anchor (path : String) : String :=
  match path.toList with
  | '/' :: '/' :: '/' :: _ => "/"
  | '/' :: '/' :: _ => "//"
  | '/' :: _ => "/"
  | _ => ""

def joinParts (parts : List String) : String :=
  "/".intercalate parts

/-- One component more, on a reversed list without inner `..`. Above a root there is
nothing; above a relative path there is `..`. -/
def push (rooted : Bool) (stack : List String) (part : String) : List String :=
  if part != ".." then part :: stack
  else
    match stack with
    | [] => if rooted then [] else [".."]
    | top :: rest => if top == ".." then ".." :: stack else rest

/-- Components with each `..` resolved. -/
def resolve (rooted : Bool) (parts : List String) : List String :=
  (parts.foldl (push rooted) []).reverse

def orHere (path : String) : String :=
  if path.isEmpty then "." else path

/-- The shortest text for the same place. -/
def normalize (path : String) : String :=
  orHere (anchor path ++ joinParts (resolve (isAbsolute path) (parts path)))

/-- `right` seen from `left`; an absolute path stays. -/
def join (left right : String) : String :=
  if isAbsolute right then right
  else if left.isEmpty || left.toList.getLast? == some '/' then left ++ right
  else left ++ "/" ++ right

/-- The text up to the last slash, and the text after it. -/
def splitLast (path : List Char) : List Char × List Char :=
  let last := (path.reverse.takeWhile (· != '/')).reverse
  let head := path.take (path.length - last.length)
  let trimmed := (head.reverse.dropWhile (· == '/')).reverse
  (if trimmed.isEmpty then head else trimmed, last)

def directory (path : String) : String :=
  String.ofList (splitLast path.toList).1

def baseName (path : String) : String :=
  String.ofList (splitLast path.toList).2

/-- The components that lead from one resolved directory to another place. -/
def climb : List String → List String → List String
  | [], target => target
  | start, [] => start.map fun _ => ".."
  | here :: start, there :: target =>
      if here == there then climb start target
      else (here :: start).map (fun _ => "..") ++ there :: target

def ofParts (parts : List String) : String :=
  orHere (joinParts parts)

/-- An absolute path without `.` and repeated slashes. -/
def tidy (path : String) : String :=
  anchor path ++ joinParts (parts path)

end RefSync.Path
