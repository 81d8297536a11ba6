/-
The outside of an engine: the files of one project, the documents that routines tried to
write, and the pauses they asked for. A document is written as a whole or not at all,
into a directory that is made when it is missing.
-/

import RefSync.FileTree
import RefSync.Routine.Run
import RefSync.Glob
import RefSync.Json.Printer
import RefSync.Workspace

namespace RefSync

structure Disk where
  project : Project
  files : FileTree
  written : List String := []
  pauses : List Duration := []

namespace Disk

/-- The place of a path, or why it cannot be read from. The path is absolute. -/
def locate (disk : Disk) (path : String) : Except ReadFault Place :=
  match disk.files.walk path with
  | .ok place => .ok place
  | .error .missing => .error (.missing path)
  | .error .notDirectory => .error (.notDirectory path)
  | .error .tooLong => .error (.tooLong path)
  | .error .nullCharacter => .error .nullCharacter

def readText (disk : Disk) (path : String) : Except ReadFault (List Char) := do
  let path := disk.project.absolute path
  match disk.files.get? (← disk.locate path) with
  | some (.file content) => content.decode.mapError ReadFault.undecodable |>.map normalizeNewlines
  | some .directory => .error (.isDirectory path)
  | none => .error (.missing path)

def read (disk : Disk) (path : String) : Except ReadFault Json := do
  (Json.readChars (← disk.readText path)).mapError ReadFault.malformed

/-- Makes the directories above a document, and yields the last one. -/
def makeParents (disk : Disk) (path : String) : Except WriteFault Place × Disk :=
  let above := (Path.parts path).dropLast
  let spelled (parts : List String) := Path.anchor path ++ Path.joinParts parts
  if FileTree.hasNull (spelled above) then (.error .nullCharacter, disk)
  else if FileTree.isLongPath (spelled above) then (.error (.tooLong (spelled above)), disk)
  else
    match disk.files.makeFrom false [] above with
    | (.ok place, files) => (.ok place, { disk with files })
    | (.error (fault, left), files) =>
        let refused := spelled (above.take (above.length - left))
        let fault : WriteFault := match fault with
          | .taken => .directoryTaken refused
          | .belowFile => .notDirectory refused
          | .tooLong => .tooLong refused
        (.error fault, { disk with files })

/-- Puts a text in the place of a document. -/
def writeText (disk : Disk) (path : String) (text : List Char) : Except WriteFault Unit × Disk :=
  let path := disk.project.absolute path
  match disk.makeParents path with
  | (.error fault, disk) => (.error fault, disk)
  | (.ok directory, disk) =>
      let name := (Path.parts path).getLast?
      let place := directory ++ name.toList
      if FileTree.hasNull path then (.error .nullCharacter, disk)
      else if FileTree.isLongPath path || name.any FileTree.isLongName then
        (.error (.tooLong path), disk)
      else if name == some ".." then (.error (.isParent path), disk)
      else if disk.files.isDirectory place then (.error (.isDirectory path), disk)
      else (.ok (), { disk with files := disk.files.put place (.file (.text text)) })

def write (disk : Disk) (path : String) (document : Document) : Except WriteFault Unit × Disk :=
  { disk with written := disk.written ++ [path] }.writeText path (Json.obj document).contents

/-- Whether there is something at a path. A path that is too long is refused. -/
def isPresent (disk : Disk) (path : String) : Except ReadFault Bool :=
  match disk.locate (disk.project.absolute path) with
  | .ok _ => .ok true
  | .error (.tooLong path) => .error (.tooLong path)
  | .error _ => .ok false

/-- The directories that some globs match, sorted. A glob that starts with `!` is
skipped. -/
def discover (disk : Disk) (globs : List String) : Except ReadFault (List String) :=
  let globs := globs.filter (!·.startsWith "!")
  if globs.any fun pattern => FileTree.hasNull (Glob.literalDirectory pattern) then
    .error .nullCharacter
  else
    let matched := globs.flatMap (Glob.expand disk.files disk.project.root)
    let directories := matched.filter fun path =>
      disk.files.isDirectoryPath (disk.project.absolute path)
    .ok (sortTexts (distinct (directories.map disk.project.relative)))

def ignoredDirectories : List String :=
  ["node_modules", Config.artifactDirectory]

/-- The entries below a directory, with the way from it. -/
def entriesBelow (disk : Disk) (directory : String) : List (List String × Entry) :=
  disk.files.contents (disk.project.absolute directory)

/-- Whether anything is named like JSX source and is in, or is, no ignored name. A
directory whose path is too long is refused. -/
def hasJsx (disk : Disk) (directory : String) : Except ReadFault Bool :=
  (disk.isPresent directory).map fun _ => (disk.entriesBelow directory).any fun (parts, _) =>
    (parts.getLast?.any (·.endsWith ".tsx")) && !parts.any ignoredDirectories.contains

/-- The files outside ignored directories. -/
def filesBelow (disk : Disk) (directory : String) : List (List String) :=
  (disk.entriesBelow directory).filterMap fun (parts, entry) =>
    if entry == .directory || parts.dropLast.any ignoredDirectories.contains then none
    else some parts

def isSource (parts : List String) : Bool :=
  parts.getLast?.any fun name => name.endsWith ".ts" || name.endsWith ".tsx"

/-- The source files outside ignored directories, sorted by components. -/
def sources (disk : Disk) (directory : String) : List (List String) :=
  sortBy textsPrecede ((disk.filesBelow directory).filter isSource)

def hasFiles (disk : Disk) (directory : String) : Bool :=
  !(disk.filesBelow directory).isEmpty

/-- Whether there is JSX source below a directory, all source files, and whether there
is any file. -/
def scan (disk : Disk) (directory : String) :
    Except ReadFault (Bool × List (List String) × Bool) := do
  let jsx ← disk.hasJsx directory
  if FileTree.hasNull directory then .error .nullCharacter
  else .ok (jsx, disk.sources directory, disk.hasFiles directory)

/-- Removes a directory with everything in it. What is none, or is gone already, is refused. -/
def removeDirectory (disk : Disk) (directory : String) : Except ReadFault Unit × Disk :=
  let path := disk.project.absolute directory
  match disk.locate path with
  | .error fault => (.error fault, disk)
  | .ok place =>
      if disk.files.isDirectory place then
        (.ok (), { disk with files := disk.files.remove place })
      else (.error (.notDirectory path), disk)

/-- The answer to a request. -/
def answer (disk : Disk) : (request : Request) → request.Answer × Disk
  | .read path => (disk.read path, disk)
  | .write path document => disk.write path document
  | .isPresent path => (disk.isPresent path, disk)
  | .discover globs => (disk.discover globs, disk)
  | .hasJsx directory => (disk.hasJsx directory, disk)
  | .sources directory => (disk.sources directory, disk)
  | .hasFiles directory => (disk.hasFiles directory, disk)
  | .removeDirectory directory => disk.removeDirectory directory
  | .pause length => ((), { disk with pauses := disk.pauses ++ [length] })

/-- Answers requests with nobody else at work. -/
def alone : Routine.Answering Disk :=
  fun request (engine, disk) =>
    let (given, disk) := disk.answer request
    (given, engine, disk)

end Disk
end RefSync
