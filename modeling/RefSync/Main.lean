/-
The program: a command line, the files of a project, and a log. What is decided is
decided elsewhere; here requests are answered by a look at the files as they are, and
what became different is written back.
-/

import RefSync.CommandLine.Arguments
import RefSync.CommandLine.Output
import RefSync.Doctor.Run
import RefSync.Session
import RefSync.Watch.Snapshot

namespace RefSync.Program

/-! ### Files -/

/-- Only documents are read; of other files it is enough that they are there. -/
def isDocumentName (name : String) : Bool :=
  [manifestFile, configFile, Config.artifactFile].contains name

/-- Directories that may be large and hold nothing of interest. -/
def isClosed (name : String) : Bool :=
  name == "node_modules" || name == ".git"

def contentOf (entry : IO.FS.DirEntry) : IO Content := do
  if isDocumentName entry.fileName then
    return .ofBytes (← IO.FS.readBinFile entry.path).toList
  else return .text []

/-- The entries below a place. One that vanishes meanwhile is not there. -/
partial def look (place : Place) (entries : List IO.FS.DirEntry) : IO (List (Place × Entry)) := do
  let mut found := []
  for entry in entries do
    let here := place ++ [entry.fileName]
    let inside ← try
        match (← entry.path.symlinkMetadata).type with
        | .dir =>
            let below ← if isClosed entry.fileName then pure []
              else look here (← entry.path.readDir).toList
            pure ((here, .directory) :: below)
        | _ =>
            if ← entry.path.isDir then pure []
            else pure [(here, .file (← contentOf entry))]
      catch _ => pure []
    found := found ++ inside
  return found

/-- The project as it is now. -/
def diskNow (project : Project) : IO Disk := do
  let empty := Disk.ofProject project
  let inside ← try look empty.base (← (← IO.FS.realPath project.root).readDir).toList
    catch _ => pure []
  return { empty with files := { entries := empty.files.entries ++ inside } }

/-- A text takes the place of a file as a whole. -/
def replaceFile (path text : String) : IO Unit := do
  let unfinished := path ++ ".tmp"
  IO.FS.createDirAll (Path.directory path)
  IO.FS.writeFile unfinished text
  IO.FS.rename unfinished path

/-- Makes a change of the files that a routine asked for. -/
def makeChange (root : String) (path : String) (change : Option Entry) : IO Unit := do
  let absolute := Path.join root path
  match change with
  | some (.file (.text chars)) => replaceFile absolute (String.ofList chars)
  | some (.file (.bytes bytes)) => IO.FS.writeBinFile absolute ⟨bytes.toArray⟩
  | some .directory => IO.FS.createDirAll absolute
  | none =>
      try
        let present ← IO.FS.realPath absolute
        if ← present.isDir then IO.FS.removeDirAll present else IO.FS.removeFile present
      catch _ => pure ()

/-! ### Routines -/

/-- Waits for a pause that was asked for, and answers anything else from the files as
they are. -/
def answer (project : Project) : (request : Request) → IO request.Answer
  | .pause length => IO.sleep (length.milliseconds (Nat.pow 2 32 - 1)).toUInt32
  | request => do
      let disk ← diskNow project
      let (given, after) := disk.answer request
      for (path, change) in disk.files.changes after.files disk.base do
        makeChange project.root path change
      return given

/-- Runs a routine, members of a group one after another. -/
def perform (project : Project) {α : Type} :
    Routine α → Engine → IO (Except Failure α × Engine)
  | .done value, engine => return (.ok value, engine)
  | .fail failure, engine => return (.error failure, engine)
  | .get next, engine => perform project (next engine) engine
  | .put engine next, _ => perform project next engine
  | .request asked next, engine => do
      let given ← answer project asked
      perform project (next given) engine
  | .group members next, engine => do
      let (results, engine) ← (List.finRange _).foldlM (fun (results, engine) index => do
        let (result, engine) ← perform project (members index) engine
        return (result :: results, engine)) ([], engine)
      perform project (next results.reverse) engine

/-! ### Commands -/

/-- Prints the records of a log that are not below a level. -/
def printLog (level : String) (log : List LogRecord) : IO Unit := do
  let levels := ["TRACE", "DEBUG", "INFO", "WARNING", "ERROR", "CRITICAL"]
  let least := (levels.idxOf? level).getD 0
  for record in log do
    if least ≤ (levels.idxOf? record.level.text).getD 0 then
      IO.eprintln (record.level.text ++ ": " ++ record.message)

def finish (level : String) (ending : CommandLine.Ending) : IO UInt32 := do
  printLog level ending.log
  for fault in ending.failure.getD [] do
    IO.eprintln fault.message
  return ending.exitCode.toUInt32

def doctor (level : String) (options : Options) : IO UInt32 := do
  let (result, engine) ← perform { root := options.root }
    (Doctor.run { root := options.root } { fix := options.fix, delete := options.delete }) {}
  printLog level engine.log
  let (ending, printed) := CommandLine.doctorEnding result
  IO.print printed.out
  IO.eprint printed.err
  finish level ending

/-- Time between two looks, in milliseconds. -/
def interval : UInt32 := 200

/-- Performs routines one after another until one fails: the next one follows from what
became of the files since the last look. -/
partial def watchFrom (level : String) (project : Project) (options : SyncOptions)
    (engine : Engine) (seen : FileTree) (routine : Routine Unit) : IO UInt32 := do
  let (result, engine) ← perform project routine engine
  let engine := Watch.logNotices engine
  printLog level engine.log
  match result with
  | .error failure => finish level (CommandLine.watchEnding (.error failure))
  | .ok () =>
      IO.sleep interval
      let now ← diskNow project
      let events := Watch.eventsBetween project seen now.files now.base
      watchFrom level project options { engine with log := [] } now.files
        (Watch.dispatchAll project options events)

def watch (level : String) (options : Options) : IO UInt32 := do
  let project : Project := { root := options.root }
  printLog level [⟨.info, "Watching " ++ project.root⟩]
  if options.spawnCompiler then
    printLog level [⟨.info, "Run the compiler beside it: " ++ options.compilerCommand⟩]
  watchFrom level project options.sync {} (← diskNow project).files
    (Watch.start project options.sync)

/-- The variables that settings are read from. -/
def environment : IO (Table String) := do
  let names := ["LOG_LEVEL", "VERBOSE", "ROOT", "SHOW_REDUNDANT", "PRUNE_REDUNDANT",
    "BUILD_INFO_ATTEMPTS", "BUILD_INFO_DELAY", "SPAWN_COMPILER", "COMPILER_COMMAND"]
  names.filterMapM fun name => do
    return (← IO.getEnv ("TSRF_" ++ name)).map fun value => ("TSRF_" ++ name, value)

/-- The invocation that the arguments ask for. -/
def invocationOf (arguments : List String) :
    IO (Except CommandLine.UsageFault CommandLine.Invocation) := do
  let root := match CommandLine.programOptions {} arguments with
    | .ok (invocation, _) => invocation.root.getD "."
    | .error _ => "."
  let isFile ← try pure ((← (← IO.FS.realPath root).metadata).type == .file)
    catch _ => pure false
  return CommandLine.parse (fun _ => isFile) arguments

end RefSync.Program

open RefSync in
def main (arguments : List String) : IO UInt32 := do
  match ← Program.invocationOf arguments with
  | .error fault =>
      IO.eprintln ("Error: " ++ fault.message)
      return (CommandLine.usageEnding fault).exitCode.toUInt32
  | .ok invocation =>
      let directory := (← IO.currentDir).toString
      let environment ← Program.environment
      match CommandLine.options invocation environment directory,
          Settings.ofEnvironment environment with
      | .ok options, .ok settings =>
          let level := if invocation.verbose then "DEBUG" else settings.resolvedLevel
          match invocation.command with
          | .watch _ _ _ => Program.watch level options
          | .doctor _ _ => Program.doctor level options
      | .error rejection, _ | _, .error rejection =>
          IO.eprintln rejection.message
          return 1
