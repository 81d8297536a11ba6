/-
Compiler commands, which a shell runs in the directory of the project. It says what a
command prints, in the chunks in which it is read, and how its process ends.
-/

import RefSync.Compiler.Shell.Run

namespace RefSync.Compiler.Shell

/-- The files that commands find besides those they make. -/
def initialFiles (directory : String) : FileTree :=
  [directory, "/bin", "/dev", "/etc", "/root", "/tmp", "/usr/bin", "/usr/lib", "/var"].foldl
    (fun files path => (files.makeFrom false [] (Path.parts path)).2) FileTree.empty

def initialVariables (directory : String) : Table Variable :=
  let given (value : String) : Variable :=
    { value := some (Bytes.ofString value), isExported := true }
  [("HOME", given "/root"), ("PATH", given "/usr/local/bin:/usr/bin:/bin"),
    ("PWD", given directory)] ++ ownVariables

/-- Commands that take more steps than this are taken to run without end. -/
def stepLimit : Nat := 1000000

/-- Commands that are nested deeper than this are taken to be nested without end. -/
def depthLimit : Nat := 20000

/-- What a command printed, in chunks, and how it ended. An interrupted command is one
that is stopped as soon as it waits, or for not coming to an end. -/
def run (directory command : String) (interrupted : Bool) : List (List UInt8) × Ending :=
  let start : State :=
    { scope := { directory, bindings := initialVariables directory }
      name := "/bin/sh"
      files := initialFiles directory
      isInterrupted := interrupted
      budget := stepLimit }
  let runner := execute depthLimit
  let whole : Action Unit := do
    let _ ← runText runner false (Bytes.ofString command)
  let (result, state) := (concluding runner whole).run.run start
  let ((_, state) : Except Stop Unit × State) := (runJobs runner).run.run
    { state with isInterrupted := false }
  let (_, state) := flush.run.run state
  (state.chunks.map Bytes.numbers, match result with
    | .ok status => .exited (status % 256)
    | .error (.signal signal) => .signalled signal
    | .error _ => if interrupted then .signalled Signal.interrupt else .exited 0)

end RefSync.Compiler.Shell
