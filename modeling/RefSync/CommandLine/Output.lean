/-
What the commands print: the doctor's reports with a hint what to do next, and how
watch mode ends. Names are printed without what would control a terminal.
-/

import RefSync.CommandLine.Arguments
import RefSync.Doctor.Report
import RefSync.Routine.Basic
import RefSync.Text.Plain

namespace RefSync.CommandLine

/-- Text for the two output streams. -/
structure Printed where
  out : String := ""
  err : String := ""
deriving DecidableEq, Repr

def bullet : Doctor.Status → String
  | .ok => "○"
  | .info | .fail | .fixed => "●"

def verdict : Doctor.Status → String
  | .ok | .info => "OK"
  | .fail => "FAIL"
  | .fixed => "FIXED"

def checkLine (check : Doctor.Check) : String :=
  "    " ++ bullet check.status ++ " " ++ check.message ++ ": " ++ verdict check.status ++ "\n"

def checkLines (checks : List Doctor.Check) : String :=
  String.join (checks.map checkLine) ++ "\n"

def workspaceLines (report : Doctor.WorkspaceReport) : String :=
  "Workspace " ++ report.path ++ ":\n\n"
    ++ if report.redundant then
        "    ● The workspace is empty, consider removing it: rm -rf " ++ report.path ++ "\n\n"
      else checkLines report.checks

def redundantLines (paths : List String) : String :=
  if paths.isEmpty then ""
  else "► The project contains redundant workspaces, consider removing them:\n\n    rm -rf "
    ++ " ".intercalate paths ++ "\n\n"

def hint (outcome : Doctor.Outcome) : String :=
  if outcome.fix then "► Everything is fixed! You can start the watch mode now: tsrf\n"
  else if outcome.failed then
    "► To automatically fix the failing issues, run: tsrf doctor --fix\n"
      ++ if outcome.redundant.isEmpty then "" else
        "    ...you can also add --delete to remove redundant workspaces: "
          ++ "tsrf doctor --fix --delete\n"
  else "► Everything is OK! You can start the watch mode now: tsrf\n"

def duplicateLines (duplicates : Table (List String)) : String :=
  String.join (duplicates.map fun (name, paths) =>
    "    ● " ++ name ++ ": " ++ ", ".intercalate paths ++ "\n")

def doctorPrinted (outcome : Doctor.Outcome) : Printed :=
  let workspaces := String.join (outcome.workspaces.map workspaceLines)
  match outcome.stop with
  | some stop =>
      { out := plainText workspaces
        err := plainText (stop.message ++ "\n" ++ duplicateLines outcome.duplicates) }
  | none =>
      let root := (outcome.root.map fun checks => "Project root:\n\n" ++ checkLines checks).getD ""
      { out := plainText
          (workspaces ++ root ++ redundantLines outcome.redundant ++ hint outcome) }

/-- How a command ends: with an exit code and a last record, or by a failure that
nobody handles. -/
structure Ending where
  exitCode : Nat
  log : List LogRecord := []
  failure : Option Failure := none
deriving DecidableEq, Repr

/-- How the program ends when its arguments say nothing usable. -/
def usageEnding : UsageFault → Ending
  | .rootHasNull => { exitCode := 1, failure := some [.read .nullCharacter] }
  | _ => { exitCode := 2 }

/-- The end of watch mode: a fatal fault is the last thing in the log. -/
def watchEnding : Except Failure Unit → Ending
  | .ok () => { exitCode := 0 }
  | .error failure =>
      match failure.find? Fault.isFatal with
      | some fault => { exitCode := 1, log := [⟨.critical, fault.message⟩] }
      | none => { exitCode := 1, failure := some failure }

def doctorEnding : Except Failure Doctor.Outcome → Ending × Printed
  | .ok outcome => ({ exitCode := outcome.exitCode }, doctorPrinted outcome)
  | .error failure => ({ exitCode := 1, failure := some failure }, {})

end RefSync.CommandLine
