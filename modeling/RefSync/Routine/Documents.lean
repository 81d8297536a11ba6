/-
Reading and writing documents in routines. The compiler does not write its artifact as
a whole, so a read of one that fails is retried with growing pauses.
-/

import RefSync.Artifact
import RefSync.Routine.Basic
import RefSync.Manifest.Basic

namespace RefSync.Routine

/-- A document has to be an object. -/
def objectOf (path : String) : Except ReadFault Json → Except Fault Document
  | .ok (.obj document) => .ok document
  | .ok _ => .error (.notObject path "expected a JSON object")
  | .error (.malformed fault) => .error (.notObject path fault.message)
  | .error fault => .error (.read fault)

def readObject (path : String) : Routine Document := do
  ofExcept id (objectOf path (← ask (.read path)))

/-- A missing document is no fault here. -/
def readObject? (path : String) : Routine (Option Document) := do
  match ← ask (.read path) with
  | .error (.missing _) => return none
  | answer => return some (← ofExcept id (objectOf path answer))

def manifestOf : Except ReadFault Json → Except Fault Manifest
  | .error fault => .error (.read fault)
  | .ok value =>
      match Manifest.validate value with
      | .ok manifest => .ok manifest
      | .error failure => .error (.invalid failure)

def readManifest (path : String) : Routine (Except Fault Manifest) := do
  return manifestOf (← ask (.read path))

def writeDocument (path : String) (document : Document) : Routine Unit := do
  ofExcept Fault.write (← ask (.write path document))

/-- Reads until it succeeds, at most `more` times after the first. -/
def readAgain (path shown : String) (delay : Duration) :
    (more failures : Nat) → Routine (Except Unreadable Json)
  | more, failures => do
      match ← ask (.read path) with
      | .ok value => return .ok value
      | .error cause =>
          match more with
          | 0 => return .error { path := shown, attempts := failures + 1, cause }
          | more + 1 =>
              match delay.grown? failures with
              | none => throw .endlessPause
              | some pause =>
                  let _ ← ask (.pause pause)
                  readAgain path shown delay more (failures + 1)

/-- Reads with at most `attempts` attempts, of which there is at least one. `shown` is
the path in a message. -/
def readRetrying (path shown : String) (attempts : Int) (delay : Duration) :
    Routine (Except Unreadable Json) :=
  readAgain path shown delay (attempts.toNat - 1) 0

end RefSync.Routine
