/-
What can go wrong while documents are kept in step, by cause, with the text of each.
A document fault is a matter of the project's files and is logged; a lookup of
something unregistered is fatal; a reference list of an unusable shape and an
undecodable alias are neither.
-/

import RefSync.Config.References
import RefSync.Json.Reader
import RefSync.Registry
import RefSync.Text.Quoted
import RefSync.Text.Utf8
import RefSync.Validation

namespace RefSync

/-- Why a document could not be read. Paths are absolute. -/
inductive ReadFault where
  | missing (path : String)
  | notDirectory (path : String)
  | isDirectory (path : String)
  | tooLong (path : String)
  | nullCharacter
  | undecodable (fault : Utf8.Malformed)
  | malformed (fault : Json.SyntaxFault)
deriving DecidableEq, Repr

/-- Why a document could not be written. Paths are absolute. -/
inductive WriteFault where
  | notDirectory (path : String)
  | directoryTaken (path : String)
  | isDirectory (path : String)
  | isParent (path : String)
  | tooLong (path : String)
  | nullCharacter
deriving DecidableEq, Repr

/-- A document that stayed unreadable for as many attempts as are made. -/
structure Unreadable where
  path : String
  attempts : Nat
  cause : ReadFault
deriving DecidableEq, Repr

/-- Why a routine ends early. A pause may be longer than any number says. -/
inductive Fault where
  | read (fault : ReadFault)
  | write (fault : WriteFault)
  | notObject (path reason : String)
  | invalid (failure : Validation.Rejection)
  | unreadable (failure : Unreadable)
  | registry (fault : RegistryFault)
  | reference (fault : Config.ReferenceFault)
  | emptyPath
  | endlessPause
deriving DecidableEq, Repr

private def missingMessage (path : String) : String :=
  "[Errno 2] No such file or directory: " ++ quoted path

private def notDirectoryMessage (path : String) : String :=
  "[Errno 20] Not a directory: " ++ quoted path

private def isDirectoryMessage (path : String) : String :=
  "[Errno 21] Is a directory: " ++ quoted path

private def tooLongMessage (path : String) : String :=
  "[Errno 36] File name too long: " ++ quoted path

private def nullMessage : String :=
  "embedded null byte"

def ReadFault.message : ReadFault → String
  | .missing path => missingMessage path
  | .notDirectory path => notDirectoryMessage path
  | .isDirectory path => isDirectoryMessage path
  | .tooLong path => tooLongMessage path
  | .nullCharacter => nullMessage
  | .undecodable fault => fault.message
  | .malformed fault => fault.message

/-- Whether the document could not be got at. What is in the way is a file or a
directory, not what a document holds. -/
def ReadFault.isAccess : ReadFault → Bool
  | .missing _ | .notDirectory _ | .isDirectory _ | .tooLong _ => true
  | .nullCharacter | .undecodable _ | .malformed _ => false

/-- A write goes through a temporary file beside the document, whose name is left
open. -/
private def replacement (path : String) : String :=
  quoted (Path.join (Path.directory path) "<tmp>") ++ " -> " ++ quoted path

def WriteFault.message : WriteFault → String
  | .notDirectory path => notDirectoryMessage path
  | .directoryTaken path => "[Errno 17] File exists: " ++ quoted path
  | .isDirectory path => "[Errno 21] Is a directory: " ++ replacement path
  | .isParent path => "[Errno 16] Device or resource busy: " ++ replacement path
  | .tooLong path => tooLongMessage path
  | .nullCharacter => nullMessage

def Unreadable.message (failure : Unreadable) : String :=
  "Failed to read " ++ failure.path ++ " after " ++ toString failure.attempts ++ " attempts: "
    ++ failure.cause.message

namespace Fault

def message : Fault → String
  | .read fault => fault.message
  | .write fault => fault.message
  | .notObject path reason => "Invalid " ++ path ++ ": " ++ reason
  | .invalid failure => failure.message
  | .unreadable failure => failure.message
  | .registry fault => fault.message
  | .reference .notAList => "references is not a list"
  | .reference .pathNotScalar => "a reference path is not a scalar"
  | .reference (.noAlias path) => quoted path
  | .emptyPath => "no path specified"
  | .endlessPause => "Numerical result out of range"

/-- Whether the fault is one of the project's documents. -/
def isDocumentFault : Fault → Bool
  | .read _ | .write _ | .notObject _ _ | .invalid _ | .unreadable _ | .emptyPath
  | .registry (.nameTaken _ _ _) => true
  | .registry (.unregistered _) | .reference _ | .endlessPause => false

/-- Whether a document could not be got at. -/
def isAccess : Fault → Bool
  | .read fault => fault.isAccess
  | _ => false

/-- Whether the fault ends the process. -/
def isFatal : Fault → Bool
  | .registry (.unregistered _) => true
  | _ => false

end Fault

/-- The faults of one failed routine: one, or those of the failed members of a group. -/
abbrev Failure := List Fault

end RefSync
