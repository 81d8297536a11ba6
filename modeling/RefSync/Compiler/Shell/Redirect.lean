/-
Redirections: files and other streams in place of the streams of a command.
-/

import RefSync.Compiler.Shell.Expansion

namespace RefSync.Compiler.Shell

def fileFault (verb : String) (file : Bytes) (reason : String) : Action Bool := do
  complain ((verb ++ " ").toList ++ file ++ (": " ++ reason).toList)
  return false

/-- The channel of a device, if a path is that of one. -/
def device? (file : Bytes) : Action (Option (Option Channel)) := do
  match String.ofList file with
  | "/dev/null" => return some (some .nowhere)
  | "/dev/stdin" => return some (← channel 0)
  | "/dev/stdout" => return some (← channel 1)
  | "/dev/stderr" => return some (← channel 2)
  | _ => return none

/-- Opens a file for output, empty or with what it holds. -/
def openOutput (stream : Nat) (file : Bytes) (keep : Bool) : Action Bool := do
  match ← device? file with
  | some channel =>
      setChannel stream channel
      return true
  | none =>
      let state ← get
      let path := pathOf state.scope.directory file
      if file.isEmpty || !state.files.isDirectoryPath (Path.directory path) then
        fileFault "cannot create" file "Directory nonexistent"
      else if state.files.isDirectoryPath path then fileFault "cannot create" file "Is a directory"
      else
        if !keep || !state.files.exists? path then
          set { state with files := putFile state.files path [] }
        setChannel stream (some (.file path))
        return true

/-- Opens a file for input. -/
def openInput (stream : Nat) (file : Bytes) : Action Bool := do
  match ← device? file with
  | some channel =>
      setChannel stream channel
      return true
  | none =>
      match ← entryAt file with
      | none => fileFault "cannot open" file "No such file"
      | some .directory =>
          setChannel stream (some .nowhere)
          return true
      | some (.file content) =>
          setChannel stream (some (.pipe (← openPipe (contentBytes content))))
          return true

/-- Lets a stream lead where another one does, or nowhere at all. -/
def copyStream (stream : Nat) (name : Bytes) : Action Bool := do
  match name with
  | ['-'] =>
      setChannel stream none
      return true
  | [digit] =>
      if !digit.isDigit then refuse "Syntax error: Bad fd number".toList
      match ← channel (digit.toNat - '0'.toNat) with
      | some channel =>
          setChannel stream (some channel)
          return true
      | none =>
          complain (digit :: ": Bad file descriptor".toList)
          return false
  | _ => refuse "Syntax error: Bad fd number".toList

def redirect (capture : Capture) : Redirection → Action Bool
  | .into stream (.read file) => do openInput stream (← wordText capture file)
  | .into stream (.write file) => do openOutput stream (← wordText capture file) false
  | .into stream (.append file) | .into stream (.update file) => do
      openOutput stream (← wordText capture file) true
  | .into stream (.stream name) => do copyStream stream (← wordText capture name)
  | .into stream (.text document) => do
      let pieces := ((← get).documents[document]?).getD []
      let bytes := textOf (← expand capture nesting {} pieces)
      setChannel stream (some (.pipe (← openPipe bytes)))
      return true

/-- Makes redirections one after another, until one cannot be made. -/
def redirectAll (capture : Capture) : List Redirection → Action Bool
  | [] => return true
  | first :: rest => do
      if ← redirect capture first then redirectAll capture rest
      else
        setStatus 2
        return false

/-- Keeps the streams as they are, whatever an action does to them. -/
def keepingStreams {α : Type} (action : Action α) : Action α := do
  let streams := (← scope).streams
  ensuring action (modifyScope fun scope => { scope with streams })

end RefSync.Compiler.Shell
