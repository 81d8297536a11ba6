/-
The command line: options of the program, then a command with flags of its own.
Without a command the program watches. A long option may carry its value after an
equals sign; nothing may be abbreviated.
-/

import RefSync.Fault
import RefSync.FileTree
import RefSync.Settings

namespace RefSync.CommandLine

inductive Command where
  | watch (redundant pruneRedundant noCompiler : Bool)
  | doctor (fix delete : Bool)
deriving DecidableEq, Repr

structure Invocation where
  verbose : Bool := false
  root : Option String := none
  command : Command := .watch false false false
deriving DecidableEq, Repr

inductive UsageFault where
  | unknownOption (argument : String)
  | needsValue (option : String)
  | takesNoValue (option : String)
  | unknownCommand (argument : String)
  | unexpectedArgument (argument : String)
  | rootIsFile (path : String)
  | rootHasNull
deriving DecidableEq, Repr

def UsageFault.message : UsageFault → String
  | .unknownOption argument => "No such option: " ++ argument
  | .needsValue option => "Option '" ++ option ++ "' requires an argument."
  | .takesNoValue option => "Option '" ++ option ++ "' does not take a value."
  | .unknownCommand argument => "No such command '" ++ argument ++ "'."
  | .unexpectedArgument argument => "Got unexpected extra argument (" ++ argument ++ ")"
  | .rootIsFile path => "Invalid value for '--root': Directory '" ++ path ++ "' is a file."
  | .rootHasNull => ReadFault.nullCharacter.message

/-- What an argument is to a parser of options. -/
inductive Token where
  | separator
  | option (name : String) (value : Option String)
  | plain

def token (argument : String) : Token :=
  match argument.toList with
  | ['-', '-'] => .separator
  | '-' :: second :: rest =>
      let chars := '-' :: second :: rest
      let name := String.ofList (chars.takeWhile (· != '='))
      match chars.dropWhile (· != '=') with
      | _ :: value => .option name (some (String.ofList value))
      | [] => .option name none
  | _ => .plain

/-- The flags of a command that were given. Plain arguments are refused. -/
def flags (known : List String) : List String → Except UsageFault (List String)
  | [] => .ok []
  | argument :: rest =>
      match token argument with
      | .option name value =>
          if !known.contains name then .error (.unknownOption name)
          else if value.isSome then .error (.takesNoValue name)
          else do return name :: (← flags known rest)
      | .separator =>
          match rest with
          | [] => .ok []
          | extra :: _ => .error (.unexpectedArgument extra)
      | .plain => do
          let _ ← flags known rest
          .error (.unexpectedArgument argument)

def command (name : String) (arguments : List String) : Except UsageFault Command := do
  if name == "watch" then
    let given ← flags ["--redundant", "--prune-redundant", "--no-compiler"] arguments
    return .watch (given.contains "--redundant") (given.contains "--prune-redundant")
      (given.contains "--no-compiler")
  else if name == "doctor" then
    let given ← flags ["--fix", "--delete"] arguments
    return .doctor (given.contains "--fix") (given.contains "--delete")
  else .error (.unknownCommand name)

/-- The invocation without its command, and the arguments that are left for that. -/
def programOptions (invocation : Invocation) :
    List String → Except UsageFault (Invocation × List String)
  | [] => .ok (invocation, [])
  | argument :: rest =>
      match token argument with
      | .plain => .ok (invocation, argument :: rest)
      | .separator => .ok (invocation, rest)
      | .option "--verbose" value =>
          if value.isSome then .error (.takesNoValue "--verbose")
          else programOptions { invocation with verbose := true } rest
      | .option "--root" (some value) => programOptions { invocation with root := some value } rest
      | .option "--root" none =>
          match rest with
          | value :: rest => programOptions { invocation with root := some value } rest
          | [] => .error (.needsValue "--root")
      | .option name _ => .error (.unknownOption name)

def commandOf (invocation : Invocation) : List String → Except UsageFault Invocation
  | [] => .ok invocation
  | name :: arguments => return { invocation with command := ← command name arguments }

/-- The root may be missing, but it may not be a regular file. -/
def checkRoot (isFile : String → Bool) (invocation : Invocation) : Except UsageFault Unit :=
  match invocation.root with
  | none => .ok ()
  | some root =>
      if FileTree.hasNull root then .error .rootHasNull
      else if isFile root then .error (.rootIsFile root)
      else .ok ()

/-- The invocation that arguments ask for. The root is looked at before the command. -/
def parse (isFile : String → Bool) (arguments : List String) : Except UsageFault Invocation := do
  let (invocation, rest) ← programOptions {} arguments
  checkRoot isFile invocation
  commandOf invocation rest

/-- The invocation that arguments ask for in a directory. -/
def parseIn (files : FileTree) (directory : String) (arguments : List String) :
    Except UsageFault Invocation :=
  parse (fun root => files.isFilePath (Path.join directory root)) arguments

/-- What the flags of an invocation change. -/
def overrides (invocation : Invocation) (directory : String) : Overrides :=
  let whenSet (flag value : Bool) : Option Bool := if flag then some value else none
  let root := invocation.root.map (resolvePath directory)
  match invocation.command with
  | .watch redundant pruneRedundant noCompiler =>
      { root
        showRedundant := whenSet redundant true
        pruneRedundant := whenSet pruneRedundant true
        spawnCompiler := whenSet noCompiler false }
  | .doctor fix delete => { root, fix := some fix, delete := some delete }

/-- The options that a command runs with. -/
def options (invocation : Invocation) (environment : Table String) (directory : String) :
    Except Validation.Rejection Options :=
  return (Options.ofSettings (← Settings.ofEnvironment environment) directory).override
    (overrides invocation directory)

end RefSync.CommandLine
