import Chip8.Text.Similarity

/-!
# Arguments

The program takes the path of one program image. The only option asks for help.
Arguments are read from left to right, and the first that cannot be read, or the
first request for help, decides. A path that was read before a request for help, or
before the end, must not be empty. Behind `--` everything is a value; a single `-`
is a value everywhere.
-/

namespace Chip8.CommandLine

/-- What the arguments ask for. -/
inductive Command where
  /-- Print the help. -/
  | help
  /-- Load the program image at a path. -/
  | load (path : String)
  deriving DecidableEq, Repr

/-- What to advise about an argument that was not expected. -/
inductive Advice where
  /-- Nothing. -/
  | nothing
  /-- How to pass it as a value. -/
  | passAsValue
  /-- That it may have been meant to ask for help. -/
  | askForHelp
  deriving DecidableEq, Repr

/-- Why arguments cannot be read. -/
inductive UsageError where
  /-- There is no path. -/
  | missingPath
  /-- The path is empty. -/
  | emptyPath
  /-- An argument is not expected. -/
  | unexpected (argument : String) (advice : Advice)
  /-- The option for help came with a value. -/
  | needlessValue (value : String)
  deriving DecidableEq, Repr

/-- What a single argument is. -/
inductive Argument where
  /-- A value. -/
  | value (text : String)
  /-- The mark behind which everything is a value. -/
  | terminator
  /-- The option for help. -/
  | help
  /-- An argument that cannot be read. -/
  | wrong (error : UsageError)
  deriving DecidableEq, Repr

/-- The name of the option for help, without its dashes. -/
def helpName : List Char := "help".toList

/-- An option with two dashes that has a given name and possibly a value. -/
def Argument.ofLong (name : List Char) (value : Option (List Char)) : Argument :=
  if name = helpName then
    match value with
    | none => .help
    | some value => .wrong (.needlessValue (String.ofList value))
  else
    let advice := if Similarity.isClose name helpName then Advice.askForHelp else .passAsValue
    .wrong (.unexpected ("--" ++ String.ofList name) advice)

/-- What an argument is before the terminator. -/
def Argument.read (argument : String) : Argument :=
  match argument.toList with
  | ['-', '-'] => .terminator
  | '-' :: '-' :: text =>
    let name := text.takeWhile (· ≠ '=')
    .ofLong name (text.drop name.length).tail?
  | '-' :: 'h' :: _ => .help
  | '-' :: letter :: _ => .wrong (.unexpected (String.ofList ['-', letter]) .passAsValue)
  | _ => .value argument

/-- The command of a path, once all arguments are read. -/
def Command.ofPath : Option String → Except UsageError Command
  | none => .error .missingPath
  | some path => if path = "" then .error .emptyPath else .ok (.load path)

/-- The command of a request for help, after a path may have been read. -/
def Command.ofHelp (path : Option String) : Except UsageError Command :=
  if path = some "" then .error .emptyPath else .ok .help

/-- Read values behind the terminator, after a path may have been read. -/
def Command.ofValues (path : Option String) : List String → Except UsageError Command
  | [] => ofPath path
  | value :: values =>
    if path.isSome then .error (.unexpected value .nothing) else ofValues (some value) values

/-- Read arguments, after a path may have been read. -/
def Command.ofArguments (path : Option String) : List String → Except UsageError Command
  | [] => ofPath path
  | argument :: arguments =>
    match Argument.read argument with
    | .terminator => ofValues path arguments
    | .help => ofHelp path
    | .wrong error => .error error
    | .value value =>
      if path.isSome then .error (.unexpected value .nothing)
      else ofArguments (some value) arguments

/-- Read the arguments of the program. -/
def Command.read (arguments : List String) : Except UsageError Command :=
  Command.ofArguments none arguments

end Chip8.CommandLine
