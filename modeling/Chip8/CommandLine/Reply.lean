import Chip8.CommandLine.Arguments
import Chip8.Rom
import Chip8.Text.Terminal

/-!
# Replies

What the program writes, and the status with which it ends, up to the moment when a
program image is loaded and the window would open. Messages about arguments quote
them without terminal controls; messages about files give paths as they are.
-/

namespace Chip8.CommandLine

/-- What the program writes and how it ends. -/
structure Reply where
  /-- The status with which it ends; `none` if it goes on. -/
  status : Option Nat
  /-- What it writes to standard output. -/
  output : String
  /-- What it writes to standard error. -/
  errors : String
  deriving DecidableEq, Repr

/-- A text of whole lines. -/
def lines (texts : List String) : String := String.join (texts.map (· ++ "\n"))

/-- How the program is called. -/
def usage : String := "Usage: c8vm <ROM>"

/-- Where more is said. -/
def seeHelp : String := "For more information, try '--help'."

/-- The help. -/
def help : String :=
  lines
    ["Runs a chip8 rom in a window",
     "",
     usage,
     "",
     "Arguments:",
     "  <ROM>  Chip8 rom image to run",
     "",
     "Options:",
     "  -h, --help  Print help"]

/-- An argument in quotes, as a terminal shows it, with some text in front of it. -/
def quote (front argument : String) : String := "'" ++ front ++ Terminal.strip argument ++ "'"

/-- The lines that give an advice about an argument. -/
def Advice.lines (argument : String) : Advice → List String
  | .nothing => []
  | .passAsValue =>
    ["", "  tip: to pass " ++ quote "" argument ++ " as a value, use " ++ quote "-- " argument]
  | .askForHelp => ["", "  tip: a similar argument exists: '--help'"]

/-- How the program is called, in a message about an argument with an advice. -/
def Advice.usage : Advice → String
  | .askForHelp => "Usage: c8vm --help <ROM>"
  | _ => CommandLine.usage

/-- The text that reports arguments that cannot be read. -/
def UsageError.message : UsageError → String
  | .missingPath =>
    CommandLine.lines
      ["error: the following required arguments were not provided:", "  <ROM>", "", usage, "", seeHelp]
  | .emptyPath =>
    CommandLine.lines
      ["error: a value is required for '<ROM>' but none was supplied", "", seeHelp]
  | .unexpected argument advice =>
    CommandLine.lines
      (["error: unexpected argument " ++ quote "" argument ++ " found"] ++ advice.lines argument
        ++ ["", advice.usage, "", seeHelp])
  | .needlessValue value =>
    CommandLine.lines
      ["error: unexpected value " ++ quote "" value ++ " for '--help' found; no more were expected",
       "", Advice.askForHelp.usage, "", seeHelp]

/-- A text in which every line but the first is moved to the right by some blanks. -/
def hanging (indent : Nat) (text : String) : String :=
  ("\n" ++ String.ofList (List.replicate indent ' ')).intercalate (text.splitOn "\n")

/-- The causes of a failure, the outermost one first. Several causes are numbered
from zero. -/
def causeLines : List String → List String
  | [cause] => ["    " ++ hanging 4 cause]
  | causes =>
    (causes.zipIdx).map fun (cause, k) => "    " ++ Nat.repr k ++ ": " ++ hanging 7 cause

/-- The texts of a failure to load a program image, the outermost one first. -/
def causes (error : LoadError) : List String :=
  match error with
  | .unreadable _ cause => [error.message, cause.message]
  | .tooLarge _ => [error.message]

/-- The line that announces the reading of a program image. -/
def announcement (path : String) : String := "Reading rom " ++ path

/-- The reply to a command to load, given what the file holds. -/
def Reply.ofContents (path : String) (contents : Except File.ReadError (List UInt8)) : Reply :=
  match Rom.ofContents path contents with
  | .ok rom =>
    ⟨none, "", lines [announcement path, "Rom loaded ! (" ++ Nat.repr rom.size ++ " bytes)"]⟩
  | .error error =>
    ⟨some 1, "",
      lines ([announcement path, "Error: failed to load " ++ path, "", "Caused by:"]
        ++ causeLines (causes error))⟩

/-- The reply to arguments that were read, given how files are read. -/
def Reply.ofCommand {m : Type → Type} [Monad m]
    (read : String → m (Except File.ReadError (List UInt8))) :
    Except UsageError Command → m Reply
  | .error error => pure ⟨some 2, "", error.message⟩
  | .ok .help => pure ⟨some 0, help, ""⟩
  | .ok (.load path) => Reply.ofContents path <$> read path

/-- What the program does with given arguments in a directory tree. -/
def run (tree : File.Tree) (arguments : List String) : Reply :=
  Id.run (Reply.ofCommand (fun path => pure (tree.read path)) (Command.read arguments))

end Chip8.CommandLine
