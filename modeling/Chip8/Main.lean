import Chip8.CommandLine.Reply

/-!
# The program

The outermost layer of the command line: it reads the file that the arguments name
and writes the reply.
-/

namespace Chip8.Main

/-- The failure that a system error stands for. -/
def readError : IO.Error → File.ReadError
  | .noFileOrDirectory .. => .notFound
  | .inappropriateType _ 20 _ => .notDirectory
  | .inappropriateType _ 21 _ => .isDirectory
  | .inappropriateType _ code phrase => .other phrase code.toNat
  | .invalidArgument _ 36 _ => .nameTooLong
  | .invalidArgument _ code phrase => .other phrase code.toNat
  | .permissionDenied _ code phrase => .other phrase code.toNat
  | .resourceExhausted _ code phrase => .other phrase code.toNat
  | .otherError code phrase => .other phrase code.toNat
  | error => .other (toString error) 0

/-- The contents of a file. -/
def contents (path : String) : IO (Except File.ReadError (List UInt8)) := do
  match ← (IO.FS.readBinFile path).toBaseIO with
  | .ok bytes => return .ok bytes.toList
  | .error error => return .error (readError error)

end Chip8.Main

/-- Answer the arguments of the program. -/
def main (arguments : List String) : IO UInt32 := do
  let reply ← Chip8.CommandLine.Reply.ofCommand Chip8.Main.contents
    (Chip8.CommandLine.Command.read arguments)
  IO.print reply.output
  IO.eprint reply.errors
  return UInt32.ofNat (reply.status.getD 0)
