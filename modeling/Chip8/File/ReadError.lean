/-!
# Failures of reading a file

A failure carries the number by which the system reports it; its text is the
system's phrase for that number, with the number behind it.
-/

namespace Chip8.File

/-- Why a file could not be read. -/
inductive ReadError where
  /-- No file or directory has that path. -/
  | notFound
  /-- A file stands where the path needs a directory. -/
  | notDirectory
  /-- The path leads to a directory. -/
  | isDirectory
  /-- The path, or one name in it, is longer than the system allows. -/
  | nameTooLong
  /-- Any other failure, with the phrase and the number that the system gives. -/
  | other (phrase : String) (code : Nat)
  deriving DecidableEq, Repr

/-- The system's number for a failure. -/
def ReadError.code : ReadError → Nat
  | .notFound => 2
  | .notDirectory => 20
  | .isDirectory => 21
  | .nameTooLong => 36
  | .other _ code => code

/-- The system's phrase for a failure. -/
def ReadError.phrase : ReadError → String
  | .notFound => "No such file or directory"
  | .notDirectory => "Not a directory"
  | .isDirectory => "Is a directory"
  | .nameTooLong => "File name too long"
  | .other phrase _ => phrase

/-- The text that reports a failure. -/
def ReadError.message (error : ReadError) : String :=
  error.phrase ++ " (os error " ++ Nat.repr error.code ++ ")"

end Chip8.File
