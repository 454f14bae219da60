/-
  The command line: reads the file that is named, runs the job, and prints the outcome.

  All that the program decides is decided by `run`, a function of the words, the filter and the
  bytes of the file.  What is left here is to get these from the system and to hand the outcome
  back: the report of failures and records on one stream, the listing on the other, and the status.
-/
import Offside.Command.Program

namespace Offside.Command

/-- The cause of an error that the system reports with a number.  Some calls report the number
    negated. -/
def ReadError.ofSystem (number : UInt32) (words : String) : ReadError :=
  match min number (0 - number) with
  | 2 => .missing
  | 20 => .notFolder
  | 21 => .isFolder
  | 36 => .nameTooLong
  | number => .other (words.capitalize ++ " (os error " ++ number.toNat.repr ++ ")")

/-- The cause of an error that was raised while a file was read.  Errors that carry the number of
    the system are told by it, since one kind of error stands for several numbers. -/
def ReadError.ofRaised : IO.Error → ReadError
  | .noFileOrDirectory .. => .missing
  | .inappropriateType _ number words | .invalidArgument _ number words
  | .permissionDenied _ number words | .resourceExhausted _ number words
  | .noSuchThing _ number words | .otherError number words | .hardwareFault number words =>
    .ofSystem number words
  | e => .other (toString e)

/-- The bytes of a file, or why the system did not give them.  A name with a NUL byte is refused at
    once, since the system would take the name to end there. -/
def readFile (path : String) : IO (Except ReadError ByteArray) := do
  if '\x00' ∈ path.toList then return .error .nulInName
  try
    return .ok (← IO.FS.readBinFile path)
  catch e => return .error (.ofRaised e)

/-- The file that a job reads, if it reads one. -/
def Job.path? : Job → Option String
  | .list request => some request.path
  | .help | .version => none

end Offside.Command

open Offside.Command in
def main (words : List String) : IO UInt32 := do
  let filter := match ← IO.getEnv "RUST_LOG" with
    | some text => Log.Filter.parse text
    | none => []
  let contents ← match (Job.ofWords words).toOption.bind Job.path? with
    | some path => readFile path
    | none => pure (.error .missing)
  let outcome := run filter (fun _ => contents) words
  (← IO.getStderr).putStr outcome.stderr
  (← IO.getStdout).putStr outcome.stdout
  return outcome.status.toUInt32
