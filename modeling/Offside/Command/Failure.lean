/-
  What can go wrong on a command line, and in which words it is said.

  A mistake in the arguments is a usage error: the command answers it with its usage text.  All
  other failures concern the file named.  A file may be missing, be unreadable for a reason that the
  system gives, or hold bytes that are no text; each names the path as it was written.
-/

namespace Offside.Command

/-- Why arguments were refused.  The word at fault is kept as it was given, without
    interpretation. -/
inductive UsageError
  | unknownCommand (name : String)
  | unknownOption (flag : String)
  | unexpectedArgument (extra : String)
  | missingPath
  deriving DecidableEq, Repr

/-- The words of a usage error. -/
def UsageError.message : UsageError → String
  | .unknownCommand name => "unknown command '" ++ name ++ "'"
  | .unknownOption flag => "unknown option '" ++ flag ++ "'"
  | .unexpectedArgument extra => "unexpected argument '" ++ extra ++ "'"
  | .missingPath => "missing file path\nUsage: lucent lex <file> [--no-content] [--state]"

/-- Why the bytes of a file were not obtained: the reasons that need words of their own, and the
    rest. -/
inductive ReadError
  | missing
  | isFolder
  | notFolder
  | nameTooLong
  | nulInName
  /-- Any other reason, in the words of the system. -/
  | other (reason : String)
  deriving DecidableEq, Repr

/-- The words of a read error. -/
def ReadError.message : ReadError → String
  | .missing => "No such file or directory (os error 2)"
  | .isFolder => "Is a directory (os error 21)"
  | .notFolder => "Not a directory (os error 20)"
  | .nameTooLong => "File name too long (os error 36)"
  | .nulInName => "file name contained an unexpected NUL byte"
  | .other reason => reason

/-- Why a command failed.  A path that leads nowhere is set apart from one that cannot be read. -/
inductive Failure
  | notFound (path : String)
  | invalidText (path : String)
  | unreadable (path : String) (cause : ReadError)
  | usage (error : UsageError)
  deriving DecidableEq, Repr

namespace Failure

/-- The words of a failure. -/
def message : Failure → String
  | .notFound path => "cannot find file '" ++ path ++ "'"
  | .invalidText path => "'" ++ path ++ "' contains invalid UTF-8 data"
  | .unreadable path cause => "error reading '" ++ path ++ "': " ++ cause.message
  | .usage error => error.message

/-- Whether the arguments were at fault. -/
def isUsage : Failure → Bool
  | .usage _ => true
  | _ => false

end Failure

/-- The text of a file whose bytes were or were not obtained.  Bytes that are no text are refused as
    a whole, and a missing file is told apart from one that could not be read. -/
def readText (path : String) : Except ReadError ByteArray → Except Failure String
  | .error .missing => .error (.notFound path)
  | .error cause => .error (.unreadable path cause)
  | .ok bytes =>
    match String.fromUTF8? bytes with
    | some text => .ok text
    | none => .error (.invalidText path)

end Offside.Command
