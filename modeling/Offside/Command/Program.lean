/-
  The command line as a whole: from arguments to what is printed.

  `runWith` is a function of the writer of the log, of a way to read files, and of the arguments.
  What the writer lets through and how it words a line is its own affair, and so is what reading a
  file gives; `run` is the case of the writer that belongs to a filter.  The outcome holds the exit
  status, what goes to standard output, and the notices that go to standard error, in order.

  1. **Notices** — a record of the log, with the line its writer made of it; a warning; a failure.
  2. **Listing** — one notice for the text that was read, then the warnings, and then the decisions.
     Warnings come before the dump is made, so the records of the decisions follow them.
  3. **Runs** — a run of `lex` ends in one of three ways (`runWith_lex_cases`), and which one it is
     does not depend on the writer.  One of them alone is a success (`listed_of_status`).
-/
import Offside.Command.Arguments
import Offside.Command.Log

namespace Offside.Command

/-- The version of the command line. -/
def version : String := "0.1.0"

/-- The lines of the usage text. -/
def usageLines : List String :=
  [ "Lucent indentation scanner " ++ version
  , ""
  , "Usage: lucent <command> [options]"
  , ""
  , "Commands:"
  , "  lex <file>     Print the structural token stream of a file"
  , "  help           Show this help message"
  , "  version        Show version information"
  , ""
  , "Lex options:"
  , "  --no-content   Show only OPEN, CLOSE and LEVEL tokens"
  , "  --state        Append the scanner's current/target depth to each token"
  , ""
  , "Set RUST_LOG=lucent_lexer_core=trace to trace every scanner decision." ]

/-- The usage text. -/
def usage : String := String.join (usageLines.map (· ++ "\n"))

/-- What is written to standard error. -/
inductive Notice
  /-- A record of the log, and the line that was written for it. -/
  | record (entry : Log.Record) (line : String)
  | warning (path : String) (flaw : Source.Flaw)
  | failure (cause : Failure)
  deriving DecidableEq, Repr

namespace Notice

/-- The text of a notice.  A usage error has an empty line after it: the usage text follows. -/
def text : Notice → String
  | .record _ line => line ++ "\n"
  | .warning path flaw =>
    "warning: " ++ path ++ ": " ++ flaw.kind.describe ++ " at byte " ++ flaw.offset.repr ++ "\n"
  | .failure cause => "error: " ++ cause.message ++ "\n" ++ (if cause.isUsage then "\n" else "")

/-- Whether a notice belongs to the log. -/
def isRecord : Notice → Bool
  | .record .. => true
  | _ => false

/-- The decision that a notice tells of, if it is the record of one. -/
def decision? : Notice → Option Decision
  | .record entry _ => entry.event.decision?
  | _ => none

end Notice

/-- What a run leaves behind. -/
structure Outcome where
  status : UInt8
  stdout : String
  notices : List Notice
  deriving DecidableEq, Repr

namespace Outcome

/-- A run that only printed a text. -/
def printed (text : String) : Outcome := ⟨0, text, []⟩

/-- A run that failed. -/
def failed (cause : Failure) : Outcome :=
  ⟨1, if cause.isUsage then usage else "", [.failure cause]⟩

@[simp] theorem status_failed (cause : Failure) : (failed cause).status = 1 := rfl

/-- What was written to standard error. -/
def stderr (o : Outcome) : String := String.join (o.notices.map Notice.text)

/-- The decisions in the log of a run. -/
def decisions (o : Outcome) : List Decision := o.notices.filterMap Notice.decision?

/-- A run less the records of its log. -/
def withoutLog (o : Outcome) : Outcome := { o with notices := o.notices.filter (!·.isRecord) }

end Outcome

/-- What a command line asks for. -/
inductive Job
  | help
  | version
  | list (request : Request)
  deriving DecidableEq, Repr

/-- The job of a list of arguments. -/
def Job.ofWords : List String → Except UsageError Job
  | [] => .ok .help
  | command :: words =>
    if command = "lex" then (Request.ofWords words).map .list
    else if command ∈ ["help", "--help", "-h"] then .ok .help
    else if command ∈ ["version", "--version", "-V"] then .ok .version
    else .error (.unknownCommand command)

/-- The notices of some events in the listing of a path: one for each record of a writer, with its
    line. -/
def noted (writer : Log.Writer) (path : String) (events : List Log.Event) : List Notice :=
  (writer.records path events).map fun r => .record r (writer.line r)

/-- The listing of a text that was read from a path, with a writer for its log. -/
def listWith (writer : Log.Writer) (request : Request) (text : String) : Outcome :=
  let decisions := (emissions text).filterMap (·.decision?)
  { status := 0
    stdout := Dump.render request.options text
    notices :=
      noted writer request.path [.sourceRead text.utf8ByteSize] ++
      (Source.flaws text).map (.warning request.path) ++
      noted writer request.path (decisions.map .decided) }

/-- A run of the command line, with a writer for its log. -/
def runWith (writer : Log.Writer) (read : String → Except ReadError ByteArray)
    (words : List String) : Outcome :=
  match Job.ofWords words with
  | .error error => .failed (.usage error)
  | .ok .help => .printed usage
  | .ok .version => .printed ("lucent " ++ version ++ "\n")
  | .ok (.list request) =>
    match readText request.path (read request.path) with
    | .error cause => .failed cause
    | .ok text => listWith writer request text

/-- The listing of a text, with the log of a filter. -/
def list (filter : Log.Filter) (request : Request) (text : String) : Outcome :=
  listWith filter.writer request text

/-- A run of the command line, with the log of a filter. -/
def run (filter : Log.Filter) (read : String → Except ReadError ByteArray) (words : List String) :
    Outcome := runWith filter.writer read words

/-- What a run of `lex` can be: the arguments are at fault, or the file is, or its text is listed.
    Which of the three it is does not depend on the writer. -/
theorem runWith_lex_cases (writer : Log.Writer) (read : String → Except ReadError ByteArray)
    (words : List String) :
    (∃ error, Request.ofWords words = .error error ∧
      runWith writer read ("lex" :: words) = .failed (.usage error)) ∨
    (∃ request cause, Request.ofWords words = .ok request ∧
      readText request.path (read request.path) = .error cause ∧
      runWith writer read ("lex" :: words) = .failed cause) ∨
    (∃ request text, Request.ofWords words = .ok request ∧
      readText request.path (read request.path) = .ok text ∧
      runWith writer read ("lex" :: words) = listWith writer request text) := by
  have job : Job.ofWords ("lex" :: words) = (Request.ofWords words).map .list := rfl
  rw [runWith, job]
  match Request.ofWords words with
  | .error error => exact .inl ⟨error, rfl, rfl⟩
  | .ok request =>
    refine .inr ?_
    match hr : readText request.path (read request.path) with
    | .error cause => exact .inl ⟨request, cause, rfl, hr, by simp only [Except.map, hr]⟩
    | .ok text => exact .inr ⟨request, text, rfl, hr, by simp only [Except.map, hr]⟩

/-- A run of `lex` that ends well has listed a text: the other two ways in which it can end have
    another status. -/
theorem listed_of_status {writer : Log.Writer} {read : String → Except ReadError ByteArray}
    {words : List String} (h : (runWith writer read ("lex" :: words)).status = 0) :
    ∃ request text, Request.ofWords words = .ok request ∧
      readText request.path (read request.path) = .ok text ∧
      runWith writer read ("lex" :: words) = listWith writer request text := by
  rcases runWith_lex_cases writer read words with ⟨_, _, failed⟩ | ⟨_, _, _, _, failed⟩ | listed
  · rw [failed, Outcome.status_failed] at h
    exact absurd h (by decide)
  · rw [failed, Outcome.status_failed] at h
    exact absurd h (by decide)
  · exact listed

end Offside.Command
