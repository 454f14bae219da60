/-
  The log of a run, and the filter that selects what of it is written.

  1. **Events** — the file was read; a structural token was decided on.  Each has a target, the part
     of the program that reports it, and a level.
  2. **Filters** — a list of directives, each a level or `target=level`, with commas between.  A
     directive holds for all targets that begin with its own; for a target the longest directive
     that holds decides, and of equally long ones the last.  It lets through the events that are no
     more detailed than its level.  Where no directive holds, nothing is written.
  3. **Records** — an event as it is written, behind the span in which it happened if the filter
     lets that through.
  4. **Writers** — which events are written, and as which line, is no business of the run that
     raises them.  A run is given a writer, and only two things are relied on where its lines are
     read (`Writer.Plain`).  The filters and the texts of this module make one such writer
     (`Filter.writer`), the one that the command line uses.
-/
import Offside.Dump
import Offside.Text.Pieces

namespace Offside.Command.Log

/-! ## Levels and filters

  This is the rule by which the command line selects records.  The run that raises them knows
  nothing of it, so a change of the rule concerns this section alone. -/

/-- How detailed an event is. -/
inductive Level
  | error
  | warn
  | info
  | debug
  | trace
  deriving DecidableEq, Repr

namespace Level

/-- The levels in order, the least detailed first. -/
def rank : Level → Nat
  | .error => 1
  | .warn => 2
  | .info => 3
  | .debug => 4
  | .trace => 5

/-- The name of a level in a record. -/
def name : Level → String
  | .error => "ERROR"
  | .warn => "WARN"
  | .info => "INFO"
  | .debug => "DEBUG"
  | .trace => "TRACE"

/-- Reads the level of a directive, in any case; `off` is the level of no event. -/
def parse? (text : String) : Option (Option Level) :=
  let text := text.toLower
  if text = "off" then some none
  else if text = "error" then some (some .error)
  else if text = "warn" then some (some .warn)
  else if text = "info" then some (some .info)
  else if text = "debug" then some (some .debug)
  else if text = "trace" then some (some .trace)
  else none

end Level

/-- A rule of a filter: up to which level the targets that begin with `target` are written. -/
structure Directive where
  target : String
  limit : Option Level
  deriving DecidableEq, Repr

namespace Directive

/-- Reads a level or `target=level`. -/
def parse? (text : String) : Option Directive :=
  match Text.pieces '=' text with
  | [level] => (Level.parse? level).map fun limit => ⟨"", limit⟩
  | [target, level] => (Level.parse? level).map fun limit => ⟨target, limit⟩
  | _ => none

/-- Whether a directive holds for a target. -/
def holdsFor (d : Directive) (target : String) : Bool :=
  d.target.toList.isPrefixOf target.toList

end Directive

/-- The directives of a filter. -/
abbrev Filter : Type := List Directive

namespace Filter

/-- Reads a filter.  What is not a directive is left out. -/
def parse (text : String) : Filter := (Text.pieces ',' text).filterMap Directive.parse?

/-- The directive that decides about a target. -/
def directive? (filter : Filter) (target : String) : Option Directive :=
  filter.foldl (fun best d =>
    if d.holdsFor target && best.all (·.target.length ≤ d.target.length) then some d else best) none

/-- Whether a filter lets a level of a target through. -/
def enables (filter : Filter) (target : String) (level : Level) : Bool :=
  match filter.directive? target with
  | some ⟨_, some limit⟩ => level.rank ≤ limit.rank
  | _ => false

end Filter

/-! ## Events and records

  An event is what happened; a record is the event together with what is shown of where it happened.
  The words of an event are its own, and what stands in front of them is added when it is
  written. -/

/-- What a run reports. -/
inductive Event
  /-- The file was read, and has so many bytes. -/
  | sourceRead (size : Nat)
  /-- A structural token was decided on. -/
  | decided (decision : Decision)
  deriving DecidableEq, Repr

/-- The target of the command that lists tokens. -/
def listingTarget : String := "lucentc::commands::lex"

/-- The target of the scan. -/
def scanTarget : String := "lucent_lexer_core::indent"

namespace Event

/-- The part of the program that reports an event. -/
def target : Event → String
  | .sourceRead _ => listingTarget
  | .decided _ => scanTarget

/-- How detailed an event is. -/
def level : Event → Level
  | .sourceRead _ => .debug
  | .decided _ => .trace

/-- The words of an event. -/
def message : Event → String
  | .sourceRead size => "read source bytes=" ++ size.repr
  | .decided (.opening after) =>
    "open current=" ++ after.current.toNat.repr ++ " target=" ++ after.target.toNat.repr
  | .decided (.closing after) =>
    "close current=" ++ after.current.toNat.repr ++ " target=" ++ after.target.toNat.repr
  | .decided (.level depth) => "level depth=" ++ depth.toNat.repr

/-- The decision that an event reports, if it reports one. -/
def decision? : Event → Option Decision
  | .sourceRead _ => none
  | .decided decision => some decision

end Event

/-- An event as it is written: with the path of the listing it belongs to, if that is shown. -/
structure Record where
  listing? : Option String
  event : Event
  deriving DecidableEq, Repr

/-- The text of a record. -/
def Record.text (r : Record) : String :=
  let span := match r.listing? with
    | some path => "lex_file\x7bpath=" ++ String.ofList (Dump.quotedText path) ++ "\x7d: "
    | none => ""
  r.event.level.name ++ " " ++ span ++ r.event.target ++ ": " ++ r.event.message

/-! ## Writers

  The theorems about the log are stated for any writer whose lines are plain.  That the writer of a
  filter is plain is a fact about the texts above. -/

/-- What a run leaves to others: which events are written, and the line that is written for one.  A
    run raises its events and hands them to a writer; nothing that the run does depends on the
    answer. -/
structure Writer where
  /-- Whether a level of a target is let through. -/
  enables : String → Level → Bool
  /-- The line of a record, without the line feed behind it. -/
  line : Record → String

namespace Writer

/-- What a reader of the log relies on.  How a line begins is left open: it may name a level, a
    span, a target, or a time. -/
structure Plain (w : Writer) : Prop where
  /-- A record is written on one line. -/
  oneLine : ∀ r, '\n' ∉ (w.line r).toList
  /-- The line ends with the words of the event, behind a colon and a space. -/
  tells : ∀ r, ∃ front, w.line r = front ++ ": " ++ r.event.message

/-- The records that a writer lets through, of the events in the listing of a path.  They name the
    path if the span of the listing, which is entered at the level of its own event, is let through
    too. -/
def records (w : Writer) (path : String) (events : List Event) : List Record :=
  let listing? := if w.enables listingTarget .debug then some path else none
  (events.filter fun e => w.enables e.target e.level).map (Record.mk listing?)

/-- A writer that lets nothing through has no records. -/
theorem records_of_silent {w : Writer} (h : ∀ target level, w.enables target level = false)
    (path : String) (events : List Event) : w.records path events = [] := by
  simp [records, h]

end Writer

/-- The writer that asks a filter, and writes the texts of records. -/
def Filter.writer (filter : Filter) : Writer := ⟨filter.enables, Record.text⟩

/-- The writer of the filter without a directive is silent: no directive holds, whatever the
    target. -/
theorem Filter.records_nil (path : String) (events : List Event) :
    (writer []).records path events = [] :=
  Writer.records_of_silent (fun _ _ => rfl) path events

example : (Filter.parse "warn,b=debug").enables "bc::d" .debug = true := by decide +kernel
example : (Filter.parse "a=trace,warn").enables "bc" .info = false := by decide +kernel
example : (Filter.parse "").enables "a" .error = false := by decide +kernel

end Offside.Command.Log
