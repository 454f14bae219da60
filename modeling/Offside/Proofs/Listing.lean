/-
  A listing is printed whole or not at all.

  A run of `lex` ends in one of three ways (`Command.runWith_lex_cases`): its arguments are refused,
  or its file cannot be read as text, or the text is listed.  Only in the last case does it end
  well, and what it prints is then fixed by the text and the options: the dump, and one warning for
  each flaw.  In the other two cases nothing that looks like a line of a dump is printed, and there
  is one message.

  1. **Files** — the bytes of a file are a text or they are none, and the text is found from them
     alone.  If there is no text, the failure says why (`Failure.Explains`).
  2. **What is printed** — a failure prints the usage text or nothing.  The usage text has many
     lines, and none of them starts as the line of a token does, so a reader of the output cannot
     take one for the other.
  3. **Runs of `lex`** — the three ways put together, as conditions on the arguments and the file.

  How a file is read is a parameter: any function from paths to bytes or an error.
-/
import Offside.Command.Program
import Offside.Dump.Reading
import Offside.Proofs.Flaws

namespace Offside

namespace Command

/-! ## Files

  What is got of a file is bytes or an error.  It is a text for the listing exactly if the bytes are
  those of one, and there are three ways to be none. -/

/-- A text is read from a file that holds its bytes, and from no other. -/
theorem readText_eq_ok_iff {path text : String} {contents : Except ReadError ByteArray} :
    readText path contents = .ok text ↔ contents = .ok text.toByteArray := by
  unfold readText
  split
  · exact ⟨nofun, nofun⟩
  · exact ⟨nofun, nofun⟩
  · next bytes =>
    rw [Except.ok.injEq, ← fromUTF8?_eq_some_iff]
    split
    · next found h => rw [h, Except.ok.injEq, Option.some.injEq]
    · next h =>
      rw [h]
      exact ⟨nofun, nofun⟩

/-- Why what was got of a file is not a text, and the failure that says so: the file is missing, or
    it could not be read for another reason, or its bytes are those of no text. -/
inductive Failure.Explains (path : String) : Except ReadError ByteArray → Failure → Prop
  | notFound : Explains path (.error .missing) (.notFound path)
  | unreadable {cause : ReadError} (h : cause ≠ .missing) :
      Explains path (.error cause) (.unreadable path cause)
  | invalidText {bytes : ByteArray} (h : ∀ text : String, bytes ≠ text.toByteArray) :
      Explains path (.ok bytes) (.invalidText path)

/-- If what was got of a file is not read as a text, the failure says why. -/
theorem Failure.explains_of_readText {path : String} {contents : Except ReadError ByteArray}
    {cause : Failure} (h : readText path contents = .error cause) :
    Explains path contents cause := by
  unfold readText at h
  split at h
  · cases h
    exact .notFound
  · next other =>
    cases h
    apply Explains.unreadable
    rintro rfl
    exact other rfl
  · next bytes =>
    split at h
    · cases h
    · next invalid =>
      cases h
      apply Explains.invalidText
      intro text hb
      rw [fromUTF8?_eq_some_iff.mpr hb] at invalid
      cases invalid

/-- A file that cannot be read is no mistake in the arguments, so no usage text is printed for
    it. -/
theorem Failure.Explains.isUsage {path : String} {contents : Except ReadError ByteArray}
    {cause : Failure} (h : Explains path contents cause) : cause.isUsage = false := by
  cases h <;> rfl

/-! ## What is printed

  Of a run that failed, standard output is looked at line by line, and standard error as a whole. -/

/-- No line of the usage text starts with the padded name of a kind of token. -/
theorem readKind_usage {l : List Char} (h : l ∈ Text.piecesOf '\n' usage.toList) :
    Dump.readKind l = none := by
  have all : usageLines.all (fun line => Dump.readKind line.toList == none &&
      !line.toList.contains '\n') = true := by
    decide +kernel
  -- what is between two line feeds of the usage text is one of its lines
  have each : ∀ l ∈ usageLines.map String.toList, Dump.readKind l = none ∧ '\n' ∉ l := by
    intro l hl
    obtain ⟨line, hm, rfl⟩ := List.mem_map.mp hl
    simpa using List.all_eq_true.mp all line hm
  have joined : usage.toList = (usageLines.map String.toList).flatMap (· ++ ['\n']) := by
    rw [usage, String.toList_join, List.flatMap_map, List.flatMap_map]
    simp only [String.toList_append]
    rfl
  rw [joined, Text.piecesOf_flatMap_append fun l hl => (each l hl).2] at h
  rcases List.mem_append.mp h with h | h
  · exact (each l h).1
  · rw [List.mem_singleton.mp h]
    rfl

/-- On standard error a failure writes its message on one line, and an empty line behind it if the
    usage text follows on standard output. -/
theorem stderr_failed (cause : Failure) :
    (Outcome.failed cause).stderr =
      "error: " ++ cause.message ++ "\n" ++ (if cause.isUsage then "\n" else "") := by
  rw [Outcome.stderr, Outcome.failed, List.map_singleton, String.join_cons, String.join_nil,
    String.append_empty]
  rfl

/-- Without a filter nothing but the warnings of a listing is written to standard error, in their
    order. -/
theorem stderr_list (request : Request) (text : String) :
    (list [] request text).stderr =
      String.join ((Source.flaws text).map fun flaw => (Notice.warning request.path flaw).text) := by
  rw [Outcome.stderr, list, listWith, noted, noted, Log.Filter.records_nil, Log.Filter.records_nil,
    List.map_nil, List.nil_append, List.append_nil, List.map_map]
  rfl

/-- A run that failed has printed no line that starts as that of a token. -/
theorem readKind_failed {cause : Failure} {l : List Char}
    (h : l ∈ Text.piecesOf '\n' (Outcome.failed cause).stdout.toList) : Dump.readKind l = none := by
  unfold Outcome.failed at h
  cases hu : cause.isUsage with
  | true =>
    rw [hu] at h
    exact readKind_usage h
  | false =>
    rw [hu] at h
    rw [List.mem_singleton.mp h]
    rfl

/-! ## Runs of `lex`

  A listing is the only run of `lex` with status zero, and it comes about under two conditions: the
  words are a request, and the file that it names holds the bytes of some text. -/

variable {writer : Log.Writer} {read : String → Except ReadError ByteArray} {words : List String}

/-- If the words are a request and the file it names holds the bytes of a text, this text is
    listed. -/
theorem runWith_lex_of_text {request : Request} {text : String}
    (hw : Request.ofWords words = .ok request) (ht : read request.path = .ok text.toByteArray) :
    runWith writer read ("lex" :: words) = listWith writer request text := by
  have job : Job.ofWords ("lex" :: words) = .ok (.list request) :=
    congrArg (Except.map Job.list) hw
  have hr : readText request.path (read request.path) = .ok text := readText_eq_ok_iff.mpr ht
  rw [runWith, job]
  simp only [hr]

/-- A run ends well if there are such a request and such a text, and only then: what writes the log
    has no part in it. -/
theorem status_lex_eq_zero_iff :
    (runWith writer read ("lex" :: words)).status = 0 ↔ ∃ request, ∃ text : String,
      Request.ofWords words = .ok request ∧ read request.path = .ok text.toByteArray := by
  constructor
  · intro h
    obtain ⟨request, text, hw, hr, _⟩ := listed_of_status h
    exact ⟨request, text, hw, readText_eq_ok_iff.mp hr⟩
  · rintro ⟨request, text, hw, ht⟩
    rw [runWith_lex_of_text hw ht]
    rfl

end Command

end Offside
