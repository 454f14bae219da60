/-
  Which lists of arguments are accepted.

  Arguments are read from the left by a loop that keeps the path and the options found so far and
  stops at the first mistake.  What the loop makes of a list is told here without the loop, by
  conditions on the list as a whole (`ofWords_iff`).

  1. **One word more** — what was found in the words read so far is told by these words alone: their
     paths, and what their options ask for.  A word that is not at fault is read on from there
     (`ofWordsFrom_of_faultless`), and a word that is at fault is refused (`ofWordsFrom_of_fault`).
  2. **Up to a place** — so if no word of the front is at fault, all words are read by reading on
     behind the front (`ofWords_append`).  Either there is a first fault, and it is reported; or
     there is none, and what is left to ask is whether there was a path.
  3. **No order** — to be without fault is a condition on the words in any order: all options are
     known, and there are no two paths (`faultless_iff`).  A first fault is not, for the order
     decides which of two mistakes comes first.

  The inductions run from the end of a list, one word more at a time, since whether a word is at
  fault depends on the words in front of it.
-/
import Mathlib.Data.List.Induction
import Offside.Command.Faults
import Offside.Command.Program

namespace Offside.Command

variable {front words : List String} {word : String} {error : UsageError}

/-! ## One word more

  The state of the loop is a path, if one was found, and the options so far.  Behind the words
  `front` these are `(paths front).head?` and `optionsOf front`, and each lemma says how the two go
  on with one word more. -/

/-- A word is one of the two known options, or an option that is not known, or a path. -/
theorem Argument.ofWord_cases (word : String) :
    (word = "--no-content" ∧ ofWord word = .hideContent) ∨
    (word = "--state" ∧ ofWord word = .showState) ∨
    (isOption word = true ∧ word ∉ knownOptions ∧ ofWord word = .unknownOption word) ∨
    (isOption word = false ∧ ofWord word = .path word) := by
  unfold ofWord
  by_cases content : word = "--no-content"
  · exact .inl ⟨content, if_pos content⟩
  · by_cases state : word = "--state"
    · exact .inr (.inl ⟨state, by rw [if_neg content, if_pos state]⟩)
    · have unknown : word ∉ knownOptions := by simp [knownOptions, content, state]
      rw [if_neg content, if_neg state]
      by_cases dash : word.toList.head? = some '-'
      · exact .inr (.inr (.inl ⟨by simp [isOption, dash], unknown, if_pos dash⟩))
      · exact .inr (.inr (.inr ⟨by simp [isOption, dash], if_neg dash⟩))

/-- A known option starts with a dash, and so is an option. -/
theorem isOption_of_known (h : word ∈ knownOptions) : isOption word = true := by
  have all : ∀ known ∈ knownOptions, isOption known = true := by decide
  exact all word h

/-- A known option is never at fault, whatever stands in front of it. -/
theorem fault?_of_known (h : word ∈ knownOptions) : fault? front word = none := by
  rw [fault?, if_pos (isOption_of_known h), if_pos h]

/-- An option that is not known is always at fault. -/
theorem fault?_of_unknown (h : isOption word = true) (unknown : word ∉ knownOptions) :
    fault? front word = some (.unknownOption word) := by
  rw [fault?, if_pos h, if_neg unknown]

/-- A path is at fault if there is a path in front of it. -/
theorem fault?_of_path (h : isOption word = false) :
    fault? front word = if paths front = [] then none else some (.unexpectedArgument word) := by
  rw [fault?, if_neg (by simp [h])]

theorem paths_concat_of_option (h : isOption word = true) (front : List String) :
    paths (front ++ [word]) = paths front := by
  simp [paths, h]

theorem paths_concat_of_path (h : isOption word = false) (front : List String) :
    paths (front ++ [word]) = paths front ++ [word] := by
  simp [paths, h]

/-- One word more asks for what it stands for, and for nothing else. -/
theorem optionsOf_concat (front : List String) (word : String) :
    optionsOf (front ++ [word]) =
      ⟨(optionsOf front).hideContent || decide (word = "--no-content"),
        (optionsOf front).showState || decide (word = "--state")⟩ := by
  simp [optionsOf, eq_comm]

/-- A path asks for none of the options, so words ask for the same with a path behind them. -/
theorem optionsOf_concat_of_path (h : isOption word = false) (front : List String) :
    optionsOf (front ++ [word]) = optionsOf front := by
  have unknown : word ∉ knownOptions := by
    intro known
    rw [isOption_of_known known] at h
    exact absurd h (by decide)
  simp only [knownOptions, List.mem_cons, List.not_mem_nil, or_false, not_or] at unknown
  rw [optionsOf_concat, decide_eq_false unknown.1, decide_eq_false unknown.2, Bool.or_false,
    Bool.or_false]

namespace Request

/-- Behind the words `front`, a word that is not at fault is read, and reading goes on behind it
    with what the words up to it ask for. -/
theorem ofWordsFrom_of_faultless (h : fault? front word = none) (back : List String) :
    ofWordsFrom (paths front).head? (optionsOf front) (word :: back) =
      ofWordsFrom (paths (front ++ [word])).head? (optionsOf (front ++ [word])) back := by
  rw [ofWordsFrom]
  rcases Argument.ofWord_cases word with ⟨rfl, asked⟩ | ⟨rfl, asked⟩ | ⟨dash, unknown, asked⟩ |
    ⟨plain, asked⟩
  · rw [asked, paths_concat_of_option (by decide), optionsOf_concat]
    simp
  · rw [asked, paths_concat_of_option (by decide), optionsOf_concat]
    simp
  · rw [fault?_of_unknown dash unknown] at h
    cases h
  · have first : paths front = [] := by
      rw [fault?_of_path plain] at h
      by_contra another
      rw [if_neg another] at h
      cases h
    rw [asked, paths_concat_of_path plain, optionsOf_concat_of_path plain, first]
    rfl

/-- Behind the words `front`, a word that is at fault ends the reading with its error, whatever
    comes behind it. -/
theorem ofWordsFrom_of_fault (h : fault? front word = some error) (back : List String) :
    ofWordsFrom (paths front).head? (optionsOf front) (word :: back) = .error error := by
  rw [ofWordsFrom]
  rcases Argument.ofWord_cases word with ⟨rfl, asked⟩ | ⟨rfl, asked⟩ | ⟨dash, unknown, asked⟩ |
    ⟨plain, asked⟩
  · rw [fault?_of_known (by decide)] at h
    cases h
  · rw [fault?_of_known (by decide)] at h
    cases h
  · rw [fault?_of_unknown dash unknown] at h
    cases h
    rw [asked]
  · rw [fault?_of_path plain] at h
    split at h
    · cases h
    · next another =>
      cases h
      obtain ⟨path, more, found⟩ := List.exists_cons_of_ne_nil another
      rw [asked, found]
      rfl

end Request

/-! ## Up to a place

  A list of words has a first word at fault or none.  The loop tells the two apart, and in the
  second case has read the list to its end. -/

theorem faultless_nil : Faultless [] := by
  intro front word back h
  simp at h

/-- Words are without fault if those in front of the last are, and the last is not at fault behind
    them. -/
theorem faultless_concat_iff :
    Faultless (front ++ [word]) ↔ Faultless front ∧ fault? front word = none := by
  constructor
  · intro h
    constructor
    · intro before inner back parts
      apply h before inner (back ++ [word])
      rw [parts, List.append_assoc, List.cons_append]
    · exact h front word [] rfl
  · rintro ⟨inFront, last⟩ before inner back parts
    rcases List.eq_nil_or_concat back with rfl | ⟨back, final, rfl⟩
    · obtain ⟨rfl, same⟩ := List.append_inj' parts rfl
      cases same
      exact last
    · rw [List.concat_eq_append, ← List.cons_append, ← List.append_assoc] at parts
      obtain ⟨rfl, _⟩ := List.append_inj' parts rfl
      exact inFront before inner back rfl

/-- If the words in front are without fault, all of them are read, and reading goes on behind
    them. -/
theorem Request.ofWords_append (h : Faultless front) (back : List String) :
    ofWords (front ++ back) = ofWordsFrom (paths front).head? (optionsOf front) back := by
  induction front using List.reverseRecOn generalizing back with
  | nil => rfl
  | append_singleton front word ih =>
    obtain ⟨inFront, last⟩ := faultless_concat_iff.mp h
    rw [List.append_assoc, List.singleton_append, ih inFront (word :: back),
      ofWordsFrom_of_faultless last]

/-- The error of the first word at fault is what is reported. -/
theorem Request.ofWords_of_firstFault (h : FirstFault words error) :
    ofWords words = .error error := by
  obtain ⟨front, word, back, rfl, inFront, fault⟩ := h
  rw [ofWords_append inFront, ofWordsFrom_of_fault fault]

/-- Words without fault are a request if there is a path among them, and otherwise the path is
    missing. -/
theorem Request.ofWords_of_faultless (h : Faultless words) :
    ofWords words =
      match (paths words).head? with
      | some path => .ok ⟨path, optionsOf words⟩
      | none => .error .missingPath := by
  have all := ofWords_append h []
  rw [List.append_nil] at all
  rw [all]
  rfl

/-- Words are without fault, or one of them is the first at fault. -/
theorem faultless_or_firstFault (words : List String) :
    Faultless words ∨ ∃ error, FirstFault words error := by
  induction words using List.reverseRecOn with
  | nil => exact .inl faultless_nil
  | append_singleton front word ih =>
    rcases ih with inFront | ⟨error, before, inner, back, rfl, free, fault⟩
    · cases last : fault? front word with
      | none => exact .inl (faultless_concat_iff.mpr ⟨inFront, last⟩)
      | some error => exact .inr ⟨error, front, word, [], rfl, inFront, last⟩
    · -- a first fault stays the first
      refine .inr ⟨error, before, inner, back ++ [word], ?_, free, fault⟩
      rw [List.append_assoc, List.cons_append]

/-- No single word is at fault for a path that is missing. -/
theorem FirstFault.ne_missingPath (h : FirstFault words error) : error ≠ .missingPath := by
  obtain ⟨front, word, _, _, _, fault⟩ := h
  rintro rfl
  unfold fault? at fault
  repeat' split at fault
  all_goals cases fault

/-! ## No order

  What is accepted depends on which words occur and how many paths there are, not on where they
  stand. -/

/-- Words are without fault exactly if all options among them are known and there are no two paths,
    in whatever order they stand. -/
theorem faultless_iff :
    Faultless words ↔
      (∀ word ∈ words, isOption word = true → word ∈ knownOptions) ∧ (paths words).length ≤ 1 := by
  induction words using List.reverseRecOn with
  | nil => simp [faultless_nil, paths]
  | append_singleton front word ih =>
    rw [faultless_concat_iff, ih, List.forall_mem_append, List.forall_mem_singleton]
    cases dash : isOption word with
    | true =>
      rw [paths_concat_of_option dash]
      by_cases known : word ∈ knownOptions
      · simp [fault?_of_known known, known]
      · simp [fault?_of_unknown dash known, known]
    | false =>
      rw [paths_concat_of_path dash, fault?_of_path dash, List.length_append]
      by_cases first : paths front = []
      · simp [first]
      · have some_path : 0 < (paths front).length := List.length_pos_iff.mpr first
        simp [first]

/-- Words are accepted exactly if all options among them are known and there is one path, and what
    is asked for is this path with what the options stand for. -/
theorem Request.ofWords_eq_ok_iff {request : Request} :
    ofWords words = .ok request ↔
      (∀ word ∈ words, isOption word = true → word ∈ knownOptions) ∧
        paths words = [request.path] ∧ request.options = optionsOf words := by
  constructor
  · intro accepted
    rcases faultless_or_firstFault words with free | ⟨error, fault⟩
    · obtain ⟨known, single⟩ := faultless_iff.mp free
      rw [ofWords_of_faultless free] at accepted
      -- there is at most one path, and without any the words would not have been accepted
      cases found : paths words with
      | nil => simp [found] at accepted
      | cons path more =>
        rw [found, List.length_cons] at single
        have nothing : more = [] := List.eq_nil_of_length_eq_zero (by omega)
        simp only [found, List.head?_cons, Except.ok.injEq] at accepted
        rw [← accepted, nothing]
        exact ⟨known, rfl, rfl⟩
    · rw [ofWords_of_firstFault fault] at accepted
      cases accepted
  · rintro ⟨known, single, asked⟩
    have free : Faultless words := faultless_iff.mpr ⟨known, by rw [single]; exact Nat.le_refl 1⟩
    rw [ofWords_of_faultless free, single]
    show Except.ok ⟨request.path, optionsOf words⟩ = Except.ok request
    rw [← asked]

/-- Options are those that some words ask for if each is set exactly when its word occurs. -/
theorem eq_optionsOf_iff {options : Dump.Options} :
    options = optionsOf words ↔
      (options.hideContent = true ↔ "--no-content" ∈ words) ∧
        (options.showState = true ↔ "--state" ∈ words) := by
  obtain ⟨content, state⟩ := options
  have set_iff (set : Bool) (word : String) :
      set = decide (word ∈ words) ↔ (set = true ↔ word ∈ words) := by
    cases set <;> simp
  rw [optionsOf, Dump.Options.mk.injEq, set_iff, set_iff]

/-- With the same words in another order, or with options repeated, the same is asked for, provided
    that no path is repeated. -/
theorem Request.ofWords_of_same {request : Request} {other : List String}
    (accepted : ofWords words = .ok request) (same : ∀ word, word ∈ other ↔ word ∈ words)
    (count : (paths other).length = (paths words).length) : ofWords other = .ok request := by
  obtain ⟨known, single, asked⟩ := ofWords_eq_ok_iff.mp accepted
  apply ofWords_eq_ok_iff.mpr
  refine ⟨?_, ?_, ?_⟩
  · intro word member
    exact known word ((same word).mp member)
  · rw [single] at count
    obtain ⟨path, found⟩ := List.length_eq_one_iff.mp count
    have member : path ∈ paths other := by
      rw [found]
      exact List.mem_singleton_self path
    obtain ⟨member, plain⟩ := List.mem_filter.mp member
    have there : path ∈ paths words := List.mem_filter.mpr ⟨(same path).mp member, plain⟩
    rw [single] at there
    rw [found, List.mem_singleton.mp there]
  · rw [eq_optionsOf_iff] at asked ⊢
    rw [same, same]
    exact asked

/-- Words are refused exactly if one of them is the first at fault, and then with its error, or if
    they are without fault and no path is among them, and then for the missing path. -/
theorem Request.ofWords_eq_error_iff :
    ofWords words = .error error ↔
      FirstFault words error ∨ (error = .missingPath ∧ Faultless words ∧ paths words = []) := by
  constructor
  · intro refused
    rcases faultless_or_firstFault words with free | ⟨first, fault⟩
    · rw [ofWords_of_faultless free] at refused
      cases found : paths words with
      | nil =>
        simp only [found, List.head?_nil, Except.error.injEq] at refused
        exact .inr ⟨refused.symm, free, rfl⟩
      | cons path more => simp [found] at refused
    · rw [ofWords_of_firstFault fault] at refused
      cases refused
      exact .inl fault
  · rintro (fault | ⟨rfl, free, nothing⟩)
    · exact ofWords_of_firstFault fault
    · rw [ofWords_of_faultless free, nothing]
      rfl

/-- Words that are refused end the run with a usage error, before any file is read and whatever
    writes the log. -/
theorem runWith_of_refused (h : Request.ofWords words = .error error) (writer : Log.Writer)
    (read : String → Except ReadError ByteArray) :
    runWith writer read ("lex" :: words) = .failed (.usage error) := by
  have job : Job.ofWords ("lex" :: words) = (Request.ofWords words).map .list := rfl
  rw [runWith, job, h]
  rfl

/-- **Arguments in any order.**  Words are accepted exactly if every option among them is known and
    one of them, in one place, is a path: that is the path asked for, and each option is set if it
    occurs anywhere.  So words that are accepted ask for the same when they are put in another order
    or an option is repeated.  Otherwise the first word that is at fault is reported, which is an
    unknown option or a second path; and a missing path exactly if no word is at fault and none is a
    path.  Either way it is a usage error that the run ends with. -/
theorem ofWords_iff (words : List String) :
    (∀ request, Request.ofWords words = .ok request ↔
      (∀ word ∈ words, isOption word = true → word ∈ knownOptions) ∧
        paths words = [request.path] ∧
        (request.options.hideContent = true ↔ "--no-content" ∈ words) ∧
        (request.options.showState = true ↔ "--state" ∈ words)) ∧
    (∀ request other, Request.ofWords words = .ok request →
      (∀ word, word ∈ other ↔ word ∈ words) → (paths other).length = (paths words).length →
      Request.ofWords other = .ok request) ∧
    (∀ error, Request.ofWords words = .error error ↔
      FirstFault words error ∨ (error = .missingPath ∧ Faultless words ∧ paths words = [])) ∧
    (Request.ofWords words = .error .missingPath ↔ Faultless words ∧ paths words = []) ∧
    ∀ error, Request.ofWords words = .error error →
      (Failure.usage error).isUsage = true ∧
        ∀ filter read, run filter read ("lex" :: words) = .failed (.usage error) := by
  refine ⟨?_, ?_, ?_, ?_, ?_⟩
  · intro request
    rw [Request.ofWords_eq_ok_iff, eq_optionsOf_iff]
  · intro request other accepted same count
    exact Request.ofWords_of_same accepted same count
  · intro error
    exact Request.ofWords_eq_error_iff
  · rw [Request.ofWords_eq_error_iff]
    constructor
    · rintro (fault | ⟨_, missing⟩)
      · exact absurd rfl fault.ne_missingPath
      · exact missing
    · intro missing
      exact .inr ⟨rfl, missing⟩
  · intro error refused
    refine ⟨rfl, ?_⟩
    intro filter read
    exact runWith_of_refused refused filter.writer read

/-- An option behind the path, put in front of it and repeated; and of two mistakes the first. -/
theorem ofWords_iff_state :
    (Request.ofWords ["a", "--state"] = .ok ⟨"a", ⟨false, true⟩⟩ ∧
      (paths ["--state", "a", "--state"]).length = (paths ["a", "--state"]).length ∧
      Request.ofWords ["--state", "a", "--state"] = .ok ⟨"a", ⟨false, true⟩⟩) ∧
    (Request.ofWords ["a", "b", "--bad"] = .error (.unexpectedArgument "b") ∧
      (run [] (fun _ => .error .missing) ["lex", "a", "b", "--bad"]).status = 1) := by
  obtain ⟨_, same, _⟩ := ofWords_iff ["a", "--state"]
  obtain ⟨_, _, _, _, refused⟩ := ofWords_iff ["a", "b", "--bad"]
  have accepted : Request.ofWords ["a", "--state"] = .ok ⟨"a", ⟨false, true⟩⟩ := rfl
  have members : ∀ word, word ∈ ["--state", "a", "--state"] ↔ word ∈ ["a", "--state"] := by
    intro word
    simp [or_comm]
  have count : (paths ["--state", "a", "--state"]).length = (paths ["a", "--state"]).length := by
    decide
  have second : Request.ofWords ["a", "b", "--bad"] = .error (.unexpectedArgument "b") := rfl
  have ended := (refused _ second).2 [] fun _ => .error .missing
  refine ⟨⟨accepted, count, same _ _ accepted members count⟩, second, ?_⟩
  rw [ended]
  rfl

end Offside.Command
