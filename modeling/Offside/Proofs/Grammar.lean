/-
  The grammar of the token stream.

  1. **Shape** — the kinds of the tokens of a text are blocks, one at least, and only the last of
     them may lack its content.  The induction is on the derivation of the stream.  Its two
     hypotheses say what may follow content and what may follow a level token: an announcement
     takes the one to the other.
  2. **Neighbours** — in such a stream a step is followed by a step in the same direction or by the
     level token, so the two directions never meet and a run of steps ends in a level token.
  3. **Permission** — what may come next depends on the tokens so far alone: nothing structural
     while a level token waits for its content, everything otherwise.  One token changes the flag
     of the tokenizer as it changes the tokens so far, and `take` repeats that.

  The three parts are about different things: the first about whole streams, the second about two
  tokens that stand side by side, the third about each prefix.  The second is drawn from the first
  without the stream; the third goes back to single calls of `next`.
-/
import Mathlib.Data.List.Chain
import Mathlib.Data.List.Induction
import Offside.Proofs.Measuring
import Offside.Token.Blocks

namespace Offside

namespace Token

/-! ## Putting blocks together

  A block is a head, comments, and text from its first content on.  A stream in the making is one
  whose front is missing, so there are two ways in which it can begin, and each case of the
  derivation turns the one into the other. -/

/-- What can follow content: more text, comments and content alike, and then, if there is more,
    blocks. -/
def AfterContent (ks : List Kind) : Prop :=
  ∃ text later, ks = text ++ later ∧ (∀ k ∈ text, k.isStructural = false) ∧
    (later = [] ∨ IsStream later)

/-- What can follow a level token: comments, and then, if there is more, content and what can follow
    it. -/
def AfterLevel (ks : List Kind) : Prop :=
  ∃ comments later, ks = comments ++ later ∧ (∀ k ∈ comments, k = .comment) ∧
    (later = [] ∨ ∃ more, later = .content :: more ∧ AfterContent more)

/-- A piece of text more in front is text still, and what can follow is what could before. -/
theorem AfterContent.cons {k : Kind} {ks : List Kind} (hk : k.isStructural = false)
    (h : AfterContent ks) : AfterContent (k :: ks) := by
  obtain ⟨text, later, rfl, ht, hl⟩ := h
  refine ⟨k :: text, later, rfl, ?_, hl⟩
  intro k' hk'
  rcases List.mem_cons.mp hk' with rfl | hk'
  · exact hk
  · exact ht k' hk'

/-- A comment more in front leaves the level token waiting as before. -/
theorem AfterLevel.comment {ks : List Kind} (h : AfterLevel ks) : AfterLevel (.comment :: ks) := by
  obtain ⟨comments, later, rfl, hc, hl⟩ := h
  refine ⟨.comment :: comments, later, rfl, ?_, hl⟩
  intro k hk
  rcases List.mem_cons.mp hk with rfl | hk
  · rfl
  · exact hc k hk

/-- A head, and behind it what can follow its level token, are blocks: the head opens one, and the
    content, if it comes, completes it. -/
theorem IsStream.of_head {head ks : List Kind} (hh : IsHead head) (h : AfterLevel ks) :
    IsStream (head ++ ks) := by
  obtain ⟨comments, later, rfl, hc, hl⟩ := h
  have announced : IsAnnounced (head ++ comments) := ⟨head, comments, rfl, hh, hc⟩
  rcases hl with rfl | ⟨more, rfl, text, rest, rfl, ht, hr⟩
  · rw [List.append_nil]
    exact .announced announced
  · -- the content ends what was announced, and the text after it is still of this block
    have block : IsBlock (head ++ comments ++ .content :: text) := ⟨_, text, rfl, announced, ht⟩
    rcases hr with rfl | hr
    · simpa [List.append_assoc] using IsStream.last block
    · simpa [List.append_assoc] using IsStream.block block hr

/-- The boundaries between two depths are a head, since one of the two directions is empty. -/
theorem isHead_boundaries (before depth : Nat) :
    IsHead ((Layout.boundaries before depth).map .boundary) := by
  rcases Nat.le_total before depth with h | h
  · have := IsHead.opening (depth - before)
    simpa [Layout.boundaries, Nat.sub_eq_zero_of_le h] using this
  · have := IsHead.closing (before - depth)
    simpa [Layout.boundaries, Nat.sub_eq_zero_of_le h] using this

/-! ## Neighbours

  That each two neighbours fit is a chain.  Text and level tokens fit with anything behind them, so
  a chain is broken nowhere but between two steps, and within a head all steps are the same. -/

/-- What can stand right behind a token: behind a step the same step or the level token, and
    anything behind other tokens. -/
def Kind.Follows (k next : Kind) : Prop :=
  ∀ b, k = .boundary b → b ≠ .level → next = k ∨ next = .boundary .level

theorem Kind.follows_of_text {k next : Kind} (hk : k.isStructural = false) : k.Follows next := by
  rintro b rfl _
  simp [isStructural] at hk

theorem Kind.follows_of_level {next : Kind} : Kind.Follows (.boundary .level) next := by
  intro b hb hne
  cases hb
  exact absurd rfl hne

/-- Text may be put in front of a chain, for anything may stand behind it. -/
theorem isChain_text_append {text ks : List Kind} (ht : ∀ k ∈ text, k.isStructural = false)
    (hk : ks.IsChain Kind.Follows) : (text ++ ks).IsChain Kind.Follows := by
  induction text with
  | nil => exact hk
  | cons k text ih =>
    rw [List.cons_append, List.isChain_cons]
    constructor
    · intro next _
      exact Kind.follows_of_text (ht k List.mem_cons_self)
    · refine ih ?_
      intro k' hk'
      exact ht k' (List.mem_cons_of_mem k hk')

/-- A head may be put in front of a chain, for anything may stand behind the level token that ends
    it. -/
theorem isChain_head_append {head ks : List Kind} (hh : IsHead head)
    (hk : ks.IsChain Kind.Follows) : (head ++ ks).IsChain Kind.Follows := by
  have run (n : Nat) (b : Boundary) :
      (List.replicate n (Kind.boundary b) ++ [Kind.boundary .level] ++ ks).IsChain Kind.Follows := by
    rw [List.append_assoc, List.singleton_append, List.isChain_append]
    refine ⟨?_, ?_, ?_⟩
    · -- the steps, which are all the same; the level token; and the seam between the two
      refine List.isChain_replicate_of_rel n ?_
      intro _ _ _
      exact .inl rfl
    · rw [List.isChain_cons]
      refine ⟨?_, hk⟩
      intro _ _
      exact Kind.follows_of_level
    · intro k _ next hn
      rw [List.head?_cons, Option.mem_some] at hn
      subst hn
      intro _ _ _
      exact .inr rfl
  cases hh with
  | opening n => exact run n .opening
  | closing n => exact run n .closing

/-- A head with comments behind it may be put in front of a chain. -/
theorem isChain_announced_append {front ks : List Kind} (hf : IsAnnounced front)
    (hk : ks.IsChain Kind.Follows) : (front ++ ks).IsChain Kind.Follows := by
  obtain ⟨head, comments, rfl, hh, hc⟩ := hf
  rw [List.append_assoc]
  refine isChain_head_append hh (isChain_text_append ?_ hk)
  intro k hk'
  rw [hc k hk']
  rfl

/-- A block may be put in front of a chain: behind its head stands its content, and behind content
    anything may come. -/
theorem isChain_block_append {block ks : List Kind} (hb : IsBlock block)
    (hk : ks.IsChain Kind.Follows) : (block ++ ks).IsChain Kind.Follows := by
  obtain ⟨front, text, rfl, hf, ht⟩ := hb
  rw [List.append_assoc]
  have text_only : ∀ k ∈ Kind.content :: text, k.isStructural = false := by
    intro k hk'
    rcases List.mem_cons.mp hk' with rfl | hk'
    · rfl
    · exact ht k hk'
  exact isChain_announced_append hf (isChain_text_append text_only hk)

/-- In blocks each two neighbours fit, within a block as well as where one block follows another. -/
theorem IsStream.isChain {ks : List Kind} (h : IsStream ks) : ks.IsChain Kind.Follows := by
  induction h with
  | announced h => simpa using isChain_announced_append h .nil
  | last h => simpa using isChain_block_append h .nil
  | block h _ ih => exact isChain_block_append h ih

/-! ## Waiting for content

  Whether a level token waits is told by all tokens so far.  Seen from the end it is told by the
  last of them that is a level token or content. -/

/-- A level token stands among some tokens, and no content after it. -/
def Waits (ks : List Kind) : Prop :=
  ∃ front back, ks = front ++ .boundary .level :: back ∧ .content ∉ back

/-- With one more token, a level token makes the stream wait, content ends that, and anything else
    leaves it as it is. -/
theorem waits_concat (ks : List Kind) (k : Kind) :
    Waits (ks ++ [k]) ↔ k = .boundary .level ∨ (k ≠ .content ∧ Waits ks) := by
  constructor
  · rintro ⟨front, back, h, hb⟩
    rcases List.eq_nil_or_concat back with rfl | ⟨back, last, rfl⟩
    · exact .inl (List.singleton_inj.mp (List.append_inj' h rfl).2)
    · rw [List.concat_eq_append, ← List.cons_append, ← List.append_assoc] at h
      obtain ⟨rfl, hk⟩ := List.append_inj' h rfl
      cases hk
      rw [List.concat_eq_append, List.mem_append, not_or, List.mem_singleton] at hb
      exact .inr ⟨fun e => hb.2 e.symm, front, back, rfl, hb.1⟩
  · rintro (rfl | ⟨hk, front, back, rfl, hb⟩)
    · exact ⟨ks, [], rfl, by simp⟩
    · -- the level token that waited before still waits
      refine ⟨front, back ++ [k], by simp, ?_⟩
      rw [List.mem_append, not_or, List.mem_singleton]
      exact ⟨hb, hk.symm⟩

/-- The flag that is carried from token to token tells whether a level token waits. -/
theorem awaitsContent_iff (ks : List Kind) : awaitsContent ks = true ↔ Waits ks := by
  induction ks using List.reverseRecOn with
  | nil => simp [awaitsContent, Waits]
  | append_singleton ks k ih =>
    rw [waits_concat, ← ih, awaitsContent, awaitsContent, List.foldl_append]
    rcases k with (_ | _ | _) | _ | _ <;> simp [awaitsAfter]

end Token

namespace Tokenizer

/-! ## The shape of a stream

  The induction along the derivation.  At a place where a level token waits, the tokens to come are
  those that can follow a level token; at any other place they are those that can follow content, or
  the start. -/

/-- An announcement, and behind it what can follow a level token, are blocks. -/
theorem isStream_announcement {offset : Nat} {d : Depths} {es : List Emission}
    (h : Token.AfterLevel (kinds es)) : Token.IsStream (kinds (announcement offset d ++ es)) := by
  rw [kinds, List.map_append]
  refine Token.IsStream.of_head ?_ h
  show Token.IsHead (kinds (announcement offset d))
  rw [kinds_announcement]
  exact Token.isHead_boundaries ..

/-- The tokens of a stream are what can follow a level token if one waits at its start, and what can
    follow content otherwise. -/
theorem Stream.shape {r : Reader} {c : UInt16} {awaits : Bool} {es : List Emission}
    {t : Tokenizer} (h : Stream r c awaits es t) :
    if awaits then Token.AfterLevel (kinds es) else Token.AfterContent (kinds es) := by
  induction h with
  | @finish r c awaits _ _ =>
    cases awaits with
    | true => exact ⟨[], [], rfl, by simp, .inl rfl⟩
    | false => exact ⟨[], [], rfl, by simp, .inl rfl⟩
  | announce _ _ ih => exact ⟨[], _, rfl, by simp, .inr (isStream_announcement ih)⟩
  | @comment r front c awaits es t _ _ _ _ ih =>
    cases awaits with
    | true => exact Token.AfterLevel.comment ih
    | false => exact Token.AfterContent.cons rfl ih
  | @content r front c awaits es t _ _ _ _ _ ih =>
    cases awaits with
    | true => exact ⟨[], _, rfl, by simp, .inr ⟨_, rfl, ih⟩⟩
    | false => exact Token.AfterContent.cons rfl ih

/-- The tokens of a text are blocks, and there is at least one, since every text begins with an
    announcement. -/
theorem isStream_emissions (text : String) : Token.IsStream (kinds (emissions text)) := by
  obtain ⟨_, _, _, he, later⟩ := emissions_eq text
  rw [he]
  exact isStream_announcement later.shape

/-! ## Permission

  The tokenizer keeps a flag and nothing else of the tokens given.  It has to be shown that the flag
  is what the tokens tell, for each number of calls. -/

/-- One token changes the flag of the tokenizer as it changes the tokens so far, and it is
    structural only if the flag is down.  The end of the stream leaves the flag alone. -/
theorem awaitsContent_next (t : Tokenizer) :
    t.next.2.awaitsContent =
      (t.next.1.map (·.token.kind)).elim t.awaitsContent (Token.awaitsAfter t.awaitsContent) ∧
    ∀ e b, t.next.1 = some e → e.token.kind = .boundary b → t.awaitsContent = false := by
  rcases next_cases t with ⟨_, h⟩ | ⟨decision, after, ha, h⟩ | ⟨front, _, h⟩ | ⟨_, _, h⟩ | ⟨_, _, h⟩
    <;> rw [h]
  · simp
  · -- a boundary: the flag was down, and it goes up if this is a level token
    constructor
    · rw [ha]
      cases decision <;> rfl
    · intro _ _ _ _
      exact ha
  · simp
  · refine ⟨rfl, ?_⟩
    rintro e b ⟨rfl⟩ hb
    cases hb
  · refine ⟨rfl, ?_⟩
    rintro e b ⟨rfl⟩ hb
    cases hb

/-- After any number of tokens the flag is what their kinds, one after another, make of it. -/
theorem awaitsContent_take (n : Nat) (t : Tokenizer) :
    (t.take n).2.awaitsContent =
      ((kinds t.drain.1).take n).foldl Token.awaitsAfter t.awaitsContent := by
  induction n generalizing t with
  | zero => rfl
  | succ n ih =>
    have flag := (awaitsContent_next t).1
    match h : t.next with
    | (none, after) =>
      rw [h] at flag
      rw [take_succ_of_next_eq_none n h, drain_of_next_eq_none h]
      exact flag
    | (some e, after) =>
      rw [h] at flag
      have flag : after.awaitsContent = Token.awaitsAfter t.awaitsContent e.token.kind := flag
      rw [take_succ_of_next_eq_some n h, drain_of_next_eq_some h, ih, flag]
      rfl

/-- In front of a structural token the flag is down.  The induction is on the number of tokens taken
    before it. -/
theorem awaitsContent_before {n : Nat} {t : Tokenizer} {b : Boundary}
    (h : (kinds t.drain.1)[n]? = some (.boundary b)) : (t.take n).2.awaitsContent = false := by
  induction n generalizing t with
  | zero =>
    match hn : t.next with
    | (none, after) => simp [drain_of_next_eq_none hn, kinds] at h
    | (some e, after) =>
      rw [drain_of_next_eq_some hn] at h
      refine (awaitsContent_next t).2 e b (by rw [hn]) ?_
      simpa [kinds] using h
  | succ n ih =>
    match hn : t.next with
    | (none, after) => simp [drain_of_next_eq_none hn, kinds] at h
    | (some e, after) =>
      rw [drain_of_next_eq_some hn] at h
      rw [take_succ_of_next_eq_some n hn]
      exact ih h

end Tokenizer

/-- **The grammar of a stream.**  The kinds of the tokens of any text are blocks: steps in one
    direction, the level token, comments, and then content and comments, which only the last block
    may lack.  So a step is followed by the same step or by the level token, a structural token
    comes only where no level token waits for content, and after any number of tokens nothing is
    allowed if one waits, and everything if none does. -/
theorem tokenize_grammar (text : String) :
    let kinds := (tokenize text).map (·.kind)
    Token.IsStream kinds ∧
    kinds.IsChain Token.Kind.Follows ∧
    (¬∃ n b, kinds[n]? = some (.boundary b) ∧ Token.Waits (kinds.take n)) ∧
    ∀ n, (((Tokenizer.start text).take n).2.allowed = .none ↔ Token.Waits (kinds.take n)) ∧
      (((Tokenizer.start text).take n).2.allowed = .all ↔ ¬Token.Waits (kinds.take n)) := by
  have same : (tokenize text).map (·.kind) = Tokenizer.kinds (Tokenizer.start text).drain.1 := by
    rw [tokenize, List.map_map]
    rfl
  have flag (n : Nat) : ((Tokenizer.start text).take n).2.awaitsContent = true ↔
      Token.Waits (((tokenize text).map (·.kind)).take n) := by
    rw [← Token.awaitsContent_iff, same, Tokenizer.awaitsContent_take]
    rfl
  have stream : Token.IsStream ((tokenize text).map (·.kind)) := by
    rw [same]
    exact Tokenizer.isStream_emissions text
  refine ⟨stream, stream.isChain, ?_, ?_⟩
  · rintro ⟨n, b, hb, hw⟩
    rw [same] at hb
    rw [← flag, Tokenizer.awaitsContent_before hb] at hw
    simp at hw
  · intro n
    rw [← flag, Tokenizer.allowed]
    cases ((Tokenizer.start text).take n).2.awaitsContent <;> decide

end Offside
