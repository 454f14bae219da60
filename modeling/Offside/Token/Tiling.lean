/-
  How the tokens of a text lie on it.

  Content and comments stand one after another, with nothing but white space between them, and each
  goes as far as its kind allows.  Structural tokens are empty and stand where the text before them
  ended.  Together with the white space the tokens are the whole text.
-/
import Offside.Source
import Offside.Token.Lexeme

namespace Offside.Token

/-- The bytes of a text from an offset on. -/
def ahead (text : String) (offset : Nat) : List UInt8 := (Source.bytes text).drop offset

/-- Whether an offset stands between two characters of a text. -/
def BetweenChars (text : String) (offset : Nat) : Prop :=
  String.Pos.Raw.IsValid text ⟨offset⟩

instance (text : String) (offset : Nat) : Decidable (BetweenChars text offset) :=
  inferInstanceAs (Decidable (String.Pos.Raw.IsValid text ⟨offset⟩))

/-- Every byte between two offsets satisfies a test. -/
def Between (text : String) (start stop : Nat) (test : UInt8 → Bool) : Prop :=
  ∀ i, start ≤ i → i < stop → ∃ b, (Source.bytes text)[i]? = some b ∧ test b = true

/-- A span of content: no white space and no start of a comment in it, and it ends in front of one
    of these or with the text. -/
def IsContent (text : String) (s : Span) : Prop :=
  Between text s.start s.stop (fun b => !Lexeme.isSpace b) ∧
    (∀ i, s.start ≤ i → i < s.stop → Lexeme.startsComment (ahead text i) = false) ∧
    (∀ b ∈ (ahead text s.stop).head?, Lexeme.isSpace b = true ∨
      Lexeme.startsComment (ahead text s.stop) = true)

/-- A span of a comment: it starts with the two slashes, and goes to the end of the line. -/
def IsComment (text : String) (s : Span) : Prop :=
  Lexeme.startsComment (ahead text s.start) = true ∧
    Between text s.start s.stop (· != 10) ∧
    (∀ b ∈ (ahead text s.stop).head?, b = 10)

/-- The tokens lie on a text, from the offset where the text before them ended. -/
def Tiles (text : String) (offset : Nat) : List Token → Prop
  | [] => Between text offset (Source.bytes text).length Lexeme.isSpace
  | ⟨.boundary _, span⟩ :: ts => span = .point offset ∧ Tiles text offset ts
  | ⟨.content, span⟩ :: ts =>
    offset ≤ span.start ∧ span.start < span.stop ∧ span.stop ≤ (Source.bytes text).length ∧
      Between text offset span.start Lexeme.isSpace ∧
      BetweenChars text span.start ∧ BetweenChars text span.stop ∧
      IsContent text span ∧ Tiles text span.stop ts
  | ⟨.comment, span⟩ :: ts =>
    offset ≤ span.start ∧ span.start < span.stop ∧ span.stop ≤ (Source.bytes text).length ∧
      Between text offset span.start Lexeme.isSpace ∧
      BetweenChars text span.start ∧ BetweenChars text span.stop ∧
      IsComment text span ∧ Tiles text span.stop ts

/-- From each of its tokens on, a tiling is one, starting from the place to which the tokens before
    it lead. -/
theorem Tiles.from_mem {text : String} {offset : Nat} {ts : List Token} {t : Token}
    (h : Tiles text offset ts) (ht : t ∈ ts) : ∃ place later, Tiles text place (t :: later) := by
  induction ts generalizing offset with
  | nil => cases ht
  | cons head ts ih =>
    rcases List.mem_cons.mp ht with rfl | behind
    · exact ⟨offset, ts, h⟩
    · obtain ⟨kind, span⟩ := head
      cases kind with
      | boundary => exact ih h.2 behind
      | content | comment =>
        obtain ⟨_, _, _, _, _, _, _, later⟩ := h
        exact ih later behind

end Offside.Token
