/-
  Sessions: a token stream that is used back and forth.

  1. **Requests** — tokens are asked for one at a time, several at once, or all that are left.  A
     bookmark can be taken anywhere, also behind the last token, and the stream can be taken to any
     bookmark that was taken, backward or forward.  A stream started anew keeps the bookmarks.
  2. **Sessions** — the tokenizer and its bookmarks serve the requests.
  3. **Positions** — the plain account of the same requests: an index into the list of all tokens,
     and for each bookmark the index that it stands for.  The call that finds no token is counted
     too, once, since it is the one that finishes the stream.
-/
import Offside.Tokenizer

namespace Offside

/-- The stream after `n` calls of `next`, whatever they gave.  Calls behind the end are calls
    too. -/
def Tokenizer.advance : Nat → Tokenizer → Tokenizer
  | 0, t => t
  | n + 1, t => advance n t.next.2

namespace Session

/-! ## Requests

  The requests are plain data, and a server for them is any function.  So the tokenizer and the
  plain account can both serve the same list of requests. -/

/-- What can be asked of a stream.  Bookmarks are numbered in the order they were taken in. -/
inductive Request
  | next
  | take (n : Nat)
  | rest
  | bookmark
  | rewind (which : Nat)
  | restart
  deriving DecidableEq, Repr

/-- What comes back: a token or the end of the stream, a list of tokens, or nothing but a new state.
    A bookmark that was never taken is unknown. -/
inductive Reply
  | token (token? : Option Token)
  | tokens (tokens : List Token)
  | done
  | unknown
  deriving DecidableEq, Repr

/-- Serves requests one after another: all replies, and the state after the last. -/
def serveAll {σ : Type} (serve : Request → σ → Reply × σ) : List Request → σ → List Reply × σ
  | [], s => ([], s)
  | q :: qs, s =>
    let later := serveAll serve qs (serve q s).2
    ((serve q s).1 :: later.1, later.2)

end Session

/-! ## Sessions

  A session answers from the tokenizer, which is moved, kept and put back. -/

/-- A tokenizer, and the bookmarks taken so far. -/
structure Session where
  tokenizer : Tokenizer
  bookmarks : List Bookmark
  deriving DecidableEq

namespace Session

/-- The session before a text. -/
def start (text : String) : Session := ⟨.start text, []⟩

/-- Serves one request.  Replies show tokens only, while the session keeps all of the tokenizer; the
    replies to later requests tell whether it was kept rightly. -/
def serve (text : String) (q : Request) (s : Session) : Reply × Session :=
  match q with
  | .next =>
    let step := s.tokenizer.next
    (.token (step.1.map (·.token)), { s with tokenizer := step.2 })
  | .take n =>
    let some := s.tokenizer.take n
    (.tokens (some.1.map (·.token)), { s with tokenizer := some.2 })
  | .rest =>
    let all := s.tokenizer.drain
    (.tokens (all.1.map (·.token)), { s with tokenizer := all.2 })
  | .bookmark => (.done, { s with bookmarks := s.bookmarks ++ [s.tokenizer.bookmark] })
  | .rewind which =>
    match s.bookmarks[which]? with
    | none => (.unknown, s)
    | some b => (.done, { s with tokenizer := s.tokenizer.rewind b })
  | .restart => (.done, { s with tokenizer := .start text })

/-! ## Positions

  Here nothing is computed: the list of all tokens is given, and a request moves an index in it. -/

/-- How many tokens were given, and how many were when each bookmark was taken. -/
structure Position where
  index : Nat
  marks : List Nat
  deriving DecidableEq, Repr

namespace Position

/-- The position before a text. -/
def start : Position := ⟨0, []⟩

/-- The position `n` calls further on, at most one past the end of `size` tokens.  That last place
    is the finished stream, where calls change nothing any more. -/
def forward (size n : Nat) (p : Position) : Position :=
  { p with index := min (size + 1) (p.index + n) }

/-- Serves one request from the list of all tokens. -/
def serve (all : List Token) (q : Request) (p : Position) : Reply × Position :=
  match q with
  | .next => (.token all[p.index]?, p.forward all.length 1)
  | .take n => (.tokens ((all.drop p.index).take n), p.forward all.length n)
  | .rest => (.tokens (all.drop p.index), { p with index := all.length + 1 })
  | .bookmark => (.done, { p with marks := p.marks ++ [p.index] })
  | .rewind which =>
    match p.marks[which]? with
    | none => (.unknown, p)
    | some index => (.done, { p with index := index })
  | .restart => (.done, { p with index := 0 })

end Position

/-! ## Small cases -/

example : (serveAll (serve "a") [.next, .bookmark, .rest, .next, .rewind 0, .next, .rewind 1]
    (start "a")).1 =
    [.token (some ⟨.boundary .level, ⟨0, 0⟩⟩), .done,
      .tokens [⟨.content, ⟨0, 1⟩⟩, ⟨.boundary .level, ⟨1, 1⟩⟩], .token none, .done,
      .token (some ⟨.content, ⟨0, 1⟩⟩), .unknown] := by decide +kernel

end Session

end Offside
