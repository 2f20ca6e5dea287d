/-
The tokens of a text, one at a time or all at once.

`TokenStream.next` yields the tokens in order, then one end token, then nothing more; after an error it yields
nothing more either. `TokenStream.collect` runs a stream to its end, and `TokenStream.collectSized` makes room for
its tokens beforehand. `Text.tokens` splits a whole text; its result always ends with an end token.
-/
import TaggedText.Event
import TaggedText.Token.Take

namespace TaggedText

inductive TokenStream.Phase where
  /-- tokens are to come -/
  | running
  /-- the end token was yielded -/
  | ended
  /-- nothing is yielded any more -/
  | finished
deriving DecidableEq, Repr

structure TokenStream where
  cursor : Cursor
  phase : TokenStream.Phase

namespace TokenStream

def ofText (t : Text) : TokenStream :=
  ⟨Cursor.ofText CharClass.classify t, .running⟩

def spanAtEnd (s : TokenStream) : Span :=
  s.cursor.spanAtEnd

/-- yields the next token or an error, or nothing once the stream has come to its end -/
def next (s : TokenStream) : Option (Except ReadError Token) × TokenStream :=
  match s.phase with
  | .finished => (none, s)
  | .ended => (none, { s with phase := .finished })
  | .running =>
    match s.cursor.takeToken with
    | none => (some (.ok (Token.eof (s.cursor.spanSince s.cursor.offset))), { s with phase := .ended })
    | some (.error e, cursor) => (some (.error e), ⟨cursor, .finished⟩)
    | some (.ok (kind, text), cursor) => (some (.ok ⟨kind, text, cursor.spanSince s.cursor.offset⟩), { s with cursor })

/-- a bound on how many tokens are to come -/
def toCome (s : TokenStream) : Nat :=
  s.cursor.left + (if s.phase = .running then 1 else 0)

/-- each token brings the stream nearer to its end -/
theorem toCome_next {s s' : TokenStream} {t : Token} (h : s.next = (some (.ok t), s')) :
    s'.toCome < s.toCome := by
  unfold next at h
  split at h
  · simp at h
  · simp at h
  · rename_i hphase
    split at h
    · simp only [Prod.mk.injEq] at h
      obtain ⟨-, rfl⟩ := h
      simp [toCome, hphase]
    · simp at h
    · rename_i hread
      simp only [Prod.mk.injEq] at h
      obtain ⟨-, rfl⟩ := h
      simp only [toCome, hphase, if_true]
      exact Nat.add_lt_add_right (Cursor.left_takeToken_lt hread) 1

/-- appends the end token `eof`, if there is one, to tokens given last first, unless the last has its kind already -/
def withEnd (eof : Option Token) (tokens : List Token) : List Token :=
  match eof, tokens with
  | none, _ => tokens
  | some e, [] => [e]
  | some e, last :: _ => if last.kind = e.kind then tokens else e :: tokens

/-- runs the stream on from a point where `tokens` and `events`, both last first, have come already -/
def collectFrom (eof : Option Token) (s : TokenStream) (tokens : List Token) (events : List Event) :
    Logged (Except ReadError (List Token)) :=
  match _h : s.next with
  | (none, _) =>
    let tokens := withEnd eof tokens
    ⟨.ok tokens.reverse, (Event.tokenized tokens.length :: events).reverse⟩
  | (some (.error e), _) => ⟨.error e, events.reverse⟩
  | (some (.ok t), s') => collectFrom eof s' (t :: tokens) (.token t.kind t.span.start :: events)
termination_by s.toCome
decreasing_by exact toCome_next _h

/-- all tokens of the stream, or its error; `eof` ends the list unless a token of its kind does -/
def collect (s : TokenStream) (eof : Option Token) : Logged (Except ReadError (List Token)) :=
  s.collectFrom eof [] []

/-- whether a buffer can have room for so many tokens -/
def hasRoom (reserve : Nat) : Bool :=
  reserve * Token.bytes ≤ Size.maxBytes

/-- what is collected when room is made for `reserve` tokens before the first is read; `none` if there can be no such
room, which stops the program -/
def collectSized (s : TokenStream) (eof : Option Token) (reserve : Nat) :
    Option (Logged (Except ReadError (List Token))) :=
  if hasRoom reserve then some (s.collect eof) else none

theorem collectSized_eq (s : TokenStream) (eof : Option Token) (reserve : Nat) :
    s.collectSized eof reserve = if reserve * Token.bytes ≤ Size.maxBytes then some (s.collect eof) else none := by
  simp only [collectSized, hasRoom, decide_eq_true_eq]

end TokenStream

def Text.tokens (t : Text) : Logged (Except ReadError (List Token)) :=
  let stream := TokenStream.ofText t
  stream.collect (some (Token.eof stream.spanAtEnd))

/-- the tokens of a text when room is made for `reserve` of them; `none` if there can be no such room -/
def Text.tokensSized (t : Text) (reserve : Nat) : Option (Logged (Except ReadError (List Token))) :=
  let stream := TokenStream.ofText t
  stream.collectSized (some (Token.eof stream.spanAtEnd)) reserve

end TaggedText
