/-
A cursor over a text.

A `Cursor` stands between two characters of a fixed source text and remembers one earlier place, its mark. Lookahead
leaves it alone. Reads move it forward over what they return; a read that fails leaves it at the end of the text,
except where the read says otherwise. `toMark` returns to the mark.

`Cursor.Valid` is what every operation keeps: both places lie in the text, the mark not after the cursor.
-/
import TaggedText.CharClass
import TaggedText.ReadError

namespace TaggedText

/-- a text that is being read: its characters, their classes, and where its lines begin -/
structure Source where
  text : Text
  classifier : Classifier
  lines : LineTable

def Source.ofText (classifier : Classifier) (t : Text) : Source :=
  ⟨t, classifier, LineTable.ofText t⟩

/-- a place between two characters: how many stand before it, and those that follow -/
structure Place where
  offset : Nat
  rest : Text
deriving DecidableEq, Repr

/-- whether the place belongs to the text `t` -/
def Place.In (p : Place) (t : Text) : Prop :=
  p.offset ≤ t.length ∧ p.rest = t.drop p.offset

theorem Place.In.length_eq {p : Place} {t : Text} (h : p.In t) : p.offset + p.rest.length = t.length := by
  have hle := h.1
  rw [h.2, List.length_drop]
  omega

/-- a place stays in the text when it moves over the characters that follow it -/
theorem Place.In.skip {p : Place} {t u rest : Text} (h : p.In t) (hrest : p.rest = u ++ rest) :
    Place.In ⟨p.offset + u.length, rest⟩ t := by
  have hlength := h.length_eq
  rw [hrest, List.length_append] at hlength
  refine ⟨by simp only; omega, ?_⟩
  rw [← List.drop_drop, ← h.2, hrest, List.drop_left]

/-- a place in a source, with one place before it to return to -/
structure Cursor where
  source : Source
  place : Place
  mark : Place

namespace Cursor

/-- the cursor at the start of `t`, marked there -/
def ofText (classifier : Classifier) (t : Text) : Cursor :=
  ⟨Source.ofText classifier t, ⟨0, t⟩, ⟨0, t⟩⟩

/-- both places lie in the text, and the mark is not after the cursor -/
structure Valid (c : Cursor) : Prop where
  place_in : c.place.In c.source.text
  mark_in : c.mark.In c.source.text
  mark_le : c.mark.offset ≤ c.place.offset

/-! ## Positions -/

def offset (c : Cursor) : Nat :=
  c.place.offset

def left (c : Cursor) : Nat :=
  c.place.rest.length

def atEnd (c : Cursor) : Bool :=
  c.place.rest.isEmpty

def locate (c : Cursor) (offset : Nat) : Location :=
  c.source.lines.locate offset

/-- the line and column of an offset, counted in sizes; `none` if the count stops the program -/
def locateSized (overflow : Overflow) (c : Cursor) (offset : Nat) : Option Location :=
  c.source.lines.locateSized overflow offset

/-- the span from `start` to the cursor -/
def spanSince (c : Cursor) (start : Nat) : Span :=
  ⟨start, c.offset, c.locate start⟩

def spanAtEnd (c : Cursor) : Span :=
  let stop := c.offset + c.left
  ⟨stop, stop, c.locate stop⟩

def failureAt (c : Cursor) (offset : Nat) (fault : ReadFault) : ReadError :=
  ⟨fault, c.locate offset⟩

def failure (c : Cursor) (fault : ReadFault) : ReadError :=
  c.failureAt c.offset fault

/-! ## Lookahead -/

def next? (c : Cursor) : Option Char :=
  c.place.rest.head?

/-- the character `n` places further on -/
def ahead (c : Cursor) (n : Nat) : Option Char :=
  c.place.rest[n]?

/-- the character `n` places further on, looked up in the text by its offset; `none` if adding up the offset stops the
program -/
def aheadSized (overflow : Overflow) (c : Cursor) (n : Nat) : Option (Option Char) :=
  (Size.add overflow c.offset n).map (c.source.text[·]?)

def classOf (c : Cursor) (ch : Char) : CharClass :=
  c.source.classifier ch

/-- the class of the next character; fails at the end -/
def nextClass (c : Cursor) : Except ReadError CharClass :=
  match c.next? with
  | some ch => .ok (c.classOf ch)
  | none => .error (c.failure .endOfInput)

/-- the class of the next character, `fallback` at the end -/
def nextClassOr (c : Cursor) (fallback : CharClass) : CharClass :=
  match c.next? with
  | some ch => c.classOf ch
  | none => fallback

/-- whether the characters to come begin with `t` -/
def sees (c : Cursor) (t : Text) : Bool :=
  t.isPrefixOf c.place.rest

/-! ## Moving -/

/-- the cursor after `taken` further characters, with `rest` to come -/
def advance (c : Cursor) (taken : Nat) (rest : Text) : Cursor :=
  { c with place := ⟨c.place.offset + taken, rest⟩ }

def toEnd (c : Cursor) : Cursor :=
  c.advance c.left []

def setMark (c : Cursor) : Cursor :=
  { c with mark := c.place }

/-- returns to the mark; the result is the offset that was left -/
def toMark (c : Cursor) : Nat × Cursor :=
  (c.offset, { c with place := c.mark })

/-- returns to the start of the text and marks it -/
def restart (c : Cursor) : Cursor :=
  { c with place := ⟨0, c.source.text⟩, mark := ⟨0, c.source.text⟩ }

end Cursor

end TaggedText
