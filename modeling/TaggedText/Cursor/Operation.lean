/-
The operations of a cursor as data.

`Cursor.perform` carries out one operation and says what it answered; `Cursor.performAll` carries out a list of
them, so that a statement about every use of a cursor is a statement about every list. `Cursor.performSized` does the
same with sizes for numbers, as long as nothing that it adds stops the program.
-/
import TaggedText.Cursor.Take

namespace TaggedText.Cursor

inductive Operation where
  | next?
  | ahead (n : Nat)
  | nextClass
  | nextClassOr (fallback : CharClass)
  | classOf (ch : Char)
  | sees (t : Text)
  | takeChar (keepBlanks : Bool)
  | dropBlanks
  | setMark
  | toMark
  | restart
  | takeUntil (delimiter : Char) (consume : Bool)
  | takeUntilUnescaped (delimiter : Char)
  | takeIn (set : List CharClass)
  | takeNotIn (set : List CharClass)
  | takeBalanced (opening closing : CharClass) (includeDelimiters : Bool)
  | offset
  | left
  | atEnd
  | locate (offset : Nat)
  | spanSince (start : Nat)
  | failure (fault : ReadFault)
  | failureAt (offset : Nat) (fault : ReadFault)
deriving DecidableEq, Repr

inductive Answer where
  | nothing
  | char (c : Option Char)
  | charClass (l : CharClass)
  | flag (b : Bool)
  | count (n : Nat)
  | text (t : Text)
  | location (l : Location)
  | span (s : Span)
  | error (e : ReadError)
deriving DecidableEq, Repr

def Answer.ofExcept {α : Type} (answer : α → Answer) : Except ReadError α → Answer
  | .ok a => answer a
  | .error e => .error e

def perform (c : Cursor) : Operation → Answer × Cursor
  | .next? => (.char c.next?, c)
  | .ahead n => (.char (c.ahead n), c)
  | .nextClass => (.ofExcept .charClass c.nextClass, c)
  | .nextClassOr fallback => (.charClass (c.nextClassOr fallback), c)
  | .classOf ch => (.charClass (c.classOf ch), c)
  | .sees t => (.flag (c.sees t), c)
  | .takeChar keepBlanks =>
    let (r, c) := c.takeChar keepBlanks
    (.ofExcept (.char ∘ some) r, c)
  | .dropBlanks =>
    let (n, c) := c.dropBlanks
    (.count n, c)
  | .setMark => (.nothing, c.setMark)
  | .toMark =>
    let (n, c) := c.toMark
    (.count n, c)
  | .restart => (.nothing, c.restart)
  | .takeUntil delimiter consume =>
    let (r, c) := c.takeUntil delimiter consume
    (.ofExcept .text r, c)
  | .takeUntilUnescaped delimiter =>
    let (r, c) := c.takeUntilUnescaped delimiter
    (.ofExcept .text r, c)
  | .takeIn set =>
    let (t, c) := c.takeIn set
    (.text t, c)
  | .takeNotIn set =>
    let (t, c) := c.takeNotIn set
    (.text t, c)
  | .takeBalanced opening closing includeDelimiters =>
    let (r, c) := c.takeBalanced opening closing includeDelimiters
    (.ofExcept .text r, c)
  | .offset => (.count c.offset, c)
  | .left => (.count c.left, c)
  | .atEnd => (.flag c.atEnd, c)
  | .locate offset => (.location (c.locate offset), c)
  | .spanSince start => (.span (c.spanSince start), c)
  | .failure fault => (.error (c.failure fault), c)
  | .failureAt offset fault => (.error (c.failureAt offset fault), c)

/-- carries out one operation on sizes; `none` if an addition stops the program -/
def performSized (overflow : Overflow) (c : Cursor) : Operation → Option (Answer × Cursor)
  | .ahead n => (c.aheadSized overflow n).map fun ch => (.char ch, c)
  | .locate offset => (c.locateSized overflow offset).map fun l => (.location l, c)
  | .spanSince start => (c.locateSized overflow start).map fun l => (.span ⟨start, c.offset, l⟩, c)
  | .failureAt offset fault => (c.locateSized overflow offset).map fun l => (.error ⟨fault, l⟩, c)
  | operation => some (c.perform operation)

/-- whether the sums that an operation needs at a cursor are sizes -/
def Operation.Fits (c : Cursor) : Operation → Prop
  | .ahead n => c.offset + n < Size.limit
  | .locate p | .spanSince p | .failureAt p _ => p + 1 < Size.limit
  | _ => True

/-- carries out the operations in order; the result is the cursor after the last one -/
def performAll (c : Cursor) (operations : List Operation) : Cursor :=
  operations.foldl (fun c operation => (c.perform operation).2) c

end TaggedText.Cursor
