/-
Reads of a cursor.

Each read takes a stretch of the text and moves the cursor after it: a run of characters of given classes, the
characters up to a delimiter, those up to a delimiter that no backslash escapes, or a balanced run between two
delimiter classes.
-/
import TaggedText.Cursor

namespace TaggedText

namespace Text

/-- splits before the first `delimiter` that is not escaped; `escaped` says whether a backslash stands before the
text, and `before` holds what was passed already, last character first -/
def splitUnescaped (delimiter : Char) (escaped : Bool) (before : Text) : Text → Option (Text × Text)
  | [] => none
  | c :: t =>
    if escaped then splitUnescaped delimiter false (c :: before) t
    else if c = '\\' then splitUnescaped delimiter true (c :: before) t
    else if c = delimiter then some (before.reverse, c :: t)
    else splitUnescaped delimiter false (c :: before) t

/-- splits after the closing delimiter that brings the nesting depth back to zero, or tells the depth at the end;
`depth` delimiters are open, and `before` holds what was passed already, last character first -/
def splitBalanced (classifier : Classifier) (opening closing : CharClass) (depth : Nat) (before : Text) :
    Text → Except Nat (Text × Text)
  | [] => .error depth
  | c :: t =>
    if classifier c = closing ∧ 0 < depth then
      if depth = 1 then .ok ((c :: before).reverse, t)
      else splitBalanced classifier opening closing (depth - 1) (c :: before) t
    else if classifier c = opening then splitBalanced classifier opening closing (depth + 1) (c :: before) t
    else splitBalanced classifier opening closing depth (c :: before) t

end Text

namespace Cursor

/-- reads the longest run of characters whose classes satisfy `p` -/
def takeRun (c : Cursor) (p : CharClass → Bool) : Text × Cursor :=
  let run := c.place.rest.takeWhile fun ch => p (c.classOf ch)
  (run, c.advance run.length (c.place.rest.dropWhile fun ch => p (c.classOf ch)))

/-- reads the longest run of characters whose classes are all in `set` -/
def takeIn (c : Cursor) (set : List CharClass) : Text × Cursor :=
  c.takeRun (set.contains ·)

/-- reads the longest run of characters whose classes are all outside `set` -/
def takeNotIn (c : Cursor) (set : List CharClass) : Text × Cursor :=
  c.takeRun (!set.contains ·)

/-- passes over a run of whitespace; the result is its length -/
def dropBlanks (c : Cursor) : Nat × Cursor :=
  let (run, c) := c.takeRun (· == .whitespace)
  (run.length, c)

/-- marks the cursor's place, then reads one character; unless `keepBlanks`, whitespace before it is passed
over, also when no character follows it -/
def takeChar (c : Cursor) (keepBlanks : Bool) : Except ReadError Char × Cursor :=
  let marked := c.setMark
  let c := if keepBlanks then marked else marked.dropBlanks.2
  match c.place.rest with
  | [] => (.error (c.failure .endOfInput), c)
  | ch :: rest => (.ok ch, c.advance 1 rest)

/-- reads up to `delimiter`, which is passed over if `consume` and is never part of the result -/
def takeUntil (c : Cursor) (delimiter : Char) (consume : Bool) : Except ReadError Text × Cursor :=
  let run := c.place.rest.takeWhile (· != delimiter)
  match c.place.rest.dropWhile (· != delimiter) with
  | [] => (.error (c.toEnd.failure .endOfInput), c.toEnd)
  | ch :: rest =>
    (.ok run, if consume then c.advance (run.length + 1) rest else c.advance run.length (ch :: rest))

/-- reads up to the first `delimiter` that no backslash escapes, and passes over it; escapes stay in the result as
they are written -/
def takeUntilUnescaped (c : Cursor) (delimiter : Char) : Except ReadError Text × Cursor :=
  match Text.splitUnescaped delimiter false [] c.place.rest with
  | some (run, rest) => (.ok run, c.advance (run.length + 1) rest.tail)
  | none => (.error (c.toEnd.failure .endOfInput), c.toEnd)

/-- reads from a delimiter of class `opening` to the one of class `closing` that brings the nesting depth back to
zero; when the classes are equal the run ends at their next occurrence. If the text to come does not begin with
`opening`, the read fails where it stands -/
def takeBalanced (c : Cursor) (opening closing : CharClass) (includeDelimiters : Bool) :
    Except ReadError Text × Cursor :=
  if c.nextClassOr .eof ≠ opening then (.error (c.failure (.unbalanced 0)), c)
  else
    match Text.splitBalanced c.source.classifier opening closing 0 [] c.place.rest with
    | .ok (run, rest) =>
      (.ok (if includeDelimiters then run else run.tail.dropLast), c.advance run.length rest)
    | .error depth => (.error (c.failure (.unbalanced depth)), c.toEnd)

end Cursor

end TaggedText
