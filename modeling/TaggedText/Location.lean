/-
Places in a text: line and column of an offset, and spans of characters.

Lines and columns count from 1, offsets count characters from 0. A `LineTable` lists the offsets at which the lines
of a text begin, so that `LineTable.locate` finds the line of an offset by bisection. Offsets beyond the end count
as standing on the last line. `LineTable.locateSized` counts the columns in sizes: the greatest size has none behind it.
-/
import TaggedText.Size

namespace TaggedText

/-- a line and a column, both from 1 -/
structure Location where
  line : Nat
  column : Nat
deriving DecidableEq, Repr

/-- the characters from `start` up to but not including `stop`, and the location of `start` -/
structure Span where
  start : Nat
  stop : Nat
  location : Location
deriving DecidableEq, Repr

/-- the span that stands for no place at all -/
def Span.nowhere : Span := ⟨0, 0, ⟨0, 0⟩⟩

/-- the offsets at which the lines of a text begin, ascending; the first is 0 -/
structure LineTable where
  starts : Array Nat
deriving DecidableEq, Repr

namespace LineTable

/-- adds the line starts of `t`, whose first character has offset `offset` -/
def extend (starts : Array Nat) (offset : Nat) : Text → Array Nat
  | [] => starts
  | c :: t => extend (if c = '\n' then starts.push (offset + 1) else starts) (offset + 1) t

/-- the table of a text: 0 and the offset after each newline -/
def ofText (t : Text) : LineTable :=
  ⟨extend #[0] 0 t⟩

/-- in an ascending array, how many entries are at most `p`, given that the count lies between `lo` and `hi` -/
def countUpTo (a : Array Nat) (p lo hi : Nat) : Nat :=
  if _h : lo < hi then
    let mid := (lo + hi) / 2
    if a.getD mid 0 ≤ p then countUpTo a p (mid + 1) hi else countUpTo a p lo mid
  else lo
termination_by hi - lo

def locate (table : LineTable) (p : Nat) : Location :=
  let line := countUpTo table.starts p 0 table.starts.size
  ⟨line, p - table.starts.getD (line - 1) 0 + 1⟩

/-- the line and column of offset `p`, counted in sizes; `none` if the count stops the program -/
def locateSized (overflow : Overflow) (table : LineTable) (p : Nat) : Option Location :=
  let line := countUpTo table.starts p 0 table.starts.size
  (Size.add overflow (p - table.starts.getD (line - 1) 0) 1).map (⟨line, ·⟩)

theorem locateSized_of_lt (overflow : Overflow) (table : LineTable) {p : Nat} (h : p + 1 < Size.limit) :
    table.locateSized overflow p = some (table.locate p) := by
  have hcolumn : p - table.starts.getD (countUpTo table.starts p 0 table.starts.size - 1) 0 + 1 < Size.limit :=
    Nat.lt_of_le_of_lt (Nat.succ_le_succ (Nat.sub_le _ _)) h
  simp only [locateSized, Size.add_of_lt overflow hcolumn, Option.map_some, locate]

end LineTable

end TaggedText
