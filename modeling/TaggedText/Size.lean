/-
Sizes.

Offsets, lengths and widths are sizes, numbers of 64 bits. What becomes of an addition whose result is no size is a
choice made where a program is built (`Overflow`): the program is stopped, or the result is reduced to a size. No
buffer has more than `Size.maxBytes` bytes, which is half as many as there are sizes; a program that asks for a larger
one is stopped. Memory that runs out sooner is not told of.
-/
import TaggedText.Text.Blank

namespace TaggedText

/-- what an addition does whose result is no size -/
inductive Overflow where
  /-- it stops the program -/
  | stops
  /-- it drops the bits that are too many -/
  | wraps
deriving DecidableEq, Repr

namespace Size

/-- the least number that is too large for a size -/
def limit : Nat :=
  18446744073709551616

/-- the most bytes that a buffer can have -/
def maxBytes : Nat :=
  9223372036854775807

/-- the sum of two sizes; `none` if the addition stops the program -/
def add (overflow : Overflow) (a b : Nat) : Option Nat :=
  if a + b < limit then some (a + b)
  else
    match overflow with
    | .stops => none
    | .wraps => some ((a + b) % limit)

theorem add_of_lt {a b : Nat} (overflow : Overflow) (h : a + b < limit) : add overflow a b = some (a + b) :=
  if_pos h

end Size

/-- the length in UTF-8 -/
def Text.bytes : Text → Nat
  | [] => 0
  | c :: t => c.utf8Size + bytes t

end TaggedText
