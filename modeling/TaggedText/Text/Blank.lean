/-
Text, its blank characters and its control characters.

A text is a list of Unicode scalar values. Blank characters are those of the property White_Space, control
characters those of the general category Cc (Unicode 17). `trim` drops the blanks at both ends.
-/
import TaggedText.Text.Intervals

namespace TaggedText

abbrev Text := List Char

namespace Text

/-- the code points of the property White_Space -/
def blanks : Intervals :=
  [(0x9, 0xD), (0x20, 0x20), (0x85, 0x85), (0xA0, 0xA0), (0x1680, 0x1680), (0x2000, 0x200A),
   (0x2028, 0x2029), (0x202F, 0x202F), (0x205F, 0x205F), (0x3000, 0x3000)]

/-- the code points of the general category Cc -/
def controls : Intervals :=
  [(0x0, 0x1F), (0x7F, 0x9F)]

/-- whether `c` is a blank: a space, a tab, a line end or another White_Space character -/
def isBlank (c : Char) : Bool :=
  blanks.covers c.toNat

def isControl (c : Char) : Bool :=
  controls.covers c.toNat

/-- the text without the blanks at its two ends -/
def trim (t : Text) : Text :=
  ((t.dropWhile isBlank).reverse.dropWhile isBlank).reverse

end Text

end TaggedText
