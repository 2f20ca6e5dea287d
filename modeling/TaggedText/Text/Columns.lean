/-
Numbers and padded texts for listings in columns.
-/
import TaggedText.Text.Blank

namespace TaggedText.Text

def decimal (n : Nat) : Text :=
  Nat.toDigits 10 n

/-- `t` filled up with spaces on its right to at least `width` characters -/
def padRight (width : Nat) (t : Text) : Text :=
  t ++ List.replicate (width - t.length) ' '

/-- `t` filled up with spaces on its left to at least `width` characters -/
def padLeft (width : Nat) (t : Text) : Text :=
  List.replicate (width - t.length) ' ' ++ t

end TaggedText.Text
