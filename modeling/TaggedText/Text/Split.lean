/-
Splitting texts.

`Text.split` cuts a text at every character of a kind. The lemmas say that what is left after a run is no longer
than the whole.
-/
import TaggedText.Text.Blank

namespace TaggedText.Text

/-- puts a character in front of the first of several texts -/
def consFirst (c : Char) : List Text → List Text
  | [] => [[c]]
  | t :: ts => (c :: t) :: ts

/-- the parts of a text between the characters that satisfy `p`; there is always at least one part -/
def split (p : Char → Bool) (t : Text) : List Text :=
  t.foldr (fun c ts => if p c then [] :: ts else consFirst c ts) [[]]

/-- dropping a run from the front makes a text no longer -/
theorem length_dropWhile_le (p : Char → Bool) (t : Text) : (t.dropWhile p).length ≤ t.length :=
  (List.dropWhile_suffix p).length_le

/-- what follows the first character after a run is shorter than the text -/
theorem length_lt_of_dropWhile {p : Char → Bool} {t rest : Text} {c : Char} (h : t.dropWhile p = c :: rest) :
    rest.length < t.length := by
  have hle := length_dropWhile_le p t
  rw [h, List.length_cons] at hle
  exact hle

end TaggedText.Text
