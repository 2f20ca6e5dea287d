/-
Names of elements, attributes and instructions.

A name begins with a letter or an underscore and goes on with letters, numbers, underscores, hyphens and the two
scope separators, colon and full stop. `Name.parts` splits a name at its separators, `Name.unscoped` is what follows
the last one.
-/
import TaggedText.Text.Letter
import TaggedText.Text.Split

namespace TaggedText.Name

def isSeparator (c : Char) : Bool :=
  c == ':' || c == '.'

def isStart (c : Char) : Bool :=
  c == '_' || Text.isLetter c

def isPart (c : Char) : Bool :=
  c == '_' || c == '-' || isSeparator c || Text.isLetterOrNumber c

def isName : Text → Bool
  | [] => false
  | c :: t => isStart c && t.all isPart

/-- the name split at its separators; there is always at least one part -/
def parts (name : Text) : List Text :=
  Text.split isSeparator name

/-- what follows the last separator; the whole name if there is none -/
def unscoped (name : Text) : Text :=
  (name.reverse.takeWhile (!isSeparator ·)).reverse

end TaggedText.Name
