/-
Classes of characters.

A `Classifier` puts every character into one of a closed set of classes. `CharClass.classify` is the classifier of
tagged text: brackets and punctuation have classes of their own, the ten ASCII digits are digits, blanks are
whitespace, control characters that are not blank belong to no class, and everything else counts as a letter.
-/
import TaggedText.Text.Blank

namespace TaggedText

inductive CharClass where
  | whitespace
  | letter
  | digit
  | angleOpen
  | angleClose
  | braceOpen
  | braceClose
  | bracketOpen
  | bracketClose
  | slash
  | backslash
  | equals
  | quote
  | question
  | exclamation
  | colon
  | dot
  | minus
  /-- stands for the end of a text; no character of tagged text has it -/
  | eof
  /-- a character that belongs to no class -/
  | unknown
deriving DecidableEq, Repr

abbrev Classifier := Char → CharClass

/-- the classifier of tagged text -/
def CharClass.classify : Classifier
  | '<' => .angleOpen
  | '>' => .angleClose
  | '\x7b' => .braceOpen
  | '\x7d' => .braceClose
  | '[' => .bracketOpen
  | ']' => .bracketClose
  | '/' => .slash
  | '\\' => .backslash
  | '=' => .equals
  | '"' => .quote
  | '\'' => .quote
  | '?' => .question
  | '!' => .exclamation
  | ':' => .colon
  | '.' => .dot
  | '-' => .minus
  | c =>
    if c.isDigit then .digit
    else if Text.isBlank c then .whitespace
    else if Text.isControl c then .unknown
    else .letter

def CharClass.isWhitespace (c : Char) : Bool :=
  classify c == .whitespace

end TaggedText
