/-
Tags and what can be wrong with their text.
-/
import TaggedText.Attributes

namespace TaggedText

/-- what a tag does to the nesting of elements -/
inductive TagForm where
  /-- begins an element: `<name ...>` -/
  | opening
  /-- ends an element: `</name>` -/
  | closing
  /-- is an element of its own: `<name .../>` -/
  | selfClosing
  /-- says something about the document: `<?target ...?>` -/
  | instructions
deriving DecidableEq, Repr

/-- a tag in its parts -/
structure Tag where
  form : TagForm
  name : Text
  attributes : Attributes
deriving DecidableEq, Repr

inductive TagFault where
  | noOpeningBracket
  | declaration
  | badName
  | instructionsEnd
  | straySlash
  | noBracketAfterSlash
  | strayQuestion
  | noBracketAfterQuestion
  | attributeInClosing
  | unseparated
  | badKey
  | noValue
  | unquotedValue
  | unterminatedValue
  | noClosingBracket
  | unexpectedCharacter
  | contentAfterEnd
  | notInstructions
deriving DecidableEq, Repr

def TagFault.message : TagFault → String
  | .noOpeningBracket => "expected '<'"
  | .declaration => "declarations are not tags"
  | .badName => "missing or invalid name"
  | .instructionsEnd => "processing instructions must end with '?>'"
  | .straySlash => "unexpected '/'"
  | .noBracketAfterSlash => "expected '>' after '/'"
  | .strayQuestion => "unexpected '?'"
  | .noBracketAfterQuestion => "expected '>' after '?'"
  | .attributeInClosing => "closing tags cannot have attributes"
  | .unseparated => "attributes must be separated by whitespace"
  | .badKey => "invalid attribute name"
  | .noValue => "attribute without '=\"value\"'"
  | .unquotedValue => "attribute value must be quoted"
  | .unterminatedValue => "unterminated attribute value"
  | .noClosingBracket => "missing '>'"
  | .unexpectedCharacter => "unexpected character"
  | .contentAfterEnd => "content after '>'"
  | .notInstructions => "expected processing instructions"

/-- why a text could not be read as a tag -/
inductive TagError where
  /-- the text `tag` breaks the form of a tag -/
  | malformed (tag : Text) (fault : TagFault)
  /-- the key `key` occurs twice in the tag of `element` -/
  | duplicateAttribute (element key : Text)
deriving DecidableEq, Repr

def TagError.message : TagError → String
  | .malformed tag fault => s!"malformed tag `{String.ofList tag}`: {fault.message}"
  | .duplicateAttribute element key =>
    s!"duplicate attribute `{String.ofList key}` on `{String.ofList element}`"

end TaggedText
