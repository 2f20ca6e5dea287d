/-
Why a text, or a list of tokens, is not a document.
-/
import TaggedText.ReadError
import TaggedText.Tag.Basic

namespace TaggedText

inductive BuildFault where
  /-- the text could not be split into tokens, or there was no element in it -/
  | reading (fault : ReadFault)
  /-- a tag could not be read -/
  | tag (error : TagError)
  /-- instructions follow other instructions -/
  | repeatedInstructions (target : Text)
  /-- instructions follow the start of the root element -/
  | lateInstructions (target : Text)
  /-- a text meets a child element, or a child element a text -/
  | mixedContent (element : Text)
  /-- a closing tag names another element than the innermost open one -/
  | wrongClosing (expected found : Text) (depth : Nat)
  /-- a closing tag stands where no element is open -/
  | strayClosing (name : Text)
  /-- tokens that mean something follow the root element -/
  | trailing (remaining : Nat)
  /-- a second element follows the root element -/
  | secondRoot (name : Text)
  /-- so many elements are still open at the end; the outermost is named first -/
  | unclosed (count : Nat) (names : List Text)
  /-- a text stands outside the root element -/
  | looseText
  /-- an element would be opened below the lowest level allowed -/
  | tooDeep (limit : Nat)
deriving DecidableEq, Repr

def BuildFault.listed (names : List Text) : String :=
  String.ofList (List.intercalate [',', ' '] names)

def BuildFault.message : BuildFault → String
  | .reading fault => fault.message
  | .tag error => error.message
  | .repeatedInstructions target => s!"duplicate processing instructions `{String.ofList target}`"
  | .lateInstructions target =>
    s!"processing instructions `{String.ofList target}` must come before the root element"
  | .mixedContent element => s!"element `{String.ofList element}` cannot mix text and child elements"
  | .wrongClosing expected found depth =>
    s!"closing tag `{String.ofList found}` does not match open element `{String.ofList expected}` (depth {depth})"
  | .strayClosing name => s!"closing tag `{String.ofList name}` has no open element"
  | .trailing remaining => s!"{remaining} unexpected token(s) after the root element"
  | .secondRoot name =>
    s!"element `{String.ofList name}` follows the root element; a document has exactly one root"
  | .unclosed count names =>
    s!"{count} unclosed tag(s): {BuildFault.listed names}"
  | .looseText => "text outside the root element"
  | .tooDeep limit => s!"nesting depth exceeds the limit of {limit}"

/-- a fault and the line and column it is reported at -/
structure BuildError where
  fault : BuildFault
  location : Location
deriving DecidableEq, Repr

namespace BuildError

/-- the error of a text that could not be split into tokens -/
def ofReadError (e : ReadError) : BuildError :=
  ⟨.reading e.fault, e.location⟩

def message (e : BuildError) : String :=
  s!"Parse error at line {e.location.line}, column {e.location.column}: {e.fault.message}"

end BuildError

end TaggedText
