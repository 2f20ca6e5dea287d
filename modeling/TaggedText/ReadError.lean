/-
Failures of reading characters: a cause and the location it is reported at.
-/
import TaggedText.Location

namespace TaggedText

inductive ReadFault where
  /-- a character was needed and none was left -/
  | endOfInput
  /-- a delimited run did not end; `depth` delimiters were open -/
  | unbalanced (depth : Nat)
  /-- a closing bracket with no opening one before it -/
  | unmatchedClose
  /-- the character `found` stands inside the bracket run that begins with `tag` -/
  | bracketInTag (tag : Text) (found : Char)
deriving DecidableEq, Repr

def ReadFault.message : ReadFault → String
  | .endOfInput => "unexpected end of input"
  | .unbalanced depth => s!"unbalanced delimiters (input ended at nesting depth {depth})"
  | .unmatchedClose => "'>' without a matching '<'"
  | .bracketInTag tag found => s!"illegal character '{found}' inside tag `{String.ofList tag}`"

/-- a fault and the line and column it is reported at -/
structure ReadError where
  fault : ReadFault
  location : Location
deriving DecidableEq, Repr

def ReadError.message (e : ReadError) : String :=
  s!"Lexer error at line {e.location.line}, column {e.location.column}: {e.fault.message}"

end TaggedText
