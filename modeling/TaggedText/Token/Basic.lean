/-
Tokens: a kind, the exact text, and where it stands.
-/
import TaggedText.Location

namespace TaggedText

inductive TokenKind where
  /-- one character that belongs to no class -/
  | stray
  /-- the end of the text -/
  | eof
  /-- a run of whitespace and nothing else -/
  | whitespace
  /-- an opening, closing or self-closing tag, brackets included -/
  | tag
  /-- text between brackets -/
  | value
  /-- a bracket run that begins with a question mark -/
  | instructions
  /-- a comment, or another bracket run that begins with an exclamation mark -/
  | comment
deriving DecidableEq, Repr

def TokenKind.label : TokenKind → String
  | .stray => "None"
  | .eof => "Eof"
  | .whitespace => "Whitespace"
  | .tag => "Tag"
  | .value => "Value"
  | .instructions => "ProcessingInstructions"
  | .comment => "Comment"

structure Token where
  kind : TokenKind
  text : Text
  span : Span
deriving DecidableEq, Repr

namespace Token

/-- the bytes of one token in a buffer: eight for its kind, three times eight for its text, four times eight for its span -/
def bytes : Nat :=
  64

/-- the token that ends a stream -/
def eof (span : Span) : Token :=
  ⟨.eof, [], span⟩

def isEof (t : Token) : Bool :=
  t.kind == .eof

/-- whether the token means nothing to a document: comments, whitespace between tags, stray characters -/
def isFiller (t : Token) : Bool :=
  match t.kind with
  | .stray | .whitespace | .comment => true
  | .eof | .tag | .value | .instructions => false

end Token

end TaggedText
