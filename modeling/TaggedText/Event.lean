/-
What happens while a text is read, for the log.

Reading emits events in the order in which things happen, also when it fails in the end. `Logged` is a result
together with the events on the way to it.
-/
import TaggedText.Token.Basic
import TaggedText.Text.Quoted

namespace TaggedText

inductive Event where
  /-- a token of this kind was found at this offset -/
  | token (kind : TokenKind) (start : Nat)
  /-- the whole text was split into so many tokens -/
  | tokenized (count : Nat)
  /-- an element was opened inside `depth` others -/
  | opened (name : Text) (depth : Nat)
  /-- an element was closed inside `depth` others -/
  | closed (name : Text) (depth : Nat)
  /-- the outermost element was closed -/
  | rootClosed (name : Text)
  /-- the file at `path` holds a document with so many elements -/
  | parsed (path : Text) (elements : Nat)
deriving DecidableEq, Repr

/-- how much an event matters, from the least -/
inductive Level where
  | trace
  | debug
  | info
  | warn
  | error
deriving DecidableEq, Repr

namespace Level

/-- the place of a level, the most important first -/
def rank : Level → Nat
  | .error => 1
  | .warn => 2
  | .info => 3
  | .debug => 4
  | .trace => 5

def label : Level → String
  | .error => "ERROR"
  | .warn => "WARN"
  | .info => "INFO"
  | .debug => "DEBUG"
  | .trace => "TRACE"

end Level

namespace Event

def level : Event → Level
  | .token .. | .opened .. | .closed .. => .trace
  | .tokenized .. | .rootClosed .. | .parsed .. => .debug

/-- the part of the program that reports the event -/
def origin : Event → String
  | .token .. | .tokenized .. => "markup_lexer::tokenizer"
  | .opened .. | .closed .. | .rootClosed .. => "markup_parser::parser"
  | .parsed .. => "markup"

def message : Event → String
  | .token kind start => s!"token kind={kind.label} start={start}"
  | .tokenized count => s!"tokenized input count={count}"
  | .opened name depth => s!"open element name={String.ofList name} depth={depth}"
  | .closed name depth => s!"close element name={String.ofList (Text.quoted name)} depth={depth}"
  | .rootClosed name => s!"root element closed root={String.ofList name}"
  | .parsed path elements => s!"parsed document path={String.ofList (Text.quoted path)} elements={elements}"

def line (e : Event) : String :=
  s!"{e.level.label} {e.origin}: {e.message}"

end Event

/-- a result and the events on the way to it, oldest first -/
structure Logged (α : Type) where
  value : α
  events : List Event

end TaggedText
