/-
Writing documents as text.

A document is written in document order: the instructions if there are any, then every element between its tags. A
`Layout` puts everything on one line, or each tag on a line of its own, indented by its depth; an element that holds
text stays on one line with it. Values go between double quotes, or single ones if there is a double quote in them.
A value with both quotes, and a text with an angle bracket, cannot be written: the first of these in document order
is the error.

`Document.writeSized` is stopped where no text has room for the spaces before a tag.
-/
import TaggedText.Document.Basic
import TaggedText.Size

namespace TaggedText

/-- how the tags of a document are laid out -/
inductive Layout where
  /-- everything on one line -/
  | compact
  /-- one tag a line, after `width` spaces for each element around it -/
  | indented (width : Nat)
deriving DecidableEq, Repr

inductive Unwritable where
  /-- the value under `key` contains both quotes -/
  | bothQuotes (element key : Text)
  /-- the text of an element contains an angle bracket -/
  | bracketInText (element : Text)
deriving DecidableEq, Repr

def Unwritable.message : Unwritable → String
  | .bothQuotes element key =>
    s!"attribute `{String.ofList key}` on `{String.ofList element}` contains both quote characters"
  | .bracketInText element => s!"text of `{String.ofList element}` contains '<' or '>'"

/-- why a program writes no text -/
inductive Halt where
  /-- no text has room for the spaces before a tag, which stops the program -/
  | tooWide
  /-- the document cannot be written -/
  | offence (e : Unwritable)
deriving DecidableEq, Repr

namespace Layout

/-- two spaces for each element around a tag -/
def default : Layout :=
  .indented 2

/-- what stands before a tag with `depth` elements around it -/
def indent : Layout → Nat → Text
  | .compact, _ => []
  | .indented width, depth => List.replicate (width * depth) ' '

/-- whether a text has room for the spaces before a tag with `depth` elements around it. A product that is no size is
never come by: of the elements around such a tag, one on the way down has no room with a product that is a size -/
def hasRoom : Layout → Nat → Bool
  | .compact, _ => true
  | .indented width, depth => width * depth ≤ Size.maxBytes

def newline : Layout → Text
  | .compact => []
  | .indented _ => ['\n']

end Layout

namespace Attributes

/-- the quote for a value: double if it can be, single if it must be, and none if neither will do -/
def quoteFor (value : Text) : Option Char :=
  if !value.contains '"' then some '"'
  else if !value.contains '\'' then some '\''
  else none

/-- one attribute as it stands in the tag of `element` -/
def writeEntry (element : Text) (entry : Text × Text) : Except Unwritable Text :=
  match quoteFor entry.2 with
  | some quote => .ok (' ' :: entry.1 ++ '=' :: quote :: entry.2 ++ [quote])
  | none => .error (.bothQuotes element entry.1)

def write (element : Text) (a : Attributes) : Except Unwritable Text :=
  match a.entries.mapM (writeEntry element) with
  | .error e => .error e
  | .ok entries => .ok entries.flatten

end Attributes

namespace Instructions

/-- the instructions on a line of their own, nothing if there are none -/
def write (layout : Layout) (i : Instructions) : Except Unwritable Text :=
  if i.isEmpty then .ok []
  else
    match i.attributes.write i.target with
    | .error e => .error e
    | .ok attributes => .ok ('<' :: '?' :: i.target ++ attributes ++ ['?', '>'] ++ layout.newline)

end Instructions

namespace Element

/-- whether a text contains an angle bracket -/
def hasBracket (t : Text) : Bool :=
  t.any fun c => c == '<' || c == '>'

def closingTag (e : Element) : Text :=
  '<' :: '/' :: e.name ++ ['>']

/-- what follows the attributes of an element, up to the end of the line -/
def writeContent (layout : Layout) (e : Element) : Except Unwritable Text :=
  match e.content with
  | .empty => .ok ('/' :: '>' :: layout.newline)
  | .text t =>
    if hasBracket t then .error (.bracketInText e.name)
    else .ok ('>' :: t ++ e.closingTag ++ layout.newline)
  | .children _ => .ok ('>' :: layout.newline)

/-- the line that begins an element -/
def writeStart (layout : Layout) (depth : Nat) (e : Element) : Except Unwritable Text :=
  match e.attributes.write e.name with
  | .error error => .error error
  | .ok attributes =>
    match e.writeContent layout with
    | .error error => .error error
    | .ok content => .ok (layout.indent depth ++ '<' :: e.name ++ attributes ++ content)

/-- the line that ends an element, which only one with a list of children has -/
def writeStop (layout : Layout) (depth : Nat) (e : Element) : Text :=
  match e.content with
  | .children _ => layout.indent depth ++ e.closingTag ++ layout.newline
  | _ => []

/-- what is written at one moment of the walk around a tree -/
def writeVisit (layout : Layout) : Visit → Except Unwritable Text
  | .enter depth e => e.writeStart layout depth
  | .leave depth e => .ok (e.writeStop layout depth)

/-- what is written at one moment of the walk, if there is room for it -/
def writeVisitSized (layout : Layout) (v : Visit) : Except Halt Text :=
  if layout.hasRoom v.depth then (writeVisit layout v).mapError .offence else .error .tooWide

def write (layout : Layout) (e : Element) : Except Unwritable Text :=
  match e.tour.mapM (writeVisit layout) with
  | .error error => .error error
  | .ok lines => .ok lines.flatten

/-- a tree as text, if there is room for it -/
def writeSized (layout : Layout) (e : Element) : Except Halt Text :=
  match e.tour.mapM (writeVisitSized layout) with
  | .error halt => .error halt
  | .ok lines => .ok lines.flatten

end Element

def Document.write (layout : Layout) (d : Document) : Except Unwritable Text :=
  match d.instructions.write layout with
  | .error e => .error e
  | .ok head =>
    match d.root.write layout with
    | .error e => .error e
    | .ok body => .ok (head ++ body)

def Document.writeSized (layout : Layout) (d : Document) : Except Halt Text :=
  match d.instructions.write layout with
  | .error e => .error (.offence e)
  | .ok head =>
    match d.root.writeSized layout with
    | .error halt => .error halt
    | .ok body => .ok (head ++ body)

end TaggedText
