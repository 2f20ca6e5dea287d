/-
Building a document from tokens.

A `Builder` holds the elements that are open, the innermost first, the root element once it is closed, and the
instructions. `Builder.step` takes one token; an element is given to the one around it when it closes, and becomes
the root when none is around it. `Builder.feed` takes tokens until the end token, the first error, or the end of the
list, and `Builder.result` tells the document or what is missing. Tokens after the end token are not looked at,
except to be counted among those that follow the root.

`Document.ofTokens` and `Document.ofText` build whole documents.
-/
import TaggedText.Document.Basic
import TaggedText.Element.Frame
import TaggedText.Document.Rules
import TaggedText.Document.Fault
import TaggedText.Tag.Read
import TaggedText.Token.Stream

namespace TaggedText

structure Builder where
  /-- the open elements, the innermost first -/
  stack : List Frame
  /-- how many elements are open -/
  depth : Nat
  /-- the root element, once it is closed -/
  root : Option Element
  /-- the instructions, once they are given -/
  instructions : Option Instructions
  /-- whether any element was opened -/
  started : Bool
  /-- what happened so far, the latest first -/
  events : List Event
  depth_eq : depth = stack.length

/-- the content without blanks around its text; a text that is all blank is nothing -/
def Content.trimmed : Content Element → Content Element
  | .text t => if Text.trim t = [] then .empty else .text (Text.trim t)
  | content => content

namespace Builder

/-- nothing is open and nothing given -/
def start : Builder :=
  ⟨[], 0, none, none, false, [], rfl⟩

/-! ## Opening and closing -/

/-- the element of a tag, open and holding nothing -/
def frameOf (tag : Tag) : Frame :=
  ⟨tag.name, tag.attributes, .empty⟩

/-- the limit on open elements, if one more would be too many -/
def limitReached? (rules : BuildRules) (b : Builder) : Option Nat :=
  rules.maxDepth.filter (· ≤ b.depth)

/-- the name of the innermost open element, if it holds a text and so can hold no child -/
def textHolder? : List Frame → Option Text
  | ⟨name, _, .text _⟩ :: _ => some name
  | _ => none

/-- the open elements, the innermost being one that holds children from now on -/
def expectChild : List Frame → List Frame
  | ⟨name, attributes, .empty⟩ :: below => ⟨name, attributes, .children []⟩ :: below
  | stack => stack

/-- the open elements, the innermost being given a child; the child is the root if none is open -/
def giveChild (child : Element) : List Frame → List Frame
  | [] => []
  | parent :: below => parent.addChild child :: below

theorem length_expectChild (stack : List Frame) : (expectChild stack).length = stack.length := by
  unfold expectChild
  split <;> rfl

theorem length_giveChild (child : Element) (stack : List Frame) : (giveChild child stack).length = stack.length := by
  cases stack <;> rfl

/-- the builder with the tag's element open around what comes -/
def push (b : Builder) (tag : Tag) : Builder :=
  { b with
    stack := frameOf tag :: expectChild b.stack
    depth := b.depth + 1
    started := true
    events := .opened tag.name b.depth :: b.events
    depth_eq := by rw [List.length_cons, length_expectChild, b.depth_eq] }

def openElement (rules : BuildRules) (b : Builder) (tag : Tag) : Except BuildFault Builder :=
  match b.limitReached? rules with
  | some limit => .error (.tooDeep limit)
  | none =>
    match textHolder? b.stack with
    | some name => .error (.mixedContent name)
    | none => .ok (b.push tag)

def finished (rules : BuildRules) (f : Frame) : Element :=
  if rules.trimText then { f.element with content := f.element.content.trimmed } else f.element

/-- the builder after the innermost element, now finished, was given to the one around it -/
def pop (b : Builder) (name : Text) (element : Element) (below : List Frame) (h : b.depth = below.length + 1) :
    Builder :=
  { b with
    stack := giveChild element below
    depth := b.depth - 1
    root := if below.isEmpty then some element else b.root
    events :=
      (if below.isEmpty then [.rootClosed element.name] else []) ++ .closed name (b.depth - 1) :: b.events
    depth_eq := by rw [length_giveChild, h, Nat.add_sub_cancel] }

/-- closes the innermost element, which has to have the name given -/
def closeElement (rules : BuildRules) (b : Builder) (name : Text) : Except BuildFault Builder :=
  match h : b.stack with
  | [] => .error (.strayClosing name)
  | top :: below =>
    if top.name = name then .ok (b.pop name (finished rules top) below (by rw [b.depth_eq, h, List.length_cons]))
    else .error (.wrongClosing top.name name b.depth)

/-! ## What tokens do -/

def giveInstructions (b : Builder) (tag : Tag) : Except BuildFault Builder :=
  if b.started then .error (.lateInstructions tag.name)
  else if b.instructions.isSome then .error (.repeatedInstructions tag.name)
  else .ok { b with instructions := some ⟨tag.name, tag.attributes⟩ }

/-- what is held with a piece of text after it, if it is no list of children -/
def extendText (t : Text) : Held → Option Held
  | .empty => some (.text t.reverse)
  | .text reversed => some (.text (t.reverse ++ reversed))
  | .children _ => none

/-- takes a piece of text; pieces that follow each other make one text -/
def addText (b : Builder) (t : Text) : Except BuildFault Builder :=
  if t = [] then .ok b
  else
    match h : b.stack with
    | [] => .error .looseText
    | top :: below =>
      match extendText t top.held with
      | some held =>
        .ok { b with
          stack := { top with held } :: below
          depth_eq := by rw [b.depth_eq, h, List.length_cons, List.length_cons] }
      | none => .error (.mixedContent top.name)

def addTag (rules : BuildRules) (b : Builder) (tag : Tag) : Except BuildFault Builder :=
  match tag.form with
  | .opening => b.openElement rules tag
  | .closing => b.closeElement rules tag.name
  | .selfClosing =>
    match b.openElement rules tag with
    | .error fault => .error fault
    | .ok b => b.closeElement rules tag.name
  | .instructions => b.giveInstructions tag

def addInstructions (b : Builder) (text : Text) : Except BuildFault Builder :=
  match Tag.read text with
  | .error e => .error (.tag e)
  | .ok tag =>
    if tag.form = .instructions then b.giveInstructions tag
    else .error (.tag (.malformed text .notInstructions))

/-- takes a token that stands before the end of the root element -/
def step (rules : BuildRules) (b : Builder) (t : Token) : Except BuildFault Builder :=
  match t.kind with
  | .tag =>
    match Tag.read t.text with
    | .error e => .error (.tag e)
    | .ok tag => b.addTag rules tag
  | .instructions => b.addInstructions t.text
  | .value => b.addText t.text
  | .stray | .whitespace | .comment | .eof => .ok b

def countSignificant (tokens : List Token) : Nat :=
  tokens.countP fun t => !t.isFiller && !t.isEof

/-- what is wrong when `t`, and `rest` after it, follow the root element -/
def trailingFault (t : Token) (rest : List Token) : BuildFault :=
  let trailing := .trailing (countSignificant (t :: rest))
  if t.kind = .tag then
    match Tag.read t.text with
    | .ok ⟨.opening, name, _⟩ => .secondRoot name
    | .ok ⟨.selfClosing, name, _⟩ => .secondRoot name
    | _ => trailing
  else trailing

/-- takes tokens until the end token, an error, or the end of the list; the result is the builder at that point, and
the span of the end token or the error -/
def feed (rules : BuildRules) (b : Builder) : List Token → Builder × Except BuildError (Option Span)
  | [] => (b, .ok none)
  | t :: rest =>
    if t.isEof then (b, .ok (some t.span))
    else if b.root.isSome then
      if t.isFiller then feed rules b rest else (b, .error ⟨trailingFault t rest, t.span.location⟩)
    else
      match b.step rules t with
      | .ok b => feed rules b rest
      | .error fault => (b, .error ⟨fault, t.span.location⟩)

/-- the names of the open elements, the outermost first -/
def openNames (b : Builder) : List Text :=
  (b.stack.map (·.name)).reverse

/-- the document, or what is missing at its end -/
def result (b : Builder) (stop : Span) : Except BuildError Document :=
  match b.root with
  | some root => .ok ⟨root, b.instructions.getD .none⟩
  | none =>
    if b.stack.isEmpty then .error ⟨.reading .endOfInput, stop.location⟩
    else .error ⟨.unclosed b.openNames.length b.openNames, stop.location⟩

/-- the span at which tokens without an end token end: that of the last one -/
def lastSpan (tokens : List Token) : Span :=
  match tokens.getLast? with
  | some t => t.span
  | none => .nowhere

end Builder

namespace Document

def ofTokens (rules : BuildRules) (tokens : List Token) : Logged (Except BuildError Document) :=
  match Builder.start.feed rules tokens with
  | (b, .ok stop) => ⟨b.result (stop.getD (Builder.lastSpan tokens)), b.events.reverse⟩
  | (b, .error e) => ⟨.error e, b.events.reverse⟩

/-- builds the document of what a text was split into -/
def ofSplit (rules : BuildRules) : Logged (Except ReadError (List Token)) → Logged (Except BuildError Document)
  | ⟨.error e, events⟩ => ⟨.error (.ofReadError e), events⟩
  | ⟨.ok tokens, events⟩ =>
    let built := ofTokens rules tokens
    ⟨built.value, events ++ built.events⟩

def ofText (rules : BuildRules) (t : Text) : Logged (Except BuildError Document) :=
  ofSplit rules t.tokens

/-- the document of a text, or the first thing wrong with it -/
def read (rules : BuildRules) (t : Text) : Except BuildError Document :=
  (ofText rules t).value

/-- builds the document of a text after making room for its tokens: for as many as the rules say, or for one for every
eight bytes; `none` if there can be no such room -/
def ofTextSized (rules : BuildRules) (t : Text) : Option (Logged (Except BuildError Document)) :=
  (t.tokensSized (rules.tokenReserve.getD (t.bytes / 8))).map (ofSplit rules)

end Document

end TaggedText
