/-
Elements: a name, attributes, and either nothing, a text, or child elements. Text and child elements never mix.
-/
import TaggedText.Attributes
import TaggedText.Name

namespace TaggedText

/-- what an element holds, its children being of type `α` -/
inductive Content (α : Type) where
  | empty
  | text (t : Text)
  | children (cs : List α)

/-- a node of a document tree -/
structure Element where
  name : Text
  attributes : Attributes
  content : Content Element

namespace Element

/-- the element `name` without attributes and content -/
def leaf (name : Text) : Element :=
  ⟨name, .empty, .empty⟩

def setAttribute (e : Element) (key value : Text) : Element :=
  { e with attributes := e.attributes.insert key value }

def setText (e : Element) (t : Text) : Element :=
  { e with content := .text t }

/-- the child elements; none unless the content is a list of children -/
def children (e : Element) : List Element :=
  match e.content with
  | .children cs => cs
  | _ => []

/-- the element with one more child; a text is given up -/
def addChild (e child : Element) : Element :=
  { e with content := .children (e.children ++ [child]) }

def text? (e : Element) : Option Text :=
  match e.content with
  | .text t => some t
  | _ => none

/-- whether the element holds anything: a text or a list of children, though it be empty -/
def hasContent (e : Element) : Bool :=
  match e.content with
  | .empty => false
  | _ => true

def holdsText (e : Element) : Bool :=
  match e.content with
  | .text _ => true
  | _ => false

def holdsChildren (e : Element) : Bool :=
  match e.content with
  | .children _ => true
  | _ => false

def attribute? (e : Element) (key : Text) : Option Text :=
  e.attributes.get? key

/-- the first child of the given name -/
def child? (e : Element) (name : Text) : Option Element :=
  e.children.find? (·.name == name)

/-- the place of the first child of the given name among the children -/
def childIndex? (e : Element) (name : Text) : Option Nat :=
  e.children.findIdx? (·.name == name)

end Element

end TaggedText
