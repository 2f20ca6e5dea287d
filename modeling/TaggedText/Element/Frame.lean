/-
Elements under construction.

A `Frame` holds what is known of an element that has not come to its end. Text and children arrive at the end of
what it holds; both are kept in reverse, so that adding costs no more than what is added.
-/
import TaggedText.Element.Basic

namespace TaggedText

/-- what an unfinished element holds so far, the latest first -/
inductive Held where
  | empty
  | text (reversed : Text)
  | children (reversed : List Element)

/-- an unfinished element -/
structure Frame where
  name : Text
  attributes : Attributes
  held : Held

namespace Held

def content : Held → Content Element
  | .empty => .empty
  | .text reversed => .text reversed.reverse
  | .children reversed => .children reversed.reverse

/-- holds what a content holds, without its children -/
def ofContent : Content Element → Held
  | .empty => .empty
  | .text t => .text t.reverse
  | .children _ => .children []

end Held

namespace Frame

def element (f : Frame) : Element :=
  ⟨f.name, f.attributes, f.held.content⟩

/-- an unfinished copy of an element, without its children -/
def ofElement (e : Element) : Frame :=
  ⟨e.name, e.attributes, .ofContent e.content⟩

/-- the frame with one more child; a text is given up -/
def addChild (f : Frame) (child : Element) : Frame :=
  match f.held with
  | .children reversed => { f with held := .children (child :: reversed) }
  | _ => { f with held := .children [child] }

end Frame

end TaggedText
