/-
Building a tree again from the walk around it.

`Element.ofVisits?` follows a walk with a stack of unfinished elements: entering one puts an empty copy on the stack,
leaving one finishes the copy on top and gives it to the one below. `Element.copy?` builds a tree from its own tour.
-/
import TaggedText.Element.Frame
import TaggedText.Element.Traversal

namespace TaggedText

namespace Frame

/-- the frame with the finished child, if it takes children; otherwise the child is lost -/
def receive (f : Frame) (child : Element) : Frame :=
  match f.held with
  | .children reversed => { f with held := .children (child :: reversed) }
  | _ => f

end Frame

namespace Element

/-- follows a walk; `stack` holds the unfinished elements, the innermost first. The result is the element that is
finished when no other is unfinished -/
def rebuild (stack : List Frame) : List Visit → Option Element
  | [] => none
  | .enter _ e :: visits => rebuild (.ofElement e :: stack) visits
  | .leave _ _ :: visits =>
    match stack with
    | [] => none
    | [last] => some last.element
    | done :: parent :: stack => rebuild (parent.receive done.element :: stack) visits

/-- the tree that a walk goes around -/
def ofVisits? (visits : List Visit) : Option Element :=
  rebuild [] visits

/-- the tree built again from its tour -/
def copy? (e : Element) : Option Element :=
  ofVisits? e.tour

end Element

end TaggedText
