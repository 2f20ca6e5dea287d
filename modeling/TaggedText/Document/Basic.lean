/-
Documents: a root element and what the instructions before it say.
-/
import TaggedText.Element.Same
import TaggedText.Element.Traversal

namespace TaggedText

/-- what a document says about itself; an empty target means that it says nothing -/
structure Instructions where
  target : Text
  attributes : Attributes
deriving DecidableEq, Repr

namespace Instructions

def none : Instructions :=
  ⟨[], .empty⟩

def isEmpty (i : Instructions) : Bool :=
  i.target.isEmpty

/-- whether the instructions are equal but for the order of attributes -/
def same (a b : Instructions) : Bool :=
  a.target == b.target && a.attributes.same b.attributes

end Instructions

/-- a tree with the instructions before it -/
structure Document where
  root : Element
  instructions : Instructions

namespace Document

def count (d : Document) : Nat :=
  d.root.count

def same (a b : Document) : Bool :=
  a.root.same b.root && a.instructions.same b.instructions

end Document

end TaggedText
