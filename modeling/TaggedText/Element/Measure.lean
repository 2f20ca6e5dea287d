/-
Size, height and document order of a tree, by recursion on the tree.

The size counts the elements, the height the levels, and `preorder` lists the elements in document order: each
element before its children, and these in their order.
-/
import TaggedText.Element.Basic

namespace TaggedText.Element

mutual

/-- how many elements the tree has, its root included -/
def size : Element → Nat
  | ⟨_, _, content⟩ => contentSize content + 1

def contentSize : Content Element → Nat
  | .empty => 0
  | .text _ => 0
  | .children cs => forestSize cs

def forestSize : List Element → Nat
  | [] => 0
  | e :: es => e.size + forestSize es

end

mutual

/-- how many levels the tree has; an element without children has one -/
def height : Element → Nat
  | ⟨_, _, content⟩ => contentHeight content + 1

def contentHeight : Content Element → Nat
  | .empty => 0
  | .text _ => 0
  | .children cs => forestHeight cs

def forestHeight : List Element → Nat
  | [] => 0
  | e :: es => max e.height (forestHeight es)

end

mutual

/-- the elements of a tree in document order, its root first -/
def preorder : Element → List Element
  | ⟨name, attributes, content⟩ => ⟨name, attributes, content⟩ :: contentPreorder content

def contentPreorder : Content Element → List Element
  | .empty => []
  | .text _ => []
  | .children cs => forestPreorder cs

def forestPreorder : List Element → List Element
  | [] => []
  | e :: es => e.preorder ++ forestPreorder es

end

theorem size_eq (e : Element) : e.size = forestSize e.children + 1 := by
  obtain ⟨name, attributes, content⟩ := e
  cases content <;> simp [size, contentSize, children, forestSize]

theorem forestSize_append (as bs : List Element) : forestSize (as ++ bs) = forestSize as + forestSize bs := by
  induction as with
  | nil => simp [forestSize]
  | cons e es ih => simp only [List.cons_append, forestSize, ih]; omega

theorem size_pos (e : Element) : 0 < e.size := by
  rw [size_eq]
  omega

end TaggedText.Element
