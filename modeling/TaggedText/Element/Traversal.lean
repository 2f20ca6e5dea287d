/-
Walks over a tree with a list of what is still to be visited, so that trees of any height can be walked.

`descendants` lists the elements below one in document order, `depth` counts levels, and `tour` goes around the tree:
it enters each element, goes through its children in order, and leaves it.
-/
import TaggedText.Element.Measure

namespace TaggedText.Element

/-! ## Document order -/

/-- the elements of the `pending` trees in document order, after those of `seen`, which is last first -/
def preorderFrom (seen : List Element) : List Element → List Element
  | [] => seen.reverse
  | e :: pending => preorderFrom (e :: seen) (e.children ++ pending)
termination_by pending => forestSize pending
decreasing_by simp [forestSize, forestSize_append, size_eq]

/-- all elements below this one, in document order -/
def descendants (e : Element) : List Element :=
  preorderFrom [] e.children

def count (e : Element) : Nat :=
  e.descendants.length + 1

/-! ## Levels -/

/-- the trees of a list with the number of levels above them -/
def atLevel (level : Nat) (es : List Element) : List (Nat × Element) :=
  es.map fun e => (level, e)

/-- the size of a list of trees, whatever their levels -/
def levelledSize (pending : List (Nat × Element)) : Nat :=
  forestSize (pending.map (·.2))

theorem levelledSize_cons (level : Nat) (e : Element) (pending : List (Nat × Element)) :
    levelledSize (atLevel (level + 1) e.children ++ pending) + 1 = levelledSize ((level, e) :: pending) := by
  simp only [levelledSize, atLevel, List.map_append, List.map_map, List.map_cons, forestSize, forestSize_append,
    size_eq]
  have : (List.map ((fun x : Nat × Element => x.2) ∘ fun e => (level + 1, e)) e.children) = e.children := by
    induction e.children with
    | nil => rfl
    | cons c cs ih => exact congrArg (c :: ·) ih
  rw [this]
  omega

/-- the deepest level among `deepest` and those of the `pending` trees -/
def depthFrom (deepest : Nat) : List (Nat × Element) → Nat
  | [] => deepest
  | (level, e) :: pending => depthFrom (max deepest level) (atLevel (level + 1) e.children ++ pending)
termination_by pending => levelledSize pending
decreasing_by
  rw [← levelledSize_cons]
  omega

/-- the number of levels of the tree; an element without children has one -/
def depth (e : Element) : Nat :=
  depthFrom 0 [(1, e)]

/-! ## The tour around a tree -/

/-- a moment of a walk around a tree; `depth` elements are around the visited one -/
inductive Visit where
  | enter (depth : Nat) (e : Element)
  | leave (depth : Nat) (e : Element)

def Visit.depth : Visit → Nat
  | .enter depth _ => depth
  | .leave depth _ => depth

/-- how many moments a visit stands for: an entered tree still has to be walked around -/
def Visit.weight : Visit → Nat
  | .enter _ e => 2 * e.size
  | .leave _ _ => 1

def weight : List Visit → Nat
  | [] => 0
  | v :: pending => v.weight + weight pending

/-- the visits that begin the walks around the children -/
def enterAll (depth : Nat) (es : List Element) : List Visit :=
  es.map (Visit.enter depth)

theorem weight_enterAll (depth : Nat) (es : List Element) : weight (enterAll depth es) = 2 * forestSize es := by
  induction es with
  | nil => rfl
  | cons e es ih =>
    simp only [weight, enterAll, List.map_cons, forestSize, Visit.weight] at ih ⊢
    omega

theorem weight_append (as bs : List Visit) : weight (as ++ bs) = weight as + weight bs := by
  induction as with
  | nil => simp [weight]
  | cons v as ih => simp only [List.cons_append, weight, ih, Nat.add_assoc]

/-- the visits that the `pending` ones stand for, after those of `seen`, which is last first -/
def tourFrom (seen : List Visit) : List Visit → List Visit
  | [] => seen.reverse
  | .enter depth e :: pending =>
    tourFrom (.enter depth e :: seen) (enterAll (depth + 1) e.children ++ .leave depth e :: pending)
  | .leave depth e :: pending => tourFrom (.leave depth e :: seen) pending
termination_by pending => weight pending
decreasing_by
  · rw [weight_append, weight_enterAll]
    simp only [weight, Visit.weight, size_eq e]
    omega
  · simp [weight, Visit.weight]

def tour (e : Element) : List Visit :=
  tourFrom [] [.enter 0 e]

end TaggedText.Element
