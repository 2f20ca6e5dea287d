/-
Equality of trees up to the order of attributes.

`Element.Same` says by recursion when two trees are equal: the same name, the same attributes in whatever order, and
the same content, child by child. `Element.same` decides it with a list of the pairs still to be compared.
-/
import TaggedText.Element.Measure

namespace TaggedText.Element

mutual

/-- the trees are equal but for the order of attributes -/
def Same : Element → Element → Prop
  | ⟨name, attributes, content⟩, b =>
    name = b.name ∧ attributes.Same b.attributes ∧ ContentSame content b.content

def ContentSame : Content Element → Content Element → Prop
  | .empty, b =>
    match b with
    | .empty => True
    | _ => False
  | .text s, b =>
    match b with
    | .text t => s = t
    | _ => False
  | .children as, b =>
    match b with
    | .children bs => ForestSame as bs
    | _ => False

/-- the lists are as long as each other, and equal tree by tree -/
def ForestSame : List Element → List Element → Prop
  | [], bs => bs = []
  | a :: as, bs =>
    match bs with
    | [] => False
    | b :: bs => a.Same b ∧ ForestSame as bs

end

/-- the size of the first trees of a list of pairs -/
def pairsSize (pending : List (Element × Element)) : Nat :=
  forestSize (pending.map (·.1))

theorem forestSize_zip_le (as bs : List Element) : forestSize ((as.zip bs).map (·.1)) ≤ forestSize as := by
  induction as generalizing bs with
  | nil => simp [forestSize]
  | cons a as ih =>
    cases bs with
    | nil => simp [forestSize]
    | cons b bs =>
      have := ih bs
      simp only [List.zip_cons_cons, List.map_cons, forestSize]
      omega

/-- whether all `pending` pairs are pairs of equal trees -/
def sameFrom : List (Element × Element) → Bool
  | [] => true
  | (a, b) :: pending =>
    if a.name ≠ b.name ∨ a.attributes.same b.attributes = false then false
    else
      match _ha : a.content, b.content with
      | .empty, .empty => sameFrom pending
      | .text s, .text t => if s = t then sameFrom pending else false
      | .children as, .children bs => if as.length = bs.length then sameFrom (as.zip bs ++ pending) else false
      | _, _ => false
termination_by pending => pairsSize pending
decreasing_by
  · have := size_pos a
    simp only [pairsSize, List.map_cons, forestSize]
    omega
  · have := size_pos a
    simp only [pairsSize, List.map_cons, forestSize]
    omega
  · have hle := forestSize_zip_le as bs
    have hsize : a.size = forestSize as + 1 := by rw [size_eq, children, _ha]
    simp only [pairsSize, List.map_append, forestSize_append, List.map_cons, forestSize]
    omega

def same (a b : Element) : Bool :=
  sameFrom [(a, b)]

end TaggedText.Element
