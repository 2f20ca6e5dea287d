/-
What the walks over a tree come to.

The walks keep a list of the trees still to be visited, each with its level where levels are counted. Their results are
those of the recursions on the tree: the number of levels is its height (`depth_eq_height`), and the elements that are
counted are those of its document order (`count_eq_length_preorder`).
-/
import Mathlib.Tactic
import TaggedText.Element.Traversal
import TaggedText.Proofs.TreeInduction

namespace TaggedText.Element

/-! ## Levels -/

theorem height_eq (e : Element) : e.height = forestHeight e.children + 1 := by
  obtain ⟨name, attributes, content⟩ := e
  cases content <;> simp [height, contentHeight, children, forestHeight]

/-- the deepest level of the trees in a list, each of which begins at its own level -/
def deepestLevel : List (Nat × Element) → Nat
  | [] => 0
  | (level, e) :: pending => max (level + forestHeight e.children) (deepestLevel pending)

theorem deepestLevel_append (as bs : List (Nat × Element)) :
    deepestLevel (as ++ bs) = max (deepestLevel as) (deepestLevel bs) := by
  induction as with
  | nil => simp [deepestLevel]
  | cons a as ih => rw [List.cons_append, deepestLevel, deepestLevel, ih, max_assoc]

/-- trees one level further down reach as many levels down as they are high -/
theorem max_deepestLevel_atLevel (level : Nat) (es : List Element) :
    max level (deepestLevel (atLevel (level + 1) es)) = level + forestHeight es := by
  induction es with
  | nil => simp [atLevel, deepestLevel, forestHeight]
  | cons e es ih =>
    have hfirst : level + 1 + forestHeight e.children = level + e.height := by
      rw [height_eq]
      omega
    calc max level (deepestLevel (atLevel (level + 1) (e :: es)))
        = max (level + e.height) (max level (deepestLevel (atLevel (level + 1) es))) := by
          simp only [atLevel, List.map_cons, deepestLevel, hfirst]
          exact max_left_comm _ _ _
      _ = level + forestHeight (e :: es) := by
          rw [ih, forestHeight, Nat.add_max_add_left]

theorem depthFrom_eq (deepest : Nat) (pending : List (Nat × Element)) :
    depthFrom deepest pending = max deepest (deepestLevel pending) := by
  fun_induction depthFrom deepest pending with
  | case1 deepest => simp [deepestLevel]
  | case2 deepest level e pending ih =>
    calc depthFrom (max deepest level) (atLevel (level + 1) e.children ++ pending)
        = max (max deepest level) (max (deepestLevel (atLevel (level + 1) e.children)) (deepestLevel pending)) := by
          rw [ih, deepestLevel_append]
      _ = max deepest (max (max level (deepestLevel (atLevel (level + 1) e.children))) (deepestLevel pending)) := by
          rw [max_assoc, max_assoc]
      _ = max deepest (deepestLevel ((level, e) :: pending)) := by
          rw [max_deepestLevel_atLevel, deepestLevel]

/-- the levels that are counted are the height of the tree -/
theorem depth_eq_height (e : Element) : e.depth = e.height := by
  rw [depth, depthFrom_eq, height_eq]
  simp [deepestLevel, Nat.add_comm]

/-! ## Document order -/

theorem preorder_eq (e : Element) : e.preorder = e :: forestPreorder e.children := by
  obtain ⟨name, attributes, content⟩ := e
  cases content <;> simp [preorder, contentPreorder, children, forestPreorder]

theorem forestPreorder_append (as bs : List Element) :
    forestPreorder (as ++ bs) = forestPreorder as ++ forestPreorder bs := by
  rw [forestPreorder_eq, forestPreorder_eq, forestPreorder_eq, List.flatMap_append]

theorem preorderFrom_eq (seen pending : List Element) :
    preorderFrom seen pending = seen.reverse ++ forestPreorder pending := by
  fun_induction preorderFrom seen pending with
  | case1 seen => simp [forestPreorder]
  | case2 seen e pending ih =>
    rw [ih, forestPreorder_append, forestPreorder, preorder_eq, List.reverse_cons, List.append_assoc]
    rfl

theorem descendants_eq (e : Element) : e.descendants = forestPreorder e.children := by
  rw [descendants, preorderFrom_eq]
  rfl

/-- the elements that are counted are those in document order -/
theorem count_eq_length_preorder (e : Element) : e.count = e.preorder.length := by
  rw [count, descendants_eq, preorder_eq, List.length_cons]

end TaggedText.Element
