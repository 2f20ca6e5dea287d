/-
Induction on trees, and the elements of a tree.

`Element.induction` is the induction that follows an element and its children. `Element.mem_preorder_iff` says which
elements a tree has: its root, and those of the trees below it.
-/
import TaggedText.Element.Measure

namespace TaggedText

/-- **Induction on trees**: what holds of an element if it holds of its children holds of every element. -/
@[elab_as_elim]
theorem Element.induction {motive : Element → Prop} (empty : ∀ name attributes, motive ⟨name, attributes, .empty⟩)
    (text : ∀ name attributes t, motive ⟨name, attributes, .text t⟩)
    (children : ∀ name attributes cs, (∀ c ∈ cs, motive c) → motive ⟨name, attributes, .children cs⟩) :
    ∀ e, motive e
  | ⟨name, attributes, .empty⟩ => empty name attributes
  | ⟨name, attributes, .text t⟩ => text name attributes t
  | ⟨name, attributes, .children cs⟩ =>
    children name attributes cs fun c _ => Element.induction empty text children c

/-- the same induction without cases -/
@[elab_as_elim]
theorem Element.induction_children {motive : Element → Prop} (step : ∀ e, (∀ c ∈ e.children, motive c) → motive e)
    (e : Element) : motive e := by
  induction e using Element.induction with
  | empty name attributes => exact step _ (List.forall_mem_nil _)
  | text name attributes t => exact step _ (List.forall_mem_nil _)
  | children name attributes cs ih => exact step _ ih

namespace Element

theorem forestPreorder_eq (es : List Element) : forestPreorder es = es.flatMap preorder := by
  induction es with
  | nil => rfl
  | cons e es ih => rw [forestPreorder, ih, List.flatMap_cons]

theorem mem_forestPreorder_iff {x : Element} {es : List Element} :
    x ∈ forestPreorder es ↔ ∃ e ∈ es, x ∈ e.preorder := by
  rw [forestPreorder_eq, List.mem_flatMap]

/-- the elements of a tree: the root and those below -/
theorem mem_preorder_iff {x e : Element} : x ∈ e.preorder ↔ x = e ∨ ∃ c ∈ e.children, x ∈ c.preorder := by
  obtain ⟨name, attributes, content⟩ := e
  rw [preorder, List.mem_cons]
  cases content with
  | children cs => rw [contentPreorder, mem_forestPreorder_iff, children]
  | _ => simp [contentPreorder, children]

end Element

end TaggedText
