/-
Copies of trees.

A copy is built on the walk around a tree: entering an element puts an empty copy of it on a stack, leaving it finishes
this and gives it to the one below. Between entering and leaving an element all its children are walked around, so that
its copy has received them when it is left (`Frame.full`, `rebuild_below`), whatever lies below it on the stack.

Results:
- `copy_exactly`: the copy is the tree itself, and it is finished by the last step of the walk.
-/
import TaggedText.Element.Copy
import TaggedText.Proofs.Printing

namespace TaggedText

namespace Frame

/-- the copy of an element that has received all its children -/
def full (e : Element) : Frame :=
  e.children.foldl receive (ofElement e)

theorem foldl_receive {f : Frame} {reversed : List Element} (h : f.held = .children reversed) (es : List Element) :
    es.foldl receive f = ⟨f.name, f.attributes, .children (es.reverse ++ reversed)⟩ := by
  induction es generalizing f reversed with
  | nil =>
    rw [List.foldl_nil, List.reverse_nil, List.nil_append, ← h]
  | cons e es ih =>
    have hreceived : f.receive e = ⟨f.name, f.attributes, .children (e :: reversed)⟩ := by simp [receive, h]
    rw [List.foldl_cons, hreceived, ih rfl]
    simp

theorem element_full (e : Element) : (full e).element = e := by
  obtain ⟨name, attributes, content⟩ := e
  cases content with
  | empty => rfl
  | text t => simp [full, Element.children, ofElement, element, Held.ofContent, Held.content]
  | children cs =>
    rw [full, foldl_receive rfl]
    simp [Element.children, ofElement, element, Held.content]

end Frame

namespace Element

/-! ## Parts of the walk -/

theorem rebuild_aroundForest {depth : Nat} {es : List Element} {f : Frame} {stack : List Frame} {visits : List Visit}
    (ih : ∀ e ∈ es, ∀ (f : Frame) (stack : List Frame) (visits : List Visit),
      rebuild (f :: stack) (around depth e ++ visits) = rebuild (f.receive e :: stack) visits) :
    rebuild (f :: stack) (aroundForest depth es ++ visits) = rebuild (es.foldl Frame.receive f :: stack) visits := by
  induction es generalizing f with
  | nil => rfl
  | cons e es ih' =>
    obtain ⟨he, hes⟩ := List.forall_mem_cons.1 ih
    rw [aroundForest, List.append_assoc, he, ih' hes, List.foldl_cons]

/-- walking around a tree gives its copy to the element around it -/
theorem rebuild_around (depth : Nat) (e : Element) (f : Frame) (stack : List Frame) (visits : List Visit) :
    rebuild (f :: stack) (around depth e ++ visits) = rebuild (f.receive e :: stack) visits := by
  induction e using Element.induction_children generalizing depth f stack visits with
  | step e ih =>
    calc rebuild (f :: stack) (around depth e ++ visits)
        = rebuild (.ofElement e :: f :: stack) (aroundForest (depth + 1) e.children ++ (.leave depth e :: visits)) := by
          rw [around_eq, List.append_assoc, List.cons_append, rebuild]
          rfl
      _ = rebuild (.full e :: f :: stack) (.leave depth e :: visits) :=
          rebuild_aroundForest fun c hc f stack visits => ih c hc (depth + 1) f stack visits
      _ = rebuild (f.receive e :: stack) visits := by
          rw [rebuild, Frame.element_full]

/-- before an element is left, its copy has received all its children -/
theorem rebuild_below (depth : Nat) (e : Element) (stack : List Frame) (visits : List Visit) :
    rebuild stack (.enter depth e :: aroundForest (depth + 1) e.children ++ visits) =
      rebuild (.full e :: stack) visits := by
  rw [List.cons_append, rebuild]
  exact rebuild_aroundForest fun c _ f stack visits => rebuild_around (depth + 1) c f stack visits

/-- what is finished stays so, whatever visits come after -/
theorem rebuild_append_of_some {stack : List Frame} {visits : List Visit} {e : Element}
    (h : rebuild stack visits = some e) (others : List Visit) : rebuild stack (visits ++ others) = some e := by
  fun_induction rebuild stack visits with
  | case1 => cases h
  | case2 stack depth e visits ih => exact ih h
  | case3 => cases h
  | case4 => exact h
  | case5 depth e visits done parent stack ih => exact ih h

end Element

/-- **Copies.** The copy of a tree is the tree. It comes out of the last step of the walk, which leaves the root, and out
of no part of the walk that ends before it. -/
theorem copy_exactly (e : Element) :
    e.copy? = some e ∧ (∃ walk, e.tour = walk ++ [.leave 0 e]) ∧
      ∀ visits, visits <+: e.tour → visits ≠ e.tour → Element.ofVisits? visits = none := by
  have htour : e.tour = .enter 0 e :: Element.aroundForest 1 e.children ++ [.leave 0 e] := by
    rw [Element.tour_eq_around, Element.around_eq]
  have hcopy : e.copy? = some e := by
    rw [Element.copy?, Element.ofVisits?, htour, Element.rebuild_below, Element.rebuild, Frame.element_full]
  refine ⟨hcopy, ⟨_, htour⟩, ?_⟩
  intro visits hprefix hne
  rw [htour] at hprefix hne
  obtain ⟨others, hothers⟩ := (List.prefix_concat_iff.1 hprefix).resolve_left hne
  cases hfinished : Element.ofVisits? visits with
  | none => rfl
  | some finished =>
    -- the walk up to leaving the root would be finished too, but leaves the copy of the root on the stack
    have hwalk := Element.rebuild_append_of_some hfinished others
    rw [hothers, ← List.append_nil (_ :: _), Element.rebuild_below] at hwalk
    cases hwalk

end TaggedText
