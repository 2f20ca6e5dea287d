/-
Trees told by depths.

A walk around a tree enters its elements in document order, each with the number of elements around it. These numbers
are the lengths of the paths to the elements (`Element.exists_lead_entered`), and the lengths alone tell the paths: of
two paths, one right after the other, the second goes on to the first child or steps aside to the next sibling of an
element on the way, and its length says where (`Element.nextPath`). So the depths tell the shape of the tree
(`Element.Lead.pathsOfDepths_eq`).
-/
import TaggedText.Proofs.DocumentOrder
import TaggedText.Proofs.Printing

namespace TaggedText.Element

/-! ## The next path -/

/-- the path after this one that keeps its first `kept` steps: down to the first child, or to the sibling after the
element that the next step leads to -/
def nextPath : List Nat → Nat → List Nat
  | [], _ => [0]
  | i :: _, 0 => [i + 1]
  | i :: path, kept + 1 => i :: nextPath path kept

/-- paths of the given lengths, one after another, the first of them right after `path` -/
def pathsAfter (path : List Nat) : List Nat → List (List Nat)
  | [] => []
  | n :: lengths => nextPath path (n - 1) :: pathsAfter (nextPath path (n - 1)) lengths

/-- the paths to the elements of a tree, told by the number of elements around each of them -/
def pathsOfDepths : List Nat → List (List Nat)
  | [] => []
  | _ :: depths => [] :: pathsAfter [] depths

/-- on the way to a later path stands a next one: a step down or aside, and not beyond the step that the later path
takes there -/
theorem exists_nextPath {p q : List Nat} (h : p < q) :
    ∃ c k j u, q = c ++ j :: u ∧ k ≤ j ∧ p < c ++ [k] ∧ nextPath p c.length = c ++ [k] := by
  induction p generalizing q with
  | nil =>
    cases q with
    | nil => exact absurd h (List.lt_irrefl [])
    | cons j u => exact ⟨[], 0, j, u, rfl, Nat.zero_le j, List.nil_lt_cons 0 [], rfl⟩
  | cons i p ih =>
    cases q with
    | nil => exact absurd h (List.not_lt_nil _)
    | cons j q =>
      rcases List.cons_lt_cons_iff.1 h with hij | ⟨rfl, hpq⟩
      · exact ⟨[], i + 1, j, q, rfl, hij, List.cons_lt_cons_iff.2 (Or.inl (Nat.lt_succ_self i)), rfl⟩
      · obtain ⟨c, k, j, u, rfl, hk, hlt, hnext⟩ := ih hpq
        refine ⟨i :: c, k, j, u, rfl, hk, List.cons_lt_cons_iff.2 (Or.inr ⟨rfl, hlt⟩), ?_⟩
        rw [List.length_cons, nextPath, hnext, List.cons_append]

/-! ## Where paths lead -/

theorem at?_append (e : Element) (p q : List Nat) : e.at? (p ++ q) = (e.at? p).bind fun x => x.at? q := by
  induction p generalizing e with
  | nil => rfl
  | cons i p ih =>
    simp only [List.cons_append, at?, Option.bind_assoc]
    exact Option.bind_congr fun c _ => ih c

/-- where a path leads on to a child, it leads to the children before it as well -/
theorem isSome_at?_of_le {e : Element} {c u : List Nat} {i j : Nat} (h : (e.at? (c ++ j :: u)).isSome = true)
    (hij : i ≤ j) : (e.at? (c ++ [i])).isSome = true := by
  rw [at?_append] at h ⊢
  cases hx : e.at? c with
  | none =>
    rw [hx] at h
    cases h
  | some x =>
    rw [hx, Option.bind_some, at?] at h
    have hj : j < x.children.length := by
      by_contra hj
      rw [List.getElem?_eq_none (Nat.le_of_not_lt hj)] at h
      cases h
    have hi : i < x.children.length := Nat.lt_of_le_of_lt hij hj
    simp [at?, List.getElem?_eq_getElem hi]

/-- nothing comes between neighbours in an ascending list -/
theorem not_lt_of_ascending {before after : List (List Nat)} {p q r : List Nat}
    (h : (before ++ p :: q :: after).Pairwise (· < ·)) (hr : r ∈ before ++ p :: q :: after) (hlt : p < r) : ¬ r < q := by
  intro hrq
  obtain ⟨-, hbehind, hbefore⟩ := List.pairwise_append.1 h
  obtain ⟨-, hafter⟩ := List.pairwise_cons.1 hbehind
  simp only [List.mem_append, List.mem_cons] at hr
  rcases hr with hr | rfl | rfl | hr
  · exact List.lt_asymm (hbefore r hr p List.mem_cons_self) hlt
  · exact List.lt_irrefl _ hlt
  · exact List.lt_irrefl _ hrq
  · exact List.lt_asymm ((List.pairwise_cons.1 hafter).1 r hr) hrq

variable {e : Element} {es : List Element} {paths before after : List (List Nat)} {p q : List Nat}

/-- of neighbouring paths, the length of the second tells what it is -/
theorem Lead.eq_nextPath (h : Lead e.at? (before ++ p :: q :: after) es) : nextPath p (q.length - 1) = q := by
  have hpq : p < q := by
    obtain ⟨-, hbehind, -⟩ := List.pairwise_append.1 h.ascending
    exact (List.pairwise_cons.1 hbehind).1 q List.mem_cons_self
  obtain ⟨c, k, j, u, rfl, hkj, hlt, hnext⟩ := exists_nextPath hpq
  have hq : (e.at? (c ++ j :: u)).isSome = true := (h.complete _).1 (by simp)
  have hleads : (e.at? (c ++ [k])).isSome = true := isSome_at?_of_le hq hkj
  have hbetween : ¬ c ++ [k] < c ++ j :: u := not_lt_of_ascending h.ascending ((h.complete _).2 hleads) hlt
  -- a path that leads somewhere and is not before its follower is the follower itself
  have hsame : k = j ∧ u = [] := by
    rcases Nat.lt_or_eq_of_le hkj with hk | rfl
    · exact absurd (List.append_left_lt (List.cons_lt_cons_iff.2 (Or.inl hk))) hbetween
    · cases u with
      | nil => exact ⟨rfl, rfl⟩
      | cons i u =>
        exact absurd (List.append_left_lt (List.cons_lt_cons_iff.2 (Or.inr ⟨rfl, List.nil_lt_cons i u⟩))) hbetween
  obtain ⟨rfl, rfl⟩ := hsame
  rw [List.length_append, List.length_singleton, Nat.add_sub_cancel, hnext]

theorem Lead.pathsAfter_eq (h : Lead e.at? (before ++ p :: after) es) : pathsAfter p (after.map List.length) = after := by
  induction after generalizing before p with
  | nil => rfl
  | cons q after ih =>
    have hbehind : Lead e.at? ((before ++ [p]) ++ q :: after) es := by rwa [← List.append_cons]
    rw [List.map_cons, pathsAfter, h.eq_nextPath, ih hbehind]

/-- **Depths tell the tree.** The paths to the elements of a tree are told by their lengths. -/
theorem Lead.pathsOfDepths_eq (h : Lead e.at? paths es) : pathsOfDepths (paths.map List.length) = paths := by
  have hroot : [] ∈ paths := (h.complete []).2 rfl
  cases paths with
  | nil => cases hroot
  | cons p paths =>
    obtain rfl : p = [] := by
      rcases List.mem_cons.1 hroot with hp | hmem
      · exact hp.symm
      · exact absurd ((List.pairwise_cons.1 h.ascending).1 [] hmem) (List.not_lt_nil p)
    have hbehind : Lead e.at? ([] ++ [] :: paths) es := h
    rw [List.map_cons, pathsOfDepths, hbehind.pathsAfter_eq]

/-- a root with two children, the first of which has a child -/
example : pathsOfDepths [0, 1, 2, 1] = [[], [0], [0, 0], [1]] := by decide

/-! ## The elements that a walk enters -/

/-- the element that is entered, with the number of elements around it -/
def Visit.entered? : Visit → Option (Nat × Element)
  | .enter depth e => some (depth, e)
  | .leave _ _ => none

/-- the elements that the walk around a tree enters -/
def entered (depth : Nat) (e : Element) : List (Nat × Element) :=
  (around depth e).filterMap Visit.entered?

theorem entered_eq (depth : Nat) (e : Element) :
    entered depth e = (depth, e) :: e.children.flatMap (entered (depth + 1)) := by
  have henter : Visit.entered? (.enter depth e) = some (depth, e) := rfl
  have hleave : [Visit.leave depth e].filterMap Visit.entered? = [] := rfl
  rw [entered, around_eq, List.filterMap_append, hleave, List.append_nil, List.filterMap_cons_some henter,
    aroundForest_eq, List.filterMap_flatMap]
  rfl

/-- a walk enters the elements in document order -/
theorem map_snd_entered (depth : Nat) (e : Element) : (entered depth e).map Prod.snd = e.preorder := by
  induction e using Element.induction_children generalizing depth with
  | step e ih =>
    rw [entered_eq, preorder_eq, List.map_cons, List.map_flatMap, forestPreorder_eq]
    exact congrArg (e :: ·) (List.flatMap_congr fun c hc => ih c hc (depth + 1))

theorem exists_lead_entered_forest
    (ih : ∀ e ∈ es, ∃ paths, Lead e.at? paths e.preorder ∧
      ∀ depth, (entered depth e).map Prod.fst = paths.map fun p => depth + p.length) :
    ∃ paths, Lead (forestAt? es) paths (forestPreorder es) ∧
      ∀ depth, (es.flatMap (entered (depth + 1))).map Prod.fst = paths.map fun p => depth + p.length := by
  induction es with
  | nil => exact ⟨[], lead_nil, fun _ => rfl⟩
  | cons e es ih' =>
    obtain ⟨⟨ps, hps, hfirst⟩, hes⟩ := List.forall_mem_cons.1 ih
    obtain ⟨qs, hqs, hothers⟩ := ih' hes
    refine ⟨_, hps.cons hqs, fun depth => ?_⟩
    have hlater : ∀ q : List Nat, (later q).length = q.length := fun q => List.length_modifyHead
    simp [hfirst, hothers, hlater, Function.comp_def, Nat.add_assoc, Nat.add_comm 1]

/-- the paths to the elements are as long as elements are around these -/
theorem exists_lead_entered (e : Element) :
    ∃ paths, Lead e.at? paths e.preorder ∧
      ∀ depth, (entered depth e).map Prod.fst = paths.map fun p => depth + p.length := by
  induction e using Element.induction_children with
  | step e ih =>
    obtain ⟨paths, hpaths, hdepths⟩ := exists_lead_entered_forest ih
    refine ⟨_, hpaths.above, fun depth => ?_⟩
    rw [entered_eq, List.map_cons, hdepths, List.map_cons, List.length_nil, Nat.add_zero]

/-- the path at a place leads to the element that the walk enters there, which is that of the document order -/
theorem Lead.of_entered (h : Lead e.at? paths e.preorder) (hdepths : (entered 0 e).map Prod.fst = paths.map List.length)
    {i depth : Nat} {x : Element} (hx : (entered 0 e)[i]? = some (depth, x)) :
    ∃ p, paths[i]? = some p ∧ p.length = depth ∧ e.at? p = some x ∧ (e :: e.descendants)[i]? = some x := by
  have helement : e.preorder[i]? = some x := by
    rw [← map_snd_entered 0 e, List.getElem?_map, hx]
    rfl
  have hdepth : (paths.map List.length)[i]? = some depth := by
    rw [← hdepths, List.getElem?_map, hx]
    rfl
  obtain ⟨p, hp, hlength⟩ := Option.map_eq_some_iff.1 (List.getElem?_map.symm.trans hdepth)
  have hleads : (e.preorder.map some)[i]? = (paths.map e.at?)[i]? := by rw [h.found]
  rw [List.getElem?_map, List.getElem?_map, helement, hp, Option.map_some, Option.map_some, Option.some.injEq] at hleads
  rw [descendants_eq, ← preorder_eq]
  exact ⟨p, hp, hlength, hleads.symm, helement⟩

end TaggedText.Element
