/-
Writing by recursion.

`Element.write` writes what the walk around a tree comes by, and the walk keeps a list of what is still to be visited.
`Element.around` is the walk by recursion (`tour_eq_around`), and `Element.print` writes a tree by recursion: its
start, the trees below it and its stop (`write_eq_print`).
-/
import TaggedText.Document.Layout
import TaggedText.Proofs.TreeInduction

namespace TaggedText.Element

/-! ## The walk -/

mutual

/-- the walk around a tree with `depth` elements around it -/
def around (depth : Nat) : Element → List Visit
  | ⟨name, attributes, content⟩ =>
    .enter depth ⟨name, attributes, content⟩ :: aroundContent (depth + 1) content ++
      [.leave depth ⟨name, attributes, content⟩]

def aroundContent (depth : Nat) : Content Element → List Visit
  | .empty => []
  | .text _ => []
  | .children cs => aroundForest depth cs

def aroundForest (depth : Nat) : List Element → List Visit
  | [] => []
  | e :: es => around depth e ++ aroundForest depth es

end

theorem around_eq (depth : Nat) (e : Element) :
    around depth e = .enter depth e :: aroundForest (depth + 1) e.children ++ [.leave depth e] := by
  obtain ⟨name, attributes, content⟩ := e
  cases content <;> rfl

theorem aroundForest_eq (depth : Nat) (es : List Element) : aroundForest depth es = es.flatMap (around depth) := by
  induction es with
  | nil => rfl
  | cons e es ih => rw [aroundForest, ih, List.flatMap_cons]

/-- the visits that a pending one stands for -/
def Visit.expand : Visit → List Visit
  | .enter depth e => around depth e
  | .leave depth e => [.leave depth e]

theorem flatMap_expand_enterAll (depth : Nat) (es : List Element) :
    (enterAll depth es).flatMap Visit.expand = aroundForest depth es := by
  rw [enterAll, List.flatMap_map, aroundForest_eq]
  rfl

/-- the list of pending visits is worked off in the order of the walk -/
theorem tourFrom_eq (seen pending : List Visit) :
    tourFrom seen pending = seen.reverse ++ pending.flatMap Visit.expand := by
  fun_induction tourFrom seen pending with
  | case1 seen => simp
  | case2 seen depth e pending ih =>
    rw [ih, List.flatMap_append, flatMap_expand_enterAll, List.flatMap_cons, List.flatMap_cons, Visit.expand,
      Visit.expand, around_eq]
    simp
  | case3 seen depth e pending ih =>
    rw [ih, List.flatMap_cons, Visit.expand]
    simp

theorem tour_eq_around (e : Element) : e.tour = around 0 e := by
  rw [tour, tourFrom_eq]
  simp [Visit.expand]

/-! ## Writing -/

mutual

/-- a tree as text, by recursion: its start, what is below it, and its stop -/
def print (layout : Layout) (depth : Nat) : Element → Except Unwritable Text
  | ⟨name, attributes, content⟩ => do
    let start ← writeStart layout depth ⟨name, attributes, content⟩
    let below ← printContent layout (depth + 1) content
    return start ++ below ++ writeStop layout depth ⟨name, attributes, content⟩

def printContent (layout : Layout) (depth : Nat) : Content Element → Except Unwritable Text
  | .empty => return []
  | .text _ => return []
  | .children cs => printForest layout depth cs

def printForest (layout : Layout) (depth : Nat) : List Element → Except Unwritable Text
  | [] => return []
  | e :: es => do
    let first ← print layout depth e
    let others ← printForest layout depth es
    return first ++ others

end

/-- what comes out of two steps, one after another, comes out of the second for what comes out of the first -/
theorem exists_of_bind_eq_ok {ε α β : Type} {x : Except ε α} {f : α → Except ε β} {b : β} (h : (x >>= f) = .ok b) :
    ∃ a, x = .ok a ∧ f a = .ok b := by
  cases x with
  | error e => cases h
  | ok a => exact ⟨a, rfl, h⟩

theorem print_eq (layout : Layout) (depth : Nat) (e : Element) :
    print layout depth e = do
      let start ← writeStart layout depth e
      let below ← printForest layout (depth + 1) e.children
      return start ++ below ++ writeStop layout depth e := by
  obtain ⟨name, attributes, content⟩ := e
  cases content <;> rfl

def writeVisits (layout : Layout) (visits : List Visit) : Except Unwritable Text :=
  List.flatten <$> visits.mapM (writeVisit layout)

theorem writeVisits_append (layout : Layout) (as bs : List Visit) :
    writeVisits layout (as ++ bs) = do
      let first ← writeVisits layout as
      let others ← writeVisits layout bs
      return first ++ others := by
  simp [writeVisits, List.mapM_append]

theorem writeVisits_singleton (layout : Layout) (v : Visit) : writeVisits layout [v] = writeVisit layout v := by
  simp [writeVisits]

theorem writeVisits_aroundForest {layout : Layout} {depth : Nat} {es : List Element}
    (h : ∀ e ∈ es, writeVisits layout (around depth e) = print layout depth e) :
    writeVisits layout (aroundForest depth es) = printForest layout depth es := by
  induction es with
  | nil => rfl
  | cons e es ih =>
    obtain ⟨he, hes⟩ := List.forall_mem_cons.1 h
    rw [aroundForest, writeVisits_append, he, ih hes, printForest]

theorem writeVisits_around (layout : Layout) (depth : Nat) (e : Element) :
    writeVisits layout (around depth e) = print layout depth e := by
  induction e using Element.induction_children generalizing depth with
  | step e ih =>
    have hbelow := writeVisits_aroundForest fun c hc => ih c hc (depth + 1)
    rw [around_eq, ← List.singleton_append, writeVisits_append, writeVisits_append, writeVisits_singleton,
      writeVisits_singleton, hbelow, print_eq, writeVisit, writeVisit]
    cases writeStart layout depth e with
    | error error => rfl
    | ok start =>
      cases printForest layout (depth + 1) e.children with
      | error error => rfl
      | ok below => rfl

/-- **Writing by recursion.** What is written on the walk around a tree is the tree printed by recursion, and so is
the error. -/
theorem write_eq_print (layout : Layout) (e : Element) : e.write layout = print layout 0 e := by
  rw [← writeVisits_around, ← tour_eq_around, writeVisits, write]
  cases e.tour.mapM (writeVisit layout) <;> rfl

end TaggedText.Element
