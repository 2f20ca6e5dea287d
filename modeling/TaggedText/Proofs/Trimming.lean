/-
Trees without blanks around their texts.

Dropping the blanks a second time changes nothing (`Element.trimmed_trimmed`), and it changes neither the height of a
tree nor which elements there are in document order (`height_trimmed`, `preorder_trimmed`). In a well-formed tree no
text is lost by it, so that every element goes on holding what it held: nothing, a text or children
(`Element.Proper.kept`).
-/
import Mathlib.Data.List.DropRight
import TaggedText.Proofs.Traversal
import TaggedText.Proofs.WellFormed

namespace TaggedText

/-! ## Texts -/

namespace Text

theorem trim_eq_rdropWhile (t : Text) : trim t = (t.dropWhile isBlank).rdropWhile isBlank :=
  rfl

/-- a text that begins with no blank begins with none when blanks are dropped at its end -/
theorem dropWhile_rdropWhile {p : Char → Bool} {t : Text} (h : t.dropWhile p = t) :
    (t.rdropWhile p).dropWhile p = t.rdropWhile p := by
  cases hu : t.rdropWhile p with
  | nil => rfl
  | cons c u =>
    have hprefix : c :: u <+: t := hu ▸ List.rdropWhile_prefix p t
    have hhead : (t.dropWhile p).head? = some c := by
      obtain ⟨v, hv⟩ := hprefix
      rw [h, ← hv]
      rfl
    exact List.dropWhile_cons_of_neg (by simp [head_dropWhile hhead])

/-- dropping what satisfies a test at the end of a text leaves nothing that satisfies it there -/
theorem exists_append_of_rdropWhile (p : Char → Bool) (t : Text) :
    ∃ v, t = t.rdropWhile p ++ v ∧ (∀ c ∈ v, p c = true) ∧ ∀ c, (t.rdropWhile p).getLast? = some c → p c = false := by
  refine ⟨(t.reverse.takeWhile p).reverse, ?_, fun c hc => ?_, fun c hc => ?_⟩
  · rw [List.rdropWhile, ← List.reverse_append, List.takeWhile_append_dropWhile, List.reverse_reverse]
  · exact List.mem_takeWhile_imp (List.mem_reverse.1 hc)
  · rw [List.rdropWhile, List.getLast?_reverse] at hc
    exact head_dropWhile hc

/-- **Dropping blanks.** A text is what is left of it between two stretches of blanks, and no blank is at either end of
what is left. -/
theorem exists_blanks_trim (t : Text) :
    ∃ u v, t = u ++ trim t ++ v ∧ (∀ c ∈ u ++ v, isBlank c = true) ∧
      (∀ c, (trim t).head? = some c → isBlank c = false) ∧ ∀ c, (trim t).getLast? = some c → isBlank c = false := by
  obtain ⟨v, hv, hblanks, hlast⟩ := exists_append_of_rdropWhile isBlank (t.dropWhile isBlank)
  rw [← trim_eq_rdropWhile] at hv hlast
  refine ⟨t.takeWhile isBlank, v, ?_, fun c hc => ?_, fun c hc => ?_, hlast⟩
  · rw [List.append_assoc, ← hv, List.takeWhile_append_dropWhile]
  · rcases List.mem_append.1 hc with hc | hc
    · exact List.mem_takeWhile_imp hc
    · exact hblanks c hc
  · refine head_dropWhile (t := t) ?_
    obtain ⟨w, hw⟩ := List.head?_eq_some_iff.1 hc
    rw [hv, hw]
    rfl

theorem trim_trim (t : Text) : trim (trim t) = trim t := by
  have hbegin : (trim t).dropWhile isBlank = trim t := by
    rw [trim_eq_rdropWhile]
    exact dropWhile_rdropWhile (List.dropWhile_idempotent isBlank t)
  calc trim (trim t) = (trim t).rdropWhile isBlank := by rw [trim_eq_rdropWhile (trim t), hbegin]
    _ = trim t := List.rdropWhile_idempotent isBlank (t.dropWhile isBlank)

end Text

/-! ## Trees -/

namespace Element

theorem trimmed_of_children (name : Text) (attributes : Attributes) (cs : List Element) :
    trimmed ⟨name, attributes, .children cs⟩ = ⟨name, attributes, .children (cs.map trimmed)⟩ := by
  rw [trimmed, trimmedContent_children]

theorem trimmed_trimmed (e : Element) : e.trimmed.trimmed = e.trimmed := by
  induction e using Element.induction with
  | empty name attributes => rfl
  | text name attributes t =>
    rw [trimmed, trimmedContent]
    split_ifs with ht
    · rfl
    · rw [trimmed, trimmedContent, Text.trim_trim, if_neg ht]
  | children name attributes cs ih =>
    have hcs : cs.map (trimmed ∘ trimmed) = cs.map trimmed := List.map_congr_left ih
    rw [trimmed_of_children, trimmed_of_children, List.map_map, hcs]

theorem children_trimmed (e : Element) : e.trimmed.children = e.children.map trimmed := by
  obtain ⟨name, attributes, content⟩ := e
  cases content with
  | empty => rfl
  | text t =>
    rw [trimmed, trimmedContent]
    split_ifs <;> rfl
  | children cs =>
    rw [trimmed_of_children]
    rfl

theorem forestHeight_map_trimmed {es : List Element} (h : ∀ e ∈ es, e.trimmed.height = e.height) :
    forestHeight (es.map trimmed) = forestHeight es := by
  induction es with
  | nil => rfl
  | cons e es ih =>
    obtain ⟨he, hes⟩ := List.forall_mem_cons.1 h
    rw [List.map_cons, forestHeight, forestHeight, he, ih hes]

theorem height_trimmed (e : Element) : e.trimmed.height = e.height := by
  induction e using Element.induction_children with
  | step e ih => rw [height_eq, height_eq, children_trimmed, forestHeight_map_trimmed ih]

theorem forestPreorder_map_trimmed {es : List Element}
    (h : ∀ e ∈ es, e.trimmed.preorder = e.preorder.map trimmed) :
    forestPreorder (es.map trimmed) = (forestPreorder es).map trimmed := by
  induction es with
  | nil => rfl
  | cons e es ih =>
    obtain ⟨he, hes⟩ := List.forall_mem_cons.1 h
    rw [List.map_cons, forestPreorder, forestPreorder, he, ih hes, List.map_append]

/-- the elements of a tree without blanks, in document order -/
theorem preorder_trimmed (e : Element) : e.trimmed.preorder = e.preorder.map trimmed := by
  induction e using Element.induction_children with
  | step e ih => rw [preorder_eq, preorder_eq, children_trimmed, forestPreorder_map_trimmed ih, List.map_cons]

/-! ## Well-formed trees -/

/-- an element loses no text by dropping blanks, and goes on holding what it held -/
structure Kept (e : Element) : Prop where
  text : ∀ t, e.content = .text t → Text.trim t ≠ []
  holdsText : e.trimmed.holdsText = e.holdsText
  holdsChildren : e.trimmed.holdsChildren = e.holdsChildren

theorem Proper.kept {e : Element} (h : e.Proper) : e.Kept := by
  obtain ⟨name, attributes, content⟩ := e
  cases content with
  | empty =>
    refine ⟨?_, rfl, rfl⟩
    intro t ht
    cases ht
  | text t =>
    obtain ⟨htrimmed, -, c, hc, -⟩ := Content.WellFormed.trimmed h.content
    have heq : trimmed ⟨name, attributes, .text t⟩ = ⟨name, attributes, .text (Text.trim t)⟩ := by
      rw [trimmed, trimmedContent_text, htrimmed]
    refine ⟨?_, ?_, ?_⟩
    · intro u hu
      cases hu
      exact List.ne_nil_of_mem hc
    · rw [heq]
      rfl
    · rw [heq]
      rfl
  | children cs =>
    refine ⟨?_, ?_, ?_⟩
    · intro u hu
      cases hu
    · rw [trimmed_of_children]
      rfl
    · rw [trimmed_of_children]
      rfl

end Element

/-! ## Documents -/

def Document.trimmed (d : Document) : Document :=
  ⟨d.root.trimmed, d.instructions⟩

namespace BuildRules

theorem height_settled (rules : BuildRules) (e : Element) : (rules.settled e).height = e.height := by
  unfold settled
  split_ifs
  · exact e.height_trimmed
  · rfl

theorem settledDocument_settledDocument (rules : BuildRules) (d : Document) :
    rules.settledDocument (rules.settledDocument d) = rules.settledDocument d := by
  unfold settledDocument settled
  split_ifs
  · rw [Element.trimmed_trimmed]
  · rfl

end BuildRules

/-- what is read has no more levels than the rules allow, and settling it once more changes nothing -/
theorem Document.settled_of_read {rules : BuildRules} {s : Text} {d : Document} (h : Document.read rules s = .ok d) :
    rules.Allows d.root.height ∧ rules.settledDocument d = d := by
  obtain ⟨ps, original, -, -, hallows, rfl⟩ := Document.read_eq_ok_iff.1 h
  refine ⟨?_, rules.settledDocument_settledDocument original⟩
  rw [← rules.height_settled original.root] at hallows
  exact hallows

end TaggedText
