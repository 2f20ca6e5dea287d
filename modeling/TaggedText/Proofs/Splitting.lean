/-
Splitting texts at separators.

`Text.split` is the library's `List.splitOnP` (`Text.split_eq_splitOnP`), so that its parts with the separators between
them are the text. What else is told of the parts goes by induction on the separators, the last one first
(`Text.induction_separators`): behind the last separator stands the last part, and before it a text with one part less.

Results:
- `Text.getLast?_split`: searching from the end finds the last part;
- `Name.parts_agree`: for every name, the part that is found from the end is the last of those that are split from the
  front, and these and the separators tell the name.
-/
import Mathlib.Data.List.DropRight
import TaggedText.Name

namespace TaggedText

namespace Text

/-- the parts one after another, each but the last with a separator behind it -/
def interleave (parts : List Text) (separators : List Char) : Text :=
  (List.zipWith (· ++ ·) parts (separators.map (fun c => [c]) ++ [[]])).flatten

variable {p : Char → Bool} {t v : Text} {c : Char}

theorem split_eq_splitOnP (p : Char → Bool) (t : Text) : split p t = t.splitOnP p := by
  induction t with
  | nil => simp [split]
  | cons c t ih =>
    have hfold : split p (c :: t) = if p c then [] :: split p t else consFirst c (split p t) := rfl
    rw [hfold, ih, List.splitOnP_cons_eq_if_modifyHead]
    split_ifs
    · rfl
    · cases hsplit : t.splitOnP p with
      | nil => exact absurd hsplit (List.splitOnP_ne_nil p t)
      | cons first parts => rfl

theorem split_ne_nil (p : Char → Bool) (t : Text) : split p t ≠ [] := by
  rw [split_eq_splitOnP]
  exact List.splitOnP_ne_nil p t

/-- a text without separators is its only part -/
theorem split_of_forall (h : ∀ x ∈ t, p x = false) : split p t = [t] := by
  rw [split_eq_splitOnP]
  exact List.splitOnP_eq_singleton h

/-- at a separator the parts before it end, and those behind it begin -/
theorem split_append_cons (t u : Text) (hc : p c = true) : split p (t ++ c :: u) = split p t ++ split p u := by
  simp only [split_eq_splitOnP]
  exact List.splitOnP_append_cons t u hc

/-- the parts with the separators between them are the text -/
theorem interleave_split (p : Char → Bool) (t : Text) : interleave (split p t) (t.filter p) = t := by
  rw [split_eq_splitOnP]
  exact List.splitOnP_spec t

/-! ## The last separator -/

/-- **Induction on separators**: what holds of texts without separators, and goes on from what stands before a
separator to all that has no other separator behind it, holds of every text. -/
@[elab_as_elim]
theorem induction_separators (p : Char → Bool) {motive : Text → Prop}
    (free : ∀ v, (∀ x ∈ v, p x = false) → motive v)
    (behind : ∀ t c v, p c = true → (∀ x ∈ v, p x = false) → motive t → motive (t ++ c :: v)) (t : Text) :
    motive t := by
  -- behind any text may stand one without separators, to which a character goes over that is no separator
  have hall : ∀ v, (∀ x ∈ v, p x = false) → motive (t ++ v) := by
    induction t using List.reverseRecOn with
    | nil => exact free
    | append_singleton t c ih =>
      intro v hv
      rw [← List.append_cons]
      cases hc : p c with
      | true =>
        have ht : motive t := by simpa using ih [] (List.forall_mem_nil _)
        exact behind t c v hc hv ht
      | false => exact ih (c :: v) (List.forall_mem_cons.2 ⟨hc, hv⟩)
  simpa using hall [] (List.forall_mem_nil _)

/-- behind the last separator stands the last part -/
theorem split_append_cons_free (t : Text) (hc : p c = true) (hv : ∀ x ∈ v, p x = false) :
    split p (t ++ c :: v) = split p t ++ [v] := by
  rw [split_append_cons t v hc, split_of_forall hv]

/-- no part has a separator in it -/
theorem forall_mem_split (p : Char → Bool) (t : Text) : ∀ part ∈ split p t, ∀ x ∈ part, p x = false := by
  induction t using induction_separators p with
  | free v hv =>
    rw [split_of_forall hv]
    exact List.forall_mem_singleton.2 hv
  | behind t c v hc hv ih =>
    rw [split_append_cons_free t hc hv]
    exact List.forall_mem_append.2 ⟨ih, List.forall_mem_singleton.2 hv⟩

/-- there is one part more than there are separators -/
theorem length_split (p : Char → Bool) (t : Text) : (split p t).length = t.countP p + 1 := by
  have hnone : ∀ {v : Text}, (∀ x ∈ v, p x = false) → v.countP p = 0 :=
    fun hv => List.countP_eq_zero.2 fun x hx => by simp [hv x hx]
  induction t using induction_separators p with
  | free v hv => rw [split_of_forall hv, hnone hv, List.length_singleton]
  | behind t c v hc hv ih =>
    rw [split_append_cons_free t hc hv, List.length_append, ih, List.countP_append, List.countP_cons_of_pos hc, hnone hv,
      List.length_singleton]

/-- **The last part** is found from the end: it is what follows the last separator. -/
theorem getLast?_split (p : Char → Bool) (t : Text) : (split p t).getLast? = some (t.rtakeWhile (!p ·)) := by
  induction t using induction_separators p with
  | free v hv =>
    have hself : v.rtakeWhile (!p ·) = v := List.rtakeWhile_eq_self_iff.2 fun x hx => by simp [hv x hx]
    rw [split_of_forall hv, hself, List.getLast?_singleton]
  | behind t c v hc hv ih =>
    have hbehind : (t ++ c :: v).rtakeWhile (!p ·) = v := by
      have hrun : ∀ x ∈ v.reverse, (!p x) = true := fun x hx => by simp [hv x (List.mem_reverse.1 hx)]
      rw [List.rtakeWhile, List.reverse_append, List.reverse_cons, List.append_assoc,
        List.takeWhile_append_of_pos hrun, List.singleton_append, List.takeWhile_cons_of_neg (by simp [hc]),
        List.append_nil, List.reverse_reverse]
    rw [split_append_cons_free t hc hv, hbehind, List.getLast?_concat]

end Text

namespace Name

/-- **Two views of a name.** For every name, also one that is empty, begins or ends with separators or has some side by
side: what is unscoped is the last of the parts. There is at least one part, none has a separator in it, there is one
more of them than of separators, and with the separators between them, in their order, they are the name. -/
theorem parts_agree (name : Text) :
    (parts name).getLast? = some (unscoped name) ∧
      (parts name ≠ [] ∧ ∀ part ∈ parts name, ':' ∉ part ∧ '.' ∉ part) ∧
      (parts name).length = (name.filter isSeparator).length + 1 ∧
      Text.interleave (parts name) (name.filter isSeparator) = name := by
  have hfree : ∀ part ∈ parts name, ':' ∉ part ∧ '.' ∉ part := by
    intro part hpart
    have hnone := Text.forall_mem_split isSeparator name part hpart
    exact ⟨fun h => absurd (hnone ':' h) (by decide), fun h => absurd (hnone '.' h) (by decide)⟩
  have hlength : (parts name).length = (name.filter isSeparator).length + 1 := by
    rw [← List.countP_eq_length_filter]
    exact Text.length_split isSeparator name
  exact ⟨Text.getLast?_split isSeparator name, ⟨Text.split_ne_nil isSeparator name, hfree⟩, hlength,
    Text.interleave_split isSeparator name⟩

/-- separators at both ends and side by side -/
example : parts [':', 'a', '.', ':', 'b', '.'] = [[], ['a'], [], ['b'], []] ∧
    unscoped [':', 'a', '.', ':', 'b', '.'] = [] := by decide

end Name

end TaggedText
