/-
Lines and columns.

A table of lines lists the offset 0 and the offset after each newline (`LineTable.toList_starts`). The newlines before
an offset split the table in two, so that bisection counts them (`countUpTo_eq`) and the last of them begins the line
of the offset (`getLast_lineStarts`).

Results:
- `LineTable.locate_ofText`: the line and the column of every offset, also of those beyond the end;
- `LineTable.locate_eq_locationAt`: in a text, the column counts the characters since the last newline;
- `LineTable.locate_ofText_take`: a location depends on what stands before it only.
-/
import Mathlib.Data.List.DropRight
import Mathlib.Data.List.GetD
import Mathlib.Tactic
import TaggedText.Location

namespace TaggedText

namespace Text

/-- the offsets after the newlines of a text whose first character has the offset given -/
def afterNewlines (offset : Nat) : Text → List Nat
  | [] => []
  | c :: t => if c = '\n' then (offset + 1) :: afterNewlines (offset + 1) t else afterNewlines (offset + 1) t

/-- the offsets at which lines begin: the start of the text, and after each newline -/
def lineStarts (t : Text) : List Nat :=
  0 :: afterNewlines 0 t

/-- what stands before the end of the text on its last line -/
def lastLine (t : Text) : Text :=
  t.rtakeWhile (· != '\n')

/-- where the line of an offset begins -/
def lineStart (t : Text) (p : Nat) : Nat :=
  (t.take p).length - (lastLine (t.take p)).length

/-- the line and the column of an offset: one more than the newlines before it, and one more than the characters
between it and the last of these newlines, or the start of the text -/
def locationAt (t : Text) (p : Nat) : Location :=
  ⟨1 + (t.take p).count '\n', 1 + (lastLine (t.take p)).length⟩

/-! ## Newlines -/

theorem lineStarts_ne_nil (t : Text) : lineStarts t ≠ [] :=
  List.cons_ne_nil 0 _

theorem afterNewlines_append (offset : Nat) (u v : Text) :
    afterNewlines offset (u ++ v) = afterNewlines offset u ++ afterNewlines (offset + u.length) v := by
  induction u generalizing offset with
  | nil => rfl
  | cons c u ih =>
    have hlength : offset + 1 + u.length = offset + (c :: u).length := by
      rw [List.length_cons]
      omega
    rw [List.cons_append, afterNewlines, afterNewlines, ih, hlength]
    split_ifs <;> rfl

theorem length_afterNewlines (offset : Nat) (t : Text) : (afterNewlines offset t).length = t.count '\n' := by
  induction t generalizing offset with
  | nil => rfl
  | cons c t ih =>
    rw [afterNewlines, List.count_cons]
    by_cases hc : c = '\n'
    · simp [hc, ih]
    · simp [hc, ih]

/-- a line begins after its newline, and no later than where the text ends -/
theorem bounds_of_mem_afterNewlines {offset n : Nat} {t : Text} (h : n ∈ afterNewlines offset t) :
    offset < n ∧ n ≤ offset + t.length := by
  induction t generalizing offset with
  | nil => cases h
  | cons c t ih =>
    have hrest : n ∈ afterNewlines (offset + 1) t → offset < n ∧ n ≤ offset + (c :: t).length := by
      intro hmem
      obtain ⟨hlt, hle⟩ := ih hmem
      rw [List.length_cons]
      omega
    rw [afterNewlines] at h
    split_ifs at h with hc
    · rcases List.mem_cons.1 h with rfl | hmem
      · rw [List.length_cons]
        omega
      · exact hrest hmem
    · exact hrest h

theorem lineStarts_append (u v : Text) : lineStarts (u ++ v) = lineStarts u ++ afterNewlines u.length v := by
  rw [lineStarts, afterNewlines_append, Nat.zero_add]
  rfl

theorem length_lineStarts (t : Text) : (lineStarts t).length = 1 + t.count '\n' := by
  rw [lineStarts, List.length_cons, length_afterNewlines, Nat.add_comm]

theorem le_of_mem_lineStarts {n : Nat} {t : Text} (h : n ∈ lineStarts t) : n ≤ t.length := by
  rcases List.mem_cons.1 h with rfl | hn
  · exact Nat.zero_le _
  · simpa using (bounds_of_mem_afterNewlines hn).2

theorem lastLine_concat (t : Text) (c : Char) :
    lastLine (t ++ [c]) = if c = '\n' then [] else lastLine t ++ [c] := by
  rw [lastLine, List.rtakeWhile_concat]
  by_cases hc : c = '\n'
  · simp [hc]
  · simp [hc, lastLine]

theorem length_lastLine_le (t : Text) : (lastLine t).length ≤ t.length :=
  (List.rtakeWhile_suffix _ t).length_le

/-- the last line begins so many characters before the end as it is long -/
theorem getLast_lineStarts (t : Text) :
    (lineStarts t).getLast (lineStarts_ne_nil t) = t.length - (lastLine t).length := by
  induction t using List.reverseRecOn with
  | nil => rfl
  | append_singleton t c ih =>
    have hstarts : lineStarts (t ++ [c]) = lineStarts t ++ if c = '\n' then [t.length + 1] else [] :=
      lineStarts_append t [c]
    have hle := length_lastLine_le t
    by_cases hc : c = '\n'
    · subst hc
      rw [if_pos rfl] at hstarts
      simp [hstarts, lastLine_concat]
    · rw [if_neg hc, List.append_nil] at hstarts
      simp only [hstarts, lastLine_concat, if_neg hc, List.length_append, List.length_singleton, ih]
      omega

end Text

/-! ## Bisection -/

namespace LineTable

theorem toList_extend (starts : Array Nat) (offset : Nat) (t : Text) :
    (extend starts offset t).toList = starts.toList ++ Text.afterNewlines offset t := by
  induction t generalizing starts offset with
  | nil => simp [extend, Text.afterNewlines]
  | cons c t ih =>
    rw [extend, ih, Text.afterNewlines]
    split_ifs <;> simp

theorem toList_starts (t : Text) : (ofText t).starts.toList = Text.lineStarts t :=
  toList_extend #[0] 0 t

/-- where the entries up to `p` stand before all others, bisection counts them -/
theorem countUpTo_eq {a : Array Nat} {p lo hi : Nat} {front back : List Nat} (ha : a.toList = front ++ back)
    (hfront : ∀ n ∈ front, n ≤ p) (hback : ∀ n ∈ back, p < n) (hlo : lo ≤ front.length) (hhi : front.length ≤ hi)
    (hsize : hi ≤ a.size) : countUpTo a p lo hi = front.length := by
  have hget : ∀ i, i < a.size → a.getD i 0 = (front ++ back).getD i 0 := by
    intro i hi
    rw [← ha]
    simp [hi]
  have hlength : a.size = front.length + back.length := by rw [← Array.length_toList, ha, List.length_append]
  fun_induction countUpTo a p lo hi with
  | case1 lo hi hlt mid hle ih =>
    -- what stands at `mid` is not greater, so it is one of those in front
    refine ih ?_ hhi hsize
    by_contra hnot
    have hmem : (front ++ back).getD mid 0 ∈ back := by
      rw [List.getD_append_right _ _ _ _ (by omega), List.getD_eq_getElem _ _ (by omega)]
      exact List.getElem_mem _
    rw [hget mid (by omega)] at hle
    exact absurd hle (Nat.not_le.2 (hback _ hmem))
  | case2 lo hi hlt mid hnle ih =>
    -- what stands at `mid` is greater, so none of those in front stands there
    refine ih hlo ?_ (by omega)
    by_contra hnot
    have hmem : (front ++ back).getD mid 0 ∈ front := by
      rw [List.getD_append _ _ _ _ (by omega), List.getD_eq_getElem _ _ (by omega)]
      exact List.getElem_mem _
    rw [hget mid (by omega)] at hnle
    exact hnle (hfront _ hmem)
  | case3 lo hi hnlt => omega

/-! ## Locations -/

/-- the lines that begin up to an offset, and those that begin after it -/
theorem toList_starts_split (t : Text) (p : Nat) :
    (ofText t).starts.toList =
      Text.lineStarts (t.take p) ++ Text.afterNewlines (t.take p).length (t.drop p) := by
  rw [toList_starts, ← Text.lineStarts_append, List.take_append_drop]

/-- bisection counts the newlines before an offset -/
theorem countUpTo_starts (t : Text) (p : Nat) :
    countUpTo (ofText t).starts p 0 (ofText t).starts.size = (Text.lineStarts (t.take p)).length := by
  have hsplit := toList_starts_split t p
  have hfront : ∀ n ∈ Text.lineStarts (t.take p), n ≤ p :=
    fun n hn => (Text.le_of_mem_lineStarts hn).trans (List.length_take_le p t)
  have hback : ∀ n ∈ Text.afterNewlines (t.take p).length (t.drop p), p < n := by
    intro n hn
    rcases Nat.lt_or_ge t.length p with hp | hp
    · rw [List.drop_eq_nil_of_le hp.le] at hn
      cases hn
    · have hbounds := Text.bounds_of_mem_afterNewlines hn
      rw [List.length_take_of_le hp] at hbounds
      exact hbounds.1
  have hsize : (Text.lineStarts (t.take p)).length ≤ (ofText t).starts.size := by
    rw [← Array.length_toList, hsplit, List.length_append]
    exact Nat.le_add_right _ _
  exact countUpTo_eq hsplit hfront hback (Nat.zero_le _) hsize le_rfl

/-- the entry for the line of an offset is where that line begins -/
theorem getElem?_starts (t : Text) (p : Nat) :
    (ofText t).starts[(Text.lineStarts (t.take p)).length - 1]? = some (t.lineStart p) := by
  have hlt : (Text.lineStarts (t.take p)).length - 1 < (Text.lineStarts (t.take p)).length := by
    rw [Text.length_lineStarts]
    omega
  calc (ofText t).starts[(Text.lineStarts (t.take p)).length - 1]?
      = (ofText t).starts.toList[(Text.lineStarts (t.take p)).length - 1]? := Array.getElem?_toList.symm
    _ = (Text.lineStarts (t.take p))[(Text.lineStarts (t.take p)).length - 1]? := by
        rw [toList_starts_split t p, List.getElem?_append_left hlt]
    _ = some ((Text.lineStarts (t.take p)).getLast (Text.lineStarts_ne_nil _)) := by
        rw [List.getLast_eq_getElem, List.getElem?_eq_getElem hlt]
    _ = some (t.lineStart p) := by rw [Text.getLast_lineStarts, Text.lineStart]

/-- **Locations.** The line of an offset is one more than the newlines before it. Its column is counted from the start of
that line, on and on beyond the end of the text. -/
theorem locate_ofText (t : Text) (p : Nat) :
    (ofText t).locate p = ⟨1 + (t.take p).count '\n', p - t.lineStart p + 1⟩ := by
  simp only [locate, countUpTo_starts]
  rw [Array.getD_eq_getD_getElem?, getElem?_starts, Option.getD_some, Text.length_lineStarts]

/-- in a text, a location counts newlines and the characters since the last of them -/
theorem locate_eq_locationAt {t : Text} {p : Nat} (h : p ≤ t.length) : (ofText t).locate p = t.locationAt p := by
  have hle := Text.length_lastLine_le (t.take p)
  rw [List.length_take_of_le h] at hle
  rw [locate_ofText, Text.locationAt, Text.lineStart, List.length_take_of_le h, Location.mk.injEq]
  omega

/-- what follows an offset does not change its location -/
theorem locate_ofText_take {t : Text} {p q : Nat} (hq : q ≤ p) (hp : p ≤ t.length) :
    (ofText (t.take p)).locate q = (ofText t).locate q := by
  have hlength : (t.take p).length = p := List.length_take_of_le hp
  rw [locate_eq_locationAt (hq.trans hp), locate_eq_locationAt (hlength.symm ▸ hq), Text.locationAt, Text.locationAt,
    List.take_take, min_eq_left hq]

end LineTable

end TaggedText
