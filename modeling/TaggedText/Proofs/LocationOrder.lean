/-
Locations and offsets.

One offset further on, a newline between the two begins a line, and any other character, or none behind the end of the
text, moves the column on (`LineTable.locate_succ`). So locations ascend with their offsets, from line to line and
within each line. The table of lines tells where a line begins, which leads back from a location to its offset
(`LineTable.offsetOf_locate`).

Results:
- `locate_exactly`: whatever a cursor over a text has done, the locations that it tells are those of the offsets in the
  text, in their order, and no two offsets have the same, as far as their columns are sizes (`Text.Counts`).
-/
import TaggedText.Proofs.CursorRuns

namespace TaggedText

/-! ## Where lines begin -/

namespace Text

/-- the line of offset `p` begins at the start of the text, or behind the last newline before `p` -/
inductive LineBegins (t : Text) (p : Nat) : Nat → Prop
  | first (hnone : ∀ i < p, t[i]? ≠ some '\n') : LineBegins t p 0
  | behind (i : Nat) (hi : i < p) (hnewline : t[i]? = some '\n') (hlast : ∀ j, i < j → j < p → t[j]? ≠ some '\n') :
    LineBegins t p (i + 1)

variable {t : Text} {p : Nat}

theorem lineStart_zero (t : Text) : lineStart t 0 = 0 := by
  rw [lineStart, List.take_zero]
  rfl

theorem lineStart_le (t : Text) (p : Nat) : lineStart t p ≤ p :=
  (Nat.sub_le _ _).trans (List.length_take_le p t)

theorem lineStart_succ (t : Text) (p : Nat) :
    lineStart t (p + 1) = if t[p]? = some '\n' then p + 1 else lineStart t p := by
  rw [lineStart, List.take_add_one]
  cases hc : t[p]? with
  | none => simp [lineStart]
  | some c =>
    have hp : p < t.length := (List.getElem?_eq_some_iff.1 hc).1
    have hlength : (t.take p).length = p := List.length_take_of_le hp.le
    have hline := length_lastLine_le (t.take p)
    rw [Option.toList_some, lastLine_concat, List.length_append, hlength, List.length_singleton]
    by_cases hnewline : c = '\n'
    · simp [hnewline]
    · simp only [hnewline, Option.some.injEq, if_false, lineStart, hlength, List.length_append, List.length_singleton]
      omega

theorem count_newline_succ (t : Text) (p : Nat) :
    (t.take (p + 1)).count '\n' = (t.take p).count '\n' + if t[p]? = some '\n' then 1 else 0 := by
  rw [List.take_add_one, List.count_append]
  cases t[p]? with
  | none => rfl
  | some c => by_cases hnewline : c = '\n' <;> simp [hnewline]

/-- a line goes on until there is a newline -/
theorem LineBegins.succ {s : Nat} (h : t.LineBegins p s) (hp : t[p]? ≠ some '\n') : t.LineBegins (p + 1) s := by
  have hnext : ∀ {i}, i < p + 1 → i < p ∨ i = p := Nat.lt_succ_iff_lt_or_eq.1
  cases h with
  | first hnone =>
    refine .first fun i hi => ?_
    rcases hnext hi with hlt | rfl
    · exact hnone i hlt
    · exact hp
  | behind i hi hnewline hlast =>
    refine .behind i (hi.trans (Nat.lt_succ_self p)) hnewline fun j hij hj => ?_
    rcases hnext hj with hlt | rfl
    · exact hlast j hij hlt
    · exact hp

theorem lineBegins_lineStart (t : Text) (p : Nat) : t.LineBegins p (lineStart t p) := by
  induction p with
  | zero =>
    rw [lineStart_zero]
    exact .first fun i hi => absurd hi (Nat.not_lt_zero i)
  | succ p ih =>
    rw [lineStart_succ]
    split_ifs with hnewline
    · exact .behind p (Nat.lt_succ_self p) hnewline fun j hpj hj => absurd hj (by omega)
    · exact ih.succ hnewline

end Text

/-! ## The order of locations -/

/-- on an earlier line, or on the same line in an earlier column -/
def Location.Before (a b : Location) : Prop :=
  a.line < b.line ∨ (a.line = b.line ∧ a.column < b.column)

theorem Location.Before.trans {a b c : Location} (hab : a.Before b) (hbc : b.Before c) : a.Before c := by
  unfold Before at *
  omega

namespace LineTable

/-- the offset of a location: its column is counted from where its line begins -/
def offsetOf (table : LineTable) (location : Location) : Nat :=
  table.starts.getD (location.line - 1) 0 + (location.column - 1)

variable {t : Text} {p q : Nat}

/-- **One offset further on**: a newline begins the next line, everything else moves the column on. -/
theorem locate_succ (t : Text) (p : Nat) :
    (ofText t).locate (p + 1) =
      if t[p]? = some '\n' then ⟨((ofText t).locate p).line + 1, 1⟩
      else ⟨((ofText t).locate p).line, ((ofText t).locate p).column + 1⟩ := by
  have hle := t.lineStart_le p
  rw [locate_ofText, locate_ofText, Text.count_newline_succ, Text.lineStart_succ]
  split_ifs
  · simp only [Nat.sub_self, Nat.zero_add, Nat.add_assoc]
  · rw [Nat.succ_sub hle, Nat.add_zero]

theorem locate_before_succ (t : Text) (p : Nat) : ((ofText t).locate p).Before ((ofText t).locate (p + 1)) := by
  rw [locate_succ]
  split_ifs
  · exact Or.inl (Nat.lt_succ_self _)
  · exact Or.inr ⟨rfl, Nat.lt_succ_self _⟩

/-- locations ascend with their offsets -/
theorem locate_before (h : p < q) : ((ofText t).locate p).Before ((ofText t).locate q) := by
  induction q, h using Nat.le_induction with
  | base => exact locate_before_succ t p
  | succ q _ ih => exact ih.trans (locate_before_succ t q)

/-- the table has an entry for the line of an offset, which is where this line begins -/
theorem getElem?_starts_line (t : Text) (p : Nat) :
    (ofText t).starts[((ofText t).locate p).line - 1]? = some (t.lineStart p) := by
  rw [locate_ofText, ← Text.length_lineStarts]
  exact getElem?_starts t p

/-- a location tells its offset -/
theorem offsetOf_locate (t : Text) (p : Nat) : (ofText t).offsetOf ((ofText t).locate p) = p := by
  have hle := t.lineStart_le p
  rw [offsetOf, Array.getD_eq_getD_getElem?, getElem?_starts_line, locate_ofText, Option.getD_some]
  simp only
  omega

end LineTable

/-! ## Columns that are sizes -/

namespace Text

/-- the offset is a size, and so is its column: there is a greater size, or a newline before the offset -/
def Counts (t : Text) (p : Nat) : Prop :=
  p < Size.limit ∧ (p + 1 < Size.limit ∨ '\n' ∈ t.take p)

variable {t : Text} {p s : Nat}

/-- of all sizes, only the greatest can have a column that is no size -/
theorem not_counts_iff (hp : p < Size.limit) : ¬ t.Counts p ↔ p + 1 = Size.limit ∧ '\n' ∉ t.take p := by
  rw [Counts, and_iff_right hp, not_or]
  exact and_congr_left fun _ => by omega

theorem mem_take_of_newline {i : Nat} (hi : i < p) (h : t[i]? = some '\n') : '\n' ∈ t.take p := by
  rw [← List.getElem?_take_of_lt hi] at h
  exact List.mem_of_getElem? h

/-- only the first line begins at the start of the text -/
theorem LineBegins.pos_iff (h : t.LineBegins p s) : 0 < s ↔ '\n' ∈ t.take p := by
  cases h with
  | first hnone =>
    refine iff_of_false (Nat.lt_irrefl 0) fun hmem => ?_
    obtain ⟨i, hi⟩ := List.mem_iff_getElem?.1 hmem
    have hlt : i < p := (List.getElem?_eq_some_iff.1 hi).1.trans_le (List.length_take_le p t)
    exact hnone i hlt (List.getElem?_take_of_lt hlt ▸ hi)
  | behind i hi hnewline _ => exact iff_of_true (Nat.succ_pos i) (mem_take_of_newline hi hnewline)

theorem Counts.column_lt (h : t.Counts p) : p - t.lineStart p + 1 < Size.limit := by
  obtain ⟨hp, hlt | hnewline⟩ := h
  · omega
  · have hpos := (t.lineBegins_lineStart p).pos_iff.2 hnewline
    have hle := t.lineStart_le p
    omega

end Text

namespace LineTable

variable {t : Text} {p : Nat}

theorem locateSized_ofText (overflow : Overflow) (t : Text) (p : Nat) :
    (ofText t).locateSized overflow p =
      (Size.add overflow (p - t.lineStart p) 1).map (⟨1 + (t.take p).count '\n', ·⟩) := by
  simp only [locateSized, countUpTo_starts]
  rw [Array.getD_eq_getD_getElem?, getElem?_starts, Option.getD_some, Text.length_lineStarts]

theorem locateSized_of_counts (overflow : Overflow) (h : t.Counts p) :
    (ofText t).locateSized overflow p = some ((ofText t).locate p) := by
  rw [locateSized_ofText, Size.add_of_lt overflow h.column_lt, locate_ofText]
  rfl

/-- the column of the greatest size on the first line is no size -/
theorem locateSized_of_not_counts (overflow : Overflow) (hp : p < Size.limit) (h : ¬ t.Counts p) :
    (ofText t).locateSized overflow p =
      match overflow with
      | .stops => none
      | .wraps => some ⟨1, 0⟩ := by
  obtain ⟨hsum, hnewline⟩ := (Text.not_counts_iff hp).1 h
  have hstart : t.lineStart p = 0 :=
    Nat.eq_zero_of_not_pos (mt (t.lineBegins_lineStart p).pos_iff.1 hnewline)
  rw [locateSized_ofText, hstart, Nat.sub_zero, List.count_eq_zero.2 hnewline]
  cases overflow <;> simp [Size.add, hsum]

end LineTable

open Cursor in
/-- **Locations.** Whatever a cursor over a text has done, and whatever an addition does whose result is no size: the
line of an offset, also of one beyond the end, begins at the entry that the table has for it, and not behind the offset.
If the column of the offset is a size, the cursor tells of it a line that is one more than the newlines before it, and a
column that is counted from where this line begins; neither number is greater than the offset by more than one, and the
table leads back to the offset. These locations ascend with their offsets, so that no two offsets have the same. The
column of an offset is no size only for the greatest size and without a newline before it: then the program is stopped,
or it counts from zero. -/
theorem locate_exactly (overflow : Overflow) (classifier : Classifier) (t : Text) (operations : List Operation) :
    let c := (Cursor.ofText classifier t).performAll operations
    (∀ p, ∃ s, t.LineBegins p s ∧ (c.source.lines.starts[(t.take p).count '\n']? = some s ∧ s ≤ p) ∧
      (t.Counts p → ∃ l, l = ⟨1 + (t.take p).count '\n', p - s + 1⟩ ∧ c.locateSized overflow p = some l ∧
        (1 ≤ l.line ∧ l.line ≤ p + 1 ∧ l.column ≤ p + 1 ∧ l.column < Size.limit) ∧
        c.source.lines.offsetOf l = p)) ∧
    (∀ p q, p < q → t.Counts q → ∃ a b, c.locateSized overflow p = some a ∧ c.locateSized overflow q = some b ∧
      a.Before b) ∧
    (∀ p q, t.Counts p → t.Counts q → (c.locateSized overflow p = c.locateSized overflow q ↔ p = q)) ∧
    ∀ p, p < Size.limit → ¬ t.Counts p →
      (p + 1 = Size.limit ∧ '\n' ∉ t.take p) ∧
      c.locateSized overflow p =
        match overflow with
        | .stops => none
        | .wraps => some ⟨1, 0⟩ := by
  intro c
  have h : c.Over classifier t := (over_ofText classifier t).performAll operations
  have hlines : c.source.lines = LineTable.ofText t := by rw [h.source_eq]; rfl
  have hlocate : ∀ p, c.locateSized overflow p = (LineTable.ofText t).locateSized overflow p :=
    fun p => by rw [Cursor.locateSized, hlines]
  have hcounts : ∀ {p}, t.Counts p → (LineTable.ofText t).locateSized overflow p = some ((LineTable.ofText t).locate p) :=
    LineTable.locateSized_of_counts overflow
  simp only [hlocate, hlines]
  refine ⟨?_, ?_, ?_, ?_⟩
  · intro p
    have hcount : (t.take p).count '\n' ≤ p := List.count_le_length.trans (List.length_take_le p t)
    have hlocation := LineTable.locate_ofText t p
    have hentry := LineTable.getElem?_starts_line t p
    have hoffset := LineTable.offsetOf_locate t p
    rw [hlocation] at hentry hoffset
    rw [Nat.add_sub_cancel_left] at hentry
    refine ⟨t.lineStart p, t.lineBegins_lineStart p, ⟨hentry, t.lineStart_le p⟩, fun hp => ?_⟩
    refine ⟨_, rfl, (hcounts hp).trans (congrArg some hlocation), ⟨Nat.le_add_right 1 _, ?_, ?_, hp.column_lt⟩, hoffset⟩
    · simp only
      omega
    · exact Nat.succ_le_succ (Nat.sub_le p _)
  · intro p q hpq hq
    have hp : t.Counts p := ⟨hpq.trans hq.1, Or.inl ((Nat.succ_le_of_lt hpq).trans_lt hq.1)⟩
    exact ⟨_, _, hcounts hp, hcounts hq, LineTable.locate_before hpq⟩
  · intro p q hp hq
    rw [hcounts hp, hcounts hq]
    refine ⟨fun heq => ?_, fun heq => congrArg _ (congrArg _ heq)⟩
    rw [← LineTable.offsetOf_locate t p, Option.some.inj heq, LineTable.offsetOf_locate]
  · intro p hp hno
    exact ⟨Text.not_counts_iff hp |>.1 hno, LineTable.locateSized_of_not_counts overflow hp hno⟩

/-- on a text without newlines, the greatest size is located nowhere, or before all other offsets -/
theorem not_located_at_greatest_size :
    (LineTable.ofText ['a']).locateSized .stops (Size.limit - 1) = none ∧
      (LineTable.ofText ['a']).locateSized .wraps (Size.limit - 1) = some ⟨1, 0⟩ ∧
      (LineTable.ofText ['a']).locateSized .wraps 0 = some ⟨1, 1⟩ ∧ ¬ Location.Before ⟨1, 1⟩ ⟨1, 0⟩ :=
  ⟨by cbv, by cbv, by cbv, by unfold Location.Before; decide⟩

/-- a newline is at the end of its line, the next line begins behind it, and beyond the end columns are counted on -/
example : (List.range 5).map (LineTable.ofText ['a', '\n', '\n']).locate =
    [⟨1, 1⟩, ⟨1, 2⟩, ⟨2, 1⟩, ⟨3, 1⟩, ⟨3, 2⟩] := by decide +kernel

end TaggedText
