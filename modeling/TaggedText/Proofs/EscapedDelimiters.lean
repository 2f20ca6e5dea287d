/-
Delimiters behind backslashes.

Reading up to a delimiter that is not escaped, `Text.splitUnescaped` keeps one bit: whether the next character is
escaped. This bit is a parity. A character is escaped exactly if the backslashes right before it, back to where the
read began, are odd in number (`Text.endBackslashes`), since they escape each other in pairs. `Text.Free` says so of a
delimiter, and the read stops at the first that is free (`Text.splitUnescaped_cases`).

Results:
- `takeUntilUnescaped_exactly`: in any state of a cursor over a text, the read stops behind the first free delimiter;
  where there is none, or the delimiter is the backslash, it fails at the end of the text.
-/
import Mathlib.Data.List.DropRight
import TaggedText.Proofs.CursorRuns

namespace TaggedText

namespace Text

/-! ## Backslashes before a delimiter -/

/-- how many backslashes stand at the end of the text, one right before another -/
def endBackslashes (t : Text) : Nat :=
  (t.rtakeWhile (· == '\\')).length

@[simp]
theorem endBackslashes_nil : endBackslashes [] = 0 :=
  rfl

/-- one more backslash changes the parity, and any other character leaves no backslash at the end -/
theorem even_endBackslashes_concat {t : Text} {c : Char} :
    Even (endBackslashes (t ++ [c])) ↔ (c = '\\' → ¬ Even (endBackslashes t)) := by
  by_cases hc : c = '\\'
  · simp [endBackslashes, hc, Nat.even_add_one]
  · simp [endBackslashes, hc]

/-- behind the characters `passed`, a text goes on with `run` and then a delimiter that no backslash escapes, with
`rest` after it -/
structure Free (delimiter : Char) (passed run rest t : Text) : Prop where
  split : t = run ++ delimiter :: rest
  even : Even (endBackslashes (passed ++ run))

variable {delimiter c : Char} {passed before run rest t : Text} {escaped : Bool}

theorem not_free_nil : ¬ Free delimiter passed run rest [] :=
  fun h => List.append_ne_nil_of_right_ne_nil run (List.cons_ne_nil delimiter rest) h.split.symm

/-- a free delimiter is the first character, or it comes after this -/
theorem free_cons_iff :
    Free delimiter passed run rest (c :: t) ↔
      (run = [] ∧ c = delimiter ∧ rest = t ∧ Even (endBackslashes passed)) ∨
        ∃ u, run = c :: u ∧ Free delimiter (passed ++ [c]) u rest t := by
  refine ⟨?_, ?_⟩
  · rintro ⟨hsplit, heven⟩
    cases run with
    | nil =>
      obtain ⟨rfl, rfl⟩ := List.cons.inj hsplit
      rw [List.append_nil] at heven
      exact Or.inl ⟨rfl, rfl, rfl, heven⟩
    | cons d u =>
      obtain ⟨rfl, rfl⟩ := List.cons.inj hsplit
      rw [List.append_cons] at heven
      exact Or.inr ⟨u, rfl, rfl, heven⟩
  · rintro (⟨rfl, rfl, rfl, heven⟩ | ⟨u, rfl, rfl, heven⟩)
    · exact ⟨rfl, by rwa [List.append_nil]⟩
    · rw [← List.append_cons] at heven
      exact ⟨rfl, heven⟩

/-- no free delimiter comes before this one -/
structure FirstFree (delimiter : Char) (passed run rest t : Text) : Prop where
  free : Free delimiter passed run rest t
  first : ∀ run' rest', Free delimiter passed run' rest' t → run.length ≤ run'.length

theorem firstFree_here (h : Even (endBackslashes passed)) : FirstFree delimiter passed [] t (delimiter :: t) where
  free := free_cons_iff.2 (Or.inl ⟨rfl, rfl, rfl, h⟩)
  first _ _ _ := Nat.zero_le _

/-- a character that is no free delimiter is passed over -/
theorem FirstFree.cons (h : FirstFree delimiter (passed ++ [c]) run rest t)
    (hc : ¬ (c = delimiter ∧ Even (endBackslashes passed))) : FirstFree delimiter passed (c :: run) rest (c :: t) where
  free := free_cons_iff.2 (Or.inr ⟨run, rfl, h.free⟩)
  first := by
    intro run' rest' hfree
    rcases free_cons_iff.1 hfree with ⟨-, hdelimiter, -, heven⟩ | ⟨u, rfl, hu⟩
    · exact absurd ⟨hdelimiter, heven⟩ hc
    · exact Nat.succ_le_succ (h.first u rest' hu)

/-! ## Splitting -/

/-- a read that goes on behind `passed` has come to its first free delimiter, or there is none and it fails -/
def SplitsAtFirst (delimiter : Char) (passed t : Text) (result : Option (Text × Text)) : Prop :=
  (result = none ∧ ∀ run rest, ¬ Free delimiter passed run rest t) ∨
    ∃ run rest, result = some (passed ++ run, delimiter :: rest) ∧ FirstFree delimiter passed run rest t

theorem SplitsAtFirst.cons {result : Option (Text × Text)} (h : SplitsAtFirst delimiter (passed ++ [c]) t result)
    (hc : ¬ (c = delimiter ∧ Even (endBackslashes passed))) : SplitsAtFirst delimiter passed (c :: t) result := by
  rcases h with ⟨hnone, hno⟩ | ⟨run, rest, hsome, hfirst⟩
  · refine Or.inl ⟨hnone, fun run rest hfree => ?_⟩
    rcases free_cons_iff.1 hfree with ⟨-, hdelimiter, -, heven⟩ | ⟨u, -, hu⟩
    · exact hc ⟨hdelimiter, heven⟩
    · exact hno u rest hu
  · exact Or.inr ⟨c :: run, rest, by rw [hsome, ← List.append_cons], hfirst.cons hc⟩

/-- **The bit is a parity.** A read that knows whether the backslashes behind it are odd in number splits the text at
its first free delimiter. -/
theorem splitUnescaped_cases (hdelimiter : delimiter ≠ '\\')
    (hescaped : escaped = true ↔ ¬ Even (endBackslashes before.reverse)) :
    SplitsAtFirst delimiter before.reverse t (splitUnescaped delimiter escaped before t) := by
  fun_induction splitUnescaped delimiter escaped before t with
  | case1 => exact Or.inl ⟨rfl, fun _ _ => not_free_nil⟩
  | case2 before c t ih =>
    -- behind an odd number of backslashes any character is escaped
    have hodd : ¬ Even (endBackslashes before.reverse) := hescaped.1 rfl
    rw [List.reverse_cons] at ih
    refine (ih ?_).cons fun h => hodd h.2
    simp [even_endBackslashes_concat, hodd]
  | case3 escaped before t hfree ih =>
    have heven : Even (endBackslashes before.reverse) := not_not.1 fun hodd => hfree (hescaped.2 hodd)
    rw [List.reverse_cons] at ih
    refine (ih ?_).cons fun h => hdelimiter h.1.symm
    simp [even_endBackslashes_concat, heven]
  | case4 escaped before t hfree =>
    have heven : Even (endBackslashes before.reverse) := not_not.1 fun hodd => hfree (hescaped.2 hodd)
    exact Or.inr ⟨[], t, by rw [List.append_nil], firstFree_here heven⟩
  | case5 escaped before c t hfree hc hne ih =>
    rw [List.reverse_cons] at ih
    refine (ih ?_).cons fun h => hne h.1
    simp [even_endBackslashes_concat, hc]

/-- a backslash escapes what follows it and is never the delimiter itself -/
theorem splitUnescaped_backslash (escaped : Bool) (before t : Text) : splitUnescaped '\\' escaped before t = none := by
  fun_induction splitUnescaped '\\' escaped before t with
  | case1 => rfl
  | case2 _ _ _ ih => exact ih
  | case3 _ _ _ _ ih => exact ih
  | case4 => contradiction
  | case5 _ _ _ _ _ _ _ ih => exact ih

end Text

namespace Cursor

/-- a read succeeds with what stands before the first free delimiter, or it fails because there is none -/
theorem takeUntilUnescaped_cases (c : Cursor) (delimiter : Char) :
    (c.takeUntilUnescaped delimiter = (.error (c.toEnd.failure .endOfInput), c.toEnd) ∧
        (delimiter = '\\' ∨ ∀ run rest, ¬ Text.Free delimiter [] run rest c.place.rest)) ∨
      ∃ run rest, c.takeUntilUnescaped delimiter = (.ok run, c.advance (run.length + 1) rest) ∧ delimiter ≠ '\\' ∧
        Text.FirstFree delimiter [] run rest c.place.rest := by
  unfold takeUntilUnescaped
  by_cases hdelimiter : delimiter = '\\'
  · rw [hdelimiter, Text.splitUnescaped_backslash]
    exact Or.inl ⟨rfl, Or.inl rfl⟩
  · have hcases : Text.SplitsAtFirst delimiter [] c.place.rest (Text.splitUnescaped delimiter false [] c.place.rest) :=
      Text.splitUnescaped_cases hdelimiter (by simp)
    rcases hcases with ⟨hnone, hno⟩ | ⟨run, rest, hsome, hfirst⟩
    · rw [hnone]
      exact Or.inl ⟨rfl, Or.inr hno⟩
    · rw [hsome]
      exact Or.inr ⟨run, rest, rfl, hdelimiter, hfirst⟩

variable {c : Cursor} {classifier : Classifier} {t : Text}

theorem Over.offset_toEnd (h : c.Over classifier t) : c.toEnd.offset = t.length :=
  h.left_eq

/-- what is told of the end of a text is located there -/
theorem Over.failure_toEnd (h : c.Over classifier t) (fault : ReadFault) :
    c.toEnd.failure fault = ⟨fault, (LineTable.ofText t).locate t.length⟩ := by
  have hsource : c.toEnd.source = Source.ofText classifier t := h.source_eq
  rw [Cursor.failure, failureAt, locate, h.offset_toEnd, hsource]
  rfl

end Cursor

open Cursor in
/-- **Delimiters that are not escaped.** In any state that a cursor over a text can come to, reading up to an unescaped
delimiter succeeds exactly if the delimiter is no backslash and occurs in what is left behind an even number of
backslashes. What is read is then what stands before the first such occurrence, as it is written, and the cursor stands
right behind the delimiter. Otherwise the text ends too early, which is told of its end, where the cursor then stands. -/
theorem takeUntilUnescaped_exactly (classifier : Classifier) (t : Text) (operations : List Operation)
    (delimiter : Char) :
    let c := (Cursor.ofText classifier t).performAll operations
    ((∃ run c', c.takeUntilUnescaped delimiter = (.ok run, c')) ↔
      delimiter ≠ '\\' ∧
        ∃ run rest, t.drop c.offset = run ++ delimiter :: rest ∧ Even (Text.endBackslashes run)) ∧
    (∀ run c', c.takeUntilUnescaped delimiter = (.ok run, c') →
      ∃ rest, t.drop c.offset = run ++ delimiter :: rest ∧ Even (Text.endBackslashes run) ∧
        (∀ run' rest', t.drop c.offset = run' ++ delimiter :: rest' → Even (Text.endBackslashes run') →
          run.length ≤ run'.length) ∧
        c' = c.advance (run.length + 1) rest) ∧
    ∀ e c', c.takeUntilUnescaped delimiter = (.error e, c') →
      e = ⟨.endOfInput, (LineTable.ofText t).locate t.length⟩ ∧ c' = c.toEnd ∧ c'.offset = t.length := by
  intro c
  have hover : c.Over classifier t := (over_ofText classifier t).performAll operations
  have hleft : t.drop c.offset = c.place.rest := hover.place_in.2.symm
  rw [hleft]
  rcases c.takeUntilUnescaped_cases delimiter with ⟨herror, hno⟩ | ⟨run, rest, hok, hdelimiter, hfree, hfirst⟩
  · rw [herror]
    refine ⟨?_, ?_, ?_⟩
    · refine iff_of_false (by simp) ?_
      rintro ⟨hdelimiter, run, rest, hsplit, heven⟩
      exact hno.resolve_left hdelimiter run rest ⟨hsplit, heven⟩
    · intro run c' h
      cases h
    · intro e c' h
      cases h
      exact ⟨hover.failure_toEnd .endOfInput, rfl, hover.offset_toEnd⟩
  · rw [hok]
    refine ⟨?_, ?_, ?_⟩
    · exact iff_of_true ⟨run, _, rfl⟩ ⟨hdelimiter, run, rest, hfree.split, hfree.even⟩
    · intro run' c' h
      cases h
      exact ⟨rest, hfree.split, hfree.even, fun run' rest' hsplit heven => hfirst run' rest' ⟨hsplit, heven⟩, rfl⟩
    · intro e c' h
      cases h

/-- the first quote is escaped by the third backslash, the second one by none -/
example : ((Cursor.ofText CharClass.classify ['\\', '\\', '\\', '"', 'a', '\\', '\\', '"', 'b']).takeUntilUnescaped
    '"').1 = .ok ['\\', '\\', '\\', '"', 'a', '\\', '\\'] := by decide

end TaggedText
