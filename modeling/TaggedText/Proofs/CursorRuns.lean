/-
What is done with a cursor.

A run is any list of operations, those that fail included. Two operations bring the cursor back, to its mark or to the
start of the text (`Operation.goesBack`). After any other the cursor stands where it was or behind characters that
followed it, and its mark is the old one or the place where it stood (`Passes`, `passes_perform`).
`Operation.Answers` says what such an operation answers, from the characters that it passed over.

Results:
- `Over.perform`, `Over.performAll`: a cursor over a text stays over it, whatever is done;
- `Over.performSized_eq`: where sums are small enough, operations do the same on sizes;
- `cursor_stays_in_text`: where the cursor and its mark stand after any run, and what the next operation does.
-/
import TaggedText.Cursor.Operation
import TaggedText.Proofs.CursorReads
import TaggedText.Proofs.Spans

namespace TaggedText

namespace Cursor

variable {c c' : Cursor} {passed : Text}

/-- the characters that are passed over are those between the old and the new place -/
theorem Passes.slice_eq {t : Text} (h : c.Passes passed c') (hc : c.place.In t) :
    t.slice c.offset c'.offset = passed := by
  have hlength : (t.take c.offset).length = c.offset := List.length_take_of_le hc.1
  have ht : t = t.take c.offset ++ (passed ++ c'.place.rest) := by
    rw [← h.rest_eq, hc.2]
    exact (List.take_append_drop c.offset t).symm
  have hslice := Text.slice_append (t.take c.offset) passed c'.place.rest
  rw [← ht, hlength, ← h.offset_eq] at hslice
  exact hslice

/-! ## One operation -/

/-- whether the operation returns to a place where the cursor was before -/
def Operation.goesBack : Operation → Bool
  | .toMark | .restart => true
  | _ => false

/-- what an operation answers that succeeds, when it has passed over the characters `passed` -/
def Operation.Answers (classifier : Classifier) (passed : Text) : Operation → Answer → Prop
  | .takeChar keepBlanks, answer =>
    ∃ blanks ch, passed = blanks ++ [ch] ∧ (∀ b ∈ blanks, classifier b = .whitespace) ∧
      (keepBlanks = true → blanks = []) ∧ answer = .char (some ch)
  | .dropBlanks, answer => (∀ b ∈ passed, classifier b = .whitespace) ∧ answer = .count passed.length
  | .takeUntil delimiter consume, answer =>
    ∃ run, passed = (if consume then run ++ [delimiter] else run) ∧ answer = .text run
  | .takeUntilUnescaped delimiter, answer => ∃ run, passed = run ++ [delimiter] ∧ answer = .text run
  | .takeIn _, answer => answer = .text passed
  | .takeNotIn _, answer => answer = .text passed
  | .takeBalanced opening closing includeDelimiters, answer =>
    ∃ first body last, passed = first :: (body ++ [last]) ∧ classifier first = opening ∧ classifier last = closing ∧
      answer = .text (if includeDelimiters then passed else body)
  | _, _ => passed = []

/-- **One operation.** One that does not go back passes over characters, and fails or answers what they say. -/
theorem passes_perform (c : Cursor) {operation : Operation} (h : operation.goesBack = false) :
    ∃ passed, c.Passes passed (c.perform operation).2 ∧
      ((∃ e, (c.perform operation).1 = .error e) ∨
        operation.Answers c.source.classifier passed (c.perform operation).1) := by
  cases operation with
  | toMark => cases h
  | restart => cases h
  | setMark => exact ⟨[], passes_setMark c, Or.inr rfl⟩
  | takeChar keepBlanks =>
    obtain ⟨-, blanks, hblanks, hkeep, ⟨e, he, hpasses⟩ | ⟨ch, hch, hpasses⟩⟩ := takeChar_spec c keepBlanks
    · exact ⟨_, hpasses, Or.inl ⟨e, congrArg (Answer.ofExcept _) he⟩⟩
    · exact ⟨_, hpasses, Or.inr ⟨blanks, ch, rfl, hblanks, hkeep, congrArg (Answer.ofExcept _) hch⟩⟩
  | dropBlanks =>
    exact ⟨_, passes_takeRun c _, Or.inr ⟨fun b hb => whitespace_of_mem_takeRun hb, rfl⟩⟩
  | takeUntil delimiter consume =>
    obtain ⟨e, he, hpasses⟩ | ⟨run, hrun, hpasses⟩ := takeUntil_spec c delimiter consume
    · exact ⟨_, hpasses, Or.inl ⟨e, congrArg (Answer.ofExcept _) he⟩⟩
    · exact ⟨_, hpasses, Or.inr ⟨run, rfl, congrArg (Answer.ofExcept _) hrun⟩⟩
  | takeUntilUnescaped delimiter =>
    obtain ⟨e, he, hpasses⟩ | ⟨run, hrun, hpasses⟩ := takeUntilUnescaped_spec c delimiter
    · exact ⟨_, hpasses, Or.inl ⟨e, congrArg (Answer.ofExcept _) he⟩⟩
    · exact ⟨_, hpasses, Or.inr ⟨run, rfl, congrArg (Answer.ofExcept _) hrun⟩⟩
  | takeIn set => exact ⟨_, passes_takeRun c _, Or.inr rfl⟩
  | takeNotIn set => exact ⟨_, passes_takeRun c (!set.contains ·), Or.inr rfl⟩
  | takeBalanced opening closing includeDelimiters =>
    obtain ⟨passed, e, he, hpasses⟩ | ⟨first, body, last, hfirst, hlast, hrun, hpasses⟩ :=
      takeBalanced_spec c opening closing includeDelimiters
    · exact ⟨_, hpasses, Or.inl ⟨e, congrArg (Answer.ofExcept _) he⟩⟩
    · exact ⟨_, hpasses, Or.inr ⟨first, body, last, rfl, hfirst, hlast, congrArg (Answer.ofExcept _) hrun⟩⟩
  | _ => exact ⟨[], Passes.refl c, Or.inr rfl⟩

/-! ## Runs -/

/-- the cursor stands in the text, which it reads with the classes of the classifier, and its mark not behind it -/
structure Over (classifier : Classifier) (t : Text) (c : Cursor) : Prop where
  source_eq : c.source = Source.ofText classifier t
  valid : c.Valid

variable {classifier : Classifier} {t : Text}

theorem over_ofText (classifier : Classifier) (t : Text) : (ofText classifier t).Over classifier t where
  source_eq := rfl
  valid := ⟨⟨Nat.zero_le _, rfl⟩, ⟨Nat.zero_le _, rfl⟩, le_rfl⟩

theorem Over.place_in (h : c.Over classifier t) : c.place.In t := by
  have hplace := h.valid.place_in
  rwa [h.source_eq] at hplace

/-- a cursor over a text stays over it, whatever operation is carried out -/
theorem Over.perform (h : c.Over classifier t) (operation : Operation) :
    (c.perform operation).2.Over classifier t := by
  cases hback : operation.goesBack with
  | false =>
    obtain ⟨passed, hpasses, -⟩ := passes_perform c hback
    exact ⟨hpasses.source_eq.trans h.source_eq, hpasses.valid h.valid⟩
  | true =>
    cases operation with
    | toMark => exact ⟨h.source_eq, h.valid.mark_in, h.valid.mark_in, le_rfl⟩
    | restart => exact ⟨h.source_eq, ⟨Nat.zero_le _, rfl⟩, ⟨Nat.zero_le _, rfl⟩, le_rfl⟩
    | _ => cases hback

/-- a cursor over a text stays over it, whatever is done -/
theorem Over.performAll (h : c.Over classifier t) (operations : List Operation) :
    (c.performAll operations).Over classifier t := by
  induction operations generalizing c with
  | nil => exact h
  | cons operation operations ih => exact ih (h.perform operation)

theorem Over.left_eq (h : c.Over classifier t) : c.offset + c.left = t.length :=
  h.place_in.length_eq

theorem Over.ahead_eq (h : c.Over classifier t) (n : Nat) : c.ahead n = t[c.offset + n]? := by
  rw [ahead, h.place_in.2, List.getElem?_drop]
  rfl

theorem Over.next?_eq (h : c.Over classifier t) : c.next? = t[c.offset]? := by
  rw [next?, h.place_in.2, List.head?_drop]
  rfl

theorem atEnd_iff_next? (c : Cursor) : c.atEnd = true ↔ c.next? = none := by
  simp [atEnd, next?]

theorem atEnd_iff_left (c : Cursor) : c.atEnd = true ↔ c.left = 0 := by
  simp [atEnd, left]

/-- **Sizes.** Operations do on sizes what they do on numbers, as long as the sums that they need are sizes. -/
theorem Over.performSized_eq (h : c.Over classifier t) (overflow : Overflow) {operation : Operation}
    (hfits : operation.Fits c) : c.performSized overflow operation = some (c.perform operation) := by
  have hlocate : ∀ {p : Nat}, p + 1 < Size.limit → c.locateSized overflow p = some (c.locate p) :=
    fun hp => LineTable.locateSized_of_lt overflow _ hp
  cases operation with
  | ahead n =>
    have hahead : c.source.text[c.offset + n]? = c.ahead n := by
      rw [h.ahead_eq, h.source_eq]
      rfl
    simp only [performSized, aheadSized, Size.add_of_lt overflow hfits, Option.map_some, hahead, Cursor.perform]
  | locate p => simp only [performSized, hlocate hfits, Option.map_some, Cursor.perform]
  | spanSince p =>
    simp only [performSized, hlocate hfits, Option.map_some, Cursor.perform]
    rfl
  | failureAt p fault =>
    simp only [performSized, hlocate hfits, Option.map_some, Cursor.perform]
    rfl
  | _ => rfl

end Cursor

open Cursor in
/-- **Runs of a cursor.** After any run over a text, its source is what it was. The mark stands not behind the cursor,
and the cursor in the text: it sees the characters from its place on, and none exactly at the end. Going back to the
mark moves it not forward. Reading a character, or failing to read one behind whitespace, and going back to the mark
leaves it where it was. Any other operation moves it not backward; it fails, or answers from exactly the characters
between the old and the new place, less the delimiters that it leaves out. -/
theorem cursor_stays_in_text (classifier : Classifier) (t : Text) (operations : List Operation) :
    let c := (Cursor.ofText classifier t).performAll operations
    c.source = Source.ofText classifier t ∧ (c.mark.offset ≤ c.offset ∧ c.offset ≤ t.length) ∧
      c.offset + c.left = t.length ∧
      ((c.atEnd = true ↔ c.next? = none) ∧ (c.atEnd = true ↔ t.length ≤ c.offset)) ∧
      (c.next? = t[c.offset]? ∧ (∀ n, c.ahead n = t[c.offset + n]?) ∧ ∀ u, c.sees u = true ↔ u <+: t.drop c.offset) ∧
      (c.perform .toMark).2.offset ≤ c.offset ∧
      (∀ keepBlanks, (c.performAll [.takeChar keepBlanks, .toMark]).place = c.place) ∧
      ∀ operation, operation.goesBack = false →
        (c.offset ≤ (c.perform operation).2.offset ∧ (c.perform operation).2.offset ≤ t.length) ∧
          ((∃ e, (c.perform operation).1 = .error e) ∨
            operation.Answers classifier (t.slice c.offset (c.perform operation).2.offset)
              (c.perform operation).1) := by
  intro c
  have h : c.Over classifier t := (over_ofText classifier t).performAll operations
  have hleft := h.left_eq
  refine ⟨h.source_eq, ⟨h.valid.mark_le, h.place_in.1⟩, hleft, ⟨atEnd_iff_next? c, ?_⟩,
    ⟨h.next?_eq, h.ahead_eq, ?_⟩, h.valid.mark_le, ?_, ?_⟩
  · rw [atEnd_iff_left]
    omega
  · intro u
    rw [Cursor.sees, h.place_in.2, List.isPrefixOf_iff_prefix]
    rfl
  · intro keepBlanks
    exact (takeChar_spec c keepBlanks).1
  · intro operation hback
    obtain ⟨passed, hpasses, hanswer⟩ := passes_perform c hback
    rw [hpasses.slice_eq h.place_in]
    rw [h.source_eq] at hanswer
    exact ⟨⟨hpasses.offset_eq ▸ Nat.le_add_right _ _, (h.perform operation).place_in.1⟩, hanswer⟩

end TaggedText
