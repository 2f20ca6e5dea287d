/-
What the reads of a cursor pass over.

A read moves a cursor over characters that follow it, and marks it at most where it stood (`Cursor.Passes`). Reads one
after another pass over what each of them passes (`Cursor.Reaches.trans`). For each read there is a lemma that tells
which characters it passes over when it succeeds and when it fails.
-/
import TaggedText.Proofs.BalancedRuns
import TaggedText.Proofs.Pieces

namespace TaggedText

namespace Text

/-! ## Delimiters at the end of what is read -/

/-- the text is split before a delimiter -/
theorem eq_of_splitUnescaped_eq_some {delimiter : Char} {escaped : Bool} {before t run rest : Text}
    (h : splitUnescaped delimiter escaped before t = some (run, rest)) :
    ∃ u after, run = before.reverse ++ u ∧ rest = delimiter :: after ∧ t = u ++ rest := by
  -- a character that is passed over comes to the end of what is read
  have hpass : ∀ {c : Char} {before t : Text},
      (∃ u after, run = (c :: before).reverse ++ u ∧ rest = delimiter :: after ∧ t = u ++ rest) →
        ∃ u after, run = before.reverse ++ u ∧ rest = delimiter :: after ∧ c :: t = u ++ rest := by
    rintro c before t ⟨u, after, rfl, hrest, rfl⟩
    exact ⟨c :: u, after, by simp, hrest, rfl⟩
  fun_induction splitUnescaped delimiter escaped before t with
  | case1 => cases h
  | case2 _ _ _ ih => exact hpass (ih h)
  | case3 _ _ _ _ ih => exact hpass (ih h)
  | case4 =>
    cases h
    exact ⟨[], _, (List.append_nil _).symm, rfl, rfl⟩
  | case5 _ _ _ _ _ _ _ ih => exact hpass (ih h)

variable {classifier : Classifier} {opening closing : CharClass} {depth : Nat}

theorem tally_append (l : CharClass) (u v : Text) :
    tally classifier l (u ++ v) = tally classifier l u + tally classifier l v :=
  List.countP_append

theorem deeper_append (u v : Text) :
    deeper classifier opening closing (u ++ v) =
      deeper classifier opening closing u + deeper classifier opening closing v := by
  unfold deeper
  split_ifs
  · rfl
  · exact tally_append opening u v

/-- what closes a delimiter ends with a closing one -/
theorem Closes.exists_last {u : Text} (hu : Closes classifier opening closing depth u) (hne : u ≠ []) :
    ∃ body last, u = body ++ [last] ∧ classifier last = closing := by
  obtain ⟨body, last, rfl⟩ := (List.eq_nil_or_concat' u).resolve_left hne
  refine ⟨body, last, rfl, ?_⟩
  by_contra hlast
  have hopen := hu.first body (List.prefix_append body [last]) (by simp)
  have hback := hu.back
  rw [deeper_append, tally_append, tally_singleton, if_neg hlast] at hback
  omega

end Text

namespace Cursor

/-! ## Passing over characters -/

/-- the cursor `c'` is the cursor `c` behind the characters `passed`, however it is marked -/
structure Reaches (c : Cursor) (passed : Text) (c' : Cursor) : Prop where
  source_eq : c'.source = c.source
  rest_eq : c.place.rest = passed ++ c'.place.rest
  offset_eq : c'.offset = c.offset + passed.length

/-- the cursor `c'` is the cursor `c` behind the characters `passed`, marked as it was or where it was -/
structure Passes (c : Cursor) (passed : Text) (c' : Cursor) : Prop extends c.Reaches passed c' where
  mark_eq : c'.mark = c.mark ∨ c'.mark = c.place

variable {c c' c'' : Cursor} {passed behind : Text}

theorem Reaches.trans (h : c.Reaches passed c') (h' : c'.Reaches behind c'') : c.Reaches (passed ++ behind) c'' where
  source_eq := h'.source_eq.trans h.source_eq
  rest_eq := by rw [h.rest_eq, h'.rest_eq, List.append_assoc]
  offset_eq := by rw [h'.offset_eq, h.offset_eq, List.length_append, Nat.add_assoc]

theorem Reaches.place_in {t : Text} (h : c.Reaches passed c') (hc : c.place.In t) : c'.place.In t := by
  have hoffset : c'.place.offset = c.place.offset + passed.length := h.offset_eq
  have hplace : c'.place = ⟨c.place.offset + passed.length, c'.place.rest⟩ := by rw [← hoffset]
  rw [hplace]
  exact hc.skip h.rest_eq

theorem Passes.refl (c : Cursor) : c.Passes [] c where
  source_eq := rfl
  rest_eq := rfl
  offset_eq := rfl
  mark_eq := Or.inl rfl

theorem passes_setMark (c : Cursor) : c.Passes [] c.setMark :=
  { Passes.refl c with mark_eq := Or.inr rfl }

theorem Passes.advance {u rest : Text} (h : c.Passes passed c') (hrest : c'.place.rest = u ++ rest) :
    c.Passes (passed ++ u) (c'.advance u.length rest) where
  source_eq := h.source_eq
  rest_eq := by rw [h.rest_eq, hrest, List.append_assoc, Cursor.advance]
  offset_eq := by
    have hoffset := h.offset_eq
    simp only [Cursor.offset, Cursor.advance, List.length_append] at hoffset ⊢
    omega
  mark_eq := h.mark_eq

theorem passes_advance {u rest : Text} (hrest : c.place.rest = u ++ rest) : c.Passes u (c.advance u.length rest) :=
  (Passes.refl c).advance hrest

theorem passes_toEnd (c : Cursor) : c.Passes c.place.rest c.toEnd :=
  passes_advance (List.append_nil _).symm

theorem Passes.valid (h : c.Passes passed c') (hc : c.Valid) : c'.Valid where
  place_in := by
    rw [h.source_eq]
    exact h.place_in hc.place_in
  mark_in := by
    rw [h.source_eq]
    rcases h.mark_eq with hmark | hmark
    · rw [hmark]
      exact hc.mark_in
    · rw [hmark]
      exact hc.place_in
  mark_le := by
    have hoffset : c'.place.offset = c.place.offset + passed.length := h.offset_eq
    rw [hoffset]
    rcases h.mark_eq with hmark | hmark
    · rw [hmark]
      exact Nat.le_add_right_of_le hc.mark_le
    · rw [hmark]
      exact Nat.le_add_right _ _

/-! ## The reads -/

theorem passes_takeRun (c : Cursor) (p : CharClass → Bool) : c.Passes (c.takeRun p).1 (c.takeRun p).2 :=
  passes_advance List.takeWhile_append_dropWhile.symm

theorem whitespace_of_mem_takeRun {ch : Char} (h : ch ∈ (c.takeRun (· == .whitespace)).1) :
    c.source.classifier ch = .whitespace := by
  simpa [classOf] using List.mem_takeWhile_imp h

/-- the cursor where a character is read: marked, and behind whitespace unless this is kept -/
def charStart (c : Cursor) (keepBlanks : Bool) : Cursor :=
  if keepBlanks then c.setMark else c.setMark.dropBlanks.2

theorem takeChar_of_nil {keepBlanks : Bool} (h : (c.charStart keepBlanks).place.rest = []) :
    c.takeChar keepBlanks = (.error ((c.charStart keepBlanks).failure .endOfInput), c.charStart keepBlanks) := by
  simp only [charStart] at h
  simp only [takeChar, h, charStart]

theorem takeChar_of_cons {keepBlanks : Bool} {ch : Char} {rest : Text}
    (h : (c.charStart keepBlanks).place.rest = ch :: rest) :
    c.takeChar keepBlanks = (.ok ch, (c.charStart keepBlanks).advance 1 rest) := by
  simp only [charStart] at h
  simp only [takeChar, h, charStart]

theorem charStart_spec (c : Cursor) (keepBlanks : Bool) :
    (c.charStart keepBlanks).mark = c.place ∧
      ∃ blanks, (∀ b ∈ blanks, c.source.classifier b = .whitespace) ∧ (keepBlanks = true → blanks = []) ∧
        c.Passes blanks (c.charStart keepBlanks) := by
  cases keepBlanks with
  | true => exact ⟨rfl, [], by simp, fun _ => rfl, passes_setMark c⟩
  | false =>
    refine ⟨rfl, (c.takeRun (· == .whitespace)).1, fun b hb => whitespace_of_mem_takeRun hb, by simp, ?_⟩
    exact { passes_takeRun c (· == .whitespace) with mark_eq := Or.inr rfl }

theorem takeChar_spec (c : Cursor) (keepBlanks : Bool) :
    (c.takeChar keepBlanks).2.mark = c.place ∧
      ∃ blanks, (∀ b ∈ blanks, c.source.classifier b = .whitespace) ∧ (keepBlanks = true → blanks = []) ∧
        ((∃ e, (c.takeChar keepBlanks).1 = .error e ∧ c.Passes blanks (c.takeChar keepBlanks).2) ∨
          ∃ ch, (c.takeChar keepBlanks).1 = .ok ch ∧ c.Passes (blanks ++ [ch]) (c.takeChar keepBlanks).2) := by
  obtain ⟨hmark, blanks, hblanks, hkeep, hpasses⟩ := charStart_spec c keepBlanks
  cases hrest : (c.charStart keepBlanks).place.rest with
  | nil =>
    rw [takeChar_of_nil hrest]
    exact ⟨hmark, blanks, hblanks, hkeep, Or.inl ⟨_, rfl, hpasses⟩⟩
  | cons ch rest =>
    rw [takeChar_of_cons hrest]
    exact ⟨hmark, blanks, hblanks, hkeep, Or.inr ⟨ch, rfl, hpasses.advance (u := [ch]) hrest⟩⟩

theorem takeUntil_spec (c : Cursor) (delimiter : Char) (consume : Bool) :
    (∃ e, (c.takeUntil delimiter consume).1 = .error e ∧
        c.Passes c.place.rest (c.takeUntil delimiter consume).2) ∨
      ∃ run, (c.takeUntil delimiter consume).1 = .ok run ∧
        c.Passes (if consume then run ++ [delimiter] else run) (c.takeUntil delimiter consume).2 := by
  have hsplit := List.takeWhile_append_dropWhile (p := (· != delimiter)) (l := c.place.rest)
  unfold takeUntil
  split
  · exact Or.inl ⟨_, rfl, passes_toEnd c⟩
  · rename_i ch rest hrest
    obtain rfl : ch = delimiter := by simpa using Text.head_dropWhile (congrArg List.head? hrest)
    rw [hrest] at hsplit
    refine Or.inr ⟨_, rfl, ?_⟩
    cases consume with
    | true =>
      rw [List.append_cons] at hsplit
      simpa using passes_advance hsplit.symm
    | false => simpa using passes_advance hsplit.symm

theorem takeUntilUnescaped_spec (c : Cursor) (delimiter : Char) :
    (∃ e, (c.takeUntilUnescaped delimiter).1 = .error e ∧
        c.Passes c.place.rest (c.takeUntilUnescaped delimiter).2) ∨
      ∃ run, (c.takeUntilUnescaped delimiter).1 = .ok run ∧
        c.Passes (run ++ [delimiter]) (c.takeUntilUnescaped delimiter).2 := by
  unfold takeUntilUnescaped
  split
  · rename_i run rest hsplit
    obtain ⟨u, after, rfl, rfl, hrest⟩ := Text.eq_of_splitUnescaped_eq_some hsplit
    rw [List.append_cons] at hrest
    exact Or.inr ⟨_, rfl, by simpa using passes_advance hrest⟩
  · exact Or.inl ⟨_, rfl, passes_toEnd c⟩

theorem takeBalanced_spec (c : Cursor) (opening closing : CharClass) (includeDelimiters : Bool) :
    (∃ passed e, (c.takeBalanced opening closing includeDelimiters).1 = .error e ∧
        c.Passes passed (c.takeBalanced opening closing includeDelimiters).2) ∨
      ∃ first body last, c.source.classifier first = opening ∧ c.source.classifier last = closing ∧
        (c.takeBalanced opening closing includeDelimiters).1 =
          .ok (if includeDelimiters then first :: (body ++ [last]) else body) ∧
        c.Passes (first :: (body ++ [last])) (c.takeBalanced opening closing includeDelimiters).2 := by
  by_cases hbegins : Text.BeginsWith c.source.classifier opening c.place.rest
  · obtain ⟨first, hhead, hfirst⟩ := hbegins
    obtain ⟨t, ht⟩ := List.head?_eq_some_iff.1 hhead
    rcases @takeBalanced_of_cons c opening closing first t includeDelimiters ht hfirst with
      ⟨u, rest, rfl, hu, hok⟩ | ⟨d, -, -, herror⟩
    · obtain ⟨body, last, rfl, hlast⟩ := hu.exists_last hu.ne_nil
      rw [hok, List.dropLast_concat]
      exact Or.inr ⟨first, body, last, hfirst, hlast, rfl, passes_advance ht⟩
    · rw [herror]
      exact Or.inl ⟨_, _, rfl, passes_toEnd c⟩
  · rw [takeBalanced_of_not_beginsWith includeDelimiters hbegins]
    exact Or.inl ⟨[], _, rfl, Passes.refl c⟩

end Cursor

end TaggedText
