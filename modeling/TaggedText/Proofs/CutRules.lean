/-
The rules for cutting tokens off, and those for reading them, on texts alone.

`cut` looks for the first bracket of a run, and for the first `-->` of a comment; the reads of a cursor count brackets,
look out for a stray one, and take a comment stretch by stretch. Here the two are compared where no cursor is needed.

Results:
- `Cut.cut_eq_error`: where nothing can be cut off a text;
- `Cut.splitCommentEnd_stretch`, `Text.closesComment_iff`: a comment ends in the stretch whose last characters are two
  hyphens, those of its opener aside;
- `Text.strayOpening_eq_some_iff`: a stray bracket is the first bracket of all.
-/
import TaggedText.Proofs.Pieces
import TaggedText.Token.Take

namespace TaggedText

/-! ## What cannot be cut off -/

namespace Cut

theorem splitCommentEnd_eq_none_iff {before t : Text} :
    splitCommentEnd before t = none ↔ ¬ ['-', '-', '>'] <:+: t := by
  fun_induction splitCommentEnd before t with
  | case1 => simp
  | case2 before t => simp [List.infix_cons_iff]
  | case3 before c t hno ih =>
    have hstart : ¬ ['-', '-', '>'] <+: c :: t := by
      intro hpre
      obtain ⟨rest, hrest⟩ := hpre
      obtain ⟨rfl, rfl⟩ := List.cons.inj hrest
      exact hno rest rfl rfl
    rw [ih, List.infix_cons_iff]
    simp only [hstart, false_or]

theorem comment_eq_error_iff {t : Text} {fault : ReadFault} :
    comment t = .error fault ↔ ¬ ['-', '-', '>'] <:+: t ∧ fault = .unbalanced 1 := by
  have hnone : splitCommentEnd [] t = none ↔ ¬ ['-', '-', '>'] <:+: t := splitCommentEnd_eq_none_iff
  rw [← hnone, comment]
  cases splitCommentEnd [] t with
  | none => simp [eq_comm]
  | some split => simp

/-- a text holds no bracket, or there is a first one -/
theorem plain_or_bracket (t : Text) :
    (∀ c ∈ t, c ≠ '<' ∧ c ≠ '>') ∨
      ∃ body c rest, t = body ++ c :: rest ∧ (∀ d ∈ body, d ≠ '<' ∧ d ≠ '>') ∧ (c = '<' ∨ c = '>') := by
  induction t with
  | nil => exact Or.inl (List.forall_mem_nil _)
  | cons c t ih =>
    by_cases hc : c = '<' ∨ c = '>'
    · exact Or.inr ⟨[], c, t, rfl, List.forall_mem_nil _, hc⟩
    · have hplain : c ≠ '<' ∧ c ≠ '>' := not_or.1 hc
      rcases ih with hall | ⟨body, d, rest, rfl, hbody, hd⟩
      · exact Or.inl (List.forall_mem_cons.2 ⟨hplain, hall⟩)
      · exact Or.inr ⟨c :: body, d, rest, rfl, List.forall_mem_cons.2 ⟨hplain, hbody⟩, hd⟩

theorem bracket_of_plain {t : Text} (h : ∀ c ∈ t, c ≠ '<' ∧ c ≠ '>') : bracket t = .error (.unbalanced 1) := by
  have hdrop : t.dropWhile (!isAngle ·) = [] := by
    rw [List.dropWhile_eq_nil_iff]
    intro c hc
    simpa using isAngle_eq_false_iff.2 (h c hc)
  simp only [bracket, hdrop]

theorem bracket_of_open {body rest : Text} (h : ∀ c ∈ body, c ≠ '<' ∧ c ≠ '>') :
    bracket (body ++ '<' :: rest) = .error (.bracketInTag ('<' :: body) '<') := by
  obtain ⟨htake, hdrop⟩ := Text.takeWhile_run (p := (!isAngle ·)) (u := body) (v := '<' :: rest)
    (fun c hc => by simpa using isAngle_eq_false_iff.2 (h c hc)) (by rintro c ⟨⟩; rfl)
  simp only [bracket, htake, hdrop]
  rfl

theorem bracket_eq_error_iff {t : Text} {fault : ReadFault} :
    bracket t = .error fault ↔
      ((∀ c ∈ t, c ≠ '<' ∧ c ≠ '>') ∧ fault = .unbalanced 1) ∨
        ∃ body rest, t = body ++ '<' :: rest ∧ (∀ c ∈ body, c ≠ '<' ∧ c ≠ '>') ∧
          fault = .bracketInTag ('<' :: body) '<' := by
  refine ⟨?_, ?_⟩
  · intro h
    rcases plain_or_bracket t with hall | ⟨body, c, rest, rfl, hbody, rfl | rfl⟩
    · rw [bracket_of_plain hall] at h
      cases h
      exact Or.inl ⟨hall, rfl⟩
    · rw [bracket_of_open hbody] at h
      cases h
      exact Or.inr ⟨body, rest, rfl, hbody, rfl⟩
    · have hok : bracket (body ++ '>' :: rest) = .ok ⟨bracketKind body, '<' :: body ++ ['>'], rest⟩ :=
        bracket_eq_ok_iff.2 ⟨body, rfl, rfl, rfl, hbody⟩
      cases h.symm.trans hok
  · intro h
    rcases h with ⟨hall, rfl⟩ | ⟨body, rest, rfl, hbody, rfl⟩
    · exact bracket_of_plain hall
    · exact bracket_of_open hbody

/-- only what begins with an angle bracket can fail to be cut off -/
theorem cut_eq_error {t : Text} {fault : ReadFault} (h : cut t = some (.error fault)) :
    ∃ c rest, t = c :: rest ∧ ((c = '>' ∧ fault = .unmatchedClose) ∨ (c = '<' ∧ angle rest = .error fault)) := by
  cases t with
  | nil => cases h
  | cons c t =>
    refine ⟨c, t, rfl, ?_⟩
    by_cases hc : endsText c = true
    · rcases endsText_iff.1 hc with hopen | hclose | hunknown
      · simp only [cut, hopen, Option.some.injEq] at h
        exact Or.inr ⟨(CharClass.classify_eq_iff rfl).1 hopen, h⟩
      · simp only [cut, hclose, Option.some.injEq, Except.error.injEq] at h
        exact Or.inl ⟨(CharClass.classify_eq_iff rfl).1 hclose, h.symm⟩
      · simp [cut, hunknown] at h
    · rw [cut_cons_of_endsText (Bool.eq_false_of_not_eq_true hc)] at h
      cases h

end Cut

theorem CharClass.classify_ne_eof (c : Char) : classify c ≠ .eof := by
  unfold classify
  split
  all_goals try (exact CharClass.noConfusion)
  split_ifs <;> exact CharClass.noConfusion

namespace Cut

theorem endsText_eq_contains (c : Char) : endsText c = CharClass.textStop.contains (CharClass.classify c) := by
  unfold endsText
  cases CharClass.classify c <;> rfl

theorem endsText_of_isWhitespace {c : Char} (h : CharClass.isWhitespace c = true) : endsText c = false := by
  rw [endsText_eq_contains, eq_of_beq h]
  rfl

/-- blanks with nothing else up to the end of the run -/
theorem run_of_blanks {blanks v : Text} (h : ∀ c ∈ blanks, CharClass.isWhitespace c = true)
    (hend : ∀ c, v.head? = some c → endsText c = true) : run (blanks ++ v) = ⟨.whitespace, blanks, v⟩ := by
  obtain ⟨htake, hdrop⟩ := Text.takeWhile_run (p := (!endsText ·)) (u := blanks) (v := v)
    (fun c hc => by rw [endsText_of_isWhitespace (h c hc)]; rfl) (fun c hc => by rw [hend c hc]; rfl)
  have hall : blanks.all CharClass.isWhitespace = true := List.all_eq_true.2 h
  simp only [run, htake, hdrop, hall, if_true]

/-- blanks with something else behind them that does not end the run -/
theorem run_of_value {blanks v : Text} {c : Char} (h : ∀ c ∈ blanks, CharClass.isWhitespace c = true)
    (hhead : v.head? = some c) (hc : CharClass.isWhitespace c = false) (hstay : endsText c = false) :
    run (blanks ++ v) = ⟨.value, blanks ++ v.takeWhile (!endsText ·), v.dropWhile (!endsText ·)⟩ := by
  obtain ⟨t, rfl⟩ := List.head?_eq_some_iff.1 hhead
  have hblanks : ∀ d ∈ blanks, (!endsText d) = true := fun d hd => by rw [endsText_of_isWhitespace (h d hd)]; rfl
  have hall : (blanks ++ (c :: t).takeWhile (!endsText ·)).all CharClass.isWhitespace = false := by
    rw [List.all_append, List.takeWhile_cons_of_pos (by rw [hstay]; rfl), List.all_cons, hc, Bool.false_and,
      Bool.and_false]
  rw [run, List.takeWhile_append_of_pos hblanks, List.dropWhile_append_of_pos hblanks, hall]
  rfl

theorem splitCommentEnd_cons {before t : Text} {c : Char} (h : ¬ ['-', '-', '>'] <+: c :: t) :
    splitCommentEnd before (c :: t) = splitCommentEnd (c :: before) t := by
  rw [splitCommentEnd.eq_def]
  split
  · rename_i heq
    cases heq
  · rename_i rest heq
    exact absurd ⟨rest, heq.symm⟩ h
  · rename_i heq
    cases heq
    rfl

/-- a comment ends in the stretch up to the next closing bracket if two hyphens are its last characters -/
theorem splitCommentEnd_stretch {stretch rest : Text} (h : '>' ∉ stretch) (before : Text) :
    splitCommentEnd before (stretch ++ '>' :: rest) =
      if ['-', '-'] <:+ stretch then some (before.reverse ++ stretch ++ ['>'], rest)
      else splitCommentEnd ('>' :: (stretch.reverse ++ before)) rest := by
  induction stretch generalizing before with
  | nil =>
    rw [if_neg (by simp)]
    exact splitCommentEnd_cons (by simp)
  | cons c stretch ih =>
    have hstretch : '>' ∉ stretch := fun hmem => h (List.mem_cons_of_mem c hmem)
    by_cases hend : ['-', '-', '>'] <+: c :: (stretch ++ '>' :: rest)
    · -- no closing bracket comes before the one at the end of the stretch
      obtain ⟨rfl, hsecond⟩ := List.cons_prefix_cons.1 hend
      cases stretch with
      | nil => exact absurd (List.cons_prefix_cons.1 hsecond).1 (by decide)
      | cons d stretch =>
        obtain ⟨rfl, hthird⟩ := List.cons_prefix_cons.1 hsecond
        cases stretch with
        | nil =>
          rw [if_pos List.suffix_rfl]
          simp [splitCommentEnd]
        | cons e stretch =>
          obtain ⟨rfl, -⟩ := List.cons_prefix_cons.1 hthird
          exact absurd (by simp) hstretch
    · have hhyphens : ['-', '-'] <:+ c :: stretch ↔ ['-', '-'] <:+ stretch := by
        rw [List.suffix_cons_iff, or_iff_right]
        rintro heq
        obtain ⟨rfl, rfl⟩ := List.cons.inj heq.symm
        exact hend ⟨rest, rfl⟩
      rw [List.cons_append, splitCommentEnd_cons hend, ih hstretch]
      simp only [hhyphens, List.reverse_cons, List.append_assoc, List.cons_append, List.nil_append]

end Cut

namespace Text

/-! ## Bracket runs -/

variable {classifier : Classifier} {u v : Text}

/-- characters that are no delimiters leave the depth as it is -/
theorem splitBalanced_append {opening closing : CharClass} (h : ∀ c ∈ u, classifier c ≠ opening ∧ classifier c ≠ closing)
    (depth : Nat) (before v : Text) :
    splitBalanced classifier opening closing depth before (u ++ v) =
      splitBalanced classifier opening closing depth (u.reverse ++ before) v := by
  induction u generalizing before with
  | nil => rfl
  | cons c u ih =>
    obtain ⟨hc, hu⟩ := List.forall_mem_cons.1 h
    rw [List.cons_append, splitBalanced, if_neg fun hclosing => hc.2 hclosing.1, if_neg hc.1, ih hu]
    simp

theorem strayOpening_append (h : ∀ c ∈ u, classifier c ≠ .angleOpen ∧ classifier c ≠ .angleClose) (before v : Text) :
    strayOpening classifier before (u ++ v) = strayOpening classifier (u.reverse ++ before) v := by
  induction u generalizing before with
  | nil => rfl
  | cons c u ih =>
    obtain ⟨hc, hu⟩ := List.forall_mem_cons.1 h
    have hpass : strayOpening classifier before (c :: (u ++ v)) = strayOpening classifier (c :: before) (u ++ v) := by
      rw [strayOpening]
      split
      · exact absurd ‹_› hc.2
      · exact absurd ‹_› hc.1
      · rfl
    rw [List.cons_append, hpass, ih hu]
    simp

/-- what stands in a text is its first character, or stands behind that -/
theorem exists_append_cons_iff {c d : Char} {t : Text} {p : Text → Prop} :
    (∃ body rest, c :: t = body ++ d :: rest ∧ p body) ↔
      (c = d ∧ p []) ∨ ∃ body rest, t = body ++ d :: rest ∧ p (c :: body) := by
  refine ⟨?_, ?_⟩
  · rintro ⟨body, rest, ht, hp⟩
    cases body with
    | nil =>
      obtain ⟨rfl, -⟩ := List.cons.inj ht
      exact Or.inl ⟨rfl, hp⟩
    | cons b body =>
      obtain ⟨rfl, hrest⟩ := List.cons.inj ht
      exact Or.inr ⟨body, rest, hrest, hp⟩
  · rintro (⟨rfl, hp⟩ | ⟨body, rest, rfl, hp⟩)
    · exact ⟨[], t, rfl, hp⟩
    · exact ⟨c :: body, rest, rfl, hp⟩

/-- the first bracket of all, if it is an opening one -/
theorem strayOpening_eq_some_iff {before t tag : Text} {found : Char} :
    strayOpening classifier before t = some (tag, found) ↔
      ∃ body rest, t = body ++ found :: rest ∧ tag = before.reverse ++ body ∧ classifier found = .angleOpen ∧
        ∀ c ∈ body, classifier c ≠ .angleOpen ∧ classifier c ≠ .angleClose := by
  fun_induction strayOpening classifier before t with
  | case1 => simp
  | case2 before c t hclose =>
    rw [exists_append_cons_iff]
    refine iff_of_false (fun h => nomatch h) ?_
    rintro (⟨rfl, -, hfound, -⟩ | ⟨body, rest, -, -, -, hbody⟩)
    · cases hclose.symm.trans hfound
    · exact (List.forall_mem_cons.1 hbody).1.2 hclose
  | case3 before c t hopen =>
    rw [exists_append_cons_iff]
    refine ⟨?_, ?_⟩
    · rintro ⟨⟩
      exact Or.inl ⟨rfl, (List.append_nil _).symm, hopen, List.forall_mem_nil _⟩
    · rintro (⟨rfl, rfl, -, -⟩ | ⟨body, rest, -, -, -, hbody⟩)
      · rw [List.append_nil]
      · exact absurd hopen (List.forall_mem_cons.1 hbody).1.1
  | case4 before c t hclose hopen ih =>
    have hplain : classifier c ≠ .angleOpen ∧ classifier c ≠ .angleClose := ⟨hopen, hclose⟩
    have hpassed : ¬ (c = found ∧ tag = before.reverse ++ [] ∧ classifier found = .angleOpen ∧
        ∀ c ∈ ([] : Text), classifier c ≠ .angleOpen ∧ classifier c ≠ .angleClose) := by
      rintro ⟨rfl, -, hfound, -⟩
      exact hopen hfound
    rw [ih, exists_append_cons_iff, or_iff_right hpassed]
    simp only [List.reverse_cons, List.append_assoc, List.cons_append, List.nil_append, List.forall_mem_cons,
      and_iff_right hplain]

/-! ## Comments -/

theorem bytes_append (u v : Text) : bytes (u ++ v) = bytes u + bytes v := by
  induction u with
  | nil => exact (Nat.zero_add _).symm
  | cons c u ih => rw [List.cons_append, bytes, bytes, ih, Nat.add_assoc]

/-- what was read of a comment ends it exactly if the last stretch ends in two hyphens: those of the opener do not
count, since the text would be too short -/
theorem closesComment_iff {before : Text} (h : before = [] ∨ before.head? = some '>') (stretch : Text) :
    closesComment ('>' :: (stretch.reverse ++ (before ++ ['-', '-', '!', '<']))) = true ↔ ['-', '-'] <:+ stretch := by
  rw [← List.reverse_prefix]
  generalize stretch.reverse = u
  match u with
  | [] =>
    rcases h with rfl | hhead
    · decide
    · obtain ⟨t, rfl⟩ := List.head?_eq_some_iff.1 hhead
      simp [closesComment]
  | [c] =>
    rcases h with rfl | hhead
    · by_cases hc : c = '-'
      · subst hc
        decide
      · simp [closesComment, Ne.symm hc]
    · obtain ⟨t, rfl⟩ := List.head?_eq_some_iff.1 hhead
      simp [closesComment]
  | c :: d :: u =>
    have hlong : '-' = c → '-' = d → 7 ≤ bytes ('>' :: (c :: d :: u ++ (before ++ ['-', '-', '!', '<']))) := by
      rintro rfl rfl
      have hopener : bytes ['-', '-', '!', '<'] = 4 := by decide
      have hend : bytes ['>', '-', '-'] = 3 := by decide
      have hsplit : '>' :: ('-' :: '-' :: u ++ (before ++ ['-', '-', '!', '<'])) =
          ['>', '-', '-'] ++ (u ++ before ++ ['-', '-', '!', '<']) := by simp
      rw [hsplit, bytes_append, bytes_append, hopener, hend]
      omega
    simp only [closesComment, List.cons_append, List.isPrefixOf_cons_cons, List.isPrefixOf_nil_left, beq_self_eq_true,
      Bool.and_true, Bool.true_and, Bool.and_eq_true, beq_iff_eq, decide_eq_true_eq, List.reverse_cons,
      List.reverse_nil, List.nil_append, List.cons_prefix_cons, List.nil_prefix, and_true]
    exact ⟨fun hclose => hclose.1, fun hhyphens => ⟨hhyphens, hlong hhyphens.1 hhyphens.2⟩⟩

end Text

end TaggedText
