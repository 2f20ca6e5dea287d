/-
What is read as a token.

The reads of a cursor take exactly what `cut` takes off the text. Each read is compared with the part of `cut` that it
stands for: comments stretch by stretch, bracket runs with their nesting depth, and runs of text with the blanks at
their beginning.

Results:
- `Cursor.takeToken_of_ok`: a piece that is cut off is read, and the cursor stands behind it;
- `Cursor.takeToken_of_error`: a fault is told of the place where the cursor stood before, although the reads that do
  not find the end of a run or a comment leave it at the end of the text.
-/
import TaggedText.Proofs.CursorReads
import TaggedText.Proofs.CutRules

namespace TaggedText

namespace Cursor

variable {c : Cursor}

theorem advance_advance (c : Cursor) (m n : Nat) (rest rest' : Text) :
    (c.advance m rest).advance n rest' = c.advance (m + n) rest' := by
  simp only [advance, Nat.add_assoc]

/-- the end of the text is the same place wherever it is gone to from -/
theorem toEnd_advance {u rest : Text} (h : c.place.rest = u ++ rest) : (c.advance u.length rest).toEnd = c.toEnd := by
  have hleft : (c.advance u.length rest).left = rest.length := rfl
  rw [toEnd, advance_advance, hleft, toEnd, left, h, List.length_append]

theorem takeUntil_of_append {delimiter : Char} {u rest : Text} (h : c.place.rest = u ++ delimiter :: rest)
    (hu : delimiter ∉ u) : c.takeUntil delimiter true = (.ok u, c.advance (u ++ [delimiter]).length rest) := by
  obtain ⟨htake, hdrop⟩ := Text.takeWhile_run (p := (· != delimiter)) (u := u) (v := delimiter :: rest)
    (fun ch hch => bne_iff_ne.2 (ne_of_mem_of_not_mem hch hu)) (by rintro ch ⟨⟩; simp)
  simp only [takeUntil, h, htake, hdrop, if_true, List.length_append, List.length_singleton]

theorem takeUntil_of_not_mem {delimiter : Char} (h : delimiter ∉ c.place.rest) (consume : Bool) :
    c.takeUntil delimiter consume = (.error (c.toEnd.failure .endOfInput), c.toEnd) := by
  have hdrop : c.place.rest.dropWhile (· != delimiter) = [] := by
    rw [List.dropWhile_eq_nil_iff]
    intro ch hch
    exact bne_iff_ne.2 (ne_of_mem_of_not_mem hch h)
  simp only [takeUntil, hdrop]

/-! ## Reading comments -/

theorem takeComment_of_error {start : Nat} {before : Text} {e : ReadError} {c' : Cursor}
    (h : c.takeUntil '>' true = (.error e, c')) :
    takeComment start before c = (.error (c'.failureAt start (.unbalanced 1)), c') := by
  rw [takeComment]
  split
  · cases h.symm.trans ‹_›
    rfl
  · cases h.symm.trans ‹_›

theorem takeComment_of_ok {start : Nat} {before stretch : Text} {c' : Cursor}
    (h : c.takeUntil '>' true = (.ok stretch, c')) :
    takeComment start before c =
      if Text.closesComment ('>' :: (stretch.reverse ++ before)) then
        (.ok ('>' :: (stretch.reverse ++ before)).reverse, c')
      else takeComment start ('>' :: (stretch.reverse ++ before)) c' := by
  rw [takeComment]
  split
  · cases h.symm.trans ‹_›
  · cases h.symm.trans ‹_›
    rfl

/-- **Stretch by stretch.** Behind the opener and the stretches `before`, which end in closing brackets, a comment is
read on up to its end, or the cursor comes to the end of the text without finding one. -/
theorem takeComment_cases {before : Text} (hbefore : before = [] ∨ before.head? = some '>') (start : Nat) (c : Cursor) :
    (∃ u rest, c.place.rest = u ++ rest ∧
        Cut.splitCommentEnd before c.place.rest = some (before.reverse ++ u, rest) ∧
        takeComment start (before ++ ['-', '-', '!', '<']) c =
          (.ok (['<', '!', '-', '-'] ++ (before.reverse ++ u)), c.advance u.length rest)) ∨
      (Cut.splitCommentEnd before c.place.rest = none ∧
        takeComment start (before ++ ['-', '-', '!', '<']) c =
          (.error (c.failureAt start (.unbalanced 1)), c.toEnd)) := by
  induction hn : c.place.rest.length using Nat.strongRecOn generalizing before c with
  | ind n ih =>
    by_cases hmem : '>' ∈ c.place.rest
    · obtain ⟨stretch, rest, hrest, hstretch⟩ := List.eq_append_cons_of_mem hmem
      have hrest' : c.place.rest = (stretch ++ ['>']) ++ rest := by rw [hrest, List.append_assoc, List.singleton_append]
      rw [takeComment_of_ok (takeUntil_of_append hrest hstretch), hrest, Cut.splitCommentEnd_stretch hstretch]
      by_cases hend : ['-', '-'] <:+ stretch
      · rw [if_pos ((Text.closesComment_iff hbefore stretch).2 hend), if_pos hend]
        refine Or.inl ⟨stretch ++ ['>'], rest, by simp, by simp, by simp⟩
      · rw [if_neg (mt (Text.closesComment_iff hbefore stretch).1 hend), if_neg hend]
        have hshorter : rest.length < n := by
          rw [← hn, hrest, List.length_append, List.length_cons]
          omega
        have hstretches : '>' :: (stretch.reverse ++ (before ++ ['-', '-', '!', '<'])) =
            '>' :: (stretch.reverse ++ before) ++ ['-', '-', '!', '<'] := by simp
        have hends : '>' :: (stretch.reverse ++ before) = [] ∨ ('>' :: (stretch.reverse ++ before)).head? = some '>' :=
          Or.inr rfl
        rw [hstretches]
        rcases ih rest.length hshorter hends (c.advance (stretch ++ ['>']).length rest) rfl with
          ⟨u, rest', hu, hsplit, hread⟩ | ⟨hsplit, hread⟩
        · obtain rfl : rest = u ++ rest' := hu
          refine Or.inl ⟨stretch ++ ['>'] ++ u, rest', by simp, ?_, ?_⟩
          · exact hsplit.trans (by simp)
          · rw [hread, advance_advance, ← List.length_append]
            exact Prod.ext (by simp) rfl
        · rw [toEnd_advance hrest'] at hread
          exact Or.inr ⟨hsplit, hread⟩
    · have hnone : Cut.splitCommentEnd before c.place.rest = none := by
        rw [Cut.splitCommentEnd_eq_none_iff]
        exact fun hend => hmem (hend.subset (by simp))
      exact Or.inr ⟨hnone, takeComment_of_error (takeUntil_of_not_mem hmem true)⟩

/-- a comment is read from its opener on -/
theorem takeComment_opener {t : Text} (h : c.place.rest = ['<', '!', '-', '-'] ++ t) (start : Nat) :
    takeComment start [] c = takeComment start ['-', '-', '!', '<'] (c.advance 4 t) := by
  have hend : (c.advance 4 t).toEnd = c.toEnd := toEnd_advance (u := ['<', '!', '-', '-']) h
  by_cases hmem : '>' ∈ t
  · obtain ⟨stretch, rest, rfl, hstretch⟩ := List.eq_append_cons_of_mem hmem
    have hbehind := takeUntil_of_append (c := c.advance 4 (stretch ++ '>' :: rest)) rfl hstretch
    have hrest : c.place.rest = (['<', '!', '-', '-'] ++ stretch) ++ '>' :: rest := by rw [h, List.append_assoc]
    have hwhole := takeUntil_of_append hrest (by simpa using hstretch)
    have hplace : (c.advance 4 (stretch ++ '>' :: rest)).advance (stretch ++ ['>']).length rest =
        c.advance (['<', '!', '-', '-'] ++ stretch ++ ['>']).length rest := by
      have hlength : (['<', '!', '-', '-'] ++ stretch ++ ['>']).length = 4 + (stretch ++ ['>']).length := by
        rw [List.append_assoc]
        exact List.length_append
      rw [advance_advance, hlength]
    rw [takeComment_of_ok hbehind, takeComment_of_ok hwhole, hplace]
    simp
  · have hnone : '>' ∉ c.place.rest := by
      rw [h]
      simpa using hmem
    rw [takeComment_of_error (takeUntil_of_not_mem hnone true),
      takeComment_of_error (takeUntil_of_not_mem (c := c.advance 4 t) hmem true), hend]

/-! ## Reading bracket runs -/

/-- where a cursor comes to that meets a fault: to the end if it looks for the end of something -/
def haltedBy (c : Cursor) : ReadFault → Cursor
  | .unbalanced _ => c.toEnd
  | _ => c

/-- the read that cutting off a piece stands for: its token, with the cursor behind it, or the fault at the cursor -/
def readOf (c : Cursor) : Except ReadFault Cut → Except ReadError (TokenKind × Text) × Cursor
  | .ok k => (.ok (k.kind, k.text), c.advance k.text.length k.rest)
  | .error fault => (.error (c.failure fault), c.haltedBy fault)

theorem ofRun_eq (body : Text) : TokenKind.ofRun CharClass.classify ('<' :: body ++ ['>']) = Cut.bracketKind body := by
  cases body with
  | nil => rfl
  | cons c body =>
    obtain ⟨d, behind, hbehind⟩ : ∃ d behind, body ++ ['>'] = d :: behind := List.exists_cons_of_ne_nil (by simp)
    rw [List.cons_append, List.cons_append, hbehind, TokenKind.ofRun]
    by_cases hquestion : c = '?'
    · subst hquestion
      rfl
    · by_cases hexclamation : c = '!'
      · subst hexclamation
        rfl
      · rw [Cut.bracketKind_of_ne (by simpa using hquestion) (by simpa using hexclamation)]
        split
        · rename_i hclass
          exact absurd ((CharClass.classify_eq_iff rfl).1 hclass) hquestion
        · rename_i hclass
          exact absurd ((CharClass.classify_eq_iff rfl).1 hclass) hexclamation
        · rfl

theorem takeAngle_of_opener {t : Text} (h : c.place.rest = ['<', '!', '-', '-'] ++ t) :
    takeAngle c.offset c = c.readOf (Cut.comment t) := by
  have hsees : c.sees ['<', '!', '-', '-'] = true := by
    rw [sees, h]
    simp
  have hend : (c.advance 4 t).toEnd = c.toEnd := toEnd_advance (u := ['<', '!', '-', '-']) h
  simp only [takeAngle, hsees, if_true, takeComment_opener h, Cut.comment]
  rcases takeComment_cases (Or.inl (Eq.refl ([] : Text))) c.offset (c.advance 4 t) with
    ⟨u, rest, -, hsplit, hread⟩ | ⟨hsplit, hread⟩
  · have hcut : Cut.splitCommentEnd [] t = some (u, rest) := hsplit
    rw [List.nil_append] at hread
    rw [hcut, hread, advance_advance, readOf, List.length_append]
    rfl
  · have hcut : Cut.splitCommentEnd [] t = none := hsplit
    rw [List.nil_append] at hread
    rw [hcut, hread, hend]
    rfl

/-- **A stray bracket** is an opening one some characters ahead, with no bracket between the cursor's own and it. -/
theorem strayOpening_eq_some_iff {tag : Text} {found : Char} :
    c.strayOpening = some (tag, found) ↔
      ∃ n, 0 < n ∧ c.ahead n = some found ∧ c.classOf found = .angleOpen ∧ tag = c.place.rest.take n ∧
        ∀ i ch, 0 < i → i < n → c.ahead i = some ch → c.classOf ch ≠ .angleOpen ∧ c.classOf ch ≠ .angleClose := by
  cases hrest : c.place.rest with
  | nil => simp [strayOpening, ahead, hrest]
  | cons first t =>
    simp only [strayOpening, hrest, Text.strayOpening_eq_some_iff, ahead, classOf]
    refine ⟨?_, ?_⟩
    · rintro ⟨body, rest, rfl, rfl, hfound, hbody⟩
      refine ⟨body.length + 1, Nat.succ_pos _, by simp, hfound, by simp, fun i ch hpos hi hch => ?_⟩
      obtain ⟨j, rfl⟩ := Nat.exists_eq_succ_of_ne_zero hpos.ne'
      rw [List.getElem?_cons_succ, List.getElem?_append_left (Nat.lt_of_succ_lt_succ hi)] at hch
      exact hbody ch (List.mem_of_getElem? hch)
    · rintro ⟨n, hpos, hahead, hfound, rfl, hbetween⟩
      obtain ⟨m, rfl⟩ := Nat.exists_eq_succ_of_ne_zero hpos.ne'
      rw [List.getElem?_cons_succ] at hahead
      obtain ⟨hm, hget⟩ := List.getElem?_eq_some_iff.1 hahead
      refine ⟨t.take m, t.drop (m + 1), ?_, rfl, hfound, fun ch hch => ?_⟩
      · rw [← hget, List.cons_getElem_drop_succ, List.take_append_drop]
      · obtain ⟨i, hi⟩ := List.mem_iff_getElem?.1 hch
        obtain ⟨hlt, -⟩ := List.getElem?_eq_some_iff.1 hi
        rw [List.length_take] at hlt
        refine hbetween (i + 1) ch (Nat.succ_pos i) (by omega) ?_
        rwa [List.getElem?_cons_succ, ← List.getElem?_take_of_lt (by omega : i < m)]

/-- characters that are no angle brackets have the class of neither -/
theorem classify_ne_of_plain {u : Text} (h : ∀ ch ∈ u, ch ≠ '<' ∧ ch ≠ '>') :
    ∀ ch ∈ u, CharClass.classify ch ≠ .angleOpen ∧ CharClass.classify ch ≠ .angleClose := by
  intro ch hch
  exact ⟨fun hopen => (h ch hch).1 ((CharClass.classify_eq_iff rfl).1 hopen),
    fun hclose => (h ch hch).2 ((CharClass.classify_eq_iff rfl).1 hclose)⟩

section

variable (hc : c.source.classifier = CharClass.classify)
include hc

theorem nextClassOr_cons {ch : Char} {t : Text} (h : c.place.rest = ch :: t) (fallback : CharClass) :
    c.nextClassOr fallback = CharClass.classify ch := by
  simp only [nextClassOr, next?, h, List.head?_cons, classOf, hc]

/-- the depth is 1 behind the opening bracket, and stays so up to the next one -/
theorem takeBalanced_of_open {body : Text} (hbody : ∀ ch ∈ body, ch ≠ '<' ∧ ch ≠ '>') :
    (c.place.rest = '<' :: body →
      c.takeBalanced .angleOpen .angleClose true = (.error (c.failure (.unbalanced 1)), c.toEnd)) ∧
    ∀ rest, c.place.rest = '<' :: (body ++ '>' :: rest) →
      c.takeBalanced .angleOpen .angleClose true =
        (.ok ('<' :: body ++ ['>']), c.advance ('<' :: body ++ ['>']).length rest) := by
  have hplain := classify_ne_of_plain hbody
  have hsplit : ∀ v, Text.splitBalanced CharClass.classify .angleOpen .angleClose 0 [] ('<' :: (body ++ v)) =
      Text.splitBalanced CharClass.classify .angleOpen .angleClose 1 (body.reverse ++ ['<']) v := by
    intro v
    rw [← Text.splitBalanced_append hplain]
    rfl
  refine ⟨fun h => ?_, fun rest h => ?_⟩
  · have hopen := hsplit []
    have hnext : c.nextClassOr .eof = .angleOpen := nextClassOr_cons hc h .eof
    rw [List.append_nil] at hopen
    rw [takeBalanced, if_neg (not_not_intro hnext), hc, h, hopen]
    rfl
  · have hnext : c.nextClassOr .eof = .angleOpen := nextClassOr_cons hc h .eof
    rw [takeBalanced, if_neg (not_not_intro hnext), hc, h, hsplit, Text.splitBalanced, if_pos ⟨rfl, Nat.one_pos⟩,
      if_pos rfl]
    simp

theorem strayOpening_of_plain {body v : Text} (h : c.place.rest = '<' :: (body ++ v))
    (hbody : ∀ ch ∈ body, ch ≠ '<' ∧ ch ≠ '>') :
    c.strayOpening = Text.strayOpening CharClass.classify (body.reverse ++ ['<']) v := by
  simp only [strayOpening, h, hc]
  exact Text.strayOpening_append (classify_ne_of_plain hbody) _ _

/-- up to the first bracket behind its own there is none, so that this one tells how a run is read -/
theorem takeAngle_of_not_opener {t : Text} (h : c.place.rest = '<' :: t) (hopener : ¬ ['!', '-', '-'] <+: t) :
    takeAngle c.offset c = c.readOf (Cut.bracket t) := by
  have hsees : c.sees ['<', '!', '-', '-'] = false := by
    rw [sees, h, Bool.eq_false_iff, ne_eq, List.isPrefixOf_iff_prefix]
    exact fun hpre => hopener (List.cons_prefix_cons.1 hpre).2
  simp only [takeAngle, hsees, Bool.false_eq_true, if_false]
  rcases Cut.plain_or_bracket t with hall | ⟨body, ch, rest, rfl, hbody, rfl | rfl⟩
  · have hplace : c.place.rest = '<' :: (t ++ []) := by rw [List.append_nil, h]
    rw [Cut.bracket_of_plain hall, strayOpening_of_plain hc hplace hall, Text.strayOpening,
      (takeBalanced_of_open hc hall).1 h]
    rfl
  · have hsome : Text.strayOpening CharClass.classify (body.reverse ++ ['<']) ('<' :: rest) =
        some ('<' :: body, '<') := by
      simp [Text.strayOpening, CharClass.classify]
    rw [Cut.bracket_of_open hbody, strayOpening_of_plain hc h hbody, hsome]
    rfl
  · have hnone : Text.strayOpening CharClass.classify (body.reverse ++ ['<']) ('>' :: rest) = none := rfl
    have hok : Cut.bracket (body ++ '>' :: rest) = .ok ⟨Cut.bracketKind body, '<' :: body ++ ['>'], rest⟩ :=
      Cut.bracket_eq_ok_iff.2 ⟨body, rfl, rfl, rfl, hbody⟩
    have hkind : TokenKind.ofRun (c.advance ('<' :: body ++ ['>']).length rest).source.classifier
        ('<' :: body ++ ['>']) = Cut.bracketKind body := by
      rw [← ofRun_eq, ← hc]
      rfl
    rw [hok, strayOpening_of_plain hc h hbody, hnone, (takeBalanced_of_open hc hbody).2 rest h]
    simp only [hkind, readOf]

/-- **What begins with an angle bracket** is read as it is cut off, and fails with the fault of cutting it off. -/
theorem takeAngle_eq {t : Text} (h : c.place.rest = '<' :: t) : takeAngle c.offset c = c.readOf (Cut.angle t) := by
  by_cases hopener : ['!', '-', '-'] <+: t
  · obtain ⟨t, rfl⟩ := hopener
    exact takeAngle_of_opener h
  · rw [takeAngle_of_not_opener hc h hopener, Cut.angle_eq_bracket hopener]

/-! ## Reading runs of text -/

theorem takeIn_whitespace : c.takeIn [.whitespace] = (c.place.rest.takeWhile CharClass.isWhitespace,
    c.advance (c.place.rest.takeWhile CharClass.isWhitespace).length
      (c.place.rest.dropWhile CharClass.isWhitespace)) := by
  have hclass : (fun ch => [CharClass.whitespace].contains (c.classOf ch)) = CharClass.isWhitespace := by
    funext ch
    simp [classOf, hc, CharClass.isWhitespace, Bool.beq_eq_decide_eq]
  simp only [takeIn, takeRun, hclass]

theorem takeNotIn_textStop : c.takeNotIn CharClass.textStop = (c.place.rest.takeWhile (!Cut.endsText ·),
    c.advance (c.place.rest.takeWhile (!Cut.endsText ·)).length (c.place.rest.dropWhile (!Cut.endsText ·))) := by
  have hclass : (fun ch => !CharClass.textStop.contains (c.classOf ch)) = (!Cut.endsText ·) := by
    funext ch
    rw [Cut.endsText_eq_contains, classOf, hc]
  simp only [takeNotIn, takeRun, hclass]

/-- **Runs of text.** Blanks are read first, and what follows them unless the run ends there. -/
theorem takeText_eq : c.takeText = (((Cut.run c.place.rest).kind, (Cut.run c.place.rest).text),
    c.advance (Cut.run c.place.rest).text.length (Cut.run c.place.rest).rest) := by
  have hrest : c.place.rest = c.place.rest.takeWhile CharClass.isWhitespace ++
      c.place.rest.dropWhile CharClass.isWhitespace := List.takeWhile_append_dropWhile.symm
  have hblanks : ∀ ch ∈ c.place.rest.takeWhile CharClass.isWhitespace, CharClass.isWhitespace ch = true :=
    fun ch hch => List.mem_takeWhile_imp hch
  have hhead : ∀ ch, (c.place.rest.dropWhile CharClass.isWhitespace).head? = some ch →
      CharClass.isWhitespace ch = false := fun ch hch => Text.head_dropWhile hch
  simp only [takeText, takeIn_whitespace hc]
  generalize c.place.rest.takeWhile CharClass.isWhitespace = blanks at *
  generalize c.place.rest.dropWhile CharClass.isWhitespace = v at *
  have hbehind : (c.advance blanks.length v).source.classifier = CharClass.classify := hc
  rw [hrest]
  cases v with
  | nil =>
    rw [Cut.run_of_blanks hblanks (by simp)]
    simp [atEnd, advance]
  | cons ch v =>
    have hplace : (c.advance blanks.length (ch :: v)).place.rest = ch :: v := rfl
    have hnext := nextClassOr_cons hbehind hplace .eof
    have hleft : (c.advance blanks.length (ch :: v)).atEnd = false := rfl
    rw [hnext, hleft, Bool.or_false, ← Cut.endsText_eq_contains]
    cases hend : Cut.endsText ch with
    | true => rw [if_pos rfl, Cut.run_of_blanks hblanks (by simpa using hend)]
    | false =>
      rw [if_neg Bool.false_ne_true, Cut.run_of_value hblanks rfl (hhead ch rfl) hend, takeNotIn_textStop hbehind,
        advance_advance, List.length_append]
      rfl

/-! ## Reading tokens -/

theorem takeToken_of_endsText {ch : Char} {t : Text} (h : c.place.rest = ch :: t) (hstay : Cut.endsText ch = false) :
    c.takeToken = some (.ok c.takeText.1, c.takeText.2) := by
  have hends : ¬ _ := mt Cut.endsText_iff.2 (Bool.eq_false_iff.1 hstay)
  rw [not_or, not_or] at hends
  have hnot := CharClass.classify_ne_eof ch
  rw [takeToken, nextClassOr_cons hc h]
  split
  · exact absurd ‹_› hnot
  · exact absurd ‹_› hends.1
  · exact absurd ‹_› hends.2.1
  · exact absurd ‹_› hends.2.2
  · rfl

/-- a piece that is cut off is read, and the cursor stands behind it -/
theorem takeToken_of_ok {k : Cut} (h : cut c.place.rest = some (.ok k)) :
    ∃ c', c.takeToken = some (.ok (k.kind, k.text), c') ∧ c.Passes k.text c' := by
  cases hrest : c.place.rest with
  | nil =>
    rw [hrest] at h
    cases h
  | cons ch t =>
    have htext : ch :: t = k.text ++ k.rest := hrest ▸ (Cut.canonical_of_cut h).1
    rw [hrest] at h
    have hpasses : c.Passes k.text (c.advance k.text.length k.rest) := passes_advance (hrest.trans htext)
    have hnext := nextClassOr_cons hc hrest .eof
    by_cases hend : Cut.endsText ch = true
    · rcases Cut.endsText_iff.1 hend with hopen | hclose | hunknown
      · obtain rfl := (CharClass.classify_eq_iff rfl).1 hopen
        have hangle : Cut.angle t = .ok k := Option.some.inj h
        have hread : takeAngle c.offset c = c.readOf (.ok k) := (takeAngle_eq hc hrest).trans (congrArg c.readOf hangle)
        exact ⟨_, by rw [takeToken, hnext]; exact congrArg some hread, hpasses⟩
      · simp only [cut, hclose] at h
        cases h
      · simp only [cut, hunknown] at h
        cases h
        have hread : c.takeChar true = (.ok ch, c.setMark.advance 1 t) := by
          simp only [takeChar, if_true, setMark, hrest]
        refine ⟨c.setMark.advance 1 t, ?_, (passes_setMark c).advance (u := [ch]) hrest⟩
        simp only [takeToken, hnext, hunknown, hread]
    · have hstay : Cut.endsText ch = false := Bool.eq_false_of_not_eq_true hend
      rw [Cut.cut_cons_of_endsText hstay] at h
      cases h
      have hread := takeText_eq hc
      rw [hrest] at hread
      exact ⟨_, by rw [takeToken_of_endsText hc hrest hstay, hread], hpasses⟩

/-- **Where nothing can be cut off.** The fault is told of the place where the cursor stood; it is left there, or at the
end of the text if it looked for the end of a bracket run or a comment. -/
theorem takeToken_of_error {fault : ReadFault} (h : cut c.place.rest = some (.error fault)) :
    c.takeToken = some (.error (c.failure fault), c.haltedBy fault) := by
  obtain ⟨ch, t, hrest, ⟨rfl, rfl⟩ | ⟨rfl, hangle⟩⟩ := Cut.cut_eq_error h
  · rw [takeToken, nextClassOr_cons hc hrest]
    rfl
  · have hread : takeAngle c.offset c = c.readOf (.error fault) :=
      (takeAngle_eq hc hrest).trans (congrArg c.readOf hangle)
    rw [takeToken, nextClassOr_cons hc hrest]
    exact congrArg some hread

end

theorem takeToken_of_nil (h : c.place.rest = []) : c.takeToken = none := by
  have hnext : c.nextClassOr .eof = .eof := by simp only [nextClassOr, next?, h, List.head?_nil]
  rw [takeToken, hnext]

theorem passes_haltedBy (c : Cursor) (fault : ReadFault) : ∃ passed, c.Passes passed (c.haltedBy fault) := by
  cases fault with
  | unbalanced depth => exact ⟨_, passes_toEnd c⟩
  | _ => exact ⟨[], Passes.refl c⟩

end Cursor

end TaggedText
