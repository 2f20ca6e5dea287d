/-
Tags that break off inside a value.

`Tag.BrokenEntries es u` says that the text `u` holds the entries `es` and the start of one more, whose value does not
end. A bracket inside a value does this to the tag around it: the tag is cut off at the bracket, before anything looks
at quotes (`Attributes.exists_broken`).

Results:
- `Tag.read_of_broken`: a tag that breaks off inside a value is refused;
- `cuts_broken`: where a tag breaks off at a bracket, the text is not cut at all, or the tag is one of its pieces.
-/
import TaggedText.Proofs.TokenErrors
import TaggedText.Proofs.WrittenText

namespace TaggedText

/-- the piece is a tag, or instructions, that cannot be read -/
def Piece.Garbled (p : Piece) : Prop :=
  (p.kind = .tag ∨ p.kind = .instructions) ∧ ∃ e, Tag.read p.text = .error e

/-! ## Reading what breaks off -/

namespace Tag

/-- whole entries, and then whitespace, a key, an equals sign and a value that its quote does not end -/
def BrokenEntries (es : List (Text × Text)) (u : Text) : Prop :=
  ∃ v before key quote value, SpelledEntries es v ∧ before ≠ [] ∧ Text.Blank before ∧ Name.isName key = true ∧
    (quote = '"' ∨ quote = '\'') ∧ quote ∉ value ∧ u = v ++ (before ++ (key ++ '=' :: quote :: value))

theorem BrokenEntries.cons {e : Text × Text} {es : List (Text × Text)} {t u : Text} (he : SpelledEntry e t)
    (h : BrokenEntries es u) : BrokenEntries (e :: es) (t ++ u) := by
  obtain ⟨v, before, key, quote, value, hv, hne, hbefore, hkey, hquote, hvalue, rfl⟩ := h
  exact ⟨t ++ v, before, key, quote, value, ⟨t, v, he, hv, rfl⟩, hne, hbefore, hkey, hquote, hvalue,
    (List.append_assoc t v _).symm⟩

theorem takeValue_of_not_mem {quote : Char} {t : Text} (h : quote ∉ t) :
    takeValue quote t = .error .unterminatedValue := by
  have hdrop : t.dropWhile (· != quote) = [] := by
    rw [List.dropWhile_eq_nil_iff]
    intro c hc
    exact bne_iff_ne.2 (ne_of_mem_of_not_mem hc h)
  simp only [takeValue, hdrop]

theorem takeAttribute_of_not_mem {key t : Text} {quote : Char} (hkey : Name.isName key = true)
    (hquote : quote = '"' ∨ quote = '\'') (h : quote ∉ t) :
    takeAttribute (key ++ '=' :: quote :: t) = .error .unterminatedValue := by
  have hname : takeName (key ++ '=' :: quote :: t) = some (key, '=' :: quote :: t) := by
    refine takeName_eq_some_iff.2 ⟨rfl, hkey, ?_⟩
    intro c hc
    cases hc
    decide
  have hequals : ('=' :: quote :: t).dropWhile CharClass.isWhitespace = '=' :: quote :: t :=
    List.dropWhile_cons_of_neg (by decide)
  have hblank : CharClass.isWhitespace quote = false := isWhitespace_of_isQuote (isQuote_iff.2 hquote)
  have hstart : (quote :: t).dropWhile CharClass.isWhitespace = quote :: t :=
    List.dropWhile_cons_of_neg (by simp [hblank])
  have hassign : takeAssignment ('=' :: quote :: t) = .error .unterminatedValue := by
    rw [takeAssignment, hequals]
    simp only [hstart, isQuote_iff.2 hquote, if_true, takeValue_of_not_mem h]
  simp only [takeAttribute, hname, hassign]

/-- an opening tag, or instructions, that break off inside a value are refused for it -/
theorem readTail_of_broken {text u : Text} {start : Tag} {attributes : Attributes} (hform : start.form ≠ .closing)
    (hstart : start.attributes = .empty) (h : BrokenEntries attributes.entries u) :
    readTail text start (u ++ ['>']) = .error (.malformed text .unterminatedValue) := by
  obtain ⟨v, before, key, quote, value, hv, hne, hbefore, hkey, hquote, hvalue, rfl⟩ := h
  have hend : quote ∉ value ++ ['>'] := by
    intro hmem
    rcases List.mem_append.1 hmem with hmem | hmem
    · exact hvalue hmem
    · obtain rfl := List.mem_singleton.1 hmem
      exact absurd hquote (by decide)
  have hentries : attributes.entries = start.attributes.entries ++ attributes.entries := by rw [hstart]; rfl
  have hopen : ({ start with attributes } : Tag).form ≠ .closing := hform
  calc readTail text start (v ++ (before ++ (key ++ '=' :: quote :: value)) ++ ['>'])
      = readTail text start (v ++ (before ++ (key ++ '=' :: quote :: (value ++ ['>'])))) := by simp
    _ = readTail text { start with attributes } (before ++ (key ++ '=' :: quote :: (value ++ ['>']))) :=
        readTail_of_entries (fun hc => absurd hc hform) hentries hv
    _ = .error (.malformed text .unterminatedValue) := by
        rw [readTail_of_key hne hbefore hkey hopen, takeAttribute_of_not_mem hkey hquote hend]

/-- the first character of what breaks off is no part of a name -/
theorem BrokenEntries.head {es : List (Text × Text)} {u : Text} (h : BrokenEntries es u) :
    ∃ c t, u = c :: t ∧ inName c = false := by
  have hblank : ∀ {before rest : Text}, before ≠ [] → Text.Blank before →
      ∃ c t, before ++ rest = c :: t ∧ inName c = false := by
    intro before rest hne hbefore
    obtain ⟨c, before, rfl⟩ := List.exists_cons_of_ne_nil hne
    exact ⟨c, before ++ rest, rfl, inName_of_isWhitespace (hbefore c List.mem_cons_self)⟩
  obtain ⟨v, before, key, quote, value, hv, hne, hbefore, -, -, -, rfl⟩ := h
  cases es with
  | nil =>
    obtain rfl : v = [] := hv
    rw [List.nil_append]
    exact hblank hne hbefore
  | cons e es =>
    obtain ⟨_, w, ⟨before', a, hne', hbefore', -, -, rfl⟩, -, rfl⟩ := hv
    rw [List.append_assoc, List.append_assoc]
    exact hblank hne' hbefore'

/-- **Broken tags.** An opening tag, or instructions, that break off inside a value are refused. -/
theorem read_of_broken {form : TagForm} {name u : Text} {attributes : Attributes}
    (hform : form = .opening ∨ form = .instructions) (hname : Name.isName name = true)
    (h : BrokenEntries attributes.entries u) :
    ∃ e, Tag.read ('<' :: (mark form ++ name ++ u) ++ ['>']) = .error e := by
  obtain ⟨d, t, hu, hd⟩ := h.head
  have htake : takeName (name ++ (u ++ ['>'])) = some (name, u ++ ['>']) := by
    refine takeName_eq_some_iff.2 ⟨rfl, hname, ?_⟩
    intro x hx
    rw [hu] at hx
    cases hx
    exact hd
  have hnamed : ∀ text form, form ≠ .closing →
      readNamed text form (name ++ (u ++ ['>'])) = .error (.malformed text .unterminatedValue) := by
    intro text form hform
    simp only [readNamed, htake]
    exact readTail_of_broken hform rfl h
  rcases hform with rfl | rfl
  · obtain ⟨c, rest, rfl⟩ := List.exists_cons_of_ne_nil (Name.isName_ne_nil hname)
    have hletter : CharClass.classify c = .letter := classify_of_isStart (Name.isName_cons.1 hname).1
    have htext : '<' :: (mark .opening ++ (c :: rest) ++ u) ++ ['>'] = '<' :: c :: (rest ++ (u ++ ['>'])) := by
      simp [mark]
    rw [htext, read_of_letter _ hletter]
    exact ⟨_, hnamed _ .opening (by decide)⟩
  · have htext : '<' :: (mark .instructions ++ name ++ u) ++ ['>'] = '<' :: '?' :: (name ++ (u ++ ['>'])) := by
      simp [mark]
    rw [htext]
    exact ⟨_, hnamed _ .instructions (by decide)⟩

end Tag

/-! ## Cutting what breaks off -/

/-- where a tag breaks off at a bracket, the text is not cut into pieces, or the tag is one of them -/
theorem cuts_broken {form : TagForm} {name u rest : Text} {c : Char} {attributes : Attributes} {ps : List Piece}
    (hform : form = .opening ∨ form = .instructions) (hname : Name.isName name = true)
    (hbroken : Tag.BrokenEntries attributes.entries u) (hu : ∀ c ∈ u, c ≠ '<' ∧ c ≠ '>') (hc : c = '<' ∨ c = '>')
    (h : Cuts ('<' :: (Tag.mark form ++ name ++ u) ++ c :: rest) ps) : ∃ p ∈ ps, p.Garbled := by
  obtain ⟨d, hbracketed, hhead, hexclamation, hquestion⟩ := Tag.bracketed_mark form hname hu
  rcases hc with rfl | rfl
  · have hopener : ¬ ['!', '-', '-'] <+: Tag.mark form ++ name ++ u ++ '<' :: rest := by
      intro hpre
      obtain ⟨v, hv⟩ := hpre
      have hfirst : (Tag.mark form ++ name ++ u ++ '<' :: rest).head? = some d := by
        rw [List.head?_append, hhead]
        rfl
      rw [← hv] at hfirst
      exact hexclamation (Option.some.inj hfirst).symm
    have hcut : cut ('<' :: (Tag.mark form ++ name ++ u) ++ '<' :: rest) =
        some (.error (.bracketInTag ('<' :: (Tag.mark form ++ name ++ u)) '<')) :=
      congrArg some ((Cut.angle_eq_bracket hopener).trans (Cut.bracket_of_open hbracketed.no_angle))
    exact absurd h (not_cuts_of_error hcut)
  · have htext : '<' :: (Tag.mark form ++ name ++ u) ++ '>' :: rest =
        '<' :: (Tag.mark form ++ name ++ u) ++ ['>'] ++ rest := by simp
    have hcut : cut ('<' :: (Tag.mark form ++ name ++ u) ++ '>' :: rest) =
        some (.ok ⟨Cut.bracketKind (Tag.mark form ++ name ++ u), '<' :: (Tag.mark form ++ name ++ u) ++ ['>'], rest⟩) := by
      rw [htext]
      exact Cut.cut_of_bracketed hbracketed
    obtain ⟨qs, rfl, -⟩ := (cuts_of_cut hcut).1 h
    refine ⟨_, List.mem_cons_self, ?_, Tag.read_of_broken hform hname hbroken⟩
    by_cases hd : d = '?'
    · obtain ⟨body, hbody⟩ := List.head?_eq_some_iff.1 (hd ▸ hhead)
      rw [hbody]
      exact Or.inr rfl
    · refine Or.inl (Cut.bracketKind_of_ne ?_ ?_)
      · rw [hhead]
        exact fun heq => hd (Option.some.inj heq)
      · rw [hhead]
        exact fun heq => hexclamation (Option.some.inj heq)

/-! ## Brackets in values -/

namespace Attributes

/-- the value under a key is written between two equal quotes that it does not contain -/
theorem eq_of_writeEntry {name t : Text} {e : Text × Text} (h : writeEntry name e = .ok t) :
    ∃ quote, (quote = '"' ∨ quote = '\'') ∧ quote ∉ e.2 ∧ t = ' ' :: e.1 ++ '=' :: quote :: e.2 ++ [quote] := by
  by_cases hquotes : '"' ∈ e.2 ∧ '\'' ∈ e.2
  · have hnone : quoteFor e.2 = none := by simp [quoteFor, hquotes]
    simp only [writeEntry, hnone] at h
    cases h
  · obtain ⟨quote, hfor, hquote, hnot⟩ := exists_quoteFor hquotes
    simp only [writeEntry, hfor] at h
    cases h
    exact ⟨quote, hquote, hnot, rfl⟩

theorem exists_of_mapM_cons {name : Text} {e : Text × Text} {es : List (Text × Text)} {ts : List Text}
    (h : (e :: es).mapM (writeEntry name) = .ok ts) :
    ∃ t rs, writeEntry name e = .ok t ∧ es.mapM (writeEntry name) = .ok rs ∧ ts = t :: rs := by
  rw [List.mapM_cons] at h
  obtain ⟨t, ht, h⟩ := Element.exists_of_bind_eq_ok h
  obtain ⟨rs, hrs, h⟩ := Element.exists_of_bind_eq_ok h
  cases h
  exact ⟨t, rs, ht, hrs, rfl⟩

/-- where a bracket stands in a value, the entries that are written break off at the first of these brackets -/
theorem exists_broken_entries {name : Text} {es : List (Text × Text)} {ts : List Text}
    (hkeys : ∀ e ∈ es, Name.isName e.1 = true) (hwrite : es.mapM (writeEntry name) = .ok ts)
    (hbracket : ¬ ∀ e ∈ es, ∀ c ∈ e.2, c ≠ '<' ∧ c ≠ '>') :
    ∃ fs u c rest, fs <+: es ∧ Tag.BrokenEntries fs u ∧ (∀ c ∈ u, c ≠ '<' ∧ c ≠ '>') ∧ (c = '<' ∨ c = '>') ∧
      ts.flatten = u ++ c :: rest := by
  induction es generalizing ts with
  | nil => exact absurd (List.forall_mem_nil _) hbracket
  | cons e es ih =>
    obtain ⟨hkey, hkeys⟩ := List.forall_mem_cons.1 hkeys
    obtain ⟨t, rs, ht, hrs, rfl⟩ := exists_of_mapM_cons hwrite
    obtain ⟨quote, hquote, hnot, rfl⟩ := eq_of_writeEntry ht
    rcases Cut.plain_or_bracket e.2 with hplain | ⟨value, c, rest, hvalue, hbody, hc⟩
    · -- the first entry is whole, and the bracket stands in another
      have hquotes := Tag.not_both_quotes hquote hnot
      have hothers : ¬ ∀ e ∈ es, ∀ c ∈ e.2, c ≠ '<' ∧ c ≠ '>' :=
        fun hall => hbracket (List.forall_mem_cons.2 ⟨hplain, hall⟩)
      obtain ⟨t, ht', hspelled, hplain'⟩ := exists_writeEntry name hkey hplain hquotes
      obtain rfl := Except.ok.inj (ht.symm.trans ht')
      obtain ⟨fs, u, c, rest, hfs, hbroken, hu, hc, hflatten⟩ := ih hkeys hrs hothers
      refine ⟨e :: fs, _, c, rest, List.cons_prefix_cons.2 ⟨rfl, hfs⟩, hbroken.cons hspelled,
        List.forall_mem_append.2 ⟨hplain', hu⟩, hc, ?_⟩
      rw [List.flatten_cons, hflatten, ← List.append_assoc]
    · -- the bracket stands in the value of the first entry
      have hstart := no_angle_of_start hkey hquote
      have hsplit : ' ' :: e.1 ++ '=' :: quote :: value = ' ' :: e.1 ++ ['=', quote] ++ value := by simp
      have hblank : Text.Blank [' '] := List.forall_mem_singleton.2 (by decide)
      have hvalueEnd : quote ∉ value := by
        intro hmem
        rw [hvalue] at hnot
        exact hnot (List.mem_append_left _ hmem)
      refine ⟨[], ' ' :: e.1 ++ '=' :: quote :: value, c, rest ++ [quote] ++ rs.flatten, List.nil_prefix,
        ⟨[], [' '], e.1, quote, value, rfl, List.cons_ne_nil _ _, hblank, hkey, hquote, hvalueEnd, rfl⟩, ?_, hc, ?_⟩
      · rw [hsplit]
        exact List.forall_mem_append.2 ⟨hstart, hbody⟩
      · rw [List.flatten_cons, hvalue]
        simp

/-- where a bracket stands in a value, what is written of the attributes breaks off at the first of these brackets -/
theorem exists_broken {name t : Text} {a : Attributes} (hkeys : ∀ e ∈ a.entries, Name.isName e.1 = true)
    (hwrite : a.write name = .ok t) (hbracket : ¬ ∀ e ∈ a.entries, ∀ c ∈ e.2, c ≠ '<' ∧ c ≠ '>') :
    ∃ (before : Attributes) (u : Text) (c : Char) (rest : Text), Tag.BrokenEntries before.entries u ∧
      (∀ c ∈ u, c ≠ '<' ∧ c ≠ '>') ∧ (c = '<' ∨ c = '>') ∧ t = u ++ c :: rest := by
  unfold write at hwrite
  split at hwrite
  · cases hwrite
  · rename_i ts hts
    cases hwrite
    obtain ⟨fs, u, c, rest, hfs, hbroken, hu, hc, hflatten⟩ := exists_broken_entries hkeys hts hbracket
    exact ⟨⟨fs, a.distinct.sublist hfs.sublist⟩, u, c, rest, hbroken, hu, hc, hflatten⟩

end Attributes

end TaggedText
