/-
Tags that are refused.

Reading a tag goes wrong in one of two ways. The whole text is reported as malformed, or a key is reported under which
a value was read before. `Tag.RepeatsKey start key t` says that the second happens in `t`, after what was read for
`start`: entries under new keys stand there, and then one under a key that has a value already.

Results:
- `Tag.readTail_eq_error`: what follows a name is refused as malformed, or for a key that it repeats;
- `Tag.read_eq_duplicate_iff`: a tag is refused for a key exactly if it repeats the key;
- `tag_read_exactly`: which texts are read as which tags, and which are refused for a repeated key.
-/
import TaggedText.Proofs.TagGrammar

namespace TaggedText

theorem Attributes.contains_iff {a : Attributes} {key : Text} :
    a.contains key = true ↔ ∃ e ∈ a.entries, e.1 = key := by
  have hnone : a.get? key = none ↔ ∀ e ∈ a.entries, e.1 ≠ key := lookup_eq_none_iff
  rw [contains, ← Option.not_isNone, Bool.not_eq_true', ← Bool.not_eq_true, Option.isNone_iff_eq_none, hnone]
  simp

namespace Tag

/-! ## Entries one after another -/

theorem spelledEntries_append {es fs : List (Text × Text)} {t : Text} :
    SpelledEntries (es ++ fs) t ↔ ∃ u v, SpelledEntries es u ∧ SpelledEntries fs v ∧ t = u ++ v := by
  induction es generalizing t with
  | nil => simp [SpelledEntries]
  | cons e es ih =>
    refine ⟨?_, ?_⟩
    · intro h
      obtain ⟨a, b, ha, hb, rfl⟩ := h
      obtain ⟨u, v, hu, hv, rfl⟩ := ih.1 hb
      exact ⟨a ++ u, v, ⟨a, u, ha, hu, rfl⟩, hv, (List.append_assoc a u v).symm⟩
    · intro h
      obtain ⟨_, v, ⟨a, u, ha, hu, rfl⟩, hv, rfl⟩ := h
      exact ⟨a, u ++ v, ha, ih.2 ⟨u, v, hu, hv, rfl⟩, List.append_assoc a u v⟩

/-- after what was read for `start`, entries under new keys, and then one under a key that has a value already -/
def RepeatsKey (start : Tag) (key t : Text) : Prop :=
  start.form ≠ .closing ∧ ∃ (attributes : Attributes) (es : List (Text × Text)) (value u rest : Text),
    attributes.entries = start.attributes.entries ++ es ∧ attributes.contains key = true ∧
      SpelledEntries (es ++ [(key, value)]) u ∧ t = u ++ rest

/-! ## What follows a name -/

variable {text t name key : Text} {start : Tag} {form : TagForm} {e : TagError}

theorem ended_eq_error {tag : Tag} (h : ended text tag t = .error e) : ∃ fault, e = .malformed text fault := by
  cases t with
  | nil => cases h
  | cons c t =>
    cases h
    exact ⟨_, rfl⟩

theorem closed_eq_error {tag : Tag} {fault : TagFault} (h : closed text tag fault t = .error e) :
    ∃ fault, e = .malformed text fault := by
  unfold closed at h
  split at h
  · exact ended_eq_error h
  · cases h
    exact ⟨_, rfl⟩

/-- one more entry in front -/
theorem RepeatsKey.cons {before k value u : Text} (hne : before ≠ []) (hbefore : Text.Blank before)
    (hk : Name.isName k = true) (hu : SpelledAssignment value u) (hform : start.form ≠ .closing)
    (hnew : start.attributes.get? k = none)
    (h : RepeatsKey { start with attributes := start.attributes.insert k value } key t) :
    RepeatsKey start key (before ++ (k ++ (u ++ t))) := by
  obtain ⟨-, attributes, es, last, v, rest, hentries, hkey, hv, rfl⟩ := h
  refine ⟨hform, attributes, (k, value) :: es, last, before ++ (k ++ u) ++ v, rest, ?_, hkey,
    ⟨_, v, ⟨before, u, hne, hbefore, hk, hu, rfl⟩, hv, rfl⟩, by simp⟩
  rw [hentries, Attributes.insert, dif_pos hnew]
  simp

/-- **Two ways to go wrong.** What follows a name is refused as malformed, or for a key that it repeats. -/
theorem readTail_eq_error (h : readTail text start t = .error e) :
    (∃ fault, e = .malformed text fault) ∨ ∃ key, e = .duplicateAttribute start.name key ∧ RepeatsKey start key t := by
  fun_induction readTail text start t with
  | case3 start t c rest hdrop hc hform => exact Or.inl (ended_eq_error h)
  | case5 start t c rest hdrop hc hform => exact Or.inl (closed_eq_error h)
  | case7 start t c rest hdrop hc hform => exact Or.inl (closed_eq_error h)
  | case11 start t c rest hdrop hc hclosing hblank key value after hattribute hold =>
    cases h
    obtain ⟨u, hkey, hu, hrest⟩ := takeAttribute_eq_ok_iff.1 hattribute
    have ht : t = t.takeWhile CharClass.isWhitespace ++ (key ++ u) ++ after := by
      rw [List.append_assoc, List.append_assoc, ← hrest, ← hdrop, List.takeWhile_append_dropWhile]
    have hentry : SpelledEntry (key, value) (t.takeWhile CharClass.isWhitespace ++ (key ++ u)) :=
      ⟨_, u, exists_blank_of_startsWithWhitespace (by simpa using hblank), Text.blank_takeWhile t, hkey, hu, rfl⟩
    exact Or.inr ⟨key, rfl, hclosing, start.attributes, [], value, _, after, (List.append_nil _).symm, hold,
      ⟨_, [], hentry, rfl, (List.append_nil _).symm⟩, ht⟩
  | case12 start t c rest hdrop hc hclosing hblank key value after hattribute hnew ih =>
    rcases ih h with hmalformed | ⟨k, rfl, hrepeats⟩
    · exact Or.inl hmalformed
    · obtain ⟨u, hkey, hu, hrest⟩ := takeAttribute_eq_ok_iff.1 hattribute
      have ht : t = t.takeWhile CharClass.isWhitespace ++ (key ++ (u ++ after)) := by
        rw [← hrest, ← hdrop, List.takeWhile_append_dropWhile]
      refine Or.inr ⟨k, rfl, ?_⟩
      rw [ht]
      exact hrepeats.cons (exists_blank_of_startsWithWhitespace (by simpa using hblank)) (Text.blank_takeWhile t) hkey
        hu hclosing (by simpa [Attributes.contains] using hnew)
  | _ =>
    cases h
    exact Or.inl ⟨_, rfl⟩

/-- where a key is repeated it is reported, whatever follows -/
theorem readTail_of_repeatsKey (h : RepeatsKey start key t) :
    readTail text start t = .error (.duplicateAttribute start.name key) := by
  obtain ⟨hform, attributes, es, value, _, rest, hentries, hkey, hu, rfl⟩ := h
  obtain ⟨u, _, hes, ⟨_, _, ⟨before, a, hne, hbefore, hname, ha, rfl⟩, rfl, rfl⟩, rfl⟩ := spelledEntries_append.1 hu
  have hname : Name.isName key = true := hname
  have hopen : ({ start with attributes } : Tag).form ≠ .closing := hform
  have hattribute : takeAttribute (key ++ (a ++ rest)) = .ok (key, value, rest) :=
    takeAttribute_eq_ok_iff.2 ⟨a, hname, ha, rfl⟩
  calc readTail text start (u ++ (before ++ (key ++ a) ++ []) ++ rest)
      = readTail text start (u ++ (before ++ (key ++ (a ++ rest)))) := by simp
    _ = readTail text { start with attributes } (before ++ (key ++ (a ++ rest))) :=
        readTail_of_entries (fun hc => absurd hc hform) hentries hes
    _ = .error (.duplicateAttribute start.name key) := by
        rw [readTail_of_key hne hbefore hname hopen, hattribute]
        simp only [hkey, if_true]

theorem readTail_eq_duplicate_iff :
    readTail text start t = .error (.duplicateAttribute name key) ↔ name = start.name ∧ RepeatsKey start key t := by
  refine ⟨?_, ?_⟩
  · intro h
    rcases readTail_eq_error h with ⟨fault, hfault⟩ | ⟨k, hk, hrepeats⟩
    · cases hfault
    · cases hk
      exact ⟨rfl, hrepeats⟩
  · intro h
    obtain ⟨rfl, hrepeats⟩ := h
    exact readTail_of_repeatsKey hrepeats

/-! ## Whole tags -/

theorem readNamed_eq_duplicate_iff :
    readNamed text form t = .error (.duplicateAttribute name key) ↔
      Name.isName name = true ∧ ∃ rest, t = name ++ rest ∧ RepeatsKey ⟨form, name, .empty⟩ key rest := by
  refine ⟨?_, ?_⟩
  · intro h
    simp only [readNamed] at h
    split at h
    · cases h
    · rename_i n rest hn
      obtain ⟨rfl, hname, -⟩ := takeName_eq_some_iff.1 hn
      obtain ⟨rfl, hrepeats⟩ := readTail_eq_duplicate_iff.1 h
      exact ⟨hname, rest, rfl, hrepeats⟩
  · intro h
    obtain ⟨hname, rest, rfl, hrepeats⟩ := h
    have hhead : ∀ c, rest.head? = some c → inName c = false := by
      obtain ⟨-, attributes, es, value, u, after, -, -, hu, rfl⟩ := hrepeats
      exact hu.head (by simp) after
    have htake : takeName (name ++ rest) = some (name, rest) := takeName_eq_some_iff.2 ⟨rfl, hname, hhead⟩
    simp only [readNamed, htake]
    exact readTail_eq_duplicate_iff.2 ⟨rfl, hrepeats⟩

theorem readNamed_eq_error (h : readNamed text form t = .error e) :
    (∃ fault, e = .malformed text fault) ∨ ∃ name key, e = .duplicateAttribute name key := by
  simp only [readNamed] at h
  split at h
  · cases h
    exact Or.inl ⟨_, rfl⟩
  · rcases readTail_eq_error h with hmalformed | ⟨key, rfl, -⟩
    · exact Or.inl hmalformed
    · exact Or.inr ⟨_, key, rfl⟩

theorem read_eq_error (h : read text = .error e) :
    (∃ fault, e = .malformed text fault) ∨ ∃ name key, e = .duplicateAttribute name key := by
  unfold read at h
  split at h
  all_goals first
    | exact readNamed_eq_error h
    | (cases h; exact Or.inl ⟨_, rfl⟩)

/-- a tag with a repeated key begins as any tag does, up to the value under that key -/
theorem read_eq_duplicate_iff :
    read text = .error (.duplicateAttribute name key) ↔
      Name.isName name = true ∧
        ∃ form rest, text = '<' :: mark form ++ (name ++ rest) ∧ RepeatsKey ⟨form, name, .empty⟩ key rest := by
  refine ⟨?_, ?_⟩
  · intro h
    unfold read at h
    split at h
    · obtain ⟨-, _, -, hform, -⟩ := readNamed_eq_duplicate_iff.1 h
      exact absurd rfl hform
    · obtain ⟨hname, rest, rfl, hrepeats⟩ := readNamed_eq_duplicate_iff.1 h
      exact ⟨hname, .instructions, rest, rfl, hrepeats⟩
    · cases h
    · obtain ⟨hname, rest, rfl, hrepeats⟩ := readNamed_eq_duplicate_iff.1 h
      exact ⟨hname, .opening, rest, rfl, hrepeats⟩
    · cases h
  · intro h
    obtain ⟨hname, form, rest, rfl, hrepeats⟩ := h
    -- a self-closing tag is told from an opening one at its end only
    have hnamed : ∀ text form', form' ≠ .closing →
        readNamed text form' (name ++ rest) = .error (.duplicateAttribute name key) :=
      fun text form' hform' => readNamed_eq_duplicate_iff.2 ⟨hname, rest, rfl, hform', hrepeats.2⟩
    obtain ⟨c, name, rfl⟩ := List.exists_cons_of_ne_nil (Name.isName_ne_nil hname)
    have hletter : CharClass.classify c = .letter := classify_of_isStart (Name.isName_cons.1 hname).1
    cases form with
    | opening => exact (read_of_letter (name ++ rest) hletter).trans (hnamed _ .opening (by decide))
    | selfClosing => exact (read_of_letter (name ++ rest) hletter).trans (hnamed _ .opening (by decide))
    | closing => exact absurd rfl hrepeats.1
    | instructions => exact hnamed _ .instructions (by decide)

end Tag

/-- **The tag grammar.** A text is read as a tag of a form, a name and entries exactly if it is a bracket, the mark of
the form, the name, the entries with whitespace before each, whitespace, and the end of the form. The keys are
distinct, and a closing tag has no entries. Any other text is malformed, or a key in it is reported. A key is reported
exactly if the text begins as an opening tag or instructions do, up to an entry under a key of an entry before it, the
keys of those before it being distinct. -/
theorem tag_read_exactly (text : Text) :
    (∀ form name entries,
      (∃ tag, Tag.read text = .ok tag ∧ tag.form = form ∧ tag.name = name ∧ tag.attributes.entries = entries) ↔
        Name.isName name = true ∧ (entries.Pairwise fun a b => a.1 ≠ b.1) ∧ (form = .closing → entries = []) ∧
          ∃ u w, Tag.SpelledEntries entries u ∧ Text.Blank w ∧
            text = '<' :: Tag.mark form ++ name ++ u ++ w ++ Tag.ending form) ∧
    ((∃ tag, Tag.read text = .ok tag) ∨ (∃ fault, Tag.read text = .error (.malformed text fault)) ∨
      ∃ name key, Tag.read text = .error (.duplicateAttribute name key)) ∧
    ∀ name key, Tag.read text = .error (.duplicateAttribute name key) ↔
      ∃ form entries value u rest, form ≠ .closing ∧ Name.isName name = true ∧
        (entries.Pairwise fun a b => a.1 ≠ b.1) ∧ (∃ e ∈ entries, e.1 = key) ∧
        Tag.SpelledEntries (entries ++ [(key, value)]) u ∧ text = '<' :: Tag.mark form ++ name ++ u ++ rest := by
  refine ⟨fun form name entries => ⟨?_, ?_⟩, ?_, fun name key => ⟨?_, ?_⟩⟩
  · intro h
    obtain ⟨tag, hread, rfl, rfl, rfl⟩ := h
    obtain ⟨hname, hclosing, hspelled⟩ := Tag.read_eq_ok_iff.1 hread
    exact ⟨hname, tag.attributes.distinct, hclosing, hspelled⟩
  · intro h
    obtain ⟨hname, hdistinct, hclosing, hspelled⟩ := h
    exact ⟨⟨form, name, ⟨entries, hdistinct⟩⟩, Tag.read_eq_ok_iff.2 ⟨hname, hclosing, hspelled⟩, rfl, rfl, rfl⟩
  · cases hread : Tag.read text with
    | ok tag => exact Or.inl ⟨tag, rfl⟩
    | error e =>
      rcases Tag.read_eq_error hread with ⟨fault, rfl⟩ | ⟨name, key, rfl⟩
      · exact Or.inr (Or.inl ⟨fault, rfl⟩)
      · exact Or.inr (Or.inr ⟨name, key, rfl⟩)
  · intro h
    obtain ⟨hname, form, _, rfl, hform, attributes, es, value, u, rest, rfl, hkey, hu, rfl⟩ :=
      Tag.read_eq_duplicate_iff.1 h
    exact ⟨form, attributes.entries, value, u, rest, hform, hname, attributes.distinct,
      Attributes.contains_iff.1 hkey, hu, by simp⟩
  · intro h
    obtain ⟨form, entries, value, u, rest, hform, hname, hdistinct, hkey, hu, rfl⟩ := h
    exact Tag.read_eq_duplicate_iff.2 ⟨hname, form, u ++ rest, by simp, hform, ⟨entries, hdistinct⟩, entries, value, u,
      rest, rfl, Attributes.contains_iff.2 hkey, hu, rfl⟩

/-- the key is reported before anything looks at the end of the tag, which is missing -/
example : Tag.read "<a k='1' j=\"2\" k='3' ".toList = .error (.duplicateAttribute ['a'] ['k']) := by cbv

end TaggedText
