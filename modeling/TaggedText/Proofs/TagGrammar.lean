/-
The grammar of tags.

`Tag.Spelled` says how the text of a tag is put together: the mark and the end of its form, its name, and attributes
with whitespace before each. The readers of the parts are exact, each for its part of the grammar
(`takeName_eq_some_iff`, `takeAssignment_eq_ok_iff`, `takeAttribute_eq_ok_iff`), and so is `Tag.read`
(`read_eq_ok_iff`).
-/
import TaggedText.Proofs.Pieces

namespace TaggedText

def Text.Blank (t : Text) : Prop :=
  ∀ c ∈ t, CharClass.isWhitespace c = true

theorem Text.blank_takeWhile (t : Text) : Text.Blank (t.takeWhile CharClass.isWhitespace) :=
  fun _ hc => List.mem_takeWhile_imp hc

theorem Text.dropWhile_blank {before rest : Text} (h : Text.Blank before)
    (hrest : ∀ c, rest.head? = some c → CharClass.isWhitespace c = false) :
    (before ++ rest).dropWhile CharClass.isWhitespace = rest :=
  (Text.takeWhile_run h hrest).2

theorem Attributes.eq_of_entries {a b : Attributes} (h : a.entries = b.entries) : a = b := by
  cases a
  cases b
  cases h
  rfl

namespace Tag

/-! ## The grammar -/

/-- what stands between the opening bracket and the name -/
def mark : TagForm → Text
  | .opening => []
  | .closing => ['/']
  | .selfClosing => []
  | .instructions => ['?']

def ending : TagForm → Text
  | .opening => ['>']
  | .closing => ['>']
  | .selfClosing => ['/', '>']
  | .instructions => ['?', '>']

/-- what stands before the bracket at the end -/
def endMark : TagForm → Text
  | .opening => []
  | .closing => []
  | .selfClosing => ['/']
  | .instructions => ['?']

theorem ending_eq (form : TagForm) : ending form = endMark form ++ ['>'] := by
  cases form <;> rfl

/-- an equals sign, with whitespace around it, and the value between two equal quotes -/
def SpelledAssignment (value t : Text) : Prop :=
  ∃ before after quote, Text.Blank before ∧ Text.Blank after ∧ (quote = '"' ∨ quote = '\'') ∧ quote ∉ value ∧
    t = before ++ '=' :: (after ++ quote :: (value ++ [quote]))

/-- whitespace, the key, and the value assigned to it -/
def SpelledEntry (entry : Text × Text) (t : Text) : Prop :=
  ∃ before u, before ≠ [] ∧ Text.Blank before ∧ Name.isName entry.1 = true ∧ SpelledAssignment entry.2 u ∧
    t = before ++ (entry.1 ++ u)

def SpelledEntries : List (Text × Text) → Text → Prop
  | [], t => t = []
  | e :: es, t => ∃ u v, SpelledEntry e u ∧ SpelledEntries es v ∧ t = u ++ v

/-- how the text of a tag is put together; a closing tag has no attributes -/
def Spelled (tag : Tag) (text : Text) : Prop :=
  Name.isName tag.name = true ∧ (tag.form = .closing → tag.attributes.entries = []) ∧
    ∃ u w, SpelledEntries tag.attributes.entries u ∧ Text.Blank w ∧
      text = '<' :: mark tag.form ++ tag.name ++ u ++ w ++ ending tag.form

/-! ## The readers of the parts -/

theorem isQuote_iff {c : Char} : isQuote c = true ↔ c = '"' ∨ c = '\'' := by
  refine ⟨?_, ?_⟩
  · intro h
    unfold isQuote CharClass.classify at h
    split at h
    all_goals first
      | exact Or.inl rfl
      | exact Or.inr rfl
      | exact absurd h (by decide)
      | (split_ifs at h <;> exact absurd h (by decide))
  · rintro (rfl | rfl) <;> decide

/-- a name ends where no character of a name follows -/
theorem takeName_eq_some_iff {t name rest : Text} :
    takeName t = some (name, rest) ↔
      t = name ++ rest ∧ Name.isName name = true ∧ ∀ c, rest.head? = some c → inName c = false := by
  refine ⟨?_, ?_⟩
  · intro h
    simp only [takeName] at h
    split_ifs at h with hname
    cases h
    exact ⟨(List.takeWhile_append_dropWhile).symm, hname, fun c hc => Text.head_dropWhile hc⟩
  · intro h
    obtain ⟨rfl, hname, hrest⟩ := h
    obtain ⟨htake, hdrop⟩ := Text.takeWhile_run (fun c hc => Name.inName_of_mem hname hc) hrest
    simp only [takeName, htake, hdrop, hname, if_true]

theorem takeValue_eq_ok_iff {quote : Char} {t value rest : Text} :
    takeValue quote t = .ok (value, rest) ↔ t = value ++ quote :: rest ∧ quote ∉ value := by
  refine ⟨?_, ?_⟩
  · intro h
    simp only [takeValue] at h
    split at h
    · cases h
    · rename_i c r hdrop
      cases h
      have hc : (c != quote) = false := Text.head_dropWhile (p := (· != quote)) (t := t) (by rw [hdrop]; rfl)
      obtain rfl := bne_eq_false_iff_eq.1 hc
      refine ⟨?_, fun hmem => absurd (List.mem_takeWhile_imp hmem) (by simp)⟩
      rw [← hdrop, List.takeWhile_append_dropWhile]
  · intro h
    obtain ⟨rfl, hquote⟩ := h
    obtain ⟨htake, hdrop⟩ := Text.takeWhile_run (p := (· != quote)) (u := value) (v := quote :: rest)
      (fun c hc => bne_iff_ne.2 (ne_of_mem_of_not_mem hc hquote)) (by rintro c ⟨⟩; simp)
    simp only [takeValue, htake, hdrop]

theorem isWhitespace_of_isQuote {c : Char} (h : isQuote c = true) : CharClass.isWhitespace c = false := by
  rcases isQuote_iff.1 h with rfl | rfl <;> decide

theorem takeAssignment_eq_ok_iff {t value rest : Text} :
    takeAssignment t = .ok (value, rest) ↔ ∃ u, SpelledAssignment value u ∧ t = u ++ rest := by
  refine ⟨?_, ?_⟩
  · intro h
    simp only [takeAssignment] at h
    split at h
    · rename_i t1 h1
      split at h
      · rename_i quote t2 h2
        split_ifs at h with hquote
        obtain ⟨rfl, hvalue⟩ := takeValue_eq_ok_iff.1 h
        refine ⟨_, ⟨t.takeWhile CharClass.isWhitespace, t1.takeWhile CharClass.isWhitespace, quote,
          Text.blank_takeWhile t, Text.blank_takeWhile t1, isQuote_iff.1 hquote, hvalue, rfl⟩, ?_⟩
        calc t = t.takeWhile CharClass.isWhitespace ++ '=' :: t1 := by
              rw [← h1, List.takeWhile_append_dropWhile]
          _ = t.takeWhile CharClass.isWhitespace ++
                '=' :: (t1.takeWhile CharClass.isWhitespace ++ quote :: (value ++ quote :: rest)) := by
              rw [← h2, List.takeWhile_append_dropWhile]
          _ = _ := by simp
      · cases h
    · cases h
  · intro h
    obtain ⟨_, ⟨before, after, quote, hbefore, hafter, hquote, hvalue, rfl⟩, rfl⟩ := h
    have h1 : (before ++ '=' :: (after ++ quote :: (value ++ quote :: rest))).dropWhile CharClass.isWhitespace =
        '=' :: (after ++ quote :: (value ++ quote :: rest)) :=
      Text.dropWhile_blank hbefore (by rintro c ⟨⟩; decide)
    have h2 : (after ++ quote :: (value ++ quote :: rest)).dropWhile CharClass.isWhitespace =
        quote :: (value ++ quote :: rest) :=
      Text.dropWhile_blank hafter (by rintro c ⟨⟩; exact isWhitespace_of_isQuote (isQuote_iff.2 hquote))
    have h3 : takeValue quote (value ++ quote :: rest) = .ok (value, rest) :=
      takeValue_eq_ok_iff.2 ⟨rfl, hvalue⟩
    simp only [List.append_assoc, List.cons_append, List.nil_append]
    rw [takeAssignment, h1]
    simp only [h2, isQuote_iff.2 hquote, if_true, h3]

/-- whitespace is no part of a name -/
theorem inName_of_isWhitespace {c : Char} (h : CharClass.isWhitespace c = true) : inName c = false := by
  have hclass : CharClass.classify c = .whitespace := eq_of_beq h
  simp [inName, hclass]

/-- an assignment begins with no character of a name -/
theorem SpelledAssignment.head {value t rest : Text} (h : SpelledAssignment value t) :
    ∀ c, (t ++ rest).head? = some c → inName c = false := by
  obtain ⟨before, after, quote, hbefore, -, -, -, rfl⟩ := h
  intro c hc
  cases before with
  | nil =>
    cases hc
    decide
  | cons d before =>
    obtain rfl : d = c := Option.some.inj hc
    exact inName_of_isWhitespace (hbefore d List.mem_cons_self)

theorem takeAttribute_eq_ok_iff {t key value rest : Text} :
    takeAttribute t = .ok (key, value, rest) ↔
      ∃ u, Name.isName key = true ∧ SpelledAssignment value u ∧ t = key ++ (u ++ rest) := by
  refine ⟨?_, ?_⟩
  · intro h
    obtain ⟨v, hname, hassign⟩ := exists_of_takeAttribute h
    obtain ⟨rfl, hkey, -⟩ := takeName_eq_some_iff.1 hname
    obtain ⟨u, hu, rfl⟩ := takeAssignment_eq_ok_iff.1 hassign
    exact ⟨u, hkey, hu, rfl⟩
  · intro h
    obtain ⟨u, hkey, hu, rfl⟩ := h
    have hname : takeName (key ++ (u ++ rest)) = some (key, u ++ rest) :=
      takeName_eq_some_iff.2 ⟨rfl, hkey, hu.head⟩
    have hassign : takeAssignment (u ++ rest) = .ok (value, rest) :=
      takeAssignment_eq_ok_iff.2 ⟨u, hu, rfl⟩
    simp only [takeAttribute, hname, hassign]

theorem ended_eq_ok_iff {text rest : Text} {tag done : Tag} :
    ended text tag rest = .ok done ↔ rest = [] ∧ done = tag := by
  cases rest with
  | nil => simp [ended, eq_comm]
  | cons c rest => simp [ended]

theorem closed_eq_ok_iff {text t : Text} {tag done : Tag} {fault : TagFault} :
    closed text tag fault t = .ok done ↔ t = ['>'] ∧ done = tag := by
  refine ⟨?_, ?_⟩
  · intro h
    unfold closed at h
    split at h
    · obtain ⟨rfl, rfl⟩ := ended_eq_ok_iff.1 h
      exact ⟨rfl, rfl⟩
    · cases h
  · intro h
    obtain ⟨rfl, rfl⟩ := h
    rfl

/-! ## What follows a name -/

/-- how the text after the name of `start` is put together if reading it makes `done` of what was read before -/
def SpelledTail (start done : Tag) (t : Text) : Prop :=
  done.name = start.name ∧ mark done.form = mark start.form ∧
    ∃ es u w, done.attributes.entries = start.attributes.entries ++ es ∧ (start.form = .closing → es = []) ∧
      SpelledEntries es u ∧ Text.Blank w ∧ t = u ++ w ++ ending done.form

/-- a tag is over where its end follows whitespace -/
theorem SpelledTail.of_ending {start done : Tag} {t : Text} (hname : done.name = start.name)
    (hmark : mark done.form = mark start.form) (hattributes : done.attributes = start.attributes)
    (hdrop : t.dropWhile CharClass.isWhitespace = ending done.form) : SpelledTail start done t := by
  refine ⟨hname, hmark, [], [], t.takeWhile CharClass.isWhitespace, by simp [hattributes], fun _ => rfl, rfl,
    Text.blank_takeWhile t, ?_⟩
  rw [← hdrop, List.nil_append, List.takeWhile_append_dropWhile]

/-- one more attribute in front -/
theorem SpelledTail.cons {start done : Tag} {before key value u t : Text} (hne : before ≠ [])
    (hbefore : Text.Blank before) (hkey : Name.isName key = true) (hu : SpelledAssignment value u)
    (hform : start.form ≠ .closing) (hnew : start.attributes.get? key = none)
    (h : SpelledTail { start with attributes := start.attributes.insert key value } done t) :
    SpelledTail start done (before ++ (key ++ (u ++ t))) := by
  obtain ⟨hname, hmark, es, v, w, hentries, -, hv, hw, rfl⟩ := h
  refine ⟨hname, hmark, (key, value) :: es, before ++ (key ++ u) ++ v, w, ?_, fun hc => absurd hc hform,
    ⟨_, v, ⟨before, u, hne, hbefore, hkey, hu, rfl⟩, hv, rfl⟩, hw, by simp⟩
  rw [hentries, Attributes.insert, dif_pos hnew]
  simp

theorem exists_blank_of_startsWithWhitespace {t : Text} (h : startsWithWhitespace t = true) :
    t.takeWhile CharClass.isWhitespace ≠ [] := by
  cases t with
  | nil => cases h
  | cons c t =>
    have hc : CharClass.isWhitespace c = true := h
    simp [hc]

theorem spelledTail_of_readTail {text t : Text} {start done : Tag} (h : readTail text start t = .ok done)
    (hform : start.form ≠ .selfClosing) : SpelledTail start done t := by
  fun_induction readTail text start t generalizing done with
  | case3 start t c rest hdrop hc hinstructions =>
    obtain ⟨rfl, rfl⟩ := ended_eq_ok_iff.1 h
    obtain rfl := (CharClass.classify_eq_iff rfl).1 hc
    refine SpelledTail.of_ending rfl rfl rfl (hdrop.trans ?_)
    cases hf : done.form <;> simp_all [ending]
  | case5 start t c rest hdrop hc hopening =>
    obtain ⟨rfl, rfl⟩ := closed_eq_ok_iff.1 h
    obtain rfl := (CharClass.classify_eq_iff rfl).1 hc
    rw [not_not] at hopening
    exact SpelledTail.of_ending rfl (by rw [hopening]; rfl) rfl hdrop
  | case7 start t c rest hdrop hc hinstructions =>
    obtain ⟨rfl, rfl⟩ := closed_eq_ok_iff.1 h
    obtain rfl := (CharClass.classify_eq_iff rfl).1 hc
    rw [not_not] at hinstructions
    exact SpelledTail.of_ending rfl rfl rfl (by rw [hdrop, hinstructions]; rfl)
  | case12 start t c rest hdrop hc hclosing hblank key value after hattribute hnew ih =>
    obtain ⟨u, hkey, hu, hrest⟩ := takeAttribute_eq_ok_iff.1 hattribute
    have ht : t = t.takeWhile CharClass.isWhitespace ++ (key ++ (u ++ after)) := by
      rw [← hrest, ← hdrop, List.takeWhile_append_dropWhile]
    rw [ht]
    refine SpelledTail.cons (exists_blank_of_startsWithWhitespace (by simpa using hblank)) (Text.blank_takeWhile t)
      hkey hu hclosing (by simpa [Attributes.contains] using hnew) (ih h hform)
  | _ => cases h

/-- the end of a tag is read where it follows whitespace -/
theorem readTail_of_ending {text t : Text} {start done : Tag} (hname : done.name = start.name)
    (hmark : mark done.form = mark start.form) (hattributes : done.attributes = start.attributes)
    (hdrop : t.dropWhile CharClass.isWhitespace = ending done.form) (hform : start.form ≠ .selfClosing) :
    readTail text start t = .ok done := by
  obtain ⟨form, name, attributes⟩ := start
  obtain ⟨form', name', attributes'⟩ := done
  obtain rfl : name' = name := hname
  obtain rfl : attributes' = attributes := hattributes
  rw [readTail]
  split
  · rename_i hnil
    rw [hnil] at hdrop
    cases form' <;> cases hdrop
  · rename_i c rest hcons
    rw [hcons] at hdrop
    have hforms : form' = form ∨ form = .opening ∧ form' = .selfClosing := by
      cases form <;> cases form' <;> simp_all [mark]
    rcases hforms with rfl | ⟨rfl, rfl⟩
    · cases form' with
      | selfClosing => exact absurd rfl hform
      | _ =>
        obtain ⟨rfl, rfl⟩ := List.cons.inj hdrop
        rfl
    · obtain ⟨rfl, rfl⟩ := List.cons.inj hdrop
      rfl

/-- an attribute is looked for where a name follows whitespace -/
theorem readTail_of_key {text before key t : Text} {start : Tag} (hne : before ≠ []) (hbefore : Text.Blank before)
    (hkey : Name.isName key = true) (hform : start.form ≠ .closing) :
    readTail text start (before ++ (key ++ t)) =
      match takeAttribute (key ++ t) with
      | .error fault => .error (.malformed text fault)
      | .ok (k, value, after) =>
        if start.attributes.contains k then .error (.duplicateAttribute start.name k)
        else readTail text { start with attributes := start.attributes.insert k value } after := by
  obtain ⟨d, before, rfl⟩ := List.exists_cons_of_ne_nil hne
  obtain ⟨c, key, rfl⟩ := List.exists_cons_of_ne_nil (Name.isName_ne_nil hkey)
  have hletter : CharClass.classify c = .letter := classify_of_isStart (Name.isName_cons.1 hkey).1
  have hdrop : (d :: before ++ (c :: key ++ t)).dropWhile CharClass.isWhitespace = c :: key ++ t := by
    refine Text.dropWhile_blank hbefore ?_
    intro x h
    cases h
    simp [CharClass.isWhitespace, hletter]
  have hstart : startsWithWhitespace (d :: before ++ (c :: key ++ t)) = true := hbefore d List.mem_cons_self
  rw [readTail]
  split
  · rename_i hnil
    rw [hdrop] at hnil
    cases hnil
  · rename_i c' rest hcons
    obtain ⟨rfl, rfl⟩ := List.cons.inj (hdrop.symm.trans hcons)
    simp only [hletter, if_neg hform, hstart, Bool.not_true, Bool.false_eq_true, if_false]
    split
    · rename_i fault hfault
      have hfault : takeAttribute (c :: key ++ t) = .error fault := hfault
      rw [hfault]
    · rename_i k value after hok
      have hok : takeAttribute (c :: key ++ t) = .ok (k, value, after) := hok
      rw [hok]

/-- an attribute is read where it follows whitespace -/
theorem readTail_of_attribute {text before key value u t : Text} {start : Tag} (hne : before ≠ [])
    (hbefore : Text.Blank before) (hkey : Name.isName key = true) (hu : SpelledAssignment value u)
    (hform : start.form ≠ .closing) (hnew : start.attributes.get? key = none) :
    readTail text start (before ++ (key ++ (u ++ t))) =
      readTail text { start with attributes := start.attributes.insert key value } t := by
  have hattribute : takeAttribute (key ++ (u ++ t)) = .ok (key, value, t) :=
    takeAttribute_eq_ok_iff.2 ⟨u, hkey, hu, rfl⟩
  have hcontains : start.attributes.contains key = false := by simp [Attributes.contains, hnew]
  rw [readTail_of_key hne hbefore hkey hform, hattribute]
  simp only [hcontains, Bool.false_eq_true, if_false]

/-- entries of distinct keys are read one after another -/
theorem readTail_of_entries {text u t : Text} {start : Tag} {es : List (Text × Text)} {attributes : Attributes}
    (hclosing : start.form = .closing → es = []) (hentries : attributes.entries = start.attributes.entries ++ es)
    (hu : SpelledEntries es u) : readTail text start (u ++ t) = readTail text { start with attributes } t := by
  induction es generalizing start u with
  | nil =>
    obtain rfl : u = [] := hu
    obtain rfl : attributes = start.attributes := Attributes.eq_of_entries (by rw [hentries, List.append_nil])
    rfl
  | cons e es ih =>
    obtain ⟨_, u, ⟨before, a, hne, hbefore, hkey, ha, rfl⟩, hu, rfl⟩ := hu
    have hnot : start.form ≠ .closing := fun hc => List.cons_ne_nil e es (hclosing hc)
    have hnew : start.attributes.get? e.1 = none := by
      have hdistinct := attributes.distinct
      rw [hentries] at hdistinct
      exact Attributes.lookup_eq_none_iff.2 fun x hx =>
        (List.pairwise_append.1 hdistinct).2.2 x hx e List.mem_cons_self
    have hafter : attributes.entries = (start.attributes.insert e.1 e.2).entries ++ es := by
      rw [hentries, Attributes.insert, dif_pos hnew]
      simp
    calc readTail text start (before ++ (e.1 ++ a) ++ u ++ t)
        = readTail text start (before ++ (e.1 ++ (a ++ (u ++ t)))) := by simp only [List.append_assoc]
      _ = readTail text { start with attributes := start.attributes.insert e.1 e.2 } (u ++ t) :=
          readTail_of_attribute hne hbefore hkey ha hnot hnew
      _ = readTail text { start with attributes } t :=
          @ih u { start with attributes := start.attributes.insert e.1 e.2 } (fun hc => absurd hc hnot) hafter hu

/-- entries of distinct keys, and the end after them, are read -/
theorem readTail_of_spelledTail {text t : Text} {start done : Tag} (h : SpelledTail start done t)
    (hform : start.form ≠ .selfClosing) : readTail text start t = .ok done := by
  obtain ⟨hname, hmark, es, u, w, hentries, hclosing, hu, hw, rfl⟩ := h
  rw [List.append_assoc, readTail_of_entries hclosing hentries hu]
  refine readTail_of_ending hname hmark rfl ?_ hform
  refine Text.dropWhile_blank hw ?_
  cases done.form <;> (rintro c ⟨⟩; decide)

/-! ## Whole tags -/

/-- entries begin with whitespace, which is no part of a name -/
theorem SpelledEntries.head {es : List (Text × Text)} {u : Text} (h : SpelledEntries es u) (hne : es ≠ [])
    (rest : Text) : ∀ c, (u ++ rest).head? = some c → inName c = false := by
  obtain ⟨e, es, rfl⟩ := List.exists_cons_of_ne_nil hne
  obtain ⟨_, v, ⟨before, a, hne, hbefore, -, -, rfl⟩, -, rfl⟩ := h
  obtain ⟨d, before, rfl⟩ := List.exists_cons_of_ne_nil hne
  intro c hc
  obtain rfl : d = c := Option.some.inj hc
  exact inName_of_isWhitespace (hbefore d List.mem_cons_self)

/-- the first character after the name, or the end of the text, ends the name -/
theorem SpelledTail.head {start done : Tag} {t : Text} (h : SpelledTail start done t) :
    ∀ c, t.head? = some c → inName c = false := by
  obtain ⟨-, -, es, u, w, -, -, hu, hw, rfl⟩ := h
  intro c hc
  cases es with
  | cons e es =>
    rw [List.append_assoc] at hc
    exact hu.head (List.cons_ne_nil e es) _ c hc
  | nil =>
    obtain rfl : u = [] := hu
    cases w with
    | cons d w =>
      obtain rfl : d = c := Option.some.inj hc
      exact inName_of_isWhitespace (hw d List.mem_cons_self)
    | nil => cases hf : done.form <;> (rw [hf] at hc; cases hc; decide)

theorem readNamed_eq_ok_iff {text t : Text} {form : TagForm} {tag : Tag} (hform : form ≠ .selfClosing) :
    readNamed text form t = .ok tag ↔
      Name.isName tag.name = true ∧
        ∃ rest, t = tag.name ++ rest ∧ SpelledTail ⟨form, tag.name, .empty⟩ tag rest := by
  refine ⟨?_, ?_⟩
  · intro h
    simp only [readNamed] at h
    split at h
    · cases h
    · rename_i name rest hname
      obtain ⟨rfl, hok, -⟩ := takeName_eq_some_iff.1 hname
      have htail := spelledTail_of_readTail h hform
      obtain rfl : tag.name = name := htail.1
      exact ⟨hok, rest, rfl, htail⟩
  · intro h
    obtain ⟨hname, rest, rfl, htail⟩ := h
    have htake : takeName (tag.name ++ rest) = some (tag.name, rest) :=
      takeName_eq_some_iff.2 ⟨rfl, hname, htail.head⟩
    simp only [readNamed, htake]
    exact readTail_of_spelledTail htail hform

theorem closing_iff_of_mark {form form' : TagForm} (h : mark form' = mark form) :
    form = .closing ↔ form' = .closing := by
  cases form <;> cases form' <;> simp_all [mark]

theorem spelled_of_readNamed {form : TagForm} {tag : Tag} {text t : Text} (hform : form ≠ .selfClosing)
    (htext : text = '<' :: mark form ++ t) (h : readNamed text form t = .ok tag) : tag.Spelled text := by
  obtain ⟨hname, _, rfl, -, hmark, es, u, w, hes, hnone, hu, hw, rfl⟩ := (readNamed_eq_ok_iff hform).1 h
  obtain rfl : tag.attributes.entries = es := hes
  refine ⟨hname, fun hc => hnone ((closing_iff_of_mark hmark).2 hc), u, w, hu, hw, ?_⟩
  rw [htext, hmark]
  simp

theorem readNamed_of_spelled {form : TagForm} {tag : Tag} {text : Text} (hform : form ≠ .selfClosing)
    (hmark : mark tag.form = mark form) (h : tag.Spelled text) :
    ∃ t, text = '<' :: mark form ++ (tag.name ++ t) ∧ readNamed text form (tag.name ++ t) = .ok tag := by
  obtain ⟨hname, hnone, u, w, hu, hw, rfl⟩ := h
  refine ⟨u ++ w ++ ending tag.form, by simp [hmark], (readNamed_eq_ok_iff hform).2 ⟨hname, _, rfl, rfl, hmark,
    tag.attributes.entries, u, w, rfl, fun hc => hnone ((closing_iff_of_mark hmark).1 hc), hu, hw, rfl⟩⟩

/-- the name of an opening tag keeps it from being another kind of tag -/
theorem read_of_letter {c : Char} (t : Text) (h : CharClass.classify c = .letter) :
    read ('<' :: c :: t) = readNamed ('<' :: c :: t) .opening (c :: t) := by
  unfold read
  split
  all_goals rename_i heq
  · cases heq
    cases h
  · cases heq
    cases h
  · cases heq
    cases h
  · cases heq
    rfl
  · exact absurd rfl (heq (c :: t))

theorem read_of_spelled_opening {tag : Tag} {text : Text} (hmark : mark tag.form = []) (h : tag.Spelled text) :
    read text = .ok tag := by
  obtain ⟨t, htext, hread⟩ := readNamed_of_spelled (show TagForm.opening ≠ .selfClosing by decide) hmark h
  obtain ⟨c, name, hname⟩ := List.exists_cons_of_ne_nil (Name.isName_ne_nil h.1)
  have hletter : CharClass.classify c = .letter := classify_of_isStart (Name.isName_cons.1 (hname ▸ h.1)).1
  rw [← hread, htext, hname]
  exact read_of_letter (name ++ t) hletter

/-- the texts that are read as a tag are those put together as one -/
theorem read_eq_ok_iff {text : Text} {tag : Tag} : read text = .ok tag ↔ tag.Spelled text := by
  refine ⟨?_, ?_⟩
  · intro h
    unfold read at h
    split at h
    · exact spelled_of_readNamed (by decide) rfl h
    · exact spelled_of_readNamed (by decide) rfl h
    · cases h
    · exact spelled_of_readNamed (by decide) rfl h
    · cases h
  · intro h
    cases hform : tag.form with
    | opening => exact read_of_spelled_opening (by rw [hform]; rfl) h
    | selfClosing => exact read_of_spelled_opening (by rw [hform]; rfl) h
    | closing =>
      obtain ⟨t, htext, hread⟩ := readNamed_of_spelled (show TagForm.closing ≠ .selfClosing by decide) (by rw [hform]) h
      rw [← hread, htext]
      rfl
    | instructions =>
      obtain ⟨t, htext, hread⟩ :=
        readNamed_of_spelled (show TagForm.instructions ≠ .selfClosing by decide) (by rw [hform]) h
      rw [← hread, htext]
      rfl

end Tag

end TaggedText
