/-
How far tokens are taken.

`Builder.Takes` says that a builder takes all tokens of a list, and `Builder.Halts` at which token, and how, it comes
to a halt: the end token, a token after the root, or one that is refused. `Builder.Refuses` lists why a token is
refused, guards included.

Results:
- `feed_cases`: the tokens of a list are taken, all of them or those before one at which the builder halts;
- `Takes.feed_append`: what follows tokens that are taken is fed to the builder that they lead to;
- `Takes.preserves`: what is kept by every step is kept by all that is taken;
- `refuses_of_step`: a fault of a step is one of those listed;
- `ofTokens_eq_error_iff`: building fails where tokens end too early, or at the first token that is not taken.
-/
import TaggedText.Proofs.TreeBuilding

namespace TaggedText

/-- whether the piece opens an element: an opening tag, or a self-closing one -/
def Piece.Opens (p : Piece) : Prop :=
  ∃ tag, p.IsTag tag ∧ (tag.form = .opening ∨ tag.form = .selfClosing)

namespace Builder

variable {rules : BuildRules} {b m : Builder}

/-! ## Handlers -/

theorem addText_of_nil {t : Text} (ht : t ≠ []) (h : b.stack = []) : b.addText t = .error .looseText := by
  unfold addText
  rw [if_neg ht]
  split
  · rfl
  · rename_i top below hstack
    rw [h] at hstack
    cases hstack

theorem addText_of_none {t : Text} {top : Frame} {below : List Frame} (ht : t ≠ []) (h : b.stack = top :: below)
    (hheld : extendText t top.held = none) : b.addText t = .error (.mixedContent top.name) := by
  simp only [addText_of_cons ht h, hheld]

/-! ## What is refused -/

/-- why a piece is not taken -/
inductive Refuses (rules : BuildRules) (b : Builder) (p : Piece) : BuildFault → Prop
  | unreadable (e : TagError) (hkind : p.kind = .tag ∨ p.kind = .instructions) (hread : Tag.read p.text = .error e) :
      Refuses rules b p (.tag e)
  | notInstructions (tag : Tag) (hkind : p.kind = .instructions) (hread : Tag.read p.text = .ok tag)
      (hform : tag.form ≠ .instructions) : Refuses rules b p (.tag (.malformed p.text .notInstructions))
  | deep (limit : Nat) (hopens : p.Opens) (hmax : rules.maxDepth = some limit) (hlimit : limit ≤ b.depth) :
      Refuses rules b p (.tooDeep limit)
  | child (name : Text) (hopens : p.Opens) (hlimit : rules.Allows (b.depth + 1))
      (htext : textHolder? b.stack = some name) : Refuses rules b p (.mixedContent name)
  | stray (tag : Tag) (htag : p.IsTag tag) (hform : tag.form = .closing) (h : b.stack = []) :
      Refuses rules b p (.strayClosing tag.name)
  | wrongName (tag : Tag) (top : Frame) (below : List Frame) (htag : p.IsTag tag) (hform : tag.form = .closing)
      (h : b.stack = top :: below) (hname : top.name ≠ tag.name) :
      Refuses rules b p (.wrongClosing top.name tag.name b.depth)
  | late (i : Instructions) (h : p.IsInstructions i) (hstarted : b.started = true) :
      Refuses rules b p (.lateInstructions i.target)
  | repeated (i : Instructions) (h : p.IsInstructions i) (hstarted : b.started = false)
      (hsome : b.instructions.isSome = true) : Refuses rules b p (.repeatedInstructions i.target)
  | loose (hkind : p.kind = .value) (hne : p.text ≠ []) (h : b.stack = []) : Refuses rules b p .looseText
  | text (top : Frame) (below : List Frame) (hkind : p.kind = .value) (hne : p.text ≠ []) (h : b.stack = top :: below)
      (hheld : extendText p.text top.held = none) : Refuses rules b p (.mixedContent top.name)

theorem refuses_of_openElement {p : Piece} {tag : Tag} {fault : BuildFault} (hopens : p.Opens)
    (h : b.openElement rules tag = .error fault) : Refuses rules b p fault := by
  unfold openElement at h
  split at h
  · rename_i limit hlimit
    cases h
    obtain ⟨hmax, hle⟩ := Option.filter_eq_some_iff.1 hlimit
    exact .deep limit hopens hmax (of_decide_eq_true hle)
  · rename_i hlimit
    split at h
    · rename_i name htext
      cases h
      exact .child name hopens (limitReached?_eq_none_iff.1 hlimit) htext
    · cases h

theorem refuses_of_closeElement {p : Piece} {tag : Tag} {fault : BuildFault} (htag : p.IsTag tag)
    (hform : tag.form = .closing) (h : b.closeElement rules tag.name = .error fault) : Refuses rules b p fault := by
  unfold closeElement at h
  split at h
  · rename_i hstack
    cases h
    exact .stray tag htag hform hstack
  · rename_i top below hstack
    split_ifs at h with hname
    cases h
    exact .wrongName tag top below htag hform hstack hname

theorem refuses_of_giveInstructions {p : Piece} {tag : Tag} {fault : BuildFault}
    (hkind : p.kind = .instructions ∨ p.kind = .tag) (hread : Tag.read p.text = .ok tag)
    (hform : tag.form = .instructions) (h : b.giveInstructions tag = .error fault) : Refuses rules b p fault := by
  obtain ⟨form, name, attributes⟩ := tag
  obtain rfl : form = .instructions := hform
  unfold giveInstructions at h
  split_ifs at h with hstarted hsome
  · cases h
    exact .late ⟨name, attributes⟩ ⟨hkind, hread⟩ hstarted
  · cases h
    exact .repeated ⟨name, attributes⟩ ⟨hkind, hread⟩ (Bool.eq_false_of_not_eq_true hstarted) hsome

/-- a self-closing tag is refused only where an opening one would be -/
theorem openElement_of_selfClosing {tag : Tag} {fault : BuildFault} (hform : tag.form = .selfClosing)
    (h : b.addTag rules tag = .error fault) : b.openElement rules tag = .error fault := by
  simp only [addTag, hform] at h
  split at h
  · rename_i fault' hopen
    cases h
    exact hopen
  · rename_i n hopen
    obtain ⟨-, -, rfl⟩ := openElement_eq_ok_iff.1 hopen
    have hclose : (b.push tag).closeElement rules tag.name = .ok _ :=
      closeElement_eq_ok_iff.2 ⟨frameOf tag, expectChild b.stack, rfl, rfl, rfl⟩
    rw [hclose] at h
    cases h

theorem refuses_of_addTag {p : Piece} {tag : Tag} {fault : BuildFault} (htag : p.IsTag tag)
    (h : b.addTag rules tag = .error fault) : Refuses rules b p fault := by
  cases hform : tag.form with
  | opening =>
    simp only [addTag, hform] at h
    exact refuses_of_openElement ⟨tag, htag, Or.inl hform⟩ h
  | closing =>
    simp only [addTag, hform] at h
    exact refuses_of_closeElement htag hform h
  | selfClosing => exact refuses_of_openElement ⟨tag, htag, Or.inr hform⟩ (openElement_of_selfClosing hform h)
  | instructions =>
    simp only [addTag, hform] at h
    exact refuses_of_giveInstructions (Or.inr htag.1) htag.2 hform h

theorem refuses_of_addText {p : Piece} {fault : BuildFault} (hkind : p.kind = .value)
    (h : b.addText p.text = .error fault) : Refuses rules b p fault := by
  unfold addText at h
  split_ifs at h with ht
  split at h
  · rename_i hstack
    cases h
    exact .loose hkind ht hstack
  · rename_i top below hstack
    split at h
    · cases h
    · rename_i hheld
      cases h
      exact .text top below hkind ht hstack hheld

theorem refuses_of_addInstructions {p : Piece} {fault : BuildFault} (hkind : p.kind = .instructions)
    (h : b.addInstructions p.text = .error fault) : Refuses rules b p fault := by
  unfold addInstructions at h
  split at h
  · rename_i e hread
    cases h
    exact .unreadable e (Or.inr hkind) hread
  · rename_i tag hread
    split_ifs at h with hform
    · exact refuses_of_giveInstructions (Or.inl hkind) hread hform h
    · cases h
      exact .notInstructions tag hkind hread hform

/-- **What is refused.** A fault of a step is one of those listed. -/
theorem refuses_of_step {t : Token} {fault : BuildFault} (h : b.step rules t = .error fault) :
    Refuses rules b t.piece fault := by
  unfold step at h
  split at h
  · rename_i hkind
    split at h
    · rename_i e hread
      cases h
      exact .unreadable e (Or.inl hkind) hread
    · rename_i tag hread
      exact refuses_of_addTag ⟨hkind, hread⟩ h
  · rename_i hkind
    exact refuses_of_addInstructions hkind h
  · rename_i hkind
    exact refuses_of_addText hkind h
  all_goals cases h

/-! ## What is taken -/

/-- takes all of the tokens, and is `m` after them -/
def Takes (rules : BuildRules) (b : Builder) (ts : List Token) (m : Builder) : Prop :=
  feed rules b ts = (m, .ok none)

theorem Takes.nil (rules : BuildRules) (b : Builder) : Takes rules b [] b :=
  rfl

/-- a token is taken: a filler after the root, or by a step -/
theorem takes_singleton_iff {t : Token} :
    Takes rules b [t] m ↔
      t.isEof = false ∧
        ((b.root.isSome = true ∧ t.isFiller = true ∧ m = b) ∨ (b.root = none ∧ b.step rules t = .ok m)) := by
  unfold Takes feed
  cases heof : t.isEof with
  | true => simp
  | false =>
    cases hroot : b.root with
    | some root => cases hfiller : t.isFiller <;> simp [feed, eq_comm]
    | none => cases hstep : b.step rules t <;> simp [feed]

/-- what follows a token that is taken is fed to the builder after it -/
theorem feed_of_takes {t : Token} (h : Takes rules b [t] m) (ts : List Token) :
    feed rules b (t :: ts) = feed rules m ts := by
  obtain ⟨heof, ⟨hroot, hfiller, rfl⟩ | ⟨hroot, hstep⟩⟩ := takes_singleton_iff.1 h
  · simp [feed, heof, hroot, hfiller]
  · simp [feed, heof, hroot, hstep]

/-- why tokens are taken no further than `t`, with `rest` after it, and what is told of it -/
inductive Halts (rules : BuildRules) (b : Builder) (t : Token) (rest : List Token) :
    Except BuildError (Option Span) → Prop
  | ended (heof : t.isEof = true) : Halts rules b t rest (.ok (some t.span))
  | trailing (heof : t.isEof = false) (hroot : b.root.isSome = true) (hfiller : t.isFiller = false) :
      Halts rules b t rest (.error ⟨trailingFault t rest, t.span.location⟩)
  | refused (fault : BuildFault) (heof : t.isEof = false) (hroot : b.root = none)
      (h : b.step rules t = .error fault) : Halts rules b t rest (.error ⟨fault, t.span.location⟩)

theorem Halts.feed_eq {t : Token} {rest : List Token} {r : Except BuildError (Option Span)}
    (h : Halts rules b t rest r) : feed rules b (t :: rest) = (b, r) := by
  cases h with
  | ended heof => simp [feed, heof]
  | trailing heof hroot hfiller => simp [feed, heof, hroot, hfiller]
  | refused fault heof hroot hstep => simp [feed, heof, hroot, hstep]

/-- at every token a builder goes on or halts -/
theorem takes_or_halts (rules : BuildRules) (b : Builder) (t : Token) (rest : List Token) :
    (∃ m, Takes rules b [t] m) ∨ ∃ r, Halts rules b t rest r := by
  cases heof : t.isEof with
  | true => exact Or.inr ⟨_, .ended heof⟩
  | false =>
    cases hroot : b.root with
    | some root =>
      have hsome : b.root.isSome = true := by rw [hroot]; rfl
      cases hfiller : t.isFiller with
      | true => exact Or.inl ⟨b, takes_singleton_iff.2 ⟨heof, Or.inl ⟨hsome, hfiller, rfl⟩⟩⟩
      | false => exact Or.inr ⟨_, .trailing heof hsome hfiller⟩
    | none =>
      cases hstep : b.step rules t with
      | ok m => exact Or.inl ⟨m, takes_singleton_iff.2 ⟨heof, Or.inr ⟨hroot, hstep⟩⟩⟩
      | error fault => exact Or.inr ⟨_, .refused fault heof hroot hstep⟩

theorem Halts.not_takes {t : Token} {rest : List Token} {r : Except BuildError (Option Span)}
    (h : Halts rules b t rest r) : ¬ Takes rules b [t] m := by
  intro htakes
  obtain ⟨heof', ⟨hroot', hfiller', -⟩ | ⟨hroot', hstep'⟩⟩ := takes_singleton_iff.1 htakes
  · cases h <;> simp_all
  · cases h <;> simp_all

/-- a builder that is `f` of another, and steps as that one does, takes what that one takes -/
theorem Takes.map {rules' : BuildRules} {f : Builder → Builder} {t : Token} (h : Takes rules b [t] m)
    (hroot : (f b).root.isSome = b.root.isSome)
    (hstep : b.root = none → (f b).step rules' t = (b.step rules t).map f) : Takes rules' (f b) [t] (f m) := by
  obtain ⟨heof, ⟨hsome, hfiller, rfl⟩ | ⟨hnone, htaken⟩⟩ := takes_singleton_iff.1 h
  · exact takes_singleton_iff.2 ⟨heof, Or.inl ⟨hroot.trans hsome, hfiller, rfl⟩⟩
  · have hnone' : (f b).root = none := by simpa [hnone] using hroot
    have htaken' : (f b).step rules' t = .ok (f m) := by rw [hstep hnone, htaken]; rfl
    exact takes_singleton_iff.2 ⟨heof, Or.inr ⟨hnone', htaken'⟩⟩

/-- a builder that is `f` of another, and steps as that one does, halts where and as that one halts -/
theorem Halts.map {rules' : BuildRules} {f : Builder → Builder} {t : Token} {rest : List Token}
    {r : Except BuildError (Option Span)} (h : Halts rules b t rest r) (hroot : (f b).root.isSome = b.root.isSome)
    (hstep : b.root = none → (f b).step rules' t = (b.step rules t).map f) : Halts rules' (f b) t rest r := by
  cases h with
  | ended heof => exact .ended heof
  | trailing heof hsome hfiller => exact .trailing heof (hroot.trans hsome) hfiller
  | refused fault heof hnone hrefused =>
    have hnone' : (f b).root = none := by simpa [hnone] using hroot
    have hrefused' : (f b).step rules' t = .error fault := by rw [hstep hnone, hrefused]; rfl
    exact .refused fault heof hnone' hrefused'

theorem takes_cons_iff {t : Token} {ts : List Token} :
    Takes rules b (t :: ts) m ↔ ∃ n, Takes rules b [t] n ∧ Takes rules n ts m := by
  refine ⟨?_, ?_⟩
  · intro h
    rcases takes_or_halts rules b t ts with ⟨n, hn⟩ | ⟨r, hr⟩
    · refine ⟨n, hn, ?_⟩
      rwa [Takes, feed_of_takes hn] at h
    · rw [Takes, hr.feed_eq] at h
      cases h
      cases hr
  · intro h
    obtain ⟨n, hn, h⟩ := h
    rw [Takes, feed_of_takes hn]
    exact h

/-- what follows tokens that are taken is fed to the builder after them -/
theorem Takes.feed_append {ts : List Token} (h : Takes rules b ts m) (us : List Token) :
    feed rules b (ts ++ us) = feed rules m us := by
  induction ts generalizing b with
  | nil =>
    cases h
    rfl
  | cons t ts ih =>
    obtain ⟨n, hn, h⟩ := takes_cons_iff.1 h
    rw [List.cons_append, feed_of_takes hn, ih h]

/-- none of the tokens that are taken is an end token -/
theorem Takes.isEof_eq {ts : List Token} (h : Takes rules b ts m) : ∀ t ∈ ts, t.isEof = false := by
  induction ts generalizing b with
  | nil => exact List.forall_mem_nil _
  | cons t ts ih =>
    obtain ⟨n, hn, h⟩ := takes_cons_iff.1 h
    exact List.forall_mem_cons.2 ⟨(takes_singleton_iff.1 hn).1, ih h⟩

/-- what every step keeps that is done before there is a root is kept by all that is taken -/
theorem Takes.preserves_before_root {P : Builder → Prop} {ts : List Token} (h : Takes rules b ts m)
    (hstep : ∀ b p b', b.root = none → Step rules b p b' → P b → P b') (hb : P b) : P m := by
  induction ts generalizing b with
  | nil =>
    cases h
    exact hb
  | cons t ts ih =>
    obtain ⟨n, hn, hrest⟩ := takes_cons_iff.1 h
    have hkept : P n := by
      obtain ⟨-, ⟨-, -, rfl⟩ | ⟨hroot, hn⟩⟩ := takes_singleton_iff.1 hn
      · exact hb
      · exact hstep b t.piece n hroot (step_eq_ok_iff.1 hn) hb
    exact ih hrest hkept

/-- **What is kept by every step** is kept by all that is taken. -/
theorem Takes.preserves {P : Builder → Prop} {ts : List Token} (h : Takes rules b ts m)
    (hstep : ∀ b p b', Step rules b p b' → P b → P b') (hb : P b) : P m :=
  h.preserves_before_root (fun b p b' _ => hstep b p b') hb

/-- **How far tokens are taken**: all of them, or up to one at which the builder halts. -/
theorem feed_cases (rules : BuildRules) (b : Builder) (ts : List Token) :
    (∃ m, Takes rules b ts m) ∨
      ∃ before t after m r, ts = before ++ t :: after ∧ Takes rules b before m ∧ Halts rules m t after r := by
  induction ts generalizing b with
  | nil => exact Or.inl ⟨b, Takes.nil rules b⟩
  | cons t ts ih =>
    rcases takes_or_halts rules b t ts with ⟨n, hn⟩ | ⟨r, hr⟩
    · rcases ih n with ⟨m, hm⟩ | ⟨before, u, after, m, r, rfl, hbefore, hr⟩
      · exact Or.inl ⟨m, takes_cons_iff.2 ⟨n, hn, hm⟩⟩
      · exact Or.inr ⟨t :: before, u, after, m, r, rfl, takes_cons_iff.2 ⟨n, hn, hbefore⟩, hr⟩
    · exact Or.inr ⟨[], t, ts, b, r, rfl, Takes.nil rules b, hr⟩

theorem Takes.unique {n : Builder} {ts : List Token} (h : Takes rules b ts m) (h' : Takes rules b ts n) : m = n :=
  (Prod.mk.inj (h.symm.trans h')).1

/-! ## What is told of the tokens -/

/-- what is missing where the tokens end without a root: an element, or the ends of those that are open -/
def missing (b : Builder) : BuildFault :=
  if b.stack.isEmpty then .reading .endOfInput else .unclosed b.openNames.length b.openNames

theorem missing_cases (b : Builder) : (∃ names, b.missing = .unclosed names.length names) ∨ b.missing = .reading .endOfInput := by
  unfold missing
  split_ifs
  · exact Or.inr rfl
  · exact Or.inl ⟨b.openNames, rfl⟩

theorem missing_ne (b : Builder) {fault : BuildFault} (hunclosed : ∀ count names, .unclosed count names ≠ fault)
    (hreading : .reading .endOfInput ≠ fault) : b.missing ≠ fault := by
  rcases b.missing_cases with ⟨names, h⟩ | h
  · rw [h]
    exact hunclosed names.length names
  · rw [h]
    exact hreading

theorem result_of_root {root : Element} (h : b.root = some root) (stop : Span) :
    b.result stop = .ok ⟨root, b.instructions.getD .none⟩ := by
  simp only [result, h]

theorem result_of_no_root (h : b.root = none) (stop : Span) : b.result stop = .error ⟨b.missing, stop.location⟩ := by
  simp only [result, h, missing]
  split_ifs <;> rfl

theorem result_eq_error_iff {stop : Span} {e : BuildError} :
    b.result stop = .error e ↔ b.root = none ∧ e = ⟨b.missing, stop.location⟩ := by
  cases hroot : b.root with
  | some root => simp [result_of_root hroot]
  | none => simp [result_of_no_root hroot, eq_comm]

/-- a tag that opens another element after the root is told by its name; other tokens are counted -/
theorem trailingFault_cases (t : Token) :
    (∃ name, ∀ rest, trailingFault t rest = .secondRoot name) ∨
      ∀ rest, trailingFault t rest = .trailing (countSignificant (t :: rest)) := by
  by_cases hkind : t.kind = .tag
  · cases hread : Tag.read t.text with
    | error e => exact Or.inr fun rest => by simp only [trailingFault, if_pos hkind, hread]
    | ok tag =>
      obtain ⟨form, name, attributes⟩ := tag
      cases form with
      | opening => exact Or.inl ⟨name, fun rest => by simp only [trailingFault, if_pos hkind, hread]⟩
      | selfClosing => exact Or.inl ⟨name, fun rest => by simp only [trailingFault, if_pos hkind, hread]⟩
      | _ => exact Or.inr fun rest => by simp only [trailingFault, if_pos hkind, hread]
  · exact Or.inr fun rest => if_neg hkind

theorem trailingFault_ne (t : Token) (rest : List Token) {fault : BuildFault} (hroot : ∀ name, .secondRoot name ≠ fault)
    (hcount : ∀ n, .trailing n ≠ fault) : trailingFault t rest ≠ fault := by
  rcases trailingFault_cases t with ⟨name, h⟩ | h
  · rw [h]
    exact hroot name
  · rw [h]
    exact hcount (countSignificant (t :: rest))

/-- how building fails at `t`, with `rest` after it: the tokens end too early, go on after the root, or are refused -/
inductive Fails (rules : BuildRules) (b : Builder) (t : Token) (rest : List Token) : BuildFault → Prop
  | ended (heof : t.isEof = true) (hroot : b.root = none) : Fails rules b t rest b.missing
  | trailing (heof : t.isEof = false) (hroot : b.root.isSome = true) (hfiller : t.isFiller = false) :
      Fails rules b t rest (trailingFault t rest)
  | refused (fault : BuildFault) (heof : t.isEof = false) (hroot : b.root = none)
      (h : b.step rules t = .error fault) : Fails rules b t rest fault

theorem value_ofTokens_of_ok {ts : List Token} {stop : Option Span} (h : feed rules start ts = (m, .ok stop)) :
    (Document.ofTokens rules ts).value = m.result (stop.getD (lastSpan ts)) := by
  simp only [Document.ofTokens, h]

theorem value_ofTokens_of_error {ts : List Token} {e : BuildError} (h : feed rules start ts = (m, .error e)) :
    (Document.ofTokens rules ts).value = .error e := by
  simp only [Document.ofTokens, h]

/-- a failure at a token, after tokens that are taken, is the error of the whole list -/
theorem Fails.value_eq {before rest : List Token} {t : Token} {fault : BuildFault} (h : Fails rules m t rest fault)
    (hbefore : Takes rules start before m) :
    (Document.ofTokens rules (before ++ t :: rest)).value = .error ⟨fault, t.span.location⟩ := by
  have hfeed := hbefore.feed_append (t :: rest)
  cases h with
  | ended heof hroot =>
    rw [(Halts.ended heof).feed_eq] at hfeed
    rw [value_ofTokens_of_ok hfeed]
    exact result_of_no_root hroot t.span
  | trailing heof hroot hfiller =>
    rw [(Halts.trailing heof hroot hfiller).feed_eq] at hfeed
    exact value_ofTokens_of_error hfeed
  | refused fault heof hroot hrefused =>
    rw [(Halts.refused fault heof hroot hrefused).feed_eq] at hfeed
    exact value_ofTokens_of_error hfeed

/-- **How building fails**: all tokens are taken and there is no root, or it fails at the first that is not taken. -/
theorem ofTokens_eq_error_iff {ts : List Token} {e : BuildError} :
    (Document.ofTokens rules ts).value = .error e ↔
      (∃ m, Takes rules start ts m ∧ m.root = none ∧ e = ⟨m.missing, (lastSpan ts).location⟩) ∨
        ∃ before t after m fault, ts = before ++ t :: after ∧ Takes rules start before m ∧
          Fails rules m t after fault ∧ e = ⟨fault, t.span.location⟩ := by
  refine ⟨?_, ?_⟩
  · intro h
    rcases feed_cases rules start ts with ⟨m, hm⟩ | ⟨before, t, after, m, r, rfl, hbefore, hr⟩
    · rw [value_ofTokens_of_ok hm, result_eq_error_iff] at h
      obtain ⟨hroot, rfl⟩ := h
      exact Or.inl ⟨m, hm, hroot, rfl⟩
    · have hfeed := (hbefore.feed_append (t :: after)).trans hr.feed_eq
      refine Or.inr ⟨before, t, after, m, ?_⟩
      cases hr with
      | ended heof =>
        rw [value_ofTokens_of_ok hfeed, result_eq_error_iff] at h
        obtain ⟨hroot, rfl⟩ := h
        exact ⟨m.missing, rfl, hbefore, .ended heof hroot, rfl⟩
      | trailing heof hroot hfiller =>
        rw [value_ofTokens_of_error hfeed] at h
        cases h
        exact ⟨_, rfl, hbefore, .trailing heof hroot hfiller, rfl⟩
      | refused fault heof hroot hrefused =>
        rw [value_ofTokens_of_error hfeed] at h
        cases h
        exact ⟨fault, rfl, hbefore, .refused fault heof hroot hrefused, rfl⟩
  · intro h
    rcases h with ⟨m, hm, hroot, rfl⟩ | ⟨before, t, after, m, fault, rfl, hbefore, hfails, rfl⟩
    · rw [value_ofTokens_of_ok hm]
      exact result_of_no_root hroot _
    · exact hfails.value_eq hbefore

end Builder

end TaggedText
