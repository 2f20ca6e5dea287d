/-
Documents of texts.

`Yields t ps` says that the text `t` splits into tokens and that `ps` are the pieces that mean something among them.
A text is read as a document exactly if what it yields spells one (`Document.read_eq_ok_iff`). What a text yields can
be told from its parts: a tag or a value in front of a text adds itself to what the text yields, and blanks in front
of a bracket, or of the end, add nothing.
-/
import TaggedText.Proofs.TagGrammar
import TaggedText.Proofs.TokenLanguage
import TaggedText.Proofs.TreeBuilding

namespace TaggedText

/-- the text splits into tokens; among their pieces, `ps` are those that mean something -/
def Yields (t : Text) (ps : List Piece) : Prop :=
  ∃ qs, Cuts t qs ∧ Piece.significant qs = ps

/-! ## Canonical pieces -/

namespace Piece

/-- a canonical piece means nothing exactly if its token is a filler -/
theorem Canonical.isFiller_eq {t : Token} (h : t.piece.Canonical) : t.isFiller = t.piece.isIdle := by
  obtain ⟨kind, text, span⟩ := t
  cases kind with
  | value =>
    obtain ⟨-, c, hc, -⟩ := h
    exact (List.isEmpty_eq_false_iff.2 (List.ne_nil_of_mem hc)).symm
  | eof => exact h.elim
  | _ => rfl

theorem Canonical.isEof_eq {t : Token} (h : t.piece.Canonical) : t.isEof = false := by
  obtain ⟨kind, text, span⟩ := t
  cases kind with
  | eof => exact h.elim
  | _ => rfl

end Piece

/-- canonical pieces come before the end token -/
theorem map_piece_live_place (lines : LineTable) (offset : Nat) {ps : List Piece} (h : ∀ p ∈ ps, p.Canonical) :
    (Builder.live (Piece.place lines offset ps)).map Token.piece = ps := by
  induction ps generalizing offset with
  | nil => rfl
  | cons p ps ih =>
    obtain ⟨hp, hps⟩ := List.forall_mem_cons.1 h
    have heof : ∀ span, Token.isEof ⟨p.kind, p.text, span⟩ = false := fun span => Piece.Canonical.isEof_eq hp
    rw [Piece.place, Builder.live_cons (heof _), List.map_cons, ih _ hps]
    rfl

theorem Cuts.canonical {t : Text} {ps : List Piece} (h : Cuts t ps) : ∀ p ∈ ps, p.Canonical :=
  (cuts_iff.1 h).2.canonical

theorem Yields.canonical {t : Text} {ps : List Piece} (h : Yields t ps) : ∀ p ∈ ps, p.Canonical := by
  obtain ⟨qs, hqs, rfl⟩ := h
  exact fun p hp => hqs.canonical p (List.mem_filter.1 hp).1

/-! ## Reading -/

theorem Element.exists_last_of_spelled {e : Element} {ps : List Piece} (h : e.Spelled ps) :
    ∃ qs p tag, ps = qs ++ [p] ∧ p.IsTag tag := by
  obtain ⟨name, attributes, content⟩ := e
  rcases h with ⟨-, p, hp, rfl⟩ | ⟨first, body, last, closing, -, -, hlast, rfl⟩
  · exact ⟨[], p, _, rfl, hp⟩
  · exact ⟨first :: body, last, _, rfl, hlast⟩

/-- what spells a document ends with a tag -/
theorem Document.exists_last_of_spelled {d : Document} {ps : List Piece} (h : d.Spelled ps) :
    ∃ qs p tag, ps = qs ++ [p] ∧ p.IsTag tag := by
  obtain ⟨given, us, rs, -, -, hroot, rfl⟩ := h
  obtain ⟨qs, p, tag, rfl, hp⟩ := Element.exists_last_of_spelled hroot
  exact ⟨us ++ qs, p, tag, (List.append_assoc us qs [p]).symm, hp⟩

/-- splits a list where the entries that pass a test are split -/
theorem exists_of_filter_eq_append_cons {α : Type} {test : α → Bool} {l us vs : List α} {x : α}
    (h : l.filter test = us ++ x :: vs) :
    ∃ before after, l = before ++ x :: after ∧ before.filter test = us ∧ after.filter test = vs := by
  obtain ⟨before, rest, rfl, hbefore, hrest⟩ := List.filter_eq_append_iff.1 h
  obtain ⟨others, after, rfl, hothers, -, hafter⟩ := List.filter_eq_cons_iff.1 hrest
  refine ⟨before ++ others, after, by simp, ?_, hafter⟩
  rw [List.filter_append, hbefore, List.filter_eq_nil_iff.2 hothers, List.append_nil]

/-- splits a list after the last entry that passes a test -/
theorem exists_of_filter_eq_append {α : Type} {test : α → Bool} {l qs : List α} {x : α}
    (h : l.filter test = qs ++ [x]) :
    ∃ before after, l = before ++ x :: after ∧ before.filter test = qs ∧ ∀ y ∈ after, test y = false := by
  obtain ⟨before, after, rfl, hbefore, hafter⟩ := exists_of_filter_eq_append_cons h
  exact ⟨before, after, rfl, hbefore,
    fun y hy => Bool.eq_false_of_not_eq_true (List.filter_eq_nil_iff.1 hafter y hy)⟩

/-- among canonical tokens, those that mean something end with one that fillers follow -/
theorem significant_eq_append_iff {ts : List Token} {qs : List Piece} {p : Piece}
    (h : ∀ t ∈ ts, t.piece.Canonical) (hp : p.isIdle = false) :
    Piece.significant (ts.map Token.piece) = qs ++ [p] ↔
      ∃ before last after, ts = before ++ last :: after ∧ (∀ t ∈ after, t.isFiller = true) ∧
        Piece.significant (before.map Token.piece) = qs ∧ last.piece = p := by
  refine ⟨?_, ?_⟩
  · intro hsignificant
    obtain ⟨us, vs, hsplit, hus, hvs⟩ := exists_of_filter_eq_append hsignificant
    obtain ⟨before, rest, rfl, rfl, hrest⟩ := List.map_eq_append_iff.1 hsplit
    obtain ⟨last, after, rfl, rfl, rfl⟩ := List.map_eq_cons_iff.1 hrest
    refine ⟨before, last, after, rfl, fun x hx => ?_, hus, rfl⟩
    have hx' := h x (List.mem_append_right _ (List.mem_cons_of_mem _ hx))
    rw [hx'.isFiller_eq]
    simpa using hvs _ (List.mem_map_of_mem hx)
  · intro ⟨before, last, after, hts, hafter, hqs, hlast⟩
    subst hts hqs hlast
    have hnone : (after.map Token.piece).filter (fun p => !p.isIdle) = [] := by
      refine List.filter_eq_nil_iff.2 fun q hq => ?_
      obtain ⟨x, hx, rfl⟩ := List.mem_map.1 hq
      have hx' := h x (List.mem_append_right _ (List.mem_cons_of_mem _ hx))
      simp [← hx'.isFiller_eq, hafter x hx]
    rw [List.map_append, List.map_cons, Piece.significant, List.filter_append,
      List.filter_cons_of_pos (by simp [hp]), hnone]
    rfl

/-- a text is read as its tokens are built, or it is refused as they are -/
theorem Document.read_eq (rules : BuildRules) (t : Text) :
    Document.read rules t =
      match t.tokens.value with
      | .error e => .error (.ofReadError e)
      | .ok ts => (Document.ofTokens rules ts).value := by
  unfold Document.read Document.ofText
  cases t.tokens with
  | mk value events => cases value <;> rfl

theorem Document.read_eq_ok {rules : BuildRules} {t : Text} {d : Document} :
    Document.read rules t = .ok d ↔
      ∃ ts, t.tokens.value = .ok ts ∧ (Document.ofTokens rules ts).value = .ok d := by
  rw [Document.read_eq]
  cases t.tokens.value <;> simp

/-- making room for tokens stops a program, or it changes nothing -/
theorem Document.ofTextSized_eq (rules : BuildRules) (t : Text) :
    Document.ofTextSized rules t =
      if rules.tokenReserve.getD (t.bytes / 8) * Token.bytes ≤ Size.maxBytes then some (Document.ofText rules t)
      else none := by
  rw [Document.ofTextSized, Text.tokensSized, TokenStream.collectSized_eq]
  split_ifs <;> rfl

/-- a text that does not split into tokens is refused by all rules alike; any other is read as its tokens are built -/
theorem Document.read_cases (t : Text) :
    (∃ e, ∀ rules, Document.read rules t = .error e) ∨
      ∃ ts, ∀ rules, Document.read rules t = (Document.ofTokens rules ts).value := by
  cases htokens : t.tokens.value with
  | error e => exact Or.inl ⟨_, fun rules => by rw [Document.read_eq, htokens]⟩
  | ok ts => exact Or.inr ⟨ts, fun rules => by rw [Document.read_eq, htokens]⟩

/-- **Documents of texts.** A text is read as a document exactly if what it yields spells one that the rules allow. -/
theorem Document.read_eq_ok_iff {rules : BuildRules} {t : Text} {d : Document} :
    Document.read rules t = .ok d ↔
      ∃ ps original, Yields t ps ∧ Document.Spelled original ps ∧ rules.Allows original.root.height ∧
        d = rules.settledDocument original := by
  have hlive : ∀ ps, Cuts t ps →
      (Builder.live (Piece.place (LineTable.ofText t) 0 ps)).map Token.piece = ps :=
    fun ps hps => map_piece_live_place (LineTable.ofText t) 0 hps.canonical
  have hcanonical : ∀ ps, Cuts t ps →
      ∀ x ∈ Builder.live (Piece.place (LineTable.ofText t) 0 ps), x.piece.Canonical := by
    intro ps hps x hx
    have hmem := List.mem_map_of_mem (f := Token.piece) hx
    rw [hlive ps hps] at hmem
    exact hps.canonical _ hmem
  rw [Document.read_eq_ok]
  refine ⟨?_, ?_⟩
  · intro ⟨ts, hts, hd⟩
    obtain ⟨ps, hps, rfl⟩ := Text.tokens_eq_ok_iff.1 hts
    obtain ⟨before, last, after, original, heq, hafter, hspelled, hallows, rfl⟩ :=
      Document.ofTokens_eq_ok_iff.1 hd
    obtain ⟨us, p, tag, hus, hp⟩ := Document.exists_last_of_spelled hspelled
    obtain rfl : last.piece = p := List.singleton_inj.1 (List.append_inj' hus rfl).2
    have hsignificant := (significant_eq_append_iff (hcanonical ps hps) hp.isIdle_eq).2
      ⟨before, last, after, heq, hafter, rfl, rfl⟩
    rw [hlive ps hps] at hsignificant
    exact ⟨_, original, ⟨ps, hps, hsignificant⟩, hspelled, hallows, rfl⟩
  · intro ⟨qs, original, ⟨ps, hps, hqs⟩, hspelled, hallows, hd⟩
    subst hd
    obtain ⟨us, p, tag, rfl, hp⟩ := Document.exists_last_of_spelled hspelled
    rw [← hlive ps hps] at hqs
    obtain ⟨before, last, after, heq, hafter, hbefore, hlast⟩ :=
      (significant_eq_append_iff (hcanonical ps hps) hp.isIdle_eq).1 hqs
    refine ⟨_, Text.tokens_eq_ok_iff.2 ⟨ps, hps, rfl⟩, Document.ofTokens_eq_ok_iff.2 ?_⟩
    exact ⟨before, last, after, original, heq, hafter, hbefore ▸ hlast ▸ hspelled, hallows, rfl⟩

/-! ## What the parts of a text yield -/

theorem Yields.nil : Yields [] [] :=
  ⟨[], Cuts.done, rfl⟩

/-- a piece that means something adds itself in front -/
theorem Yields.cons {p : Piece} {rest : Text} {ps : List Piece} (hp : p.Canonical) (hidle : p.isIdle = false)
    (hrest : p.isRun = true → EndsRun rest) (h : Yields rest ps) : Yields (p.text ++ rest) (p :: ps) := by
  obtain ⟨qs, hqs, rfl⟩ := h
  refine ⟨p :: qs, (cuts_of_cut (Cut.cut_of_canonical hp hrest)).2 ⟨qs, rfl, hqs⟩, ?_⟩
  rw [Piece.significant, List.filter_cons_of_pos (by simp [hidle])]
  rfl

/-- a piece that means nothing adds nothing -/
theorem yields_append_of_idle {p : Piece} {rest : Text} {ps : List Piece} (hp : p.Canonical)
    (hidle : p.isIdle = true) (hrest : p.isRun = true → EndsRun rest) :
    Yields (p.text ++ rest) ps ↔ Yields rest ps := by
  refine ⟨?_, ?_⟩
  · intro h
    obtain ⟨qs, hqs, rfl⟩ := h
    obtain ⟨qs, rfl, hrest⟩ := (cuts_of_cut (Cut.cut_of_canonical hp hrest)).1 hqs
    refine ⟨qs, hrest, ?_⟩
    exact (List.filter_cons_of_neg (by simp [hidle])).symm
  · intro h
    obtain ⟨qs, hqs, rfl⟩ := h
    refine ⟨p :: qs, (cuts_of_cut (Cut.cut_of_canonical hp hrest)).2 ⟨qs, rfl, hqs⟩, ?_⟩
    exact List.filter_cons_of_neg (by simp [hidle])

/-- whether blanks in front of the text are a whole run: the text goes on after its own with a bracket, or not at all -/
def Indentable (t : Text) : Prop :=
  EndsRun (t.dropWhile CharClass.isWhitespace)

theorem yields_blank_append {w rest : Text} {ps : List Piece} (hw : Text.Blank w) (hrest : EndsRun rest) :
    Yields (w ++ rest) ps ↔ Yields rest ps := by
  cases w with
  | nil => exact Iff.rfl
  | cons c w =>
    have hcanonical : Piece.Canonical ⟨.whitespace, c :: w⟩ :=
      ⟨List.cons_ne_nil c w, fun d hd => eq_of_beq (hw d hd)⟩
    exact yields_append_of_idle hcanonical rfl fun _ => hrest

/-- blanks add nothing -/
theorem Yields.blank_append {w rest : Text} {ps : List Piece} (hw : Text.Blank w) (hrest : Indentable rest)
    (h : Yields rest ps) : Yields (w ++ rest) ps := by
  have hsplit := List.takeWhile_append_dropWhile (p := CharClass.isWhitespace) (l := rest)
  rw [← hsplit, yields_blank_append (Text.blank_takeWhile rest) hrest] at h
  rw [← hsplit, ← List.append_assoc]
  refine (yields_blank_append ?_ hrest).2 h
  intro c hc
  rcases List.mem_append.1 hc with hc | hc
  · exact hw c hc
  · exact Text.blank_takeWhile rest c hc

theorem Indentable.nil : Indentable [] :=
  EndsRun.nil

theorem Indentable.blank_append {w rest : Text} (hw : Text.Blank w) (hrest : Indentable rest) :
    Indentable (w ++ rest) := by
  unfold Indentable
  rwa [List.dropWhile_append_of_pos hw]

theorem endsRun_open (t : Text) : EndsRun ('<' :: t) :=
  endsRun_cons.2 rfl

theorem indentable_open (t : Text) : Indentable ('<' :: t) :=
  endsRun_open t

end TaggedText
