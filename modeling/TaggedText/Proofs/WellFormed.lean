/-
Well-formed documents.

A document is well formed if its names and keys are names, its values and texts can stand between brackets and quotes,
no text is blank, no list of children is empty, and its instructions have a target or say nothing at all.

Results:
- `Document.wellFormed_of_read`: every document read from a text is well formed, whatever the rules;
- `Document.WellFormed.of_same`: a document equal to a well-formed one, but for the order of attributes, is well formed.
-/
import TaggedText.Proofs.DocumentText
import TaggedText.Proofs.SameTree

namespace TaggedText

/-- keys are names, and no value contains an angle bracket or both quotes -/
def Attributes.WellFormed (a : Attributes) : Prop :=
  ∀ e ∈ a.entries, Name.isName e.1 = true ∧ (∀ c ∈ e.2, c ≠ '<' ∧ c ≠ '>') ∧ ¬ ('"' ∈ e.2 ∧ '\'' ∈ e.2)

/-- a text has no angle bracket, no character of no class, and not only whitespace; a list of children has a child -/
def Content.WellFormed : Content Element → Prop
  | .empty => True
  | .text t =>
    (∀ c ∈ t, CharClass.classify c ≠ .angleOpen ∧ CharClass.classify c ≠ .angleClose ∧
      CharClass.classify c ≠ .unknown) ∧ ∃ c ∈ t, CharClass.classify c ≠ .whitespace
  | .children cs => cs ≠ []

/-- an element is well formed but perhaps for those inside it -/
structure Element.Proper (e : Element) : Prop where
  name : Name.isName e.name = true
  attributes : e.attributes.WellFormed
  content : e.content.WellFormed

/-- every element of the tree is proper -/
def Element.WellFormed (e : Element) : Prop :=
  ∀ x ∈ e.preorder, x.Proper

/-- the instructions have a name for their target, or there are none -/
def Instructions.WellFormed (i : Instructions) : Prop :=
  (Name.isName i.target = true ∧ i.attributes.WellFormed) ∨ (i.target = [] ∧ i.attributes.entries = [])

/-- a document that can be written and read back -/
structure Document.WellFormed (d : Document) : Prop where
  root : d.root.WellFormed
  instructions : d.instructions.WellFormed

theorem Element.wellFormed_iff {e : Element} : e.WellFormed ↔ e.Proper ∧ ∀ c ∈ e.children, c.WellFormed := by
  refine ⟨?_, ?_⟩
  · intro h
    exact ⟨h e (mem_preorder_iff.2 (Or.inl rfl)), fun c hc x hx => h x (mem_preorder_iff.2 (Or.inr ⟨c, hc, hx⟩))⟩
  · rintro ⟨hproper, hchildren⟩ x hx
    rcases mem_preorder_iff.1 hx with rfl | ⟨c, hc, hx⟩
    · exact hproper
    · exact hchildren c hc x hx

/-! ## What is read is well formed -/

namespace Tag

/-- a value without the quote around it does not contain both -/
theorem not_both_quotes {quote : Char} {value : Text} (hquote : quote = '"' ∨ quote = '\'') (h : quote ∉ value) :
    ¬ ('"' ∈ value ∧ '\'' ∈ value) := by
  intro hboth
  rcases hquote with rfl | rfl
  · exact h hboth.1
  · exact h hboth.2

/-- values stand between quotes that they do not contain -/
theorem SpelledEntries.mem {es : List (Text × Text)} {u : Text} (h : SpelledEntries es u) {e : Text × Text}
    (he : e ∈ es) :
    Name.isName e.1 = true ∧ (∀ c ∈ e.2, c ∈ u) ∧ ¬ ('"' ∈ e.2 ∧ '\'' ∈ e.2) := by
  induction es generalizing u with
  | nil => cases he
  | cons f es ih =>
    obtain ⟨v, w, hf, hes, rfl⟩ := h
    rcases List.mem_cons.1 he with rfl | he
    · obtain ⟨before, a, -, -, hkey, ⟨before', after, quote, -, -, hquote, hvalue, rfl⟩, rfl⟩ := hf
      exact ⟨hkey, fun c hc => by simp [hc], not_both_quotes hquote hvalue⟩
    · obtain ⟨hkey, hmem, hquotes⟩ := ih hes he
      exact ⟨hkey, fun c hc => List.mem_append_right v (hmem c hc), hquotes⟩

/-- what is read from between two brackets has no brackets in its values -/
theorem wellFormed_of_read {body text : Text} {tag : Tag} (h : Tag.read text = .ok tag)
    (hbody : Piece.Bracketed body text) : Name.isName tag.name = true ∧ tag.attributes.WellFormed := by
  obtain ⟨hname, -, u, w, hu, -, htext⟩ := read_eq_ok_iff.1 h
  refine ⟨hname, fun e he => ?_⟩
  obtain ⟨hkey, hmem, hquotes⟩ := hu.mem he
  refine ⟨hkey, fun c hc => hbody.no_angle c ?_, hquotes⟩
  have heq : '<' :: (mark tag.form ++ tag.name ++ u ++ w ++ endMark tag.form) ++ ['>'] = '<' :: body ++ ['>'] := by
    rw [← hbody.text_eq, htext, ending_eq]
    simp
  obtain ⟨-, heq⟩ := List.cons.inj (List.append_inj' heq rfl).1
  rw [← heq]
  simp [hmem c hc]

end Tag

namespace Piece

theorem Canonical.wellFormed_of_isTag {p : Piece} {tag : Tag} (h : p.Canonical) (htag : p.IsTag tag) :
    Name.isName tag.name = true ∧ tag.attributes.WellFormed := by
  obtain ⟨kind, text⟩ := p
  obtain ⟨rfl, hread⟩ := htag
  obtain ⟨body, hbody, -⟩ := h
  exact Tag.wellFormed_of_read hread hbody

theorem Canonical.wellFormed_of_isInstructions {p : Piece} {i : Instructions} (h : p.Canonical)
    (hi : p.IsInstructions i) : i.WellFormed := by
  obtain ⟨kind, text⟩ := p
  obtain ⟨rfl | rfl, hread⟩ := hi
  · obtain ⟨body, hbody, -⟩ := h
    exact Or.inl (Tag.wellFormed_of_read hread hbody)
  · obtain ⟨body, hbody, -⟩ := h
    exact Or.inl (Tag.wellFormed_of_read hread hbody)

/-- values together make a proper text -/
theorem wellFormed_join {ps : List Piece} (hne : ps ≠ []) (hvalue : ∀ p ∈ ps, p.kind = .value)
    (h : ∀ p ∈ ps, p.Canonical) : Content.WellFormed (.text (join ps)) := by
  have hplain : ∀ p ∈ ps, Content.WellFormed (.text p.text) := by
    rintro ⟨kind, t⟩ hp
    obtain rfl : kind = .value := hvalue _ hp
    exact h _ hp
  refine ⟨fun c hc => ?_, ?_⟩
  · obtain ⟨p, hp, hc⟩ := List.mem_flatMap.1 hc
    exact (hplain p hp).1 c hc
  · obtain ⟨p, ps, rfl⟩ := List.exists_cons_of_ne_nil hne
    obtain ⟨c, hc, hclass⟩ := (hplain p List.mem_cons_self).2
    exact ⟨c, List.mem_flatMap.2 ⟨p, List.mem_cons_self, hc⟩, hclass⟩

end Piece

namespace Element

theorem forest_of_spelled {es : List Element} {ps : List Piece} {test : Piece → Prop} (h : ForestSpelled es ps)
    (hps : ∀ p ∈ ps, test p) : ∀ e ∈ es, ∃ qs, e.Spelled qs ∧ ∀ p ∈ qs, test p := by
  induction es generalizing ps with
  | nil => exact List.forall_mem_nil _
  | cons f es ih =>
    obtain ⟨qs, rs, hf, hes, rfl⟩ := h
    obtain ⟨hqs, hrs⟩ := List.forall_mem_append.1 hps
    exact List.forall_mem_cons.2 ⟨⟨qs, hf, hqs⟩, ih hes hrs⟩

/-- a tree spelled by canonical pieces is well formed -/
theorem wellFormed_of_spelled {e : Element} {ps : List Piece} (h : e.Spelled ps) (hps : ∀ p ∈ ps, p.Canonical) :
    e.WellFormed := by
  induction e using Element.induction generalizing ps with
  | empty name attributes =>
    have htag : Name.isName name = true ∧ attributes.WellFormed := by
      rcases h with ⟨-, p, hp, rfl⟩ | ⟨first, body, last, closing, hfirst, -, -, rfl⟩
      · exact (hps p (List.mem_singleton_self p)).wellFormed_of_isTag hp
      · exact (hps first List.mem_cons_self).wellFormed_of_isTag hfirst
    exact wellFormed_iff.2 ⟨⟨htag.1, htag.2, trivial⟩, List.forall_mem_nil _⟩
  | text name attributes t =>
    rcases h with ⟨hempty, -⟩ | ⟨first, body, last, closing, hfirst, ⟨hne, hvalue, rfl⟩, -, rfl⟩
    · cases hempty
    · obtain ⟨hname, hattributes⟩ := (hps first List.mem_cons_self).wellFormed_of_isTag hfirst
      have hbody : ∀ p ∈ body, p.Canonical := fun p hp => hps p (by simp [hp])
      exact wellFormed_iff.2 ⟨⟨hname, hattributes, Piece.wellFormed_join hne (fun p hp => (hvalue p hp).1) hbody⟩,
        List.forall_mem_nil _⟩
  | children name attributes cs ih =>
    rcases h with ⟨hempty, -⟩ | ⟨first, body, last, closing, hfirst, ⟨hne, hcs⟩, -, rfl⟩
    · cases hempty
    · obtain ⟨hname, hattributes⟩ := (hps first List.mem_cons_self).wellFormed_of_isTag hfirst
      have hbody : ∀ p ∈ body, p.Canonical := fun p hp => hps p (by simp [hp])
      refine wellFormed_iff.2 ⟨⟨hname, hattributes, hne⟩, fun c hc => ?_⟩
      obtain ⟨qs, hqs, hcanonical⟩ := forest_of_spelled hcs hbody c hc
      exact ih c hc hqs hcanonical

end Element

theorem Document.wellFormed_of_spelled {d : Document} {ps : List Piece} (h : d.Spelled ps)
    (hps : ∀ p ∈ ps, p.Canonical) : d.WellFormed := by
  obtain ⟨given, qs, rs, hgiven, hinstructions, hroot, rfl⟩ := h
  obtain ⟨hqs, hrs⟩ := List.forall_mem_append.1 hps
  refine ⟨Element.wellFormed_of_spelled hroot hrs, ?_⟩
  rw [hinstructions]
  cases given with
  | none => exact Or.inr ⟨rfl, rfl⟩
  | some i =>
    obtain ⟨p, hp, rfl⟩ := hgiven
    exact (hqs p (List.mem_singleton_self p)).wellFormed_of_isInstructions hp

/-! ## Dropping blanks -/

namespace Text

theorem mem_dropWhile {p : Char → Bool} {t : Text} {c : Char} (h : c ∈ t) (hc : p c = false) : c ∈ t.dropWhile p := by
  rw [← List.takeWhile_append_dropWhile (p := p) (l := t)] at h
  rcases List.mem_append.1 h with h | h
  · rw [List.mem_takeWhile_imp h] at hc
    cases hc
  · exact h

theorem mem_of_mem_trim {t : Text} {c : Char} (h : c ∈ trim t) : c ∈ t := by
  have hreverse := (List.dropWhile_sublist _).subset (List.mem_reverse.1 h)
  exact (List.dropWhile_sublist _).subset (List.mem_reverse.1 hreverse)

theorem mem_trim {t : Text} {c : Char} (h : c ∈ t) (hc : isBlank c = false) : c ∈ trim t :=
  List.mem_reverse.2 (mem_dropWhile (List.mem_reverse.2 (mem_dropWhile h hc)) hc)

end Text

/-- a text that is not all whitespace keeps a character when blanks are dropped -/
theorem Content.WellFormed.trimmed {t : Text} (h : Content.WellFormed (.text t)) :
    (Content.text t).trimmed = .text (Text.trim t) ∧ Content.WellFormed (.text (Text.trim t)) := by
  obtain ⟨hplain, c, hc, hclass⟩ := h
  have hblank : Text.isBlank c = false := by
    rw [← CharClass.isWhitespace_eq_isBlank, CharClass.isWhitespace, beq_eq_false_iff_ne]
    exact hclass
  have hmem := Text.mem_trim hc hblank
  exact ⟨if_neg (List.ne_nil_of_mem hmem), fun d hd => hplain d (Text.mem_of_mem_trim hd), c, hmem, hclass⟩

theorem Element.WellFormed.trimmed {e : Element} (h : e.WellFormed) : e.trimmed.WellFormed := by
  induction e using Element.induction with
  | empty name attributes => exact h
  | text name attributes t =>
    obtain ⟨⟨hname, hattributes, hcontent⟩, -⟩ := Element.wellFormed_iff.1 h
    obtain ⟨htrimmed, htrim⟩ := Content.WellFormed.trimmed hcontent
    rw [Element.trimmed, Element.trimmedContent_text, htrimmed]
    exact Element.wellFormed_iff.2 ⟨⟨hname, hattributes, htrim⟩, List.forall_mem_nil _⟩
  | children name attributes cs ih =>
    obtain ⟨⟨hname, hattributes, hne⟩, hcs⟩ := Element.wellFormed_iff.1 h
    rw [Element.trimmed, Element.trimmedContent_children]
    refine Element.wellFormed_iff.2 ⟨⟨hname, hattributes, ?_⟩, fun c hc => ?_⟩
    · exact fun hnil => hne (List.map_eq_nil_iff.1 hnil)
    · obtain ⟨x, hx, rfl⟩ := List.mem_map.1 hc
      exact ih x hx (hcs x hx)

theorem Document.WellFormed.settled {d : Document} (rules : BuildRules) (h : d.WellFormed) :
    (rules.settledDocument d).WellFormed := by
  refine ⟨?_, h.instructions⟩
  rw [BuildRules.settledDocument, BuildRules.settled]
  split_ifs
  · exact h.root.trimmed
  · exact h.root

/-- **What is read is well formed.** -/
theorem Document.wellFormed_of_read {rules : BuildRules} {t : Text} {d : Document}
    (h : Document.read rules t = .ok d) : d.WellFormed := by
  obtain ⟨ps, original, hyields, hspelled, -, rfl⟩ := Document.read_eq_ok_iff.1 h
  exact (Document.wellFormed_of_spelled hspelled hyields.canonical).settled rules

/-! ## Equal documents -/

theorem Attributes.WellFormed.of_same {a b : Attributes} (h : b.WellFormed) (hsame : a.Same b) : a.WellFormed :=
  fun e he => h e (hsame.mem_entries he)

theorem Content.WellFormed.of_same {c d : Content Element} (h : d.WellFormed) (hsame : Element.ContentSame c d) :
    c.WellFormed := by
  cases c with
  | empty => exact trivial
  | text t =>
    cases d with
    | text u =>
      obtain rfl : t = u := hsame
      exact h
    | _ => exact hsame.elim
  | children cs =>
    cases d with
    | children ds =>
      intro h
      subst h
      exact h hsame
    | _ => exact hsame.elim

theorem Element.WellFormed.of_same {a b : Element} (h : b.WellFormed) (hsame : a.Same b) : a.WellFormed := by
  induction a using Element.induction_children generalizing b with
  | step a ih =>
    obtain ⟨hproper, hchildren⟩ := Element.wellFormed_iff.1 h
    obtain ⟨hname, hattributes, hcontent⟩ := Element.same_def.1 hsame
    refine Element.wellFormed_iff.2 ⟨⟨?_, ?_, ?_⟩, fun c hc => ?_⟩
    · rw [hname]
      exact hproper.name
    · exact hproper.attributes.of_same hattributes
    · exact hproper.content.of_same hcontent
    · obtain ⟨d, hd, hcd⟩ := hsame.exists_child hc
      exact ih c hc (hchildren d hd) hcd

theorem Document.WellFormed.of_same {a b : Document} (h : b.WellFormed) (hsame : a.same b = true) :
    a.WellFormed := by
  obtain ⟨hroot, htarget, hattributes⟩ := Document.same_iff.1 hsame
  refine ⟨h.root.of_same hroot, ?_⟩
  rcases h.instructions with ⟨hname, hwell⟩ | ⟨hempty, hnone⟩
  · exact Or.inl ⟨htarget ▸ hname, hwell.of_same hattributes⟩
  · refine Or.inr ⟨htarget.trans hempty, List.eq_nil_iff_forall_not_mem.2 fun e he => ?_⟩
    have := hattributes.mem_entries he
    rw [hnone] at this
    cases this

end TaggedText
