/-
Where the texts of elements come from.

Each element has a tag that opens it and one that closes it: a test that holds of one tag of every element, and of
nothing else, counts the elements (`Piece.MarksElements`, `Element.countP_of_spelled`). Elements begin in document order
at the tags that open them: the pieces of the element at a place in document order stand behind as many opening tags as
there are elements before it (`Element.StandsAt`). So the text of an element is found again between its two tags
(`Element.Spelled.exists_holdsBetween`), also among the pieces that mean nothing (`Document.exists_text_of_read`).

`text_of_values` says which characters make the text: those of values. Comments and stray characters are left out, and
so are runs of whitespace between two of these, or between one of them and a tag: the text has all other characters
between the two tags exactly if there is no such run.
-/
import TaggedText.Proofs.Spans

namespace TaggedText

/-! ## Tags that open elements -/

namespace Piece

/-- whether the piece is a tag that opens an element, whether or not it closes it as well -/
def opensElement (p : Piece) : Bool :=
  p.kind == .tag &&
    match Tag.read p.text with
    | .ok tag => tag.form == .opening || tag.form == .selfClosing
    | .error _ => false

theorem IsTag.opensElement_eq {p : Piece} {tag : Tag} (h : p.IsTag tag) :
    p.opensElement = (tag.form == .opening || tag.form == .selfClosing) := by
  simp [opensElement, h.1, h.2]

/-- the test holds of the tag of an element, of one if it has two, and of nothing else -/
structure MarksElements (test : Piece → Bool) : Prop where
  whole : ∀ {p : Piece} {name : Text} {attributes : Attributes},
    p.IsTag ⟨.selfClosing, name, attributes⟩ → test p = true
  pair : ∀ {first last : Piece} {name : Text} {attributes closing : Attributes},
    first.IsTag ⟨.opening, name, attributes⟩ → last.IsTag ⟨.closing, name, closing⟩ → test last = !test first
  isTag : ∀ {p : Piece}, test p = true → ∃ tag, p.IsTag tag ∧ tag.form ≠ .instructions

theorem kind_ne_of_isIdle {p : Piece} (h : p.isIdle = true) : p.kind ≠ .tag := by
  intro hkind
  simp [isIdle, hkind] at h

theorem exists_isTag_of_form {p : Piece} (forms : TagForm → Bool)
    (h : (p.kind == .tag &&
      match Tag.read p.text with
      | .ok tag => forms tag.form
      | .error _ => false) = true) : ∃ tag, p.IsTag tag ∧ forms tag.form = true := by
  rw [Bool.and_eq_true, beq_iff_eq] at h
  cases hread : Tag.read p.text with
  | error e => simp [hread] at h
  | ok tag => exact ⟨tag, ⟨h.1, hread⟩, by simpa [hread] using h.2⟩

theorem marksElements_opensElement : MarksElements opensElement where
  whole h := by simp [h.opensElement_eq]
  pair hfirst hlast := by simp [hfirst.opensElement_eq, hlast.opensElement_eq]
  isTag h := by
    obtain ⟨tag, htag, hform⟩ := exists_isTag_of_form (fun form => form == .opening || form == .selfClosing) h
    refine ⟨tag, htag, ?_⟩
    intro hinstructions
    simp [hinstructions] at hform

namespace MarksElements

variable {test : Piece → Bool} (h : MarksElements test)

include h

theorem eq_false_of_ne {p : Piece} (hkind : p.kind ≠ .tag) : test p = false := by
  refine Bool.eq_false_of_not_eq_true fun htest => ?_
  obtain ⟨tag, htag, -⟩ := h.isTag htest
  exact hkind htag.1

theorem eq_false_of_isInstructions {p : Piece} {i : Instructions} (hp : p.IsInstructions i) : test p = false := by
  refine Bool.eq_false_of_not_eq_true fun htest => ?_
  obtain ⟨tag, htag, hform⟩ := h.isTag htest
  obtain rfl : tag = ⟨.instructions, i.target, i.attributes⟩ := Except.ok.inj (htag.2.symm.trans hp.2)
  exact hform rfl

/-- pieces that mean nothing are not counted -/
theorem countP_significant (ps : List Piece) : (significant ps).countP test = ps.countP test := by
  unfold significant
  rw [List.countP_filter]
  refine List.countP_congr fun p _ => ?_
  cases hidle : p.isIdle with
  | true => simp [h.eq_false_of_ne (kind_ne_of_isIdle hidle)]
  | false => simp

/-- values are not counted -/
theorem countP_of_values {ps : List Piece} (hps : ∀ p ∈ ps, p.kind = .value ∧ p.text ≠ []) : ps.countP test = 0 := by
  refine List.countP_eq_zero.2 fun p hp => ?_
  simp [h.eq_false_of_ne (p := p) (by rw [(hps p hp).1]; decide)]

/-- two tags around pieces are counted once -/
theorem countP_surround {first last : Piece} {name : Text} {attributes closing : Attributes} (body : List Piece)
    (hfirst : first.IsTag ⟨.opening, name, attributes⟩) (hlast : last.IsTag ⟨.closing, name, closing⟩) :
    (first :: body ++ [last]).countP test = body.countP test + 1 := by
  cases htest : test first <;> simp [h.pair hfirst hlast, htest]

end MarksElements

end Piece

namespace Element

/-! ## Elements in document order -/

theorem countP_of_forestSpelled {test : Piece → Bool} {es : List Element} {ps : List Piece}
    (ih : ∀ e ∈ es, ∀ ps, e.Spelled ps → ps.countP test = e.preorder.length) (h : ForestSpelled es ps) :
    ps.countP test = (forestPreorder es).length := by
  induction es generalizing ps with
  | nil =>
    obtain rfl : ps = [] := h
    rfl
  | cons e es ih' =>
    obtain ⟨he, hes⟩ := List.forall_mem_cons.1 ih
    obtain ⟨qs, rs, hqs, hrs, rfl⟩ := h
    rw [List.countP_append, forestPreorder, List.length_append, he qs hqs, ih' hes hrs]

/-- among the pieces of a tree, as many are counted as the tree has elements -/
theorem countP_of_spelled {test : Piece → Bool} {e : Element} {ps : List Piece} (h : Piece.MarksElements test)
    (he : e.Spelled ps) : ps.countP test = e.preorder.length := by
  induction e using Element.induction generalizing ps with
  | empty name attributes =>
    rcases he with ⟨-, p, hp, rfl⟩ | ⟨first, body, last, closing, hfirst, rfl, hlast, rfl⟩
    · simp [h.whole hp, preorder, contentPreorder]
    · rw [h.countP_surround [] hfirst hlast]
      rfl
  | text name attributes t =>
    rcases he with ⟨hempty, -⟩ | ⟨first, body, last, closing, hfirst, ⟨-, hvalues, -⟩, hlast, rfl⟩
    · cases hempty
    · rw [h.countP_surround body hfirst hlast, h.countP_of_values hvalues]
      rfl
  | children name attributes cs ih =>
    rcases he with ⟨hempty, -⟩ | ⟨first, body, last, closing, hfirst, ⟨-, hcs⟩, hlast, rfl⟩
    · cases hempty
    · rw [h.countP_surround body hfirst hlast, countP_of_forestSpelled (fun c hc ps hps => ih c hc hps) hcs]
      rfl

/-- the element stands among the pieces, behind as many tags that open elements as the number says -/
def StandsAt (e : Element) (i : Nat) (ps : List Piece) : Prop :=
  ∃ before qs after, ps = before ++ (qs ++ after) ∧ before.countP Piece.opensElement = i ∧ e.Spelled qs

theorem Spelled.standsAt {e : Element} {ps : List Piece} (h : e.Spelled ps) : e.StandsAt 0 ps :=
  ⟨[], ps, [], (List.append_nil ps).symm, rfl, h⟩

/-- an element stands as much further behind as tags come to stand before it -/
theorem StandsAt.surround {e : Element} {i : Nat} {ps : List Piece} (h : e.StandsAt i ps) (us vs : List Piece) :
    e.StandsAt (us.countP Piece.opensElement + i) (us ++ (ps ++ vs)) := by
  obtain ⟨before, qs, after, rfl, rfl, hqs⟩ := h
  refine ⟨us ++ before, qs, after ++ vs, by simp, List.countP_append, hqs⟩

theorem standsAt_of_forestSpelled {es : List Element} {x : Element} {ps : List Piece} {i : Nat}
    (ih : ∀ e ∈ es, ∀ ps i, e.Spelled ps → e.preorder[i]? = some x → x.StandsAt i ps) (h : ForestSpelled es ps)
    (hx : (forestPreorder es)[i]? = some x) : x.StandsAt i ps := by
  induction es generalizing ps i with
  | nil => cases hx
  | cons e es ih' =>
    obtain ⟨he, hes⟩ := List.forall_mem_cons.1 ih
    obtain ⟨qs, rs, hqs, hrs, rfl⟩ := h
    rw [forestPreorder] at hx
    rcases Nat.lt_or_ge i e.preorder.length with hlt | hge
    · -- it is in the first tree
      rw [List.getElem?_append_left hlt] at hx
      have hfirst := (he qs i hqs hx).surround [] rs
      rwa [List.nil_append, List.countP_nil, Nat.zero_add] at hfirst
    · -- it is in another, behind all tags of the first
      rw [List.getElem?_append_right hge] at hx
      have hother := (ih' hes hrs hx).surround qs []
      rwa [List.append_nil, countP_of_spelled Piece.marksElements_opensElement hqs, Nat.add_sub_cancel' hge] at hother

/-- **Elements stand in document order**: each behind the tags that open those before it. -/
theorem standsAt_of_spelled {e x : Element} {ps : List Piece} {i : Nat} (h : e.Spelled ps)
    (hx : e.preorder[i]? = some x) : x.StandsAt i ps := by
  induction e using Element.induction generalizing ps i with
  | children name attributes cs ih =>
    rw [preorder, contentPreorder] at hx
    cases i with
    | zero =>
      cases hx
      exact h.standsAt
    | succ i =>
      rcases h with ⟨hempty, -⟩ | ⟨first, body, last, closing, hfirst, ⟨-, hcs⟩, -, rfl⟩
      · cases hempty
      · have hbody := standsAt_of_forestSpelled (fun c hc ps i hps hi => ih c hc hps hi) hcs hx
        have hcount : [first].countP Piece.opensElement = 1 := by simp [hfirst.opensElement_eq]
        have hstands := hbody.surround [first] [last]
        rwa [hcount, Nat.add_comm] at hstands
  | _ =>
    rw [preorder, contentPreorder] at hx
    cases i with
    | zero =>
      cases hx
      exact h.standsAt
    | succ i => cases hx

end Element

/-- instructions are not counted -/
theorem Instructions.countP_of_spelled {test : Piece → Bool} {given : Option Instructions} {ps : List Piece}
    (h : Piece.MarksElements test) (hps : Instructions.Spelled given ps) : ps.countP test = 0 := by
  cases given with
  | none =>
    obtain rfl : ps = [] := hps
    rfl
  | some instructions =>
    obtain ⟨p, hp, rfl⟩ := hps
    simp [h.eq_false_of_isInstructions hp]

theorem Document.standsAt_of_spelled {d : Document} {x : Element} {ps : List Piece} {i : Nat} (h : d.Spelled ps)
    (hx : d.root.preorder[i]? = some x) : x.StandsAt i ps := by
  obtain ⟨given, qs, rs, hqs, -, hrs, rfl⟩ := h
  have hstands := (Element.standsAt_of_spelled hrs hx).surround qs []
  rwa [List.append_nil, Instructions.countP_of_spelled Piece.marksElements_opensElement hqs, Nat.zero_add] at hstands

/-! ## The text between two tags -/

/-- the element, which holds the text `t`, begins with the piece `first`, ends with the piece `last`, and the values
between them make its text; nothing else between them means anything -/
structure Element.HoldsBetween (x : Element) (t : Text) (first : Piece) (body : List Piece) (last : Piece) : Prop where
  opening : first.IsTag ⟨.opening, x.name, x.attributes⟩
  closing : ∃ attributes, last.IsTag ⟨.closing, x.name, attributes⟩
  values : ∀ p ∈ Piece.significant body, p.kind = .value
  text_eq : t = Piece.join (Piece.significant body)

theorem Element.Spelled.exists_holdsBetween {x : Element} {t : Text} {ps : List Piece} (h : x.Spelled ps)
    (ht : x.content = .text t) :
    ∃ first body last, ps = first :: (body ++ [last]) ∧ ∀ all, Piece.significant all = body →
      x.HoldsBetween t first all last := by
  obtain ⟨name, attributes, content⟩ := x
  obtain rfl : content = .text t := ht
  rcases h with ⟨hempty, -⟩ | ⟨first, body, last, closing, hfirst, ⟨-, hvalues, rfl⟩, hlast, rfl⟩
  · cases hempty
  · refine ⟨first, body, last, rfl, ?_⟩
    rintro all rfl
    exact ⟨hfirst, ⟨closing, hlast⟩, fun p hp => (hvalues p hp).1, rfl⟩

/-- among the pieces of a text that is read with its blanks kept, the text of the element at a place in document order
stands between the tags of this element -/
theorem Document.exists_text_of_read {limit reserve : Option Nat} {s t : Text} {d : Document} {i : Nat} {x : Element}
    (h : Document.read ⟨false, limit, reserve⟩ s = .ok d) (hx : d.root.preorder[i]? = some x)
    (ht : x.content = .text t) :
    ∃ before first body last after, Cuts s (before ++ first :: (body ++ last :: after)) ∧
      before.countP Piece.opensElement = i ∧ x.HoldsBetween t first body last := by
  obtain ⟨ps, d, ⟨all, hall, rfl⟩, hspelled, -, rfl⟩ := Document.read_eq_ok_iff.1 h
  obtain ⟨us, qs, vs, hsplit, hcount, hqs⟩ := Document.standsAt_of_spelled hspelled hx
  obtain ⟨first, values, last, rfl, hholds⟩ := hqs.exists_holdsBetween ht
  -- the pieces that mean nothing are put back
  have hsplit' : all.filter (fun p => !p.isIdle) = us ++ first :: (values ++ last :: vs) := by
    rw [← List.singleton_append (l := vs), ← List.append_assoc]
    exact hsplit
  obtain ⟨before, rest, rfl, hbefore, hrest⟩ := exists_of_filter_eq_append_cons hsplit'
  obtain ⟨body, after, rfl, hbody, -⟩ := exists_of_filter_eq_append_cons hrest
  refine ⟨before, first, body, last, after, hall, ?_, hholds body hbody⟩
  rw [← Piece.marksElements_opensElement.countP_significant before, Piece.significant, hbefore, hcount]

theorem Piece.Canonical.kind_of_isIdle {p : Piece} (h : p.Canonical) (hidle : p.isIdle = true) :
    p.kind = .whitespace ∨ p.kind = .comment ∨ p.kind = .stray := by
  obtain ⟨c, u, htext, -⟩ := h.head
  obtain ⟨kind, text⟩ := p
  cases kind with
  | eof => exact h.elim
  | value =>
    obtain rfl : text = c :: u := htext
    cases hidle
  | tag | instructions => cases hidle
  | _ => simp

/-! ## The same with tokens -/

/-- the characters of the tokens of some kinds -/
def Token.textOf (kinds : TokenKind → Bool) (ts : List Token) : Text :=
  (ts.filter fun t => kinds t.kind).flatMap Token.text

theorem Token.textOf_cons (kinds : TokenKind → Bool) (t : Token) (ts : List Token) :
    textOf kinds (t :: ts) = (if kinds t.kind then t.text else []) ++ textOf kinds ts := by
  unfold textOf
  cases h : kinds t.kind <;> simp [h]

/-- all but comments and stray characters are values and whitespace -/
theorem Token.length_textOf (ts : List Token)
    (h : ∀ t ∈ ts, t.kind = .value ∨ t.kind = .whitespace ∨ t.kind = .comment ∨ t.kind = .stray) :
    (textOf (fun k => k != .comment && k != .stray) ts).length =
      (textOf (· == .value) ts).length + (textOf (· == .whitespace) ts).length := by
  induction ts with
  | nil => rfl
  | cons t ts ih =>
    obtain ⟨hkind, hts⟩ := List.forall_mem_cons.1 h
    have hrest := ih hts
    rw [textOf_cons, textOf_cons, textOf_cons, List.length_append, List.length_append, List.length_append, hrest]
    rcases hkind with hkind | hkind | hkind | hkind <;> simp [hkind] <;> omega

/-- values are all that there is but for comments and stray characters, exactly if there is no whitespace -/
theorem Token.textOf_value_eq_iff {ts : List Token} (h : ∀ t ∈ ts, t.text ≠ [])
    (hkinds : ∀ t ∈ ts, t.kind = .value ∨ t.kind = .whitespace ∨ t.kind = .comment ∨ t.kind = .stray) :
    textOf (· == .value) ts = textOf (fun k => k != .comment && k != .stray) ts ↔ ∀ t ∈ ts, t.kind ≠ .whitespace := by
  refine ⟨?_, ?_⟩
  · intro heq t ht hkind
    have hlength := length_textOf ts hkinds
    rw [← heq] at hlength
    have hnone : textOf (· == .whitespace) ts = [] := List.eq_nil_of_length_eq_zero (by omega)
    have htext := List.flatMap_eq_nil_iff.1 hnone t (List.mem_filter.2 ⟨ht, by simp [hkind]⟩)
    exact h t ht htext
  · intro hnone
    unfold textOf
    congr 1
    refine List.filter_congr fun t ht => ?_
    rcases hkinds t ht with hkind | hkind | hkind | hkind
    · simp [hkind]
    · exact absurd hkind (hnone t ht)
    · simp [hkind]
    · simp [hkind]

/-- pieces one after another, each in its place -/
theorem Piece.laid_append (lines : LineTable) (offset : Nat) (ps qs : List Piece) :
    laid lines offset (ps ++ qs) = laid lines offset ps ++ laid lines (offset + (join ps).length) qs := by
  induction ps generalizing offset with
  | nil => rfl
  | cons p ps ih => rw [List.cons_append, laid, ih, laid, length_join_cons, ← Nat.add_assoc, List.cons_append]

theorem Piece.join_map_piece (ts : List Token) : join (ts.map Token.piece) = ts.flatMap Token.text :=
  List.flatMap_map _ _ _

/-- two of the pieces that a text is cut into, as tokens: between the end of the first and the start of the second the
text has the characters of the tokens between them -/
theorem Cuts.exists_tokens {s : Text} {before body after : List Piece} {first last : Piece}
    (h : Cuts s (before ++ first :: (body ++ last :: after))) :
    ∃ (us : List Token) (opening : Token) (ts : List Token) (closing : Token) (vs : List Token),
      s.tokens.value = .ok (us ++ opening :: (ts ++ closing :: vs)) ∧
      us.map Token.piece = before ∧ opening.piece = first ∧ ts.map Token.piece = body ∧ closing.piece = last ∧
      s.slice opening.span.stop closing.span.start = ts.flatMap Token.text := by
  have hs : s = Piece.join before ++ first.text ++ (Piece.join body ++ (last.text ++ Piece.join after)) := by
    rw [← (cuts_iff.1 h).1, Piece.join_append, Piece.join_cons, Piece.join_append, Piece.join_cons, List.append_assoc]
  have htokens := Text.tokens_eq_ok_iff_laid.2 ⟨_, h, rfl⟩
  rw [Piece.laid_append, Piece.laid, Piece.laid_append, Piece.laid, List.append_assoc, List.cons_append,
    List.append_assoc, List.cons_append] at htokens
  refine ⟨_, _, _, _, _, htokens, Piece.map_piece_laid _ _ _, rfl, Piece.map_piece_laid _ _ _, rfl, ?_⟩
  rw [← Piece.join_map_piece, Piece.map_piece_laid]
  have hslice := Text.slice_append (Piece.join before ++ first.text) (Piece.join body) (last.text ++ Piece.join after)
  rw [← hs, List.length_append] at hslice
  rwa [Nat.zero_add]

theorem Piece.isIdle_eq_of_values {ps : List Piece} (h : ∀ p ∈ ps, p.Canonical)
    (hvalues : ∀ p ∈ significant ps, p.kind = .value) {p : Piece} (hp : p ∈ ps) :
    (!p.isIdle) = (p.kind == .value) := by
  cases hidle : p.isIdle with
  | true => rcases (h p hp).kind_of_isIdle hidle with hkind | hkind | hkind <;> (rw [hkind]; rfl)
  | false =>
    rw [hvalues p (List.mem_filter.2 ⟨hp, by simp [hidle]⟩)]
    rfl

/-- where values alone mean something, these make up what means something -/
theorem Token.join_significant_eq {ts : List Token} (h : ∀ p ∈ ts.map Token.piece, p.Canonical)
    (hvalues : ∀ p ∈ Piece.significant (ts.map Token.piece), p.kind = .value) :
    Piece.join (Piece.significant (ts.map Token.piece)) = textOf (· == .value) ts := by
  unfold Piece.significant Piece.join textOf
  rw [List.filter_congr fun p hp => Piece.isIdle_eq_of_values h hvalues hp, List.filter_map, List.flatMap_map]
  rfl

theorem Token.kind_of_values {ts : List Token} (h : ∀ p ∈ ts.map Token.piece, p.Canonical)
    (hvalues : ∀ p ∈ Piece.significant (ts.map Token.piece), p.kind = .value) :
    ∀ t ∈ ts, t.kind = .value ∨ t.kind = .whitespace ∨ t.kind = .comment ∨ t.kind = .stray := by
  intro t ht
  have hmem := List.mem_map_of_mem (f := Token.piece) ht
  cases hidle : t.piece.isIdle with
  | true => exact Or.inr ((h _ hmem).kind_of_isIdle hidle)
  | false => exact Or.inl (hvalues _ (List.mem_filter.2 ⟨hmem, by simp [hidle]⟩))

/-- **Where a text comes from.** In a text that is read with its blanks kept, the element at a place in document order
begins at the tag that as many others that open elements stand before, and ends at the next tag. If it holds a text,
nothing but values, whitespace, comments and stray characters stands between the two, and the values make the text. So
the text is what stands there without its comments and stray characters, exactly if there is no token of whitespace. -/
theorem text_of_values {limit reserve : Option Nat} {s t : Text} {d : Document} {i : Nat} {x : Element}
    (h : Document.read ⟨false, limit, reserve⟩ s = .ok d) (hx : d.root.preorder[i]? = some x)
    (ht : x.content = .text t) :
    ∃ (before : List Token) (opening : Token) (body : List Token) (closing : Token) (after : List Token)
        (attributes : Attributes),
      s.tokens.value = .ok (before ++ opening :: (body ++ closing :: after)) ∧
      before.countP (fun u => u.piece.opensElement) = i ∧ opening.piece.IsTag ⟨.opening, x.name, x.attributes⟩ ∧
      closing.piece.IsTag ⟨.closing, x.name, attributes⟩ ∧
      s.slice opening.span.stop closing.span.start = body.flatMap Token.text ∧
      (∀ u ∈ body, u.kind = .value ∨ u.kind = .whitespace ∨ u.kind = .comment ∨ u.kind = .stray) ∧
      t = Token.textOf (· == .value) body ∧
      (t = Token.textOf (fun k => k != .comment && k != .stray) body ↔ ∀ u ∈ body, u.kind ≠ .whitespace) := by
  obtain ⟨before, first, body, last, after, hcuts, rfl, hopening, ⟨attributes, hclosing⟩, hvalues, rfl⟩ :=
    Document.exists_text_of_read h hx ht
  obtain ⟨us, opening, ts, closing, vs, htokens, rfl, rfl, rfl, rfl, hslice⟩ := hcuts.exists_tokens
  have hcanonical : ∀ p ∈ ts.map Token.piece, p.Canonical := fun p hp => hcuts.canonical p (by simp [hp])
  have hnonempty : ∀ u ∈ ts, u.text ≠ [] := by
    intro u hu hnil
    obtain ⟨c, rest, hcons, -⟩ := (hcanonical _ (List.mem_map_of_mem hu)).head
    exact List.cons_ne_nil c rest (hcons.symm.trans hnil)
  have hkinds := Token.kind_of_values hcanonical hvalues
  have hcount : us.countP (fun u => u.piece.opensElement) = (us.map Token.piece).countP Piece.opensElement := by
    rw [List.countP_map]
    rfl
  refine ⟨us, opening, ts, closing, vs, attributes, htokens, hcount, hopening, hclosing, hslice, hkinds,
    Token.join_significant_eq hcanonical hvalues, ?_⟩
  rw [Token.join_significant_eq hcanonical hvalues]
  exact Token.textOf_value_eq_iff hnonempty hkinds

/-- the text of the third element is cut at a comment and at a control character, with spaces inside its values only -/
theorem text_of_values_cut :
    ∃ d x, Document.read ⟨false, none, none⟩ "<r><e/><a k='1'> x <!-- c -->y\x01 z</a></r>".toList = .ok d ∧
      d.root.preorder[2]? = some x ∧ x.content = .text " x y z".toList ∧
      ∃ (before : List Token) (opening : Token) (body : List Token) (closing : Token) (after : List Token)
          (attributes : Attributes),
        (Text.tokens "<r><e/><a k='1'> x <!-- c -->y\x01 z</a></r>".toList).value =
          .ok (before ++ opening :: (body ++ closing :: after)) ∧
        before.countP (fun u => u.piece.opensElement) = 2 ∧ opening.piece.IsTag ⟨.opening, x.name, x.attributes⟩ ∧
        closing.piece.IsTag ⟨.closing, x.name, attributes⟩ ∧
        Text.slice "<r><e/><a k='1'> x <!-- c -->y\x01 z</a></r>".toList opening.span.stop closing.span.start =
          body.flatMap Token.text ∧
        (∀ u ∈ body, u.kind = .value ∨ u.kind = .whitespace ∨ u.kind = .comment ∨ u.kind = .stray) ∧
        " x y z".toList = Token.textOf (· == .value) body ∧
        (" x y z".toList = Token.textOf (fun k => k != .comment && k != .stray) body ↔
          ∀ u ∈ body, u.kind ≠ .whitespace) := by
  have h : Document.read ⟨false, none, none⟩ "<r><e/><a k='1'> x <!-- c -->y\x01 z</a></r>".toList =
      .ok ⟨⟨['r'], .empty, .children [⟨['e'], .empty, .empty⟩,
        ⟨['a'], .ofList [(['k'], ['1'])], .text " x y z".toList⟩]⟩, .none⟩ := by cbv
  exact ⟨_, ⟨['a'], .ofList [(['k'], ['1'])], .text " x y z".toList⟩, h, rfl, rfl, text_of_values h rfl rfl⟩

/-- the space between two comments in a text is lost: it is no value, as nothing else stands in its run -/
theorem blank_between_comments_lost :
    Document.read .default "<a>x<!--c--> <!--d-->y</a>".toList = .ok ⟨⟨['a'], .empty, .text "xy".toList⟩, .none⟩ ∧
      ∃ (opening : Token) (body : List Token) (closing eof : Token),
        (Text.tokens "<a>x<!--c--> <!--d-->y</a>".toList).value = .ok (opening :: (body ++ [closing, eof])) ∧
        opening.text = "<a>".toList ∧ closing.text = "</a>".toList ∧
        Token.textOf (fun k => k != .comment && k != .stray) body = "x y".toList ∧ "xy".toList ≠ "x y".toList := by
  have htokens : (Text.tokens "<a>x<!--c--> <!--d-->y</a>".toList).value = .ok
      [⟨.tag, "<a>".toList, ⟨0, 3, ⟨1, 1⟩⟩⟩, ⟨.value, "x".toList, ⟨3, 4, ⟨1, 4⟩⟩⟩,
        ⟨.comment, "<!--c-->".toList, ⟨4, 12, ⟨1, 5⟩⟩⟩, ⟨.whitespace, " ".toList, ⟨12, 13, ⟨1, 13⟩⟩⟩,
        ⟨.comment, "<!--d-->".toList, ⟨13, 21, ⟨1, 14⟩⟩⟩, ⟨.value, "y".toList, ⟨21, 22, ⟨1, 22⟩⟩⟩,
        ⟨.tag, "</a>".toList, ⟨22, 26, ⟨1, 23⟩⟩⟩, ⟨.eof, [], ⟨26, 26, ⟨1, 27⟩⟩⟩] := by cbv
  refine ⟨by cbv, _, [⟨.value, "x".toList, ⟨3, 4, ⟨1, 4⟩⟩⟩, ⟨.comment, "<!--c-->".toList, ⟨4, 12, ⟨1, 5⟩⟩⟩,
    ⟨.whitespace, " ".toList, ⟨12, 13, ⟨1, 13⟩⟩⟩, ⟨.comment, "<!--d-->".toList, ⟨13, 21, ⟨1, 14⟩⟩⟩,
    ⟨.value, "y".toList, ⟨21, 22, ⟨1, 22⟩⟩⟩], _, _, htokens, rfl, rfl, ?_, ?_⟩
  · decide
  · decide

end TaggedText
