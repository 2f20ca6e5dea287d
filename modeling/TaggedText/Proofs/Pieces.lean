/-
Pieces of a text.

A `Piece` is a token without its place. `Piece.Canonical` says which texts the tokens of each kind have, and
`CanonicalPieces` which lists of pieces a text can be split into: no two runs of text stand next to each other.

The first token of a text is the canonical piece at its front that ends where a run has to end: `Cut.canonical_of_cut`
and `Cut.cut_of_canonical`.
-/
import Mathlib.Data.List.TakeWhile
import TaggedText.Proofs.CharClass
import TaggedText.Proofs.Cut

namespace TaggedText

/-! ## Pieces -/

/-- a token without the place where it stands -/
structure Piece where
  kind : TokenKind
  text : Text
deriving DecidableEq, Repr

def Token.piece (t : Token) : Piece :=
  ⟨t.kind, t.text⟩

namespace Piece

def join (ps : List Piece) : Text :=
  ps.flatMap Piece.text

/-- whether the piece is a run of text: whitespace or a value -/
def isRun (p : Piece) : Bool :=
  p.kind == .whitespace || p.kind == .value

/-- `body` between angle brackets; it holds none itself and does not go on like the opener of a comment -/
structure Bracketed (body t : Text) : Prop where
  text_eq : t = '<' :: body ++ ['>']
  no_angle : ∀ c ∈ body, c ≠ '<' ∧ c ≠ '>'
  no_opener : ¬ ['!', '-', '-'] <+: body

/-- begins with `<!--`, and ends with the first `-->` that does not overlap it -/
structure ClosedComment (t : Text) : Prop where
  opener : ['<', '!', '-', '-'] <+: t
  length_ge : 7 ≤ t.length
  closer : ['-', '-', '>'] <:+ t
  first : ∀ p, p <+: t → p ≠ t → 7 ≤ p.length → ¬ ['-', '-', '>'] <:+ p

/-- whether a token can have this kind and this text; the end token has no text of its own and is left out -/
def Canonical : Piece → Prop
  | ⟨.stray, t⟩ => ∃ c, t = [c] ∧ CharClass.classify c = .unknown
  | ⟨.whitespace, t⟩ => t ≠ [] ∧ ∀ c ∈ t, CharClass.classify c = .whitespace
  | ⟨.value, t⟩ =>
    (∀ c ∈ t, CharClass.classify c ≠ .angleOpen ∧ CharClass.classify c ≠ .angleClose ∧
      CharClass.classify c ≠ .unknown) ∧ ∃ c ∈ t, CharClass.classify c ≠ .whitespace
  | ⟨.tag, t⟩ => ∃ body, Bracketed body t ∧ body.head? ≠ some '?' ∧ body.head? ≠ some '!'
  | ⟨.instructions, t⟩ => ∃ body, Bracketed body t ∧ body.head? = some '?'
  | ⟨.comment, t⟩ => (∃ body, Bracketed body t ∧ body.head? = some '!') ∨ ClosedComment t
  | ⟨.eof, _⟩ => False

end Piece

/-- canonical pieces, no two runs of text next to each other -/
structure CanonicalPieces (ps : List Piece) : Prop where
  canonical : ∀ p ∈ ps, p.Canonical
  apart : ps.IsChain fun p q => ¬ (p.isRun = true ∧ q.isRun = true)

/-- whether a run of text may end before `t` -/
def EndsRun (t : Text) : Prop :=
  ∀ c, t.head? = some c → Cut.endsText c = true

/-! ## Runs and comments -/

namespace Text

/-- a run is what `takeWhile` takes if the text goes on with another kind of character -/
theorem takeWhile_run {p : Char → Bool} {u v : Text} (h : ∀ c ∈ u, p c = true)
    (hrest : ∀ c, v.head? = some c → p c = false) :
    (u ++ v).takeWhile p = u ∧ (u ++ v).dropWhile p = v := by
  induction u with
  | nil =>
    cases v with
    | nil => exact ⟨rfl, rfl⟩
    | cons c v => simp [hrest c rfl]
  | cons c u ih =>
    obtain ⟨htake, hdrop⟩ := ih fun d hd => h d (List.mem_cons_of_mem _ hd)
    have hc := h c List.mem_cons_self
    exact ⟨by rw [List.cons_append, List.takeWhile_cons_of_pos hc, htake],
      by rw [List.cons_append, List.dropWhile_cons_of_pos hc, hdrop]⟩

theorem head_dropWhile {p : Char → Bool} {t : Text} {c : Char} (h : (t.dropWhile p).head? = some c) :
    p c = false := by
  have := List.head?_dropWhile_not p t
  rw [h] at this
  exact Bool.eq_false_of_not_eq_true (by simpa using this)

end Text

namespace Cut

theorem endsText_iff {c : Char} :
    endsText c = true ↔ CharClass.classify c = .angleOpen ∨ CharClass.classify c = .angleClose ∨
      CharClass.classify c = .unknown := by
  unfold endsText
  split <;> simp_all

theorem isAngle_eq_false_iff {c : Char} : isAngle c = false ↔ c ≠ '<' ∧ c ≠ '>' := by
  simp [isAngle]

/-- ends with `-->` and has no shorter prefix that does -/
structure EndsComment (body : Text) : Prop where
  closer : ['-', '-', '>'] <:+ body
  first : ∀ q, q <+: body → q ≠ body → ¬ ['-', '-', '>'] <:+ q

theorem EndsComment.eq_of_prefix {body : Text} (h : EndsComment body) (hpre : ['-', '-', '>'] <+: body) :
    body = ['-', '-', '>'] := by
  by_contra hne
  exact h.first _ hpre (Ne.symm hne) (List.suffix_refl _)

theorem endsComment_cons {c : Char} {body : Text} (h : ¬ ['-', '-', '>'] <+: c :: body) :
    EndsComment (c :: body) ↔ EndsComment body := by
  refine ⟨?_, ?_⟩
  · intro h
    obtain ⟨hcloser, hfirst⟩ := h
    refine ⟨?_, fun q hq hne hcl => ?_⟩
    · rcases List.suffix_cons_iff.1 hcloser with heq | hsuf
      · exact absurd (heq ▸ List.prefix_refl _) h
      · exact hsuf
    · refine hfirst (c :: q) (List.cons_prefix_cons.2 ⟨rfl, hq⟩) (by simpa using hne) ?_
      exact hcl.trans (List.suffix_cons c q)
  · intro h
    obtain ⟨hcloser, hfirst⟩ := h
    refine ⟨hcloser.trans (List.suffix_cons c body), fun q hq hne hcl => ?_⟩
    cases q with
    | nil => exact absurd hcl (by simp)
    | cons d q =>
      obtain ⟨rfl, hqb⟩ := List.cons_prefix_cons.1 hq
      rcases List.suffix_cons_iff.1 hcl with heq | hsuf
      · exact h (heq ▸ hq)
      · exact hfirst q hqb (by simpa using hne) hsuf

/-- the end of a comment is found at the first `-->` -/
theorem splitCommentEnd_eq_some_iff {before t x rest : Text} :
    splitCommentEnd before t = some (x, rest) ↔ ∃ body, x = before.reverse ++ body ∧ t = body ++ rest ∧
      EndsComment body := by
  fun_induction splitCommentEnd before t with
  | case1 before =>
    refine ⟨?_, ?_⟩
    · intro h
      cases h
    · intro h
      obtain ⟨body, -, hnil, hends⟩ := h
      obtain ⟨rfl, -⟩ := List.append_eq_nil_iff.1 hnil.symm
      exact absurd hends.closer (by simp)
  | case2 before t =>
    refine ⟨?_, ?_⟩
    · intro h
      obtain ⟨rfl, rfl⟩ := Prod.mk.inj (Option.some.inj h)
      refine ⟨['-', '-', '>'], rfl, rfl, List.suffix_refl _, fun q hq hne hcl => hne ?_⟩
      exact hq.eq_of_length_le hcl.length_le
    · intro h
      obtain ⟨body, rfl, heq, hends⟩ := h
      have hlen := hends.closer.length_le
      have hpre : ['-', '-', '>'] <+: body :=
        List.prefix_of_prefix_length_le ⟨t, heq⟩ (List.prefix_append body rest) hlen
      obtain rfl := hends.eq_of_prefix hpre
      simp only [List.cons_append, List.nil_append, List.cons.injEq, true_and] at heq
      rw [heq]
  | case3 before c t hno ih =>
    have hstart : ∀ body rest, t = body ++ rest → ¬ ['-', '-', '>'] <+: c :: body := by
      rintro body rest rfl ⟨u, hu⟩
      simp only [List.cons_append, List.nil_append, List.cons.injEq] at hu
      obtain ⟨rfl, rfl⟩ := hu
      exact hno (u ++ rest) rfl (by simp)
    rw [ih]
    refine ⟨?_, ?_⟩
    · intro h
      obtain ⟨body, rfl, rfl, hends⟩ := h
      exact ⟨c :: body, by simp, rfl, (endsComment_cons (hstart body rest rfl)).2 hends⟩
    · intro h
      obtain ⟨body, rfl, heq, hends⟩ := h
      cases body with
      | nil => exact absurd hends.closer (by simp)
      | cons d body =>
        simp only [List.cons_append, List.cons.injEq] at heq
        obtain ⟨rfl, rfl⟩ := heq
        exact ⟨body, by simp, rfl, (endsComment_cons (hstart body rest rfl)).1 hends⟩

theorem splitCommentEnd_nil_iff {t body rest : Text} :
    splitCommentEnd [] t = some (body, rest) ↔ t = body ++ rest ∧ EndsComment body := by
  rw [splitCommentEnd_eq_some_iff]
  refine ⟨?_, ?_⟩
  · intro h
    obtain ⟨x, hx, htext, hends⟩ := h
    rw [List.reverse_nil, List.nil_append] at hx
    exact hx ▸ ⟨htext, hends⟩
  · intro h
    obtain ⟨htext, hends⟩ := h
    exact ⟨body, rfl, htext, hends⟩

/-- after its opener, a closed comment is a text that ends at its first `-->` -/
theorem closedComment_iff {body : Text} :
    Piece.ClosedComment (['<', '!', '-', '-'] ++ body) ↔ EndsComment body := by
  refine ⟨?_, ?_⟩
  · intro h
    have hlen : 3 ≤ body.length := by
      have := h.length_ge
      rw [List.length_append] at this
      exact Nat.le_of_add_le_add_left this
    refine ⟨List.suffix_of_suffix_length_le h.closer (List.suffix_append _ _) hlen, fun q hq hne hcl => ?_⟩
    have hlenq : 3 ≤ q.length := hcl.length_le
    refine h.first (['<', '!', '-', '-'] ++ q) ((List.prefix_append_right_inj _).2 hq) (by simpa using hne) ?_ ?_
    · rw [List.length_append]
      exact Nat.add_le_add_left hlenq 4
    · exact hcl.trans (List.suffix_append _ _)
  · intro h
    have hlen : 3 ≤ body.length := h.closer.length_le
    refine ⟨List.prefix_append _ _, ?_, h.closer.trans (List.suffix_append _ _), fun p hp hne hge hcl => ?_⟩
    · rw [List.length_append]
      exact Nat.add_le_add_left hlen 4
    · obtain ⟨q, rfl⟩ : ['<', '!', '-', '-'] <+: p :=
        List.prefix_of_prefix_length_le (List.prefix_append _ _) hp (Nat.le_trans (by decide) hge)
      have hlenq : 3 ≤ q.length := by
        rw [List.length_append] at hge
        exact Nat.le_of_add_le_add_left hge
      refine h.first q ((List.prefix_append_right_inj _).1 hp) (by rintro rfl; exact hne rfl) ?_
      exact List.suffix_of_suffix_length_le hcl (List.suffix_append _ _) hlenq

end Cut

/-! ## The first token -/

namespace Cut

theorem comment_eq_ok_iff {t : Text} {k : Cut} :
    comment t = .ok k ↔ ∃ body, k.kind = .comment ∧ k.text = ['<', '!', '-', '-'] ++ body ∧ t = body ++ k.rest ∧
      EndsComment body := by
  refine ⟨?_, ?_⟩
  · intro h
    simp only [comment] at h
    split at h
    · rename_i body rest hsplit
      cases h
      obtain ⟨htext, hends⟩ := splitCommentEnd_nil_iff.1 hsplit
      exact ⟨body, rfl, rfl, htext, hends⟩
    · cases h
  · intro h
    obtain ⟨body, hkind, htext, hrest, hends⟩ := h
    simp only [comment, splitCommentEnd_nil_iff.2 ⟨hrest, hends⟩]
    rw [← hkind, ← htext]

theorem bracket_eq_ok_iff {t : Text} {k : Cut} :
    bracket t = .ok k ↔ ∃ body, k.kind = bracketKind body ∧ k.text = '<' :: body ++ ['>'] ∧
      t = body ++ '>' :: k.rest ∧ ∀ c ∈ body, c ≠ '<' ∧ c ≠ '>' := by
  refine ⟨?_, ?_⟩
  · intro h
    simp only [bracket] at h
    split at h
    · cases h
    · rename_i c rest hdrop
      split_ifs at h with hc
      cases h
      refine ⟨t.takeWhile (!isAngle ·), rfl, rfl, ?_, fun d hd => ?_⟩
      · rw [← hc, ← hdrop, List.takeWhile_append_dropWhile]
      · exact isAngle_eq_false_iff.1 (by simpa using List.mem_takeWhile_imp hd)
  · intro h
    obtain ⟨body, hkind, htext, rfl, hbody⟩ := h
    obtain ⟨htake, hdrop⟩ := Text.takeWhile_run (p := (!isAngle ·)) (u := body) (v := '>' :: k.rest)
      (fun c hc => by simpa using isAngle_eq_false_iff.2 (hbody c hc)) (by rintro c ⟨⟩; rfl)
    simp only [bracket, htake, hdrop, if_true]
    rw [← hkind, ← htext]

theorem angle_eq_bracket {t : Text} (h : ¬ ['!', '-', '-'] <+: t) : angle t = bracket t := by
  unfold angle
  split
  · rename_i t
    exact absurd ⟨t, rfl⟩ h
  · rfl

/-- a bracket run does not begin with the opener of a comment unless the text in it does -/
theorem opener_prefix_iff {body rest : Text} :
    ['!', '-', '-'] <+: body ++ '>' :: rest ↔ ['!', '-', '-'] <+: body := by
  refine ⟨?_, ?_⟩
  · intro hpre
    by_contra hno
    have hlen : body.length < 3 := by
      by_contra hge
      exact hno (List.prefix_of_prefix_length_le hpre (List.prefix_append _ _) (Nat.le_of_not_lt hge))
    -- the opener would reach over the closing bracket
    have hmem : '>' ∈ ['!', '-', '-'] := by
      have hle : body ++ ['>'] <+: ['!', '-', '-'] :=
        List.prefix_of_prefix_length_le ⟨rest, by simp⟩ hpre (by simpa using hlen)
      exact hle.subset (by simp)
    exact absurd hmem (by decide)
  · intro hpre
    exact hpre.trans (List.prefix_append _ _)

theorem bracketKind_of_ne {body : Text} (hquestion : body.head? ≠ some '?') (hexclamation : body.head? ≠ some '!') :
    bracketKind body = .tag := by
  unfold bracketKind
  split
  · exact absurd rfl hquestion
  · exact absurd rfl hexclamation
  · rfl

theorem canonical_bracketKind {body t : Text} (h : Piece.Bracketed body t) :
    Piece.Canonical ⟨bracketKind body, t⟩ := by
  unfold bracketKind
  split
  · exact ⟨_, h, rfl⟩
  · exact Or.inl ⟨_, h, rfl⟩
  · rename_i hquestion hexclamation
    refine ⟨body, h, fun hq => ?_, fun he => ?_⟩
    · obtain ⟨rest, rfl⟩ := List.head?_eq_some_iff.1 hq
      exact hquestion rest rfl
    · obtain ⟨rest, rfl⟩ := List.head?_eq_some_iff.1 he
      exact hexclamation rest rfl

/-- what is cut off after an angle bracket is a canonical piece -/
theorem canonical_of_angle {t : Text} {k : Cut} (h : angle t = .ok k) :
    '<' :: t = k.text ++ k.rest ∧ Piece.Canonical ⟨k.kind, k.text⟩ ∧ Piece.isRun ⟨k.kind, k.text⟩ = false := by
  by_cases hopener : ['!', '-', '-'] <+: t
  · obtain ⟨t, rfl⟩ := hopener
    obtain ⟨body, hkind, htext, rfl, hends⟩ := comment_eq_ok_iff.1 h
    rw [hkind, htext]
    exact ⟨by simp, Or.inr (closedComment_iff.2 hends), rfl⟩
  · rw [angle_eq_bracket hopener] at h
    obtain ⟨body, hkind, htext, rfl, hbody⟩ := bracket_eq_ok_iff.1 h
    rw [hkind, htext]
    refine ⟨by simp, canonical_bracketKind ⟨rfl, hbody, ?_⟩, ?_⟩
    · rwa [← opener_prefix_iff]
    · unfold bracketKind
      split <;> rfl

theorem cut_of_bracketed {body t rest : Text} (h : Piece.Bracketed body t) :
    cut (t ++ rest) = some (.ok ⟨bracketKind body, t, rest⟩) := by
  obtain ⟨rfl, hbody, hopener⟩ := h
  have hangle : angle (body ++ '>' :: rest) = .ok ⟨bracketKind body, '<' :: body ++ ['>'], rest⟩ := by
    rw [angle_eq_bracket (by rwa [opener_prefix_iff])]
    exact bracket_eq_ok_iff.2 ⟨body, rfl, rfl, rfl, hbody⟩
  rw [List.append_assoc]
  exact congrArg some hangle

theorem cut_of_closedComment {t rest : Text} (h : Piece.ClosedComment t) :
    cut (t ++ rest) = some (.ok ⟨.comment, t, rest⟩) := by
  obtain ⟨body, rfl⟩ := h.opener
  have hcomment : comment (body ++ rest) = .ok ⟨.comment, ['<', '!', '-', '-'] ++ body, rest⟩ :=
    comment_eq_ok_iff.2 ⟨body, rfl, rfl, rfl, closedComment_iff.1 h⟩
  rw [List.append_assoc]
  exact congrArg some hcomment

/-! ### Runs of text -/

theorem endsText_eq_false_iff {c : Char} :
    endsText c = false ↔ CharClass.classify c ≠ .angleOpen ∧ CharClass.classify c ≠ .angleClose ∧
      CharClass.classify c ≠ .unknown := by
  rw [← Bool.not_eq_true, endsText_iff]
  simp only [not_or]

theorem cut_cons_of_endsText {c : Char} (h : endsText c = false) (t : Text) :
    cut (c :: t) = some (.ok (run (c :: t))) := by
  obtain ⟨hopen, hclose, hunknown⟩ := endsText_eq_false_iff.1 h
  simp only [cut]

/-- whitespace if it is all whitespace, a value otherwise -/
def runKind (t : Text) : TokenKind :=
  if t.all CharClass.isWhitespace then .whitespace else .value

theorem cut_run {text rest : Text} (hne : text ≠ []) (h : ∀ c ∈ text, endsText c = false) (hrest : EndsRun rest) :
    cut (text ++ rest) = some (.ok ⟨runKind text, text, rest⟩) := by
  obtain ⟨c, text, rfl⟩ := List.exists_cons_of_ne_nil hne
  obtain ⟨htake, hdrop⟩ := Text.takeWhile_run (p := (!endsText ·)) (u := c :: text) (v := rest)
    (fun d hd => by simp [h d hd]) (fun d hd => by simp [hrest d hd])
  rw [List.cons_append, cut_cons_of_endsText (h c List.mem_cons_self)]
  rw [List.cons_append] at htake hdrop
  simp only [run, htake, hdrop, runKind]

theorem canonical_runKind {text : Text} (hne : text ≠ []) (h : ∀ c ∈ text, endsText c = false) :
    Piece.Canonical ⟨runKind text, text⟩ := by
  unfold runKind
  split_ifs with hall
  · refine ⟨hne, fun c hc => ?_⟩
    exact eq_of_beq (List.all_eq_true.1 hall c hc)
  · refine ⟨fun c hc => endsText_eq_false_iff.1 (h c hc), ?_⟩
    by_contra hno
    push Not at hno
    exact hall (List.all_eq_true.2 fun c hc => beq_iff_eq.2 (hno c hc))

/-! ### Every piece -/

/-- what is cut off a text is a canonical piece of it, a run only where a run may end -/
theorem canonical_of_cut {t : Text} {k : Cut} (h : cut t = some (.ok k)) :
    t = k.text ++ k.rest ∧ Piece.Canonical ⟨k.kind, k.text⟩ ∧
      (Piece.isRun ⟨k.kind, k.text⟩ = true → EndsRun k.rest) := by
  cases t with
  | nil => cases h
  | cons c t =>
    by_cases hc : endsText c = true
    · rcases endsText_iff.1 hc with hopen | hclose | hunknown
      · obtain rfl := (CharClass.classify_eq_iff rfl).1 hopen
        obtain ⟨htext, hcanonical, hrun⟩ := canonical_of_angle (Option.some.inj h)
        exact ⟨htext, hcanonical, fun hr => absurd hr (by simp [hrun])⟩
      · simp [cut, hclose] at h
      · simp only [cut, hunknown, Option.some.injEq, Except.ok.injEq] at h
        subst h
        exact ⟨rfl, ⟨c, rfl, hunknown⟩, fun hr => by cases hr⟩
    · have hc := Bool.eq_false_of_not_eq_true hc
      rw [cut_cons_of_endsText hc] at h
      cases h
      refine ⟨?_, canonical_runKind ?_ fun d hd => ?_, fun _ d hd => ?_⟩
      · exact (List.takeWhile_append_dropWhile (p := (!endsText ·))).symm
      · simp [hc]
      · simpa using List.mem_takeWhile_imp hd
      · simpa using Text.head_dropWhile hd

/-- a canonical piece is cut off the front of a text, a run only where a run may end -/
theorem cut_of_canonical {p : Piece} {rest : Text} (h : p.Canonical) (hrest : p.isRun = true → EndsRun rest) :
    cut (p.text ++ rest) = some (.ok ⟨p.kind, p.text, rest⟩) := by
  obtain ⟨kind, text⟩ := p
  cases kind with
  | stray =>
    obtain ⟨c, rfl, hc⟩ := h
    simp [cut, hc]
  | eof => exact h.elim
  | whitespace =>
    obtain ⟨hne, hblank⟩ := h
    have hkind : runKind text = .whitespace := by
      rw [runKind, if_pos]
      exact List.all_eq_true.2 fun c hc => beq_iff_eq.2 (hblank c hc)
    rw [← hkind]
    refine cut_run hne (fun c hc => endsText_eq_false_iff.2 ?_) (hrest rfl)
    rw [hblank c hc]
    decide
  | value =>
    obtain ⟨hplain, c, hc, hvisible⟩ := h
    have hkind : runKind text = .value := by
      rw [runKind, if_neg]
      intro hall
      exact hvisible (eq_of_beq (List.all_eq_true.1 hall c hc))
    rw [← hkind]
    exact cut_run (List.ne_nil_of_mem hc) (fun d hd => endsText_eq_false_iff.2 (hplain d hd)) (hrest rfl)
  | tag =>
    obtain ⟨body, hbody, hquestion, hexclamation⟩ := h
    rw [← bracketKind_of_ne hquestion hexclamation]
    exact cut_of_bracketed hbody
  | instructions =>
    obtain ⟨body, hbody, hhead⟩ := h
    obtain ⟨body, rfl⟩ := List.head?_eq_some_iff.1 hhead
    exact cut_of_bracketed hbody
  | comment =>
    rcases h with ⟨body, hbody, hhead⟩ | hclosed
    · obtain ⟨body, rfl⟩ := List.head?_eq_some_iff.1 hhead
      exact cut_of_bracketed hbody
    · exact cut_of_closedComment hclosed

end Cut

/-! ## Lists of pieces -/

theorem EndsRun.nil : EndsRun [] := by
  intro c hc
  cases hc

theorem endsRun_cons {c : Char} {t : Text} : EndsRun (c :: t) ↔ Cut.endsText c = true := by
  simp [EndsRun]

namespace Piece

/-- a canonical piece has a first character, which tells whether it is a run -/
theorem Canonical.head {p : Piece} (h : p.Canonical) :
    ∃ c t, p.text = c :: t ∧ Cut.endsText c = !p.isRun := by
  obtain ⟨kind, text⟩ := p
  cases kind with
  | stray =>
    obtain ⟨c, rfl, hc⟩ := h
    exact ⟨c, [], rfl, Cut.endsText_iff.2 (Or.inr (Or.inr hc))⟩
  | eof => exact h.elim
  | whitespace =>
    obtain ⟨hne, hblank⟩ := h
    obtain ⟨c, t, rfl⟩ := List.exists_cons_of_ne_nil hne
    refine ⟨c, t, rfl, Cut.endsText_eq_false_iff.2 ?_⟩
    rw [hblank c List.mem_cons_self]
    decide
  | value =>
    obtain ⟨hplain, d, hd, -⟩ := h
    obtain ⟨c, t, rfl⟩ := List.exists_cons_of_ne_nil (List.ne_nil_of_mem hd)
    exact ⟨c, t, rfl, Cut.endsText_eq_false_iff.2 (hplain c List.mem_cons_self)⟩
  | tag =>
    obtain ⟨body, hbody, -⟩ := h
    exact ⟨'<', body ++ ['>'], hbody.text_eq, rfl⟩
  | instructions =>
    obtain ⟨body, hbody, -⟩ := h
    exact ⟨'<', body ++ ['>'], hbody.text_eq, rfl⟩
  | comment =>
    rcases h with ⟨body, hbody, -⟩ | hclosed
    · exact ⟨'<', body ++ ['>'], hbody.text_eq, rfl⟩
    · obtain ⟨t, ht⟩ := hclosed.opener
      exact ⟨'<', ['!', '-', '-'] ++ t, ht.symm, rfl⟩

/-- a run may end before a canonical piece that is no run itself, and before no other -/
theorem Canonical.endsRun_iff {p : Piece} (h : p.Canonical) (rest : Text) :
    EndsRun (p.text ++ rest) ↔ p.isRun = false := by
  obtain ⟨c, t, htext, hc⟩ := h.head
  rw [htext, List.cons_append, endsRun_cons, hc, Bool.not_eq_true']

theorem join_cons (p : Piece) (ps : List Piece) : join (p :: ps) = p.text ++ join ps := by
  simp [join]

end Piece

theorem CanonicalPieces.nil : CanonicalPieces [] :=
  ⟨List.forall_mem_nil _, .nil⟩

theorem canonicalPieces_cons {p : Piece} {ps : List Piece} :
    CanonicalPieces (p :: ps) ↔ p.Canonical ∧ (p.isRun = true → EndsRun (Piece.join ps)) ∧ CanonicalPieces ps := by
  refine ⟨?_, ?_⟩
  · intro h
    obtain ⟨hcanonical, hapart⟩ := h
    obtain ⟨hhead, htail⟩ := List.isChain_cons.1 hapart
    have hps : ∀ q ∈ ps, q.Canonical := fun q hq => hcanonical q (List.mem_cons_of_mem _ hq)
    refine ⟨hcanonical p List.mem_cons_self, fun hrun => ?_, hps, htail⟩
    cases ps with
    | nil => exact EndsRun.nil
    | cons q ps =>
      rw [Piece.join_cons, (hps q List.mem_cons_self).endsRun_iff]
      exact Bool.eq_false_of_not_eq_true fun hq => hhead q rfl ⟨hrun, hq⟩
  · intro h
    obtain ⟨hp, hrun, hps⟩ := h
    refine ⟨fun q hq => ?_, List.isChain_cons.2 ⟨?_, hps.apart⟩⟩
    · rcases List.mem_cons.1 hq with rfl | hq
      · exact hp
      · exact hps.canonical q hq
    · rintro q hq ⟨hpr, hqr⟩
      obtain ⟨ps, rfl⟩ := List.head?_eq_some_iff.1 hq
      have hends := hrun hpr
      rw [Piece.join_cons, (hps.canonical q List.mem_cons_self).endsRun_iff] at hends
      exact absurd hqr (by simp [hends])

end TaggedText
