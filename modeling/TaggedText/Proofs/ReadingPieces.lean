/-
Reading a text by its pieces.

A builder takes tokens for their pieces, wherever they stand (`Builder.takes_congr`). So a text that is cut into pieces
is read as the builder finds them: its root after all of them, or what is missing, or an error on the way
(`Document.read_of_cuts`).

Results:
- `Document.exists_read_iff`: a text is read exactly if its pieces lead to a root;
- `Document.read_eq_unclosed_iff`: elements are unclosed exactly if they are open after all pieces.
-/
import TaggedText.Proofs.Feeding
import TaggedText.Proofs.Spans

namespace TaggedText

/-- a token for its piece alone -/
def Piece.token (p : Piece) : Token :=
  ⟨p.kind, p.text, .nowhere⟩

theorem Piece.map_piece_token (ps : List Piece) : (ps.map token).map Token.piece = ps := by
  rw [List.map_map]
  exact List.map_id ps

namespace Builder

variable {rules : BuildRules} {b m : Builder}

/-! ## Tokens for their pieces -/

theorem takes_singleton_congr {t u : Token} (h : t.piece = u.piece) : Takes rules b [t] m ↔ Takes rules b [u] m := by
  obtain ⟨kind, text, span⟩ := t
  obtain ⟨kind', text', span'⟩ := u
  obtain ⟨rfl, rfl⟩ := Piece.mk.inj h
  rw [takes_singleton_iff, takes_singleton_iff]
  exact Iff.rfl

/-- where tokens stand does not matter to what takes them -/
theorem takes_congr {ts us : List Token} (h : ts.map Token.piece = us.map Token.piece) :
    Takes rules b ts m ↔ Takes rules b us m := by
  induction ts generalizing b us with
  | nil =>
    obtain rfl : us = [] := List.map_eq_nil_iff.1 h.symm
    exact Iff.rfl
  | cons t ts ih =>
    obtain ⟨u, us, rfl, hu, hus⟩ := List.map_eq_cons_iff.1 h.symm
    rw [takes_cons_iff, takes_cons_iff]
    exact exists_congr fun n => and_congr (takes_singleton_congr hu.symm) (ih hus.symm)

theorem takes_append_iff {ts us : List Token} :
    Takes rules b (ts ++ us) m ↔ ∃ n, Takes rules b ts n ∧ Takes rules n us m := by
  induction ts generalizing b with
  | nil =>
    refine ⟨fun h => ⟨b, Takes.nil rules b, h⟩, ?_⟩
    intro h
    obtain ⟨n, hn, hus⟩ := h
    cases hn
    exact hus
  | cons t ts ih =>
    rw [List.cons_append, takes_cons_iff]
    refine ⟨?_, ?_⟩
    · intro h
      obtain ⟨k, hk, h⟩ := h
      obtain ⟨n, hn, hus⟩ := ih.1 h
      exact ⟨n, takes_cons_iff.2 ⟨k, hk, hn⟩, hus⟩
    · intro h
      obtain ⟨n, hn, hus⟩ := h
      obtain ⟨k, hk, hn⟩ := takes_cons_iff.1 hn
      exact ⟨k, hk, ih.2 ⟨n, hn, hus⟩⟩

/-! ## Faults on the way -/

theorem Refuses.ne_unclosed {p : Piece} {fault : BuildFault} (h : Refuses rules b p fault) (count : Nat)
    (names : List Text) : fault ≠ .unclosed count names := by
  cases h <;> exact fun heq => nomatch heq

/-- where no end token stands, a builder that comes to a halt fails, whatever follows, and not for what is unclosed -/
theorem Halts.fails {t : Token} {rest : List Token} {r : Except BuildError (Option Span)} (h : Halts rules b t rest r)
    (heof : t.isEof = false) (after : List Token) :
    ∃ fault, Fails rules b t after fault ∧ ∀ count names, fault ≠ .unclosed count names := by
  cases h with
  | ended hend => cases heof.symm.trans hend
  | trailing _ hroot hfiller =>
    refine ⟨_, .trailing heof hroot hfiller, fun count names => ?_⟩
    exact trailingFault_ne t after (fun _ => BuildFault.noConfusion) fun _ => BuildFault.noConfusion
  | refused fault _ hroot hrefused =>
    exact ⟨fault, .refused fault heof hroot hrefused, (refuses_of_step hrefused).ne_unclosed⟩

theorem missing_eq_unclosed_iff {count : Nat} {names : List Text} :
    b.missing = .unclosed count names ↔ b.stack ≠ [] ∧ count = names.length ∧ names = b.openNames := by
  unfold missing
  cases hstack : b.stack with
  | nil => simp
  | cons f below =>
    simp only [List.isEmpty_cons, Bool.false_eq_true, if_false, BuildFault.unclosed.injEq, ne_eq, reduceCtorEq,
      not_false_eq_true, true_and]
    refine ⟨?_, ?_⟩
    · rintro ⟨rfl, rfl⟩
      exact ⟨rfl, rfl⟩
    · rintro ⟨rfl, rfl⟩
      exact ⟨rfl, rfl⟩

end Builder

/-! ## Reading what is cut -/

open Builder

variable {rules : BuildRules} {s : Text} {ps : List Piece}

theorem Document.read_of_tokens (rules : BuildRules) {ts : List Token} (h : s.tokens.value = .ok ts) :
    Document.read rules s = (Document.ofTokens rules ts).value := by
  rw [Document.read_eq, h]

/-- a text that does not split into tokens is not refused for what is unclosed -/
theorem Document.exists_tokens_of_unclosed {count : Nat} {names : List Text} {location : Location}
    (h : Document.read rules s = .error ⟨.unclosed count names, location⟩) : ∃ ts, s.tokens.value = .ok ts := by
  rw [Document.read_eq] at h
  cases htokens : s.tokens.value with
  | ok ts => exact ⟨ts, rfl⟩
  | error e =>
    rw [htokens] at h
    cases h

/-- **Reading what is cut.** A builder takes all pieces of a text, and what it holds then is read, or it does not, and
reading fails on the way. -/
theorem Document.read_of_cuts (rules : BuildRules) (h : Cuts s ps) :
    (∃ m stop, Takes rules start (ps.map Piece.token) m ∧ Document.read rules s = m.result stop) ∨
      ((∀ m, ¬ Takes rules start (ps.map Piece.token) m) ∧
        ∃ e, Document.read rules s = .error e ∧ ∀ count names, e.fault ≠ .unclosed count names) := by
  obtain ⟨stop, htokens⟩ : ∃ stop, s.tokens.value = .ok (Piece.laid (LineTable.ofText s) 0 ps ++ [.eof stop]) :=
    ⟨_, Text.tokens_eq_ok_iff_laid.2 ⟨ps, h, rfl⟩⟩
  have hread := Document.read_of_tokens rules htokens
  have hlaid : ∀ t ∈ Piece.laid (LineTable.ofText s) 0 ps, t.isEof = false :=
    fun t ht => (Piece.standsIn_of_mem_laid h ht).1
  have hcongr : ∀ m, Takes rules start (Piece.laid (LineTable.ofText s) 0 ps) m ↔
      Takes rules start (ps.map Piece.token) m := by
    intro m
    exact takes_congr (by rw [Piece.map_piece_laid, Piece.map_piece_token])
  rcases feed_cases rules start (Piece.laid (LineTable.ofText s) 0 ps) with
    ⟨m, hm⟩ | ⟨before, t, after, m, r, hsplit, hbefore, hr⟩
  · have hfeed := (hm.feed_append [.eof stop]).trans (Halts.ended rfl).feed_eq
    exact Or.inl ⟨m, _, (hcongr m).1 hm, hread.trans (value_ofTokens_of_ok hfeed)⟩
  · have heof : t.isEof = false := hlaid t (by rw [hsplit]; exact List.mem_append_right _ List.mem_cons_self)
    refine Or.inr ⟨fun n hn => ?_, ?_⟩
    · rw [← hcongr, hsplit] at hn
      obtain ⟨k, hk, hrest⟩ := takes_append_iff.1 hn
      obtain rfl := hk.unique hbefore
      obtain ⟨l, hl, -⟩ := takes_cons_iff.1 hrest
      exact hr.not_takes hl
    · obtain ⟨fault, hfails, hne⟩ := hr.fails heof (after ++ [.eof stop])
      rw [hsplit, List.append_assoc, List.cons_append, hfails.value_eq hbefore] at hread
      exact ⟨_, hread, hne⟩

/-- a text is read exactly if its pieces lead to a root -/
theorem Document.exists_read_iff (h : Cuts s ps) :
    (∃ d, Document.read rules s = .ok d) ↔
      ∃ m, Takes rules start (ps.map Piece.token) m ∧ m.root.isSome = true := by
  rcases Document.read_of_cuts rules h with ⟨m, stop, hm, hread⟩ | ⟨hno, e, hread, -⟩
  · rw [hread]
    refine ⟨?_, ?_⟩
    · intro hd
      obtain ⟨d, hd⟩ := hd
      refine ⟨m, hm, ?_⟩
      by_contra hnone
      rw [result_of_no_root (by simpa using hnone)] at hd
      cases hd
    · intro hn
      obtain ⟨n, hn, hsome⟩ := hn
      obtain rfl := hn.unique hm
      obtain ⟨root, hroot⟩ := Option.isSome_iff_exists.1 hsome
      exact ⟨_, result_of_root hroot stop⟩
  · refine ⟨?_, ?_⟩
    · intro hd
      obtain ⟨d, hd⟩ := hd
      cases hread.symm.trans hd
    · intro hn
      obtain ⟨n, hn, -⟩ := hn
      exact absurd hn (hno n)

/-- elements of these names are unclosed exactly if they are open after all pieces -/
theorem Document.read_eq_unclosed_iff (h : Cuts s ps) {count : Nat} {names : List Text} :
    (∃ location, Document.read rules s = .error ⟨.unclosed count names, location⟩) ↔
      ∃ m, Takes rules start (ps.map Piece.token) m ∧ m.root = none ∧ m.stack ≠ [] ∧ count = names.length ∧
        names = m.openNames := by
  rcases Document.read_of_cuts rules h with ⟨m, stop, hm, hread⟩ | ⟨hno, e, hread, hne⟩
  · rw [hread]
    refine ⟨?_, ?_⟩
    · intro hlocation
      obtain ⟨location, hlocation⟩ := hlocation
      obtain ⟨hroot, heq⟩ := result_eq_error_iff.1 hlocation
      obtain ⟨hstack, hnames⟩ := missing_eq_unclosed_iff.1 (BuildError.mk.inj heq).1.symm
      exact ⟨m, hm, hroot, hstack, hnames⟩
    · intro hn
      obtain ⟨n, hn, hroot, hstack, hnames⟩ := hn
      obtain rfl := hn.unique hm
      refine ⟨stop.location, ?_⟩
      rw [result_of_no_root hroot, missing_eq_unclosed_iff.2 ⟨hstack, hnames⟩]
  · refine ⟨?_, ?_⟩
    · intro hlocation
      obtain ⟨location, hlocation⟩ := hlocation
      obtain rfl := Except.error.inj (hread.symm.trans hlocation)
      exact absurd rfl (hne count names)
    · intro hn
      obtain ⟨n, hn, -⟩ := hn
      exact absurd hn (hno n)

end TaggedText
