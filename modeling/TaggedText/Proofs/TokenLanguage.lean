/-
The language of tokens.

`Cuts t ps` says that the text `t` is cut into the pieces `ps`, one after another.

Results:
- `cuts_iff`: a text is cut into pieces exactly if they are canonical and make it up;
- `Text.tokens_eq_ok_iff`: the tokens of a text are the pieces that it is cut into, each in its place, and the end;
- `tokens_iff_canonicalPieces`: a text splits into tokens of given kinds and texts exactly if these are canonical
  pieces that make it up, and only one list of canonical pieces does.
-/
import Mathlib.Data.Set.Subsingleton
import TaggedText.Proofs.TokenReads
import TaggedText.Token.Stream

namespace TaggedText

/-! ## All tokens -/

/-- the pieces of a text, cut off one after another -/
inductive Cuts : Text → List Piece → Prop
  | done : Cuts [] []
  | step {t : Text} {k : Cut} {ps : List Piece} (h : cut t = some (.ok k)) (hrest : Cuts k.rest ps) :
    Cuts t (⟨k.kind, k.text⟩ :: ps)

/-- a text is cut into pieces exactly if they are canonical and make it up -/
theorem cuts_iff {t : Text} {ps : List Piece} : Cuts t ps ↔ Piece.join ps = t ∧ CanonicalPieces ps := by
  refine ⟨?_, ?_⟩
  · intro h
    induction h with
    | done => exact ⟨rfl, CanonicalPieces.nil⟩
    | step hcut _ ih =>
      obtain ⟨hjoin, hps⟩ := ih
      obtain ⟨htext, hcanonical, hrun⟩ := Cut.canonical_of_cut hcut
      exact ⟨by rw [Piece.join_cons, hjoin, htext], canonicalPieces_cons.2 ⟨hcanonical, hjoin ▸ hrun, hps⟩⟩
  · intro h
    obtain ⟨rfl, h⟩ := h
    induction ps with
    | nil => exact Cuts.done
    | cons p ps ih =>
      obtain ⟨hp, hrun, hps⟩ := canonicalPieces_cons.1 h
      rw [Piece.join_cons]
      exact Cuts.step (Cut.cut_of_canonical hp hrun) (ih hps)

/-! ## The stream -/

theorem cut_eq_none_iff {t : Text} : cut t = none ↔ t = [] := by
  cases t with
  | nil => simp [cut]
  | cons c t =>
    simp only [cut]
    split <;> simp

theorem cuts_nil_iff {ps : List Piece} : Cuts [] ps ↔ ps = [] := by
  refine ⟨?_, ?_⟩
  · intro h
    cases h with
    | done => rfl
    | step hcut _ => cases hcut
  · intro h
    subst h
    exact Cuts.done

theorem not_cuts_of_error {t : Text} {fault : ReadFault} {ps : List Piece} (h : cut t = some (.error fault)) :
    ¬ Cuts t ps := by
  intro hcuts
  cases hcuts with
  | done => cases h
  | step hcut _ =>
    rw [h] at hcut
    cases hcut

theorem cuts_of_cut {t : Text} {k : Cut} {ps : List Piece} (h : cut t = some (.ok k)) :
    Cuts t ps ↔ ∃ qs, ps = ⟨k.kind, k.text⟩ :: qs ∧ Cuts k.rest qs := by
  refine ⟨?_, ?_⟩
  · intro hcuts
    cases hcuts with
    | done => cases h
    | step hcut hrest =>
      rw [h] at hcut
      cases hcut
      exact ⟨_, rfl, hrest⟩
  · intro h
    obtain ⟨qs, rfl, hrest⟩ := h
    exact Cuts.step h hrest

/-- the tokens of pieces that stand one after another from `offset` on, and the end token after them -/
def Piece.place (lines : LineTable) (offset : Nat) : List Piece → List Token
  | [] => [.eof ⟨offset, offset, lines.locate offset⟩]
  | p :: ps =>
    ⟨p.kind, p.text, ⟨offset, offset + p.text.length, lines.locate offset⟩⟩ :: place lines (offset + p.text.length) ps

theorem Piece.map_piece_place (lines : LineTable) (offset : Nat) (ps : List Piece) :
    (place lines offset ps).map Token.piece = ps ++ [⟨.eof, []⟩] := by
  induction ps generalizing offset with
  | nil => rfl
  | cons p ps ih => simp [place, Token.piece, ih]

namespace TokenStream

theorem collectFrom_eq (eof : Option Token) (s : TokenStream) (tokens : List Token) (events : List Event) :
    s.collectFrom eof tokens events =
      match s.next with
      | (none, _) =>
        ⟨.ok (withEnd eof tokens).reverse, (Event.tokenized (withEnd eof tokens).length :: events).reverse⟩
      | (some (.error e), _) => ⟨.error e, events.reverse⟩
      | (some (.ok t), s') => s'.collectFrom eof (t :: tokens) (.token t.kind t.span.start :: events) := by
  rw [collectFrom]
  split <;> simp_all

theorem next_of_not_running {s : TokenStream} (h : s.phase ≠ .running) :
    s.next = (none, { s with phase := .finished }) := by
  obtain ⟨cursor, phase⟩ := s
  cases phase with
  | running => exact absurd rfl h
  | ended => rfl
  | finished => rfl

theorem collectFrom_of_not_running {s : TokenStream} (h : s.phase ≠ .running) (eof : Option Token)
    (tokens : List Token) (events : List Event) :
    (s.collectFrom eof tokens events).value = .ok (withEnd eof tokens).reverse := by
  rw [collectFrom_eq, next_of_not_running h]

/-- tokens are to come, and are read with the classes of tagged text -/
structure Running (s : TokenStream) : Prop where
  phase : s.phase = .running
  classifier : s.cursor.source.classifier = CharClass.classify

theorem running_ofText (t : Text) : (ofText t).Running :=
  ⟨rfl, rfl⟩

/-- the end token, where nothing is left -/
theorem Running.next_of_none {s : TokenStream} (h : s.Running) (hcut : cut s.cursor.place.rest = none) :
    s.next = (some (.ok (.eof (s.cursor.spanSince s.cursor.offset))), { s with phase := .ended }) := by
  simp only [next, h.phase, Cursor.takeToken_of_nil (cut_eq_none_iff.1 hcut)]

/-- the fault of what stands at the cursor, told of this place -/
theorem Running.next_of_error {s : TokenStream} {fault : ReadFault} (h : s.Running)
    (hcut : cut s.cursor.place.rest = some (.error fault)) :
    s.next = (some (.error (s.cursor.failure fault)), ⟨s.cursor.haltedBy fault, .finished⟩) := by
  simp only [next, h.phase, Cursor.takeToken_of_error h.classifier hcut]

/-- the next token, and the stream behind it -/
theorem Running.next_of_ok {s : TokenStream} {k : Cut} (h : s.Running)
    (hcut : cut s.cursor.place.rest = some (.ok k)) :
    ∃ s', s'.Running ∧ s.cursor.Passes k.text s'.cursor ∧ s'.cursor.place.rest = k.rest ∧
      s.next = (some (.ok ⟨k.kind, k.text, s.cursor.offset, s'.cursor.offset, s.cursor.locate s.cursor.offset⟩), s') := by
  obtain ⟨cursor, hread, hpasses⟩ := Cursor.takeToken_of_ok h.classifier hcut
  have hrest : cursor.place.rest = k.rest :=
    List.append_cancel_left (hpasses.rest_eq.symm.trans (Cut.canonical_of_cut hcut).1)
  have hsource := hpasses.source_eq
  refine ⟨{ s with cursor }, ⟨h.phase, hsource ▸ h.classifier⟩, hpasses, hrest, ?_⟩
  simp only [next, h.phase, hread, Cursor.spanSince, Cursor.locate, hsource]

/-- what a running stream collects: the tokens of the pieces that are still to be cut off -/
theorem Running.collectFrom_eq_ok_iff {s : TokenStream} (h : s.Running) (span : Span) (tokens : List Token)
    (events : List Event) (ts : List Token) :
    (s.collectFrom (some (.eof span)) tokens events).value = .ok ts ↔
      ∃ ps, Cuts s.cursor.place.rest ps ∧
        ts = tokens.reverse ++ Piece.place s.cursor.source.lines s.cursor.offset ps := by
  induction hn : s.cursor.place.rest.length using Nat.strongRecOn generalizing s tokens events with
  | ind n ih =>
    rw [collectFrom_eq]
    cases hcut : cut s.cursor.place.rest with
    | none =>
      have hend : (withEnd (some (.eof span)) (.eof (s.cursor.spanSince s.cursor.offset) :: tokens)).reverse =
          tokens.reverse ++ Piece.place s.cursor.source.lines s.cursor.offset [] := by
        simp only [withEnd, Token.eof, if_true, List.reverse_cons]
        rfl
      simp only [h.next_of_none hcut, cut_eq_none_iff.1 hcut, cuts_nil_iff, exists_eq_left]
      rw [collectFrom_of_not_running Phase.noConfusion, hend, Except.ok.injEq, eq_comm]
    | some r =>
      cases r with
      | error fault =>
        simp only [h.next_of_error hcut]
        refine ⟨?_, ?_⟩
        · intro hvalue
          cases hvalue
        · intro ⟨ps, hps, _⟩
          exact absurd hps (not_cuts_of_error hcut)
      | ok k =>
        obtain ⟨s', hrunning, hpasses, hrest, hnext⟩ := h.next_of_ok hcut
        have hplace : ∀ ps, tokens.reverse ++ Piece.place s.cursor.source.lines s.cursor.offset
              (⟨k.kind, k.text⟩ :: ps) =
            (⟨k.kind, k.text, s.cursor.offset, s'.cursor.offset, s.cursor.locate s.cursor.offset⟩ :: tokens).reverse ++
              Piece.place s'.cursor.source.lines s'.cursor.offset ps := by
          intro ps
          rw [List.reverse_cons, List.append_assoc, hpasses.source_eq, hpasses.offset_eq]
          rfl
        simp only [hnext]
        rw [ih k.rest.length (hn ▸ cut_length hcut) hrunning _ _ (congrArg List.length hrest), hrest]
        refine ⟨?_, ?_⟩
        · intro ⟨ps, hps, hts⟩
          exact ⟨⟨k.kind, k.text⟩ :: ps, (cuts_of_cut hcut).2 ⟨ps, rfl, hps⟩, hts.trans (hplace ps).symm⟩
        · intro ⟨ps, hps, hts⟩
          obtain ⟨qs, rfl, hqs⟩ := (cuts_of_cut hcut).1 hps
          exact ⟨qs, hqs, hts.trans (hplace qs)⟩

end TokenStream

/-- a text splits into tokens exactly if it is cut into pieces, and the tokens are these in their places -/
theorem Text.tokens_eq_ok_iff {t : Text} {ts : List Token} :
    t.tokens.value = .ok ts ↔ ∃ ps, Cuts t ps ∧ ts = Piece.place (LineTable.ofText t) 0 ps :=
  (TokenStream.running_ofText t).collectFrom_eq_ok_iff _ [] [] ts

/-- **The token language.** A text splits into tokens of given kinds and texts, and the end token after them, exactly
if these are canonical pieces that make up the text. No other canonical pieces make it up. -/
theorem tokens_iff_canonicalPieces (t : Text) (ps : List Piece) :
    ((∃ ts, t.tokens.value = .ok ts ∧ ts.map Token.piece = ps ++ [⟨.eof, []⟩]) ↔
      Piece.join ps = t ∧ CanonicalPieces ps) ∧
    {qs | Piece.join qs = t ∧ CanonicalPieces qs}.Subsingleton := by
  have hiff : ∀ ps : List Piece, (∃ ts, t.tokens.value = .ok ts ∧ ts.map Token.piece = ps ++ [⟨.eof, []⟩]) ↔
      Piece.join ps = t ∧ CanonicalPieces ps := by
    intro ps
    rw [← cuts_iff]
    refine ⟨?_, ?_⟩
    · intro h
      obtain ⟨ts, hts, hmap⟩ := h
      obtain ⟨qs, hqs, rfl⟩ := Text.tokens_eq_ok_iff.1 hts
      rw [Piece.map_piece_place] at hmap
      exact List.append_cancel_right hmap ▸ hqs
    · intro hps
      exact ⟨_, Text.tokens_eq_ok_iff.2 ⟨ps, hps, rfl⟩, Piece.map_piece_place _ _ _⟩
  refine ⟨hiff ps, fun qs hqs rs hrs => ?_⟩
  -- both are the pieces of the one list of tokens
  obtain ⟨ts, hts, hmap⟩ := (hiff qs).2 hqs
  obtain ⟨us, hus, hmap'⟩ := (hiff rs).2 hrs
  obtain rfl : ts = us := Except.ok.inj (hts.symm.trans hus)
  exact List.append_cancel_right (hmap.symm.trans hmap')

end TaggedText
