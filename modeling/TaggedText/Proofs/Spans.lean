/-
Where tokens stand.

`Piece.laid` gives pieces their places, one after another: each begins where those before it end, so that the pieces
before and after a token make up the text around it (`Piece.exists_of_mem_laid`). The tokens of a text are the pieces
that it is cut into, laid from its start on, and the end token behind them (`Piece.place_eq`).

Results:
- `tokens_tile`: tokens leave no gap and do not overlap, each has the text of its span, and its line and column count
  what stands before it.
-/
import TaggedText.Proofs.DocumentText
import TaggedText.Proofs.Lines

namespace TaggedText

/-! ## Pieces in their places -/

namespace Piece

variable {lines lines' : LineTable} {offset : Nat} {ps : List Piece}

/-- the tokens of pieces that stand one after another from `offset` on -/
def laid (lines : LineTable) (offset : Nat) : List Piece → List Token
  | [] => []
  | p :: ps =>
    ⟨p.kind, p.text, ⟨offset, offset + p.text.length, lines.locate offset⟩⟩ :: laid lines (offset + p.text.length) ps

theorem join_append (ps qs : List Piece) : join (ps ++ qs) = join ps ++ join qs :=
  List.flatMap_append

theorem length_join_cons (p : Piece) (ps : List Piece) : (join (p :: ps)).length = p.text.length + (join ps).length := by
  rw [join_cons, List.length_append]

/-- the end token stands behind all pieces -/
theorem place_eq (lines : LineTable) (offset : Nat) (ps : List Piece) :
    place lines offset ps = laid lines offset ps ++
      [.eof ⟨offset + (join ps).length, offset + (join ps).length, lines.locate (offset + (join ps).length)⟩] := by
  induction ps generalizing offset with
  | nil => rfl
  | cons p ps ih => rw [place, ih, laid, length_join_cons, ← Nat.add_assoc, List.cons_append]

theorem map_piece_laid (lines : LineTable) (offset : Nat) (ps : List Piece) :
    (laid lines offset ps).map Token.piece = ps := by
  induction ps generalizing offset with
  | nil => rfl
  | cons p ps ih => rw [laid, List.map_cons, ih, Token.piece]

/-- a piece begins where those before it end -/
theorem exists_of_mem_laid {t : Token} (h : t ∈ laid lines offset ps) :
    ∃ before p after, ps = before ++ p :: after ∧
      t = ⟨p.kind, p.text, ⟨offset + (join before).length, offset + (join before).length + p.text.length,
        lines.locate (offset + (join before).length)⟩⟩ := by
  induction ps generalizing offset with
  | nil => cases h
  | cons p ps ih =>
    rcases List.mem_cons.1 h with rfl | hmem
    · exact ⟨[], p, ps, rfl, rfl⟩
    · obtain ⟨before, q, after, rfl, rfl⟩ := ih hmem
      refine ⟨p :: before, q, after, rfl, ?_⟩
      rw [length_join_cons, ← Nat.add_assoc]

theorem start_of_head_place {t : Token} (h : (place lines offset ps).head? = some t) : t.span.start = offset := by
  cases ps <;> cases h <;> rfl

/-- each token begins where the one before it ends -/
theorem isChain_place (lines : LineTable) (offset : Nat) (ps : List Piece) :
    (place lines offset ps).IsChain fun t u => u.span.start = t.span.stop := by
  induction ps generalizing offset with
  | nil => exact List.isChain_singleton _
  | cons p ps ih => exact List.isChain_cons.2 ⟨fun u hu => start_of_head_place hu, ih _⟩

end Piece

/-! ## Tokens in a text -/

/-- the characters of a text from `start` up to but not including `stop` -/
def Text.slice (s : Text) (start stop : Nat) : Text :=
  (s.take stop).drop start

theorem Text.slice_append (u v w : Text) : Text.slice (u ++ (v ++ w)) u.length (u.length + v.length) = v := by
  rw [Text.slice, ← List.append_assoc, List.take_left' List.length_append, List.drop_left]

/-- the token has the characters of its span, some unless it is the end token, and stands where these begin -/
structure Token.StandsIn (s : Text) (t : Token) : Prop where
  ordered : t.span.start ≤ t.span.stop
  inside : t.span.stop ≤ s.length
  text_eq : t.text = s.slice t.span.start t.span.stop
  nonempty : t.isEof = false → t.text ≠ []
  location_eq : t.span.location = s.locationAt t.span.start

theorem Piece.standsIn_of_mem_laid {s : Text} {ps : List Piece} {t : Token} (h : Cuts s ps)
    (ht : t ∈ laid (LineTable.ofText s) 0 ps) : t.isEof = false ∧ t.StandsIn s := by
  obtain ⟨before, p, after, rfl, rfl⟩ := exists_of_mem_laid ht
  have hp : p.Canonical := h.canonical p (List.mem_append_right _ List.mem_cons_self)
  have hs : s = join before ++ (p.text ++ join after) := by rw [← (cuts_iff.1 h).1, join_append, join_cons]
  have hlength : s.length = (join before).length + p.text.length + (join after).length := by
    rw [hs, List.length_append, List.length_append, Nat.add_assoc]
  refine ⟨Canonical.isEof_eq hp, ?_⟩
  rw [Nat.zero_add]
  exact {
    ordered := Nat.le_add_right _ _
    inside := hlength ▸ Nat.le_add_right _ _
    text_eq := by rw [hs, Text.slice_append]
    nonempty := by
      intro _ hnil
      obtain ⟨c, u, hcons, -⟩ := hp.head
      exact List.cons_ne_nil c u (hcons.symm.trans hnil)
    location_eq := LineTable.locate_eq_locationAt (by omega) }

theorem Token.standsIn_eof (s : Text) :
    (Token.eof ⟨s.length, s.length, (LineTable.ofText s).locate s.length⟩).StandsIn s where
  ordered := le_rfl
  inside := le_rfl
  text_eq := (List.drop_eq_nil_of_le (List.length_take_le _ _)).symm
  nonempty := by
    intro hkind
    cases hkind
  location_eq := LineTable.locate_eq_locationAt le_rfl

/-- the tokens of a text are the pieces it is cut into, laid from its start on, and the end token at its end -/
theorem Text.tokens_eq_ok_iff_laid {s : Text} {ts : List Token} :
    s.tokens.value = .ok ts ↔
      ∃ ps, Cuts s ps ∧ ts = Piece.laid (LineTable.ofText s) 0 ps ++
        [.eof ⟨s.length, s.length, (LineTable.ofText s).locate s.length⟩] := by
  rw [Text.tokens_eq_ok_iff]
  refine exists_congr fun ps => and_congr_right fun hps => ?_
  rw [Piece.place_eq, (cuts_iff.1 hps).1, Nat.zero_add]

/-- **Tokens tile their text.** The last token is the only end token and stands at the end. The first token begins at
the start of the text, and each other where the one before it ends. Each has the characters of its span, some unless it
is the end token. Its line is one more than the newlines before it, and its column one more than the characters since
the last of them. -/
theorem tokens_tile {s : Text} {ts : List Token} (h : s.tokens.value = .ok ts) :
    (∃ before last, ts = before ++ [last] ∧ (∀ t ∈ before, t.isEof = false) ∧ last.isEof = true ∧
        last.span.start = s.length ∧ last.span.stop = s.length) ∧
      (∀ t, ts.head? = some t → t.span.start = 0) ∧
      (ts.IsChain fun t u => u.span.start = t.span.stop) ∧
      ∀ t ∈ ts, t.StandsIn s := by
  obtain ⟨ps, hps, hplace⟩ := Text.tokens_eq_ok_iff.1 h
  obtain ⟨qs, hqs, hlaid⟩ := Text.tokens_eq_ok_iff_laid.1 h
  refine ⟨⟨_, _, hlaid, ?_, rfl, rfl, rfl⟩, ?_, ?_, ?_⟩
  · intro t ht
    exact (Piece.standsIn_of_mem_laid hqs ht).1
  · intro t ht
    rw [hplace] at ht
    exact Piece.start_of_head_place ht
  · rw [hplace]
    exact Piece.isChain_place _ 0 ps
  · intro t ht
    rw [hlaid] at ht
    rcases List.mem_append.1 ht with hmem | hmem
    · exact (Piece.standsIn_of_mem_laid hqs hmem).2
    · obtain rfl := List.mem_singleton.1 hmem
      exact Token.standsIn_eof s

/-- newlines stand inside a tag, inside a comment and between the two -/
theorem tokens_tile_newlines :
    ∃ ts : List Token, (Text.tokens "<a\n>x\n<!--\n--> ".toList).value = .ok ts ∧
      (∃ before last, ts = before ++ [last] ∧ (∀ t ∈ before, t.isEof = false) ∧ last.isEof = true ∧
        last.span.start = 15 ∧ last.span.stop = 15) ∧
      (∀ t, ts.head? = some t → t.span.start = 0) ∧
      (ts.IsChain fun t u => u.span.start = t.span.stop) ∧
      ∀ t ∈ ts, t.StandsIn "<a\n>x\n<!--\n--> ".toList := by
  have h : (Text.tokens "<a\n>x\n<!--\n--> ".toList).value = .ok
      [⟨.tag, "<a\n>".toList, ⟨0, 4, ⟨1, 1⟩⟩⟩, ⟨.value, "x\n".toList, ⟨4, 6, ⟨2, 2⟩⟩⟩,
        ⟨.comment, "<!--\n-->".toList, ⟨6, 14, ⟨3, 1⟩⟩⟩, ⟨.whitespace, [' '], ⟨14, 15, ⟨4, 4⟩⟩⟩,
        ⟨.eof, [], ⟨15, 15, ⟨4, 5⟩⟩⟩] := by cbv
  exact ⟨_, h, tokens_tile h⟩

end TaggedText
