/-
Texts that are cut in part.

`CutsTo t ps rest` says that the pieces `ps` are cut off the front of `t` and leave `rest`. Up to a place where a run
of text may end, a text is cut in the same way whatever follows: `Cuts.append` puts a text behind one that is cut, and
`CutsTo.cuts_join` takes away what is left of one that is cut in part.

Results:
- `CutsTo.cuts_iff`: the pieces of a text are those cut off its front, and the pieces of what is left;
- `cuts_or_stuck`: a text is cut into pieces to its end, or up to a place where no piece can be cut off.
-/
import TaggedText.Proofs.TokenLanguage

namespace TaggedText

/-! ## Where runs may end -/

theorem EndsRun.of_append {u v : Text} (h : EndsRun (u ++ v)) : EndsRun u := by
  cases u with
  | nil => exact EndsRun.nil
  | cons c u => exact endsRun_cons.2 (endsRun_cons.1 h)

theorem EndsRun.append {u v : Text} (hu : EndsRun u) (hv : EndsRun v) : EndsRun (u ++ v) := by
  cases u with
  | nil => exact hv
  | cons c u => exact endsRun_cons.2 (endsRun_cons.1 hu)

/-! ## Pieces off the front -/

/-- the pieces are cut off the front of a text, one after another; what is left follows them -/
inductive CutsTo : Text → List Piece → Text → Prop
  | done (t : Text) : CutsTo t [] t
  | step {t rest : Text} {k : Cut} {ps : List Piece} (h : cut t = some (.ok k)) (hrest : CutsTo k.rest ps rest) :
    CutsTo t (⟨k.kind, k.text⟩ :: ps) rest

namespace CutsTo

variable {t rest : Text} {ps : List Piece}

/-- the pieces and what is left make up the text -/
theorem eq_append (h : CutsTo t ps rest) : t = Piece.join ps ++ rest := by
  induction h with
  | done t => rfl
  | step hcut _ ih =>
    rw [Piece.join_cons, List.append_assoc, ← ih]
    exact (Cut.canonical_of_cut hcut).1

/-- the text up to what is left is cut in the same way -/
theorem cuts_join (h : CutsTo t ps rest) : Cuts (Piece.join ps) ps := by
  rw [TaggedText.cuts_iff]
  refine ⟨rfl, ?_⟩
  induction h with
  | done t => exact CanonicalPieces.nil
  | step hcut hrest ih =>
    obtain ⟨-, hcanonical, hrun⟩ := Cut.canonical_of_cut hcut
    refine canonicalPieces_cons.2 ⟨hcanonical, fun hk => ?_, ih⟩
    have hends := hrun hk
    rw [hrest.eq_append] at hends
    exact hends.of_append

/-- the pieces of a text are those cut off its front, and the pieces of what is left -/
theorem cuts_iff (h : CutsTo t ps rest) {qs : List Piece} : Cuts t qs ↔ ∃ rs, qs = ps ++ rs ∧ Cuts rest rs := by
  induction h generalizing qs with
  | done t => simp
  | @step t rest k ps hcut _ ih =>
    rw [cuts_of_cut hcut]
    refine ⟨?_, ?_⟩
    · intro hqs
      obtain ⟨us, rfl, hus⟩ := hqs
      obtain ⟨rs, rfl, hrs⟩ := ih.1 hus
      exact ⟨rs, rfl, hrs⟩
    · intro hqs
      obtain ⟨rs, rfl, hrs⟩ := hqs
      exact ⟨ps ++ rs, rfl, ih.2 ⟨rs, rfl, hrs⟩⟩

end CutsTo

/-- a text that is cut to its end is cut in the same way where a run may end behind it -/
theorem Cuts.append {s tail : Text} {ps : List Piece} (h : Cuts s ps) (htail : EndsRun tail) :
    CutsTo (s ++ tail) ps tail := by
  obtain ⟨rfl, hps⟩ := cuts_iff.1 h
  clear h
  induction ps with
  | nil => exact CutsTo.done tail
  | cons p ps ih =>
    obtain ⟨hp, hrun, hrest⟩ := canonicalPieces_cons.1 hps
    rw [Piece.join_cons, List.append_assoc]
    exact CutsTo.step (Cut.cut_of_canonical hp fun hr => (hrun hr).append htail) (ih hrest)

/-- a text is cut into pieces to its end, or up to a place where no piece can be cut off -/
theorem cuts_or_stuck (t : Text) :
    (∃ ps, Cuts t ps) ∨ ∃ ps rest fault, CutsTo t ps rest ∧ cut rest = some (.error fault) := by
  induction hn : t.length using Nat.strongRecOn generalizing t with
  | ind n ih =>
    cases hcut : cut t with
    | none =>
      rw [cut_eq_none_iff.1 hcut]
      exact Or.inl ⟨[], Cuts.done⟩
    | some r =>
      cases r with
      | error fault => exact Or.inr ⟨[], t, fault, .done t, hcut⟩
      | ok k =>
        rcases ih k.rest.length (hn ▸ cut_length hcut) k.rest rfl with ⟨ps, hps⟩ | ⟨ps, rest, fault, hps, hstuck⟩
        · exact Or.inl ⟨_, .step hcut hps⟩
        · exact Or.inr ⟨_, rest, fault, .step hcut hps, hstuck⟩

end TaggedText
