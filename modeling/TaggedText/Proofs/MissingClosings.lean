/-
What is missing at the end of a text.

Closing tags behind a text are cut off one by one and change nothing before them (`Text.cuts_closings`). They make a
document of it exactly if they close the open elements, the innermost first (`Builder.takes_closings_iff`).

`unclosed_iff_closings` puts this together for all texts and rules.
-/
import TaggedText.Proofs.FirstError
import TaggedText.Proofs.PrefixCuts
import TaggedText.Proofs.ReadingPieces

namespace TaggedText

open Builder

variable {rules : BuildRules} {s : Text} {ps : List Piece}

/-! ## Closing tags behind a text -/

/-- the closing tags of elements of the given names, one after another -/
def Text.closings (names : List Text) : Text :=
  names.flatMap fun name => ['<', '/'] ++ name ++ ['>']

theorem Text.closings_eq_join (names : List Text) :
    Text.closings names = Piece.join (names.map fun name => (Token.closing name).piece) := by
  rw [closings, Piece.join, List.flatMap_map]
  refine List.flatMap_congr fun name _ => ?_
  simp [Token.piece, Token.closing, Tag.text, Tag.mark, Tag.ending]

theorem Text.cuts_closings {names : List Text} (h : ∀ n ∈ names, Name.isName n = true) :
    Cuts (Text.closings names) (names.map fun name => (Token.closing name).piece) := by
  rw [closings_eq_join, cuts_iff]
  refine ⟨rfl, ?_⟩
  induction names with
  | nil => exact CanonicalPieces.nil
  | cons name names ih =>
    obtain ⟨hname, hnames⟩ := List.forall_mem_cons.1 h
    have hmarks : (Token.closing name).piece.Marks := Element.marks_closing hname
    have hrun : (Token.closing name).piece.isRun ≠ true := by simp [hmarks.isRun_eq]
    exact canonicalPieces_cons.2 ⟨hmarks.canonical, fun h => absurd h hrun, ih hnames⟩

theorem Text.endsRun_closings (names : List Text) : EndsRun (Text.closings names) := by
  cases names with
  | nil => exact EndsRun.nil
  | cons name names => exact endsRun_open _

/-- a text with closing tags behind it is read exactly if these lead from its pieces to a root -/
theorem Document.exists_read_closings_iff (h : Cuts s ps) {names : List Text}
    (hnames : ∀ n ∈ names, Name.isName n = true) :
    (∃ d, Document.read rules (s ++ Text.closings names) = .ok d) ↔
      ∃ m, Takes rules start (ps.map Piece.token) m ∧
        ((m.root.isSome = true ∧ names = []) ∨ (m.root = none ∧ m.stack ≠ [] ∧ names = m.stack.map (·.name))) := by
  have hcuts : Cuts (s ++ Text.closings names) (ps ++ names.map fun name => (Token.closing name).piece) :=
    (h.append (Text.endsRun_closings names)).cuts_iff.2 ⟨_, rfl, Text.cuts_closings hnames⟩
  have htokens : (names.map fun name => (Token.closing name).piece).map Piece.token = names.map Token.closing := by
    rw [List.map_map]
    rfl
  rw [Document.exists_read_iff hcuts, List.map_append, htokens]
  refine ⟨?_, ?_⟩
  · intro hn
    obtain ⟨n, hn, hsome⟩ := hn
    obtain ⟨m, hm, hclosings⟩ := takes_append_iff.1 hn
    exact ⟨m, hm, (takes_closings_iff hnames).1 ⟨n, hclosings, hsome⟩⟩
  · intro hm
    obtain ⟨m, hm, hcases⟩ := hm
    obtain ⟨n, hn, hsome⟩ := (takes_closings_iff hnames).2 hcases
    exact ⟨n, takes_append_iff.2 ⟨m, hm, hn⟩, hsome⟩

/-- **Unclosed elements.** Where a text is refused for elements that are not closed, the fault and its message count
them, and there is at least one. Their closing tags behind the text, the last name first, make a document of it, and no other
closing tags do. Conversely, if a text splits into tokens, and closing tags behind it make a document of it, it is
refused for the elements that they close, the last of them named first. -/
theorem unclosed_iff_closings (rules : BuildRules) (s : Text) :
    (∀ count names location, Document.read rules s = .error ⟨.unclosed count names, location⟩ →
      count = names.length ∧ 1 ≤ count ∧
      (BuildFault.unclosed count names).message =
        toString names.length ++ " unclosed tag(s): " ++ BuildFault.listed names ∧
      (∀ n ∈ names, Name.isName n = true) ∧
      ∀ ms, (∀ m ∈ ms, Name.isName m = true) →
        ((∃ d, Document.read rules (s ++ Text.closings ms) = .ok d) ↔ ms = names.reverse)) ∧
    ∀ ms ts d, (∀ m ∈ ms, Name.isName m = true) → ms ≠ [] → s.tokens.value = .ok ts →
      Document.read rules (s ++ Text.closings ms) = .ok d →
      ∃ location, Document.read rules s = .error ⟨.unclosed ms.length ms.reverse, location⟩ := by
  refine ⟨?_, ?_⟩
  · intro count names location h
    obtain ⟨ts, hts⟩ := Document.exists_tokens_of_unclosed h
    obtain ⟨ps, hps, -⟩ := Text.tokens_eq_ok_iff.1 hts
    obtain ⟨m, hm, hroot, hstack, rfl, rfl⟩ := (Document.read_eq_unclosed_iff hps).1 ⟨location, h⟩
    have hreverse : m.openNames.reverse = m.stack.map (·.name) := List.reverse_reverse _
    refine ⟨rfl, ?_, rfl, ?_, ?_⟩
    · rw [openNames, List.length_reverse, List.length_map]
      exact List.length_pos_iff.2 hstack
    · intro n hn
      exact hm.named n (List.mem_reverse.1 hn)
    · intro ms hms
      rw [Document.exists_read_closings_iff hps hms, hreverse]
      refine ⟨?_, ?_⟩
      · intro hn
        obtain ⟨n, hn, hcases⟩ := hn
        obtain rfl := hn.unique hm
        rcases hcases with ⟨hsome, -⟩ | ⟨-, -, hnames⟩
        · rw [hroot] at hsome
          cases hsome
        · exact hnames
      · intro hnames
        exact ⟨m, hm, Or.inr ⟨hroot, hstack, hnames⟩⟩
  · intro ms ts d hms hne hts hd
    obtain ⟨ps, hps, -⟩ := Text.tokens_eq_ok_iff.1 hts
    obtain ⟨m, hm, ⟨-, hnil⟩ | ⟨hroot, hstack, hnames⟩⟩ := (Document.exists_read_closings_iff hps hms).1 ⟨d, hd⟩
    · exact absurd hnil hne
    · refine (Document.read_eq_unclosed_iff hps).2 ⟨m, hm, hroot, hstack, List.length_reverse.symm, ?_⟩
      rw [hnames, openNames]

/-- two elements are open at the end of a text, and the closing tag of the inner one ends like a comment -/
theorem unclosed_iff_closings_dashes :
    Document.read .default "<a><b--> x".toList = .error ⟨.unclosed 2 [['a'], "b--".toList], ⟨1, 11⟩⟩ ∧
      2 = [['a'], "b--".toList].length ∧ 1 ≤ 2 ∧
      (∃ d, Document.read .default ("<a><b--> x".toList ++ Text.closings ["b--".toList, ['a']]) = .ok d) ∧
      ∃ location, Document.read .default "<a><b--> x".toList =
        .error ⟨.unclosed ["b--".toList, ['a']].length ["b--".toList, ['a']].reverse, location⟩ := by
  have h : Document.read .default "<a><b--> x".toList = .error ⟨.unclosed 2 [['a'], "b--".toList], ⟨1, 11⟩⟩ := by cbv
  obtain ⟨hunclosed, hconverse⟩ := unclosed_iff_closings .default "<a><b--> x".toList
  obtain ⟨hcount, hpos, -, -, hclosings⟩ := hunclosed _ _ _ h
  obtain ⟨d, hd⟩ := (hclosings ["b--".toList, ['a']] (by decide)).2 rfl
  obtain ⟨ts, hts⟩ := Document.exists_tokens_of_unclosed h
  exact ⟨h, hcount, hpos, ⟨d, hd⟩, hconverse _ ts d (by decide) (by decide) hts hd⟩

end TaggedText
