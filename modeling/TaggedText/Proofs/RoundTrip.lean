/-
Writing and reading.

Results:
- `write_read_of_read`: what was read from a text is written, and read again as an equal document, whatever the rules
  of the first reading and the layout;
- `writable_iff_wellFormed`: the well-formed documents are those that are written and read again as equal ones, and
  they are read as they are, attributes in the same order.
-/
import TaggedText.Proofs.WrittenText

namespace TaggedText

/-- the rules for plain reading change nothing -/
theorem BuildRules.settledDocument_default (d : Document) : BuildRules.default.settledDocument d = d :=
  rfl

theorem BuildRules.allows_default (levels : Nat) : BuildRules.default.Allows levels := by
  intro limit hlimit
  cases hlimit

/-- a well-formed document that the rules allow and leave alone is written, and read as it is, whatever blanks follow -/
theorem Document.WellFormed.exists_write_read_blank (layout : Layout) {rules : BuildRules} {d : Document}
    (h : d.WellFormed) (hallows : rules.Allows d.root.height) (hsettled : rules.settledDocument d = d) :
    ∃ t, d.write layout = .ok t ∧ ∀ w, Text.Blank w → Document.read rules (t ++ w) = .ok d := by
  obtain ⟨t, ps, hwrite, hdenotes, hspelled⟩ := h.exists_write layout
  refine ⟨t, hwrite, ?_⟩
  intro w hw
  have hyields : Yields (t ++ w) (ps ++ []) := (hdenotes.append (Denotes.blank hw)).yields
  rw [List.append_nil] at hyields
  exact Document.read_eq_ok_iff.2 ⟨ps, d, hyields, hspelled, hallows, hsettled.symm⟩

/-- a well-formed document is written, and read as it is -/
theorem Document.WellFormed.exists_write_read (layout : Layout) {d : Document} (h : d.WellFormed) :
    ∃ t, d.write layout = .ok t ∧ Document.read .default t = .ok d := by
  obtain ⟨t, hwrite, hread⟩ := h.exists_write_read_blank layout (BuildRules.allows_default d.root.height)
    (BuildRules.settledDocument_default d)
  have hblank := hread [] (List.forall_mem_nil _)
  rw [List.append_nil] at hblank
  exact ⟨t, hwrite, hblank⟩

/-- **The round trip.** A document that was read is written, and what is written is read as an equal document. -/
theorem write_read_of_read {rules : BuildRules} {s : Text} {d : Document} (layout : Layout)
    (h : Document.read rules s = .ok d) :
    ∃ t d', d.write layout = .ok t ∧ Document.read .default t = .ok d' ∧ d'.same d = true := by
  obtain ⟨t, hwrite, hread⟩ := (Document.wellFormed_of_read h).exists_write_read layout
  exact ⟨t, d, hwrite, hread, d.same_refl⟩

/-- a text with instructions, a quote in a value, blanks to be dropped, a comment and an empty element makes the round
trip -/
theorem write_read_of_read_mixed :
    ∃ d, Document.read ⟨true, some 2, none⟩
        "<?x v='1'?><a k='\"'>\n <b> c </b><!-- d --><e/></a>".toList = .ok d ∧
      ∃ t d', d.write (.indented 2) = .ok t ∧ Document.read .default t = .ok d' ∧ d'.same d = true := by
  have h : Document.read ⟨true, some 2, none⟩ "<?x v='1'?><a k='\"'>\n <b> c </b><!-- d --><e/></a>".toList =
      .ok ⟨⟨['a'], .ofList [(['k'], ['"'])],
        .children [⟨['b'], .empty, .text ['c']⟩, ⟨['e'], .empty, .empty⟩]⟩,
        ⟨['x'], .ofList [(['v'], ['1'])]⟩⟩ := by cbv
  exact ⟨_, h, write_read_of_read (.indented 2) h⟩

/-- **The writable documents.** A document is written and read again as an equal one exactly if it is well formed, and
exactly then it is written and read again as it is, attributes in the same order. -/
theorem writable_iff_wellFormed (layout : Layout) (d : Document) :
    ((∃ t d', d.write layout = .ok t ∧ Document.read .default t = .ok d' ∧ d'.same d = true) ↔ d.WellFormed) ∧
      ((∃ t, d.write layout = .ok t ∧ Document.read .default t = .ok d) ↔ d.WellFormed) := by
  refine ⟨⟨?_, fun h => ?_⟩, ⟨?_, fun h => h.exists_write_read layout⟩⟩
  · intro h
    obtain ⟨t, d', -, hread, hsame⟩ := h
    exact (Document.wellFormed_of_read hread).of_same (Document.same_symm hsame)
  · obtain ⟨t, hwrite, hread⟩ := h.exists_write_read layout
    exact ⟨t, d, hwrite, hread, d.same_refl⟩
  · intro h
    obtain ⟨t, -, hread⟩ := h
    exact Document.wellFormed_of_read hread

end TaggedText
