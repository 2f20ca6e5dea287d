/-
Formatting a text.

A text is formatted by reading it as a document and writing the document in a layout. What is read has been settled by
the rules, so that reading what is written gives the same document again, and the text of a second formatting depends
on the second layout only (`runFormat_runFormat`).
-/
import TaggedText.CommandLine.Run
import TaggedText.Proofs.RoundTrip
import TaggedText.Proofs.Trimming

namespace TaggedText.CommandLine

theorem blank_lastNewline (layout : Layout) : Text.Blank (lastNewline layout) := by
  cases layout with
  | compact => exact Layout.blank_newline (.indented 0)
  | indented width => exact List.forall_mem_nil _

/-- the document of a file is that of its text -/
theorem readDocument_of_read (path : Text) {rules : BuildRules} {s : Text} {d : Document}
    (h : Document.read rules s = .ok d) : ∃ events, readDocument path rules (.text s) = ⟨.ok d, events⟩ := by
  cases hbuilt : Document.ofText rules s with
  | mk value events =>
    obtain rfl : value = .ok d := by rw [← h, Document.read, hbuilt]
    refine ⟨events ++ [.parsed path d.count], ?_⟩
    simp only [readDocument, sourceOf, hbuilt]

/-- a file whose text is read is formatted as its document is written -/
theorem runFormat_of_read (path : Text) {layout : Layout} {rules : BuildRules} {s t : Text} {d : Document}
    (hread : Document.read rules s = .ok d) (hwrite : d.write layout = .ok t) :
    ∃ events, runFormat path layout rules (.text s) = .printed (t ++ lastNewline layout) events := by
  obtain ⟨events, hdocument⟩ := readDocument_of_read path hread
  exact ⟨events, by simp only [runFormat, hdocument, hwrite]⟩

/-- **Formatting computes a normal form.** A text that can be read is formatted in any layout as its document is
written, with a newline at the end of one line, and what this gives is formatted in a second layout exactly as the text
itself. -/
theorem runFormat_runFormat {rules : BuildRules} {s : Text} {d : Document} (path path' : Text) (first second : Layout)
    (h : Document.read rules s = .ok d) :
    ∃ t u events events' events'',
      (d.write first = .ok t ∧ d.write second = .ok u) ∧
      runFormat path first rules (.text s) = .printed (t ++ lastNewline first) events ∧
      runFormat path' second rules (.text (t ++ lastNewline first)) = .printed (u ++ lastNewline second) events' ∧
      runFormat path second rules (.text s) = .printed (u ++ lastNewline second) events'' := by
  have hproper : d.WellFormed := Document.wellFormed_of_read h
  obtain ⟨hallows, hsettled⟩ := Document.settled_of_read h
  obtain ⟨t, hwrite, hread⟩ := hproper.exists_write_read_blank first hallows hsettled
  obtain ⟨u, hwrite', -⟩ := hproper.exists_write_read_blank second hallows hsettled
  obtain ⟨events, hfirst⟩ := runFormat_of_read path h hwrite
  obtain ⟨events', hagain⟩ := runFormat_of_read path' (hread _ (blank_lastNewline first)) hwrite'
  obtain ⟨events'', hsecond⟩ := runFormat_of_read path h hwrite'
  exact ⟨t, u, events, events', events'', ⟨hwrite, hwrite'⟩, hfirst, hagain, hsecond⟩

/-- a text with blanks to be dropped, instructions, both quotes and a comment, at the limit of levels, is formatted on
one line first and with three spaces a level afterwards -/
theorem runFormat_runFormat_mixed :
    ∃ d, Document.read ⟨true, some 2, none⟩
        "<?x v='1'?><a j=\"'\" k='\"'>\n <b> c </b><!-- d --><e/></a>\n".toList = .ok d ∧
      ∃ t u events events' events'',
        (d.write .compact = .ok t ∧ d.write (.indented 3) = .ok u) ∧
        runFormat ['f'] .compact ⟨true, some 2, none⟩
          (.text "<?x v='1'?><a j=\"'\" k='\"'>\n <b> c </b><!-- d --><e/></a>\n".toList) =
            .printed (t ++ lastNewline .compact) events ∧
        runFormat ['g'] (.indented 3) ⟨true, some 2, none⟩ (.text (t ++ lastNewline .compact)) =
          .printed (u ++ lastNewline (.indented 3)) events' ∧
        runFormat ['f'] (.indented 3) ⟨true, some 2, none⟩
          (.text "<?x v='1'?><a j=\"'\" k='\"'>\n <b> c </b><!-- d --><e/></a>\n".toList) =
            .printed (u ++ lastNewline (.indented 3)) events'' := by
  have h : Document.read ⟨true, some 2, none⟩
      "<?x v='1'?><a j=\"'\" k='\"'>\n <b> c </b><!-- d --><e/></a>\n".toList =
      .ok ⟨⟨['a'], .ofList [(['j'], ['\'']), (['k'], ['"'])],
        .children [⟨['b'], .empty, .text ['c']⟩, ⟨['e'], .empty, .empty⟩]⟩,
        ⟨['x'], .ofList [(['v'], ['1'])]⟩⟩ := by cbv
  exact ⟨_, h, runFormat_runFormat ['f'] ['g'] .compact (.indented 3) h⟩

end TaggedText.CommandLine
