/-
What is written and cannot be read.

Writing refuses values with both quotes and texts with a bracket, but not values with a bracket. Such a value is
written as it is, and splitting a text into tokens ends the tag around it at the bracket. `Spoilt t` says that the text
`t` cannot be read for this, whatever follows it: it does not split into tokens, or one of its tags breaks off.

Results:
- `Element.wellFormed_or_spoilt`, `Document.wellFormed_or_spoilt`: what is written of a regular tree or document is that
  of a well-formed one, or is spoilt by a bracket in a value;
- `written_reads_back_or_fails`: what is written of a regular document is read as the document if no value contains a
  bracket, and is not read at all otherwise. It is never read as another document.
-/
import TaggedText.Proofs.BrokenTags
import TaggedText.Proofs.ReadingPieces
import TaggedText.Proofs.RoundTrip

namespace TaggedText

/-! ## Pieces that are taken -/

theorem Piece.Garbled.isIdle_eq {p : Piece} (h : p.Garbled) : p.isIdle = false := by
  obtain ⟨kind, text⟩ := p
  obtain ⟨hkind | hkind, -⟩ := h
  · cases hkind
    rfl
  · cases hkind
    rfl

theorem Piece.Garbled.not_read {p : Piece} {tag : Tag} (h : p.Garbled) : Tag.read p.text ≠ .ok tag := by
  intro hread
  obtain ⟨-, e, he⟩ := h
  cases he.symm.trans hread

namespace Builder

variable {rules : BuildRules} {b m : Builder}

/-- a piece that does something can be read -/
theorem Step.not_garbled {p : Piece} (h : Step rules b p m) : ¬ p.Garbled := by
  intro hgarbled
  cases h with
  | idle hidle => cases hidle.symm.trans hgarbled.isIdle_eq
  | opened tag htag => exact hgarbled.not_read htag.2
  | closed top below attributes htag => exact hgarbled.not_read htag.2
  | whole tag htag => exact hgarbled.not_read htag.2
  | given i hi => exact hgarbled.not_read hi.2
  | text top below held hkind =>
    rcases hgarbled.1 with htag | hinstructions
    · cases hkind.symm.trans htag
    · cases hkind.symm.trans hinstructions

theorem Takes.not_garbled {ts : List Token} (h : Takes rules b ts m) : ∀ t ∈ ts, ¬ t.piece.Garbled := by
  induction ts generalizing b with
  | nil => exact List.forall_mem_nil _
  | cons t ts ih =>
    obtain ⟨n, hn, hrest⟩ := takes_cons_iff.1 h
    refine List.forall_mem_cons.2 ⟨?_, ih hrest⟩
    obtain ⟨-, ⟨-, hfiller, -⟩ | ⟨-, hstep⟩⟩ := takes_singleton_iff.1 hn
    · rintro ⟨hkind | hkind, -⟩
      · simp [Token.isFiller, show t.kind = .tag from hkind] at hfiller
      · simp [Token.isFiller, show t.kind = .instructions from hkind] at hfiller
    · exact (step_eq_ok_iff.1 hstep).not_garbled

end Builder

/-- what is read has no tag that cannot be read -/
theorem Document.exists_cuts_of_read {rules : BuildRules} {t : Text} {d : Document}
    (h : Document.read rules t = .ok d) : ∃ ps, Cuts t ps ∧ ∀ p ∈ ps, ¬ p.Garbled := by
  obtain ⟨ts, hts, -⟩ := Document.read_eq_ok.1 h
  obtain ⟨ps, hps, -⟩ := Text.tokens_eq_ok_iff.1 hts
  obtain ⟨m, hm, -⟩ := (Document.exists_read_iff hps).1 ⟨d, h⟩
  exact ⟨ps, hps, fun p hp => hm.not_garbled p.token (List.mem_map_of_mem hp)⟩

/-! ## Spoilt texts -/

/-- whatever follows the text, it can be indented, and one of its tags cannot be read if all splits into tokens -/
structure Spoilt (t : Text) : Prop where
  indentable : ∀ rest, Indentable (t ++ rest)
  garbled : ∀ rest ps, Yields (t ++ rest) ps → ∃ p ∈ ps, p.Garbled

theorem Indentable.append {t u : Text} (ht : Indentable t) (hu : Indentable u) : Indentable (t ++ u) := by
  unfold Indentable at *
  rw [List.dropWhile_append]
  by_cases hempty : (t.dropWhile CharClass.isWhitespace).isEmpty = true
  · rwa [if_pos hempty]
  · rw [if_neg hempty]
    obtain ⟨c, v, hcons⟩ := List.exists_cons_of_ne_nil fun hnil => hempty (List.isEmpty_iff.2 hnil)
    rw [hcons] at ht ⊢
    exact endsRun_cons.2 (endsRun_cons.1 ht)

/-- what a text denotes comes first among what is yielded -/
theorem Denotes.yields_append {t rest : Text} {ps rs : List Piece} (h : Denotes t ps) (hrest : Indentable rest)
    (hyields : Yields (t ++ rest) rs) : ∃ qs, rs = ps ++ qs ∧ Yields rest qs := by
  -- the blanks at the start of the rest are cut together with the text
  have hblank := Text.blank_takeWhile rest
  have hsplit := List.takeWhile_append_dropWhile (p := CharClass.isWhitespace) (l := rest)
  have halone : Yields (rest.takeWhile CharClass.isWhitespace) [] := by
    have hnil := (yields_blank_append hblank EndsRun.nil).2 Yields.nil
    rwa [List.append_nil] at hnil
  have hindent : Indentable (rest.takeWhile CharClass.isWhitespace) := by
    have hnil := Indentable.nil.blank_append hblank
    rwa [List.append_nil] at hnil
  obtain ⟨us, hus, hsignificant⟩ := (h _ _ hindent halone).2
  rw [List.append_nil] at hsignificant
  obtain ⟨vs, hvs, rfl⟩ := hyields
  rw [← hsplit, ← List.append_assoc] at hvs
  obtain ⟨ws, rfl, hws⟩ := (hus.append hrest).cuts_iff.1 hvs
  refine ⟨Piece.significant ws, ?_, ?_⟩
  · rw [← hsignificant]
    exact List.filter_append us ws
  · rw [← hsplit]
    exact (yields_blank_append hblank hrest).2 ⟨ws, hws, rfl⟩

namespace Spoilt

theorem append {t : Text} (h : Spoilt t) (u : Text) : Spoilt (t ++ u) where
  indentable rest := by
    rw [List.append_assoc]
    exact h.indentable (u ++ rest)
  garbled rest ps hyields := by
    rw [List.append_assoc] at hyields
    exact h.garbled (u ++ rest) ps hyields

/-- what stands before a spoilt text does not mend it -/
theorem after_denotes {t u : Text} {ps : List Piece} (hu : Spoilt u) (ht : Denotes t ps) : Spoilt (t ++ u) where
  indentable rest := by
    have hindent := (ht [] [] Indentable.nil Yields.nil).1
    rw [List.append_nil] at hindent
    rw [List.append_assoc]
    exact hindent.append (hu.indentable rest)
  garbled rest rs hyields := by
    rw [List.append_assoc] at hyields
    obtain ⟨qs, rfl, hqs⟩ := ht.yields_append (hu.indentable rest) hyields
    obtain ⟨p, hp, hgarbled⟩ := hu.garbled rest qs hqs
    exact ⟨p, List.mem_append_right ps hp, hgarbled⟩

/-- a bracket in a value spoils the tag around it, blanks before the tag notwithstanding -/
theorem of_broken {form : TagForm} {w name u v : Text} {c : Char} {attributes : Attributes} (hw : Text.Blank w)
    (hform : form = .opening ∨ form = .instructions) (hname : Name.isName name = true)
    (hbroken : Tag.BrokenEntries attributes.entries u) (hu : ∀ c ∈ u, c ≠ '<' ∧ c ≠ '>') (hc : c = '<' ∨ c = '>') :
    Spoilt (w ++ ('<' :: (Tag.mark form ++ name ++ u) ++ c :: v)) where
  indentable rest := by
    rw [List.append_assoc]
    exact (indentable_open _).blank_append hw
  garbled rest ps hyields := by
    have htext : w ++ ('<' :: (Tag.mark form ++ name ++ u) ++ c :: v) ++ rest =
        w ++ ('<' :: (Tag.mark form ++ name ++ u) ++ c :: (v ++ rest)) := by simp
    have hends : EndsRun ('<' :: (Tag.mark form ++ name ++ u) ++ c :: (v ++ rest)) := endsRun_open _
    rw [htext, yields_blank_append hw hends] at hyields
    obtain ⟨qs, hqs, rfl⟩ := hyields
    obtain ⟨p, hp, hgarbled⟩ := cuts_broken hform hname hbroken hu hc hqs
    exact ⟨p, List.mem_filter.2 ⟨hp, by simp [hgarbled.isIdle_eq]⟩, hgarbled⟩

/-- a spoilt text is not read -/
theorem exists_error {t : Text} (h : Spoilt t) (rules : BuildRules) : ∃ e, Document.read rules t = .error e := by
  cases hread : Document.read rules t with
  | error e => exact ⟨e, rfl⟩
  | ok d =>
    obtain ⟨ps, hps, hfine⟩ := Document.exists_cuts_of_read hread
    have hyields : Yields (t ++ []) (Piece.significant ps) := by
      rw [List.append_nil]
      exact ⟨ps, hps, rfl⟩
    obtain ⟨p, hp, hgarbled⟩ := h.garbled [] _ hyields
    exact absurd hgarbled (hfine p (List.mem_filter.1 hp).1)

end Spoilt

/-! ## Regular documents -/

def Attributes.KeysNamed (a : Attributes) : Prop :=
  ∀ e ∈ a.entries, Name.isName e.1 = true

def Attributes.PlainValues (a : Attributes) : Prop :=
  ∀ e ∈ a.entries, ∀ c ∈ e.2, c ≠ '<' ∧ c ≠ '>'

/-- a text has not only whitespace, and no character of no class; a list of children has a child -/
def Content.Regular : Content Element → Prop
  | .empty => True
  | .text t => (∃ c ∈ t, CharClass.classify c ≠ .whitespace) ∧ ∀ c ∈ t, CharClass.classify c ≠ .unknown
  | .children cs => cs ≠ []

/-- an element with a name, keys that are names, and a regular content; values are arbitrary -/
structure Element.Regular (e : Element) : Prop where
  name : Name.isName e.name = true
  keys : e.attributes.KeysNamed
  content : e.content.Regular

def Element.PlainValues (e : Element) : Prop :=
  ∀ x ∈ e.preorder, x.attributes.PlainValues

/-- every element is regular, and the instructions have a name for their target and for their keys, or say nothing -/
structure Document.Regular (d : Document) : Prop where
  root : ∀ x ∈ d.root.preorder, x.Regular
  instructions : (Name.isName d.instructions.target = true ∧ d.instructions.attributes.KeysNamed) ∨
    (d.instructions.target = [] ∧ d.instructions.attributes.entries = [])

structure Document.PlainValues (d : Document) : Prop where
  root : d.root.PlainValues
  instructions : d.instructions.attributes.PlainValues

theorem Document.WellFormed.plainValues {d : Document} (h : d.WellFormed) : d.PlainValues := by
  refine ⟨fun x hx e he => ((h.root x hx).attributes e he).2.1, fun e he => ?_⟩
  rcases h.instructions with ⟨-, hattributes⟩ | ⟨-, hnone⟩
  · exact (hattributes e he).2.1
  · rw [hnone] at he
    cases he

/-! ## Writing regular documents -/

theorem Attributes.exists_of_write {name t : Text} {a : Attributes} (h : a.write name = .ok t) :
    ∀ e ∈ a.entries, ∃ u, writeEntry name e = .ok u := by
  unfold write at h
  split at h
  · cases h
  · rename_i ts hts
    clear h
    generalize a.entries = es at hts
    induction es generalizing ts with
    | nil => exact List.forall_mem_nil _
    | cons e es ih =>
      obtain ⟨u, rs, hu, hrs, rfl⟩ := exists_of_mapM_cons hts
      exact List.forall_mem_cons.2 ⟨⟨u, hu⟩, ih rs hrs⟩

/-- attributes that are written, with names for keys and no bracket in a value, are proper -/
theorem Attributes.wellFormed_of_write {name t : Text} {a : Attributes} (hkeys : a.KeysNamed) (hplain : a.PlainValues)
    (h : a.write name = .ok t) : a.WellFormed := by
  intro e he
  obtain ⟨u, hu⟩ := Attributes.exists_of_write h e he
  obtain ⟨quote, hquote, hnot, -⟩ := Attributes.eq_of_writeEntry hu
  exact ⟨hkeys e he, hplain e he, Tag.not_both_quotes hquote hnot⟩

namespace Element

variable {layout : Layout} {depth : Nat} {e : Element} {t : Text}

/-- what is printed is the start of the tree, what is below it, and its stop -/
theorem exists_of_print (h : e.print layout depth = .ok t) :
    ∃ u v below, e.attributes.write e.name = .ok u ∧ e.writeContent layout = .ok v ∧
      printForest layout (depth + 1) e.children = .ok below ∧
      t = layout.indent depth ++ '<' :: e.name ++ u ++ v ++ below ++ e.writeStop layout depth := by
  rw [print_eq] at h
  obtain ⟨start, hstart, h⟩ := exists_of_bind_eq_ok h
  obtain ⟨below, hbelow, h⟩ := exists_of_bind_eq_ok h
  cases h
  unfold writeStart at hstart
  split at hstart
  · cases hstart
  · rename_i u hu
    split at hstart
    · cases hstart
    · rename_i v hv
      cases hstart
      exact ⟨u, v, below, hu, hv, hbelow, rfl⟩

theorem exists_of_printForest {es : List Element} (h : printForest layout depth (e :: es) = .ok t) :
    ∃ u v, e.print layout depth = .ok u ∧ printForest layout depth es = .ok v ∧ t = u ++ v := by
  rw [printForest] at h
  obtain ⟨u, hu, h⟩ := exists_of_bind_eq_ok h
  obtain ⟨v, hv, h⟩ := exists_of_bind_eq_ok h
  cases h
  exact ⟨u, v, hu, hv, rfl⟩

theorem wellFormed_or_spoilt_forest {es : List Element}
    (h : ∀ e ∈ es, ∀ t, e.print layout depth = .ok t → e.WellFormed ∨ (¬ e.PlainValues ∧ Spoilt t))
    (hprint : printForest layout depth es = .ok t) :
    (∀ e ∈ es, e.WellFormed) ∨ ((∃ e ∈ es, ¬ e.PlainValues) ∧ Spoilt t) := by
  induction es generalizing t with
  | nil => exact Or.inl (List.forall_mem_nil _)
  | cons e es ih =>
    obtain ⟨u, v, hu, hv, rfl⟩ := exists_of_printForest hprint
    obtain ⟨he, hes⟩ := List.forall_mem_cons.1 h
    rcases he u hu with hwell | ⟨hplain, hspoilt⟩
    · obtain ⟨u', ps, hu', -, hdenotes⟩ := hwell.printable layout depth
      obtain rfl := Except.ok.inj (hu.symm.trans hu')
      rcases ih hes hv with hwells | ⟨⟨x, hx, hplain⟩, hspoilt⟩
      · exact Or.inl (List.forall_mem_cons.2 ⟨hwell, hwells⟩)
      · exact Or.inr ⟨⟨x, List.mem_cons_of_mem e hx, hplain⟩, hspoilt.after_denotes hdenotes⟩
    · exact Or.inr ⟨⟨e, List.mem_cons_self, hplain⟩, hspoilt.append v⟩

/-- a text that is written has no bracket, and is proper if it is regular -/
theorem wellFormed_of_writeContent {s v : Text} (hcontent : e.content = .text s) (hregular : e.content.Regular)
    (h : e.writeContent layout = .ok v) : e.content.WellFormed := by
  rw [hcontent] at hregular ⊢
  obtain ⟨hvisible, hknown⟩ := hregular
  simp only [writeContent, hcontent] at h
  split_ifs at h with hbracket
  refine ⟨fun c hc => ?_, hvisible⟩
  have hplain : (c == '<' || c == '>') = false := by
    have hnone := Bool.eq_false_of_not_eq_true hbracket
    rw [hasBracket, List.any_eq_false] at hnone
    simpa using hnone c hc
  refine ⟨?_, ?_, hknown c hc⟩
  · rw [Ne, CharClass.classify_eq_iff rfl]
    rintro rfl
    cases hplain
  · rw [Ne, CharClass.classify_eq_iff rfl]
    rintro rfl
    cases hplain

/-- a start tag does not mend what is below it -/
theorem spoilt_of_below {name u below : Text} {attributes : Attributes} (hname : Name.isName name = true)
    (hattributes : attributes.WellFormed) (hwrite : attributes.write name = .ok u) (h : Spoilt below) (stop : Text) :
    Spoilt (layout.indent depth ++ '<' :: name ++ u ++ ('>' :: layout.newline) ++ below ++ stop) := by
  obtain ⟨u', hu', -, hplain⟩ := Attributes.exists_write name hattributes
  obtain rfl := Except.ok.inj (hwrite.symm.trans hu')
  have hstart := Denotes.line (layout.blank_indent depth) (Denotes.tag (Tag.marks_piece .opening hname hplain))
    layout.blank_newline
  simpa [Tag.piece, Tag.text, Tag.mark, Tag.ending] using (h.after_denotes hstart).append stop

/-- **Written trees.** What is printed of a regular tree is that of a well-formed one, or is spoilt by a bracket in a
value. -/
theorem wellFormed_or_spoilt (h : ∀ x ∈ e.preorder, x.Regular) (hprint : e.print layout depth = .ok t) :
    e.WellFormed ∨ (¬ e.PlainValues ∧ Spoilt t) := by
  induction e using Element.induction_children generalizing depth t with
  | step e ih =>
    have hregular := h e (mem_preorder_iff.2 (Or.inl rfl))
    obtain ⟨u, v, below, hu, hv, hbelow, rfl⟩ := exists_of_print hprint
    by_cases hplain : e.attributes.PlainValues
    · have hattributes := Attributes.wellFormed_of_write hregular.keys hplain hu
      obtain ⟨name, attributes, content⟩ := e
      cases content with
      | empty =>
        exact Or.inl (wellFormed_iff.2 ⟨⟨hregular.name, hattributes, trivial⟩, List.forall_mem_nil _⟩)
      | text s =>
        have hs := wellFormed_of_writeContent rfl hregular.content hv
        exact Or.inl (wellFormed_iff.2 ⟨⟨hregular.name, hattributes, hs⟩, List.forall_mem_nil _⟩)
      | children cs =>
        have hcs : ∀ c ∈ cs, ∀ t, c.print layout (depth + 1) = .ok t →
            c.WellFormed ∨ (¬ c.PlainValues ∧ Spoilt t) :=
          fun c hc t ht => ih c hc (fun x hx => h x (mem_preorder_iff.2 (Or.inr ⟨c, hc, hx⟩))) ht
        rcases wellFormed_or_spoilt_forest hcs hbelow with hwells | ⟨⟨x, hx, hvalues⟩, hspoilt⟩
        · exact Or.inl (wellFormed_iff.2 ⟨⟨hregular.name, hattributes, hregular.content⟩, hwells⟩)
        · refine Or.inr ⟨fun hall => hvalues fun y hy => hall y (mem_preorder_iff.2 (Or.inr ⟨x, hx, hy⟩)), ?_⟩
          cases hv
          exact spoilt_of_below hregular.name hattributes hu hspoilt _
    · -- the tag of the tree itself breaks off
      obtain ⟨before, u', c, rest, hbroken, hu', hc, rfl⟩ := Attributes.exists_broken hregular.keys hu hplain
      have hspoilt := Spoilt.of_broken (v := rest ++ v ++ below ++ e.writeStop layout depth)
        (layout.blank_indent depth) (Or.inl rfl) hregular.name hbroken hu' hc
      refine Or.inr ⟨fun hall => hplain (hall e (mem_preorder_iff.2 (Or.inl rfl))), ?_⟩
      simpa [Tag.mark] using hspoilt

end Element

/-- regular instructions are well formed, or what is written of them is spoilt by a bracket in a value -/
theorem Instructions.wellFormed_or_spoilt {layout : Layout} {i : Instructions} {t : Text}
    (h : (Name.isName i.target = true ∧ i.attributes.KeysNamed) ∨ (i.target = [] ∧ i.attributes.entries = []))
    (hwrite : i.write layout = .ok t) : i.WellFormed ∨ (¬ i.attributes.PlainValues ∧ Spoilt t) := by
  rcases h with ⟨hname, hkeys⟩ | hnone
  · have hfull : i.isEmpty = false := List.isEmpty_eq_false_iff.2 (Name.isName_ne_nil hname)
    simp only [write, hfull, Bool.false_eq_true, if_false] at hwrite
    split at hwrite
    · cases hwrite
    · rename_i u hu
      cases hwrite
      by_cases hplain : i.attributes.PlainValues
      · exact Or.inl (Or.inl ⟨hname, Attributes.wellFormed_of_write hkeys hplain hu⟩)
      · obtain ⟨before, u', c, rest, hbroken, hu', hc, rfl⟩ := Attributes.exists_broken hkeys hu hplain
        have hspoilt := Spoilt.of_broken (w := []) (v := rest ++ ['?', '>'] ++ layout.newline)
          (List.forall_mem_nil _) (Or.inr rfl) hname hbroken hu' hc
        refine Or.inr ⟨hplain, ?_⟩
        simpa [Tag.mark] using hspoilt
  · exact Or.inl (Or.inr hnone)

/-- **Written documents.** What is written of a regular document is that of a well-formed one, or is spoilt by a bracket
in a value. -/
theorem Document.wellFormed_or_spoilt {layout : Layout} {d : Document} {t : Text} (h : d.Regular)
    (hwrite : d.write layout = .ok t) : d.WellFormed ∨ (¬ d.PlainValues ∧ Spoilt t) := by
  unfold write at hwrite
  split at hwrite
  · cases hwrite
  · rename_i head hhead
    split at hwrite
    · cases hwrite
    · rename_i body hbody
      cases hwrite
      rw [Element.write_eq_print] at hbody
      rcases Instructions.wellFormed_or_spoilt h.instructions hhead with hwell | ⟨hplain, hspoilt⟩
      · rcases Element.wellFormed_or_spoilt h.root hbody with hroot | ⟨hplain, hspoilt⟩
        · exact Or.inl ⟨hroot, hwell⟩
        · obtain ⟨head', given, ps, hhead', -, -, hdenotes⟩ := Instructions.exists_write layout hwell
          obtain rfl := Except.ok.inj (hhead.symm.trans hhead')
          exact Or.inr ⟨fun hall => hplain hall.root, hspoilt.after_denotes hdenotes⟩
      · exact Or.inr ⟨fun hall => hplain hall.instructions, hspoilt.append body⟩

/-- **What is written.** A regular document is refused, or it is written. What is written is read as the same document
if no value contains an angle bracket; otherwise it is not read at all. -/
theorem written_reads_back_or_fails (layout : Layout) {d : Document} (h : d.Regular) :
    (∃ e, d.write layout = .error e) ∨ ∃ t, d.write layout = .ok t ∧
      ((d.PlainValues ∧ Document.read .default t = .ok d) ∨
        (¬ d.PlainValues ∧ ∃ e, Document.read .default t = .error e)) := by
  cases hwrite : d.write layout with
  | error e => exact Or.inl ⟨e, rfl⟩
  | ok t =>
    refine Or.inr ⟨t, rfl, ?_⟩
    rcases Document.wellFormed_or_spoilt h hwrite with hwell | ⟨hplain, hspoilt⟩
    · obtain ⟨t', ht', hread⟩ := hwell.exists_write_read layout
      obtain rfl := Except.ok.inj (hwrite.symm.trans ht')
      exact Or.inl ⟨hwell.plainValues, hread⟩
    · exact Or.inr ⟨hplain, hspoilt.exists_error .default⟩

/-- a value with a quote in it is written between the others, and read back -/
theorem written_reads_back_or_fails_quote :
    Document.Regular ⟨⟨['a'], .ofList [(['k'], ['"'])], .text ['x']⟩, .none⟩ ∧
      ∃ t, Document.write (.indented 2) ⟨⟨['a'], .ofList [(['k'], ['"'])], .text ['x']⟩, .none⟩ = .ok t ∧
        Document.read .default t = .ok ⟨⟨['a'], .ofList [(['k'], ['"'])], .text ['x']⟩, .none⟩ := by
  have honly : ∀ x ∈ Element.preorder ⟨['a'], .ofList [(['k'], ['"'])], .text ['x']⟩,
      x = ⟨['a'], .ofList [(['k'], ['"'])], .text ['x']⟩ := by
    intro x hx
    rcases Element.mem_preorder_iff.1 hx with rfl | ⟨c, hc, -⟩
    · rfl
    · cases hc
  have hkeys : Attributes.KeysNamed (.ofList [(['k'], ['"'])]) := List.forall_mem_singleton.2 (by decide)
  have hvalues : Attributes.PlainValues (.ofList [(['k'], ['"'])]) :=
    List.forall_mem_singleton.2 (List.forall_mem_singleton.2 (by decide))
  have htext : Content.Regular (.text ['x']) :=
    ⟨⟨'x', List.mem_singleton_self 'x', by decide⟩, List.forall_mem_singleton.2 (by decide)⟩
  have hregular : Document.Regular ⟨⟨['a'], .ofList [(['k'], ['"'])], .text ['x']⟩, .none⟩ := by
    refine ⟨fun x hx => ?_, Or.inr ⟨rfl, rfl⟩⟩
    obtain rfl := honly x hx
    exact ⟨by decide, hkeys, htext⟩
  have hplain : Document.PlainValues ⟨⟨['a'], .ofList [(['k'], ['"'])], .text ['x']⟩, .none⟩ := by
    refine ⟨fun x hx => ?_, List.forall_mem_nil _⟩
    obtain rfl := honly x hx
    exact hvalues
  have hwrite : Document.write (.indented 2) ⟨⟨['a'], .ofList [(['k'], ['"'])], .text ['x']⟩, .none⟩ =
      .ok "<a k='\"'>x</a>\n".toList := by cbv
  rcases written_reads_back_or_fails (.indented 2) hregular with ⟨e, he⟩ | ⟨t, ht, ⟨-, hread⟩ | ⟨hnot, -⟩⟩
  · cases hwrite.symm.trans he
  · exact ⟨hregular, t, ht, hread⟩
  · exact absurd hplain hnot

/-- a bracket in a value is written as it is, and what is written does not split into tokens -/
theorem bracket_in_value_unreadable :
    Document.Regular ⟨⟨['a'], .ofList [(['k'], ['<'])], .empty⟩, .none⟩ ∧
      Document.write .compact ⟨⟨['a'], .ofList [(['k'], ['<'])], .empty⟩, .none⟩ = .ok "<a k=\"<\"/>".toList ∧
      Document.read .default "<a k=\"<\"/>".toList =
        .error ⟨.reading (.bracketInTag "<a k=\"".toList '<'), ⟨1, 1⟩⟩ := by
  refine ⟨⟨fun x hx => ?_, Or.inr ⟨rfl, rfl⟩⟩, by cbv, by cbv⟩
  rcases Element.mem_preorder_iff.1 hx with rfl | ⟨c, hc, -⟩
  · exact ⟨by decide, List.forall_mem_singleton.2 (by decide), trivial⟩
  · cases hc

end TaggedText
