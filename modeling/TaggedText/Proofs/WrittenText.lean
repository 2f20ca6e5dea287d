/-
What written text yields.

`Denotes t ps` says that `t` stands for the pieces `ps` in front of any text that blanks can be put before. Blanks
denote nothing, a tag denotes itself, and what is written one after another denotes the pieces one after another. So
each part of a well-formed document is written, and denotes pieces that spell it (`Element.WellFormed.printable`,
`Document.WellFormed.exists_write`).
-/
import TaggedText.Proofs.Printing
import TaggedText.Proofs.WellFormed

namespace TaggedText

/-! ## Tags in a text -/

/-- a tag of its own kind: a canonical piece that begins with a bracket and means something -/
structure Piece.Marks (p : Piece) : Prop where
  canonical : p.Canonical
  busy : p.isIdle = false
  begins : ∃ t, p.text = '<' :: t

namespace Piece.Marks

theorem isRun_eq {p : Piece} (h : p.Marks) : p.isRun = false := by
  obtain ⟨c, t, htext, hends⟩ := h.canonical.head
  obtain ⟨u, hu⟩ := h.begins
  obtain ⟨rfl, -⟩ := List.cons.inj (htext.symm.trans hu)
  have hnot : (!p.isRun) = true := hends.symm
  simpa using hnot

/-- a tag adds itself to what any text yields -/
theorem yields {p : Piece} {rest : Text} {qs : List Piece} (h : p.Marks) (hrest : Yields rest qs) :
    Yields (p.text ++ rest) (p :: qs) := by
  refine hrest.cons h.canonical h.busy fun hrun => ?_
  rw [h.isRun_eq] at hrun
  cases hrun

theorem endsRun {p : Piece} (h : p.Marks) (rest : Text) : EndsRun (p.text ++ rest) :=
  (h.canonical.endsRun_iff rest).2 h.isRun_eq

theorem indentable {p : Piece} (h : p.Marks) (rest : Text) : Indentable (p.text ++ rest) := by
  obtain ⟨t, ht⟩ := h.begins
  rw [ht]
  exact indentable_open (t ++ rest)

end Piece.Marks

/-! ## Texts that stand for pieces -/

/-- in front of what can be indented, the text adds these pieces to what is yielded, and can be indented itself -/
def Denotes (t : Text) (ps : List Piece) : Prop :=
  ∀ rest qs, Indentable rest → Yields rest qs → Indentable (t ++ rest) ∧ Yields (t ++ rest) (ps ++ qs)

namespace Denotes

theorem nil : Denotes [] [] :=
  fun _ _ hrest h => ⟨hrest, h⟩

theorem append {t u : Text} {ps qs : List Piece} (ht : Denotes t ps) (hu : Denotes u qs) :
    Denotes (t ++ u) (ps ++ qs) := by
  intro rest rs hrest h
  obtain ⟨hindent, hyields⟩ := hu rest rs hrest h
  rw [List.append_assoc, List.append_assoc]
  exact ht (u ++ rest) (qs ++ rs) hindent hyields

theorem blank {w : Text} (h : Text.Blank w) : Denotes w [] :=
  fun _ _ hrest hyields => ⟨hrest.blank_append h, hyields.blank_append h hrest⟩

theorem tag {p : Piece} (h : p.Marks) : Denotes p.text [p] :=
  fun rest _ _ hyields => ⟨h.indentable rest, h.yields hyields⟩

/-- a text between two tags denotes a value -/
theorem value {p q : Piece} {t : Text} (hp : p.Marks) (ht : Content.WellFormed (.text t)) (hq : q.Marks) :
    Denotes (p.text ++ (t ++ q.text)) [p, ⟨.value, t⟩, q] := by
  intro rest qs _ hyields
  have hcanonical : Piece.Canonical ⟨.value, t⟩ := ht
  have hbusy : Piece.isIdle ⟨.value, t⟩ = false := by
    obtain ⟨-, c, hc, -⟩ := ht
    exact List.isEmpty_eq_false_iff.2 (List.ne_nil_of_mem hc)
  rw [List.append_assoc, List.append_assoc]
  exact ⟨hp.indentable _, hp.yields ((hq.yields hyields).cons hcanonical hbusy fun _ => hq.endsRun rest)⟩

/-- what the text yields if it is all there is -/
theorem yields {t : Text} {ps : List Piece} (h : Denotes t ps) : Yields t ps := by
  have hall := (h [] [] Indentable.nil Yields.nil).2
  rwa [List.append_nil, List.append_nil] at hall

end Denotes

/-! ## Attributes -/

theorem Name.no_angle_of_mem {name : Text} (h : Name.isName name = true) {c : Char} (hc : c ∈ name) :
    c ≠ '<' ∧ c ≠ '>' := by
  have hin := Name.inName_of_mem h hc
  refine ⟨?_, ?_⟩
  · intro h
    subst h
    exact absurd hin (by decide)
  · intro h
    subst h
    exact absurd hin (by decide)

namespace Attributes

theorem exists_quoteFor {value : Text} (h : ¬ ('"' ∈ value ∧ '\'' ∈ value)) :
    ∃ quote, quoteFor value = some quote ∧ (quote = '"' ∨ quote = '\'') ∧ quote ∉ value := by
  unfold quoteFor
  by_cases hdouble : '"' ∈ value
  · have hsingle : '\'' ∉ value := fun hsingle => h ⟨hdouble, hsingle⟩
    exact ⟨'\'', by simp [hdouble, hsingle], Or.inr rfl, hsingle⟩
  · exact ⟨'"', by simp [hdouble], Or.inl rfl, hdouble⟩

/-- what stands before a value has no bracket in it -/
theorem no_angle_of_start {key : Text} {quote : Char} (hkey : Name.isName key = true)
    (hquote : quote = '"' ∨ quote = '\'') : ∀ c ∈ ' ' :: key ++ ['=', quote], c ≠ '<' ∧ c ≠ '>' := by
  have hplain : quote ≠ '<' ∧ quote ≠ '>' := by rcases hquote with rfl | rfl <;> decide
  intro c hc
  simp only [List.cons_append, List.mem_cons, List.mem_append, List.not_mem_nil, or_false] at hc
  rcases hc with rfl | hc | rfl | rfl
  · decide
  · exact Name.no_angle_of_mem hkey hc
  · decide
  · exact hplain

theorem exists_writeEntry (name : Text) {e : Text × Text} (hkey : Name.isName e.1 = true)
    (hvalue : ∀ c ∈ e.2, c ≠ '<' ∧ c ≠ '>') (hquotes : ¬ ('"' ∈ e.2 ∧ '\'' ∈ e.2)) :
    ∃ t, writeEntry name e = .ok t ∧ Tag.SpelledEntry e t ∧ ∀ c ∈ t, c ≠ '<' ∧ c ≠ '>' := by
  obtain ⟨quote, hfor, hquote, hnot⟩ := exists_quoteFor hquotes
  refine ⟨' ' :: e.1 ++ '=' :: quote :: e.2 ++ [quote], by simp only [writeEntry, hfor], ?_, ?_⟩
  · refine ⟨[' '], '=' :: quote :: (e.2 ++ [quote]), List.cons_ne_nil ' ' [], ?_, hkey, ?_, by simp⟩
    · intro c hc
      obtain rfl := List.mem_singleton.1 hc
      decide
    · exact ⟨[], [], quote, List.forall_mem_nil _, List.forall_mem_nil _, hquote,
        hnot, rfl⟩
  · have hstart := no_angle_of_start hkey hquote
    have hsplit : ' ' :: e.1 ++ '=' :: quote :: e.2 ++ [quote] = ' ' :: e.1 ++ ['=', quote] ++ (e.2 ++ [quote]) := by simp
    rw [hsplit]
    simp only [List.forall_mem_append]
    exact ⟨List.forall_mem_append.1 hstart, hvalue, List.forall_mem_singleton.2 (hstart quote (by simp))⟩

theorem exists_write_entries (name : Text) {es : List (Text × Text)}
    (h : ∀ e ∈ es, Name.isName e.1 = true ∧ (∀ c ∈ e.2, c ≠ '<' ∧ c ≠ '>') ∧ ¬ ('"' ∈ e.2 ∧ '\'' ∈ e.2)) :
    ∃ ts, es.mapM (writeEntry name) = .ok ts ∧ Tag.SpelledEntries es ts.flatten ∧
      ∀ c ∈ ts.flatten, c ≠ '<' ∧ c ≠ '>' := by
  induction es with
  | nil => exact ⟨[], rfl, rfl, List.forall_mem_nil _⟩
  | cons e es ih =>
    obtain ⟨⟨hkey, hvalue, hquotes⟩, hes⟩ := List.forall_mem_cons.1 h
    obtain ⟨t, ht, hspelled, hplain⟩ := exists_writeEntry name hkey hvalue hquotes
    obtain ⟨ts, hts, hspelled', hplain'⟩ := ih hes
    refine ⟨t :: ts, ?_, ⟨t, ts.flatten, hspelled, hspelled', List.flatten_cons⟩, ?_⟩
    · rw [List.mapM_cons, ht, hts]
      rfl
    · rw [List.flatten_cons]
      exact List.forall_mem_append.2 ⟨hplain, hplain'⟩

/-- proper attributes are written, and read as they are -/
theorem exists_write (name : Text) {a : Attributes} (h : a.WellFormed) :
    ∃ t, a.write name = .ok t ∧ Tag.SpelledEntries a.entries t ∧ ∀ c ∈ t, c ≠ '<' ∧ c ≠ '>' := by
  obtain ⟨ts, hts, hspelled, hplain⟩ := exists_write_entries name h
  exact ⟨ts.flatten, by simp only [write, hts], hspelled, hplain⟩

end Attributes

/-! ## Tags -/

namespace Tag

/-- a tag between its brackets, the text of its attributes being `u` -/
def text (form : TagForm) (name u : Text) : Text :=
  '<' :: mark form ++ name ++ u ++ ending form

def piece (form : TagForm) (name u : Text) : Piece :=
  ⟨if form = .instructions then .instructions else .tag, text form name u⟩

theorem head_mark_append (form : TagForm) {name : Text} (hname : Name.isName name = true) :
    ∃ c, (mark form ++ name).head? = some c ∧ c ≠ '!' ∧ (c = '?' ↔ form = .instructions) := by
  obtain ⟨c, name, rfl⟩ := List.exists_cons_of_ne_nil (Name.isName_ne_nil hname)
  have hletter : CharClass.classify c = .letter := classify_of_isStart (Name.isName_cons.1 hname).1
  have hne : ∀ d, CharClass.classify d ≠ .letter → c ≠ d := by
    rintro d hd rfl
    exact hd hletter
  cases form with
  | opening => exact ⟨c, rfl, hne '!' (by decide), by simp [hne '?' (by decide)]⟩
  | closing => exact ⟨'/', rfl, by decide, by decide⟩
  | selfClosing => exact ⟨c, rfl, hne '!' (by decide), by simp [hne '?' (by decide)]⟩
  | instructions => exact ⟨'?', rfl, by decide, by decide⟩

/-- what begins like a tag, and holds no bracket up to the one behind it, is cut off as a tag -/
theorem bracketed_mark (form : TagForm) {name u : Text} (hname : Name.isName name = true)
    (hu : ∀ c ∈ u, c ≠ '<' ∧ c ≠ '>') :
    ∃ c, Piece.Bracketed (mark form ++ name ++ u) ('<' :: (mark form ++ name ++ u) ++ ['>']) ∧
      (mark form ++ name ++ u).head? = some c ∧ c ≠ '!' ∧ (c = '?' ↔ form = .instructions) := by
  obtain ⟨c, hhead, hexclamation, hquestion⟩ := head_mark_append form hname
  have hbody : (mark form ++ name ++ u).head? = some c := by
    rw [List.head?_append, hhead]
    rfl
  refine ⟨c, ⟨rfl, ?_, ?_⟩, hbody, hexclamation, hquestion⟩
  · have hmark : ∀ c ∈ mark form, c ≠ '<' ∧ c ≠ '>' := by cases form <;> simp [mark]
    simp only [List.forall_mem_append]
    exact ⟨⟨hmark, fun c hc => Name.no_angle_of_mem hname hc⟩, hu⟩
  · intro h
    obtain ⟨v, hv⟩ := h
    rw [← hv] at hbody
    exact hexclamation (Option.some.inj hbody).symm

/-- what stands between the brackets of a tag -/
theorem bracketed_text (form : TagForm) {name u : Text} (hname : Name.isName name = true)
    (hu : ∀ c ∈ u, c ≠ '<' ∧ c ≠ '>') :
    ∃ body c, Piece.Bracketed body (text form name u) ∧ body.head? = some c ∧ c ≠ '!' ∧
      (c = '?' ↔ form = .instructions) := by
  have hend : ∀ c ∈ endMark form, c ≠ '<' ∧ c ≠ '>' := by cases form <;> simp [endMark]
  obtain ⟨c, hbracketed, hrest⟩ := bracketed_mark form hname (List.forall_mem_append.2 ⟨hu, hend⟩)
  have htext : text form name u = '<' :: (mark form ++ name ++ (u ++ endMark form)) ++ ['>'] := by
    rw [text, ending_eq]
    simp
  exact ⟨_, c, htext ▸ hbracketed, hrest⟩

/-- a tag in its own piece is one -/
theorem marks_piece (form : TagForm) {name u : Text} (hname : Name.isName name = true)
    (hu : ∀ c ∈ u, c ≠ '<' ∧ c ≠ '>') : (piece form name u).Marks := by
  obtain ⟨body, c, hbody, hhead, hexclamation, hquestion⟩ := bracketed_text form hname hu
  unfold piece
  split_ifs with hform
  · obtain rfl := hquestion.2 hform
    exact ⟨⟨body, hbody, hhead⟩, rfl, _, rfl⟩
  · refine ⟨⟨body, hbody, fun hq => ?_, fun he => ?_⟩, rfl, _, rfl⟩
    · exact hform (hquestion.1 (Option.some.inj (hhead.symm.trans hq)))
    · exact hexclamation (Option.some.inj (hhead.symm.trans he))

theorem read_text {form : TagForm} {name u : Text} {attributes : Attributes} (hname : Name.isName name = true)
    (hclosing : form = .closing → attributes.entries = []) (hu : SpelledEntries attributes.entries u) :
    Tag.read (text form name u) = .ok ⟨form, name, attributes⟩ := by
  refine read_eq_ok_iff.2 ⟨hname, hclosing, u, [], hu, List.forall_mem_nil _, ?_⟩
  rw [List.append_nil]
  rfl

theorem isTag_piece {form : TagForm} {name u : Text} {attributes : Attributes} (hform : form ≠ .instructions)
    (hname : Name.isName name = true) (hclosing : form = .closing → attributes.entries = [])
    (hu : SpelledEntries attributes.entries u) : (piece form name u).IsTag ⟨form, name, attributes⟩ :=
  ⟨if_neg hform, read_text hname hclosing hu⟩

end Tag

/-! ## Elements -/

theorem Layout.blank_indent (layout : Layout) (depth : Nat) : Text.Blank (layout.indent depth) := by
  cases layout with
  | compact => exact List.forall_mem_nil _
  | indented width =>
    intro c hc
    rw [List.eq_of_mem_replicate hc]
    decide

theorem Layout.blank_newline (layout : Layout) : Text.Blank layout.newline := by
  cases layout with
  | compact => exact List.forall_mem_nil _
  | indented width =>
    intro c hc
    obtain rfl := List.mem_singleton.1 hc
    decide

namespace Denotes

/-- blanks around what denotes pieces change nothing -/
theorem line {w t v : Text} {ps : List Piece} (hw : Text.Blank w) (ht : Denotes t ps) (hv : Text.Blank v) :
    Denotes (w ++ t ++ v) ps := by
  have hall := ((blank hw).append ht).append (blank hv)
  rwa [List.nil_append, List.append_nil] at hall

end Denotes

namespace Element

/-- a tree that is printed, and what is printed denotes pieces that spell it -/
def Printable (layout : Layout) (depth : Nat) (e : Element) : Prop :=
  ∃ t ps, e.print layout depth = .ok t ∧ e.Spelled ps ∧ Denotes t ps

theorem exists_printForest {layout : Layout} {depth : Nat} {es : List Element}
    (h : ∀ e ∈ es, Printable layout depth e) :
    ∃ t ps, printForest layout depth es = .ok t ∧ ForestSpelled es ps ∧ Denotes t ps := by
  induction es with
  | nil => exact ⟨[], [], rfl, rfl, Denotes.nil⟩
  | cons e es ih =>
    obtain ⟨⟨t, ps, ht, hps, hdenotes⟩, hes⟩ := List.forall_mem_cons.1 h
    obtain ⟨u, qs, hu, hqs, hdenotes'⟩ := ih hes
    refine ⟨t ++ u, ps ++ qs, ?_, ⟨ps, qs, hps, hqs, rfl⟩, hdenotes.append hdenotes'⟩
    rw [printForest, ht, hu]
    rfl

theorem print_eq_ok {layout : Layout} {depth : Nat} {e : Element} {u v below : Text}
    (hattributes : e.attributes.write e.name = .ok u) (hcontent : e.writeContent layout = .ok v)
    (hbelow : printForest layout (depth + 1) e.children = .ok below) :
    e.print layout depth =
      .ok (layout.indent depth ++ '<' :: e.name ++ u ++ v ++ below ++ e.writeStop layout depth) := by
  rw [print_eq, writeStart, hattributes, hcontent, hbelow]
  rfl

theorem closingTag_eq (e : Element) : e.closingTag = Tag.text .closing e.name [] := by
  simp [closingTag, Tag.text, Tag.mark, Tag.ending]

theorem marks_closing {name : Text} (hname : Name.isName name = true) : (Tag.piece .closing name []).Marks :=
  Tag.marks_piece .closing hname (List.forall_mem_nil _)

theorem isTag_closing {name : Text} (hname : Name.isName name = true) :
    (Tag.piece .closing name []).IsTag ⟨.closing, name, .empty⟩ :=
  Tag.isTag_piece (by decide) hname (fun _ => rfl) rfl

theorem isTag_opening {name u : Text} {attributes : Attributes} (hname : Name.isName name = true)
    (hu : Tag.SpelledEntries attributes.entries u) :
    (Tag.piece .opening name u).IsTag ⟨.opening, name, attributes⟩ :=
  Tag.isTag_piece (by decide) hname (fun h => by cases h) hu

theorem printable_empty (layout : Layout) (depth : Nat) {name : Text} {attributes : Attributes}
    (hname : Name.isName name = true) (hattributes : attributes.WellFormed) :
    Printable layout depth ⟨name, attributes, .empty⟩ := by
  obtain ⟨u, hwrite, hu, hplain⟩ := Attributes.exists_write name hattributes
  have htag := Tag.isTag_piece (show TagForm.selfClosing ≠ .instructions by decide) hname (fun h => by cases h) hu
  have hdenotes := Denotes.line (layout.blank_indent depth)
    (Denotes.tag (Tag.marks_piece .selfClosing hname hplain)) layout.blank_newline
  refine ⟨_, _, ?_, Or.inl ⟨rfl, _, htag, rfl⟩, hdenotes⟩
  rw [print_eq_ok hwrite rfl rfl]
  simp [writeStop, Tag.piece, Tag.text, Tag.mark, Tag.ending]

theorem hasBracket_eq_false {t : Text} (h : Content.WellFormed (.text t)) : hasBracket t = false := by
  rw [hasBracket, List.any_eq_false]
  intro c hc
  obtain ⟨hopen, hclose, -⟩ := h.1 c hc
  rw [Ne, CharClass.classify_eq_iff rfl] at hopen hclose
  simp [hopen, hclose]

theorem printable_text (layout : Layout) (depth : Nat) {name t : Text} {attributes : Attributes}
    (hname : Name.isName name = true) (hattributes : attributes.WellFormed)
    (ht : Content.WellFormed (.text t)) : Printable layout depth ⟨name, attributes, .text t⟩ := by
  obtain ⟨u, hwrite, hu, hplain⟩ := Attributes.exists_write name hattributes
  have hdenotes := Denotes.line (layout.blank_indent depth)
    (Denotes.value (Tag.marks_piece .opening hname hplain) ht (marks_closing hname)) layout.blank_newline
  have hcontent : writeContent layout ⟨name, attributes, .text t⟩ =
      .ok ('>' :: t ++ Tag.text .closing name [] ++ layout.newline) := by
    rw [← closingTag_eq ⟨name, attributes, .text t⟩]
    simp [writeContent, hasBracket_eq_false ht]
  have hne : t ≠ [] := by
    obtain ⟨-, c, hc, -⟩ := ht
    exact List.ne_nil_of_mem hc
  have hbody : ContentSpelled (.text t) [⟨.value, t⟩] :=
    ⟨List.cons_ne_nil _ [], List.forall_mem_singleton.2 ⟨rfl, hne⟩, by simp [Piece.join]⟩
  refine ⟨_, _, ?_, Or.inr ⟨_, _, _, _, isTag_opening hname hu, hbody, isTag_closing hname, rfl⟩, hdenotes⟩
  rw [print_eq_ok hwrite hcontent rfl]
  simp [writeStop, Tag.piece, Tag.text, Tag.mark, Tag.ending]

theorem printable_children (layout : Layout) (depth : Nat) {name : Text} {attributes : Attributes}
    {cs : List Element} (hname : Name.isName name = true) (hattributes : attributes.WellFormed) (hne : cs ≠ [])
    (hcs : ∀ c ∈ cs, Printable layout (depth + 1) c) : Printable layout depth ⟨name, attributes, .children cs⟩ := by
  obtain ⟨u, hwrite, hu, hplain⟩ := Attributes.exists_write name hattributes
  obtain ⟨below, ps, hbelow, hps, hinside⟩ := exists_printForest hcs
  have hstart := Denotes.line (layout.blank_indent depth)
    (Denotes.tag (Tag.marks_piece .opening hname hplain)) layout.blank_newline
  have hstop := Denotes.line (layout.blank_indent depth) (Denotes.tag (marks_closing hname)) layout.blank_newline
  have hstopped : writeStop layout depth ⟨name, attributes, .children cs⟩ =
      layout.indent depth ++ Tag.text .closing name [] ++ layout.newline := by
    rw [← closingTag_eq ⟨name, attributes, .children cs⟩, writeStop]
  refine ⟨_, _, ?_, Or.inr ⟨_, ps, _, _, isTag_opening hname hu, ⟨hne, hps⟩, isTag_closing hname, rfl⟩,
    (hstart.append hinside).append hstop⟩
  rw [print_eq_ok hwrite rfl hbelow, hstopped]
  simp [Tag.piece, Tag.text, Tag.mark, Tag.ending]

/-- **Well-formed trees are printed**, and what is printed denotes pieces that spell the tree. -/
theorem WellFormed.printable (layout : Layout) {e : Element} (h : e.WellFormed) (depth : Nat) :
    Printable layout depth e := by
  induction e using Element.induction generalizing depth with
  | empty name attributes =>
    obtain ⟨⟨hname, hattributes, -⟩, -⟩ := wellFormed_iff.1 h
    exact printable_empty layout depth hname hattributes
  | text name attributes t =>
    obtain ⟨⟨hname, hattributes, ht⟩, -⟩ := wellFormed_iff.1 h
    exact printable_text layout depth hname hattributes ht
  | children name attributes cs ih =>
    obtain ⟨⟨hname, hattributes, hne⟩, hcs⟩ := wellFormed_iff.1 h
    exact printable_children layout depth hname hattributes hne fun c hc => ih c hc (hcs c hc) (depth + 1)

end Element

/-! ## Documents -/

/-- instructions are printed on a line of their own, or not at all -/
theorem Instructions.exists_write (layout : Layout) {i : Instructions} (h : i.WellFormed) :
    ∃ t given ps, i.write layout = .ok t ∧ i = given.getD .none ∧ Instructions.Spelled given ps ∧ Denotes t ps := by
  rcases h with ⟨hname, hattributes⟩ | ⟨htarget, hentries⟩
  · obtain ⟨u, hwrite, hu, hplain⟩ := Attributes.exists_write i.target hattributes
    have hread : Tag.read (Tag.text .instructions i.target u) = .ok ⟨.instructions, i.target, i.attributes⟩ :=
      Tag.read_text hname (fun h => by cases h) hu
    have hdenotes := (Denotes.tag (Tag.marks_piece .instructions hname hplain)).append
      (Denotes.blank layout.blank_newline)
    refine ⟨_, some i, _, ?_, rfl, ⟨_, ⟨Or.inl rfl, hread⟩, rfl⟩, hdenotes⟩
    have hfull : i.isEmpty = false := List.isEmpty_eq_false_iff.2 (Name.isName_ne_nil hname)
    rw [write, hfull, hwrite]
    simp [Tag.piece, Tag.text, Tag.mark, Tag.ending]
  · obtain ⟨target, attributes⟩ := i
    obtain rfl : target = [] := htarget
    obtain rfl : attributes = .empty := Attributes.eq_of_entries hentries
    exact ⟨[], Option.none, [], rfl, rfl, rfl, Denotes.nil⟩

/-- **Well-formed documents are written**, and what is written denotes pieces that spell the document. -/
theorem Document.WellFormed.exists_write (layout : Layout) {d : Document} (h : d.WellFormed) :
    ∃ t ps, d.write layout = .ok t ∧ Denotes t ps ∧ d.Spelled ps := by
  obtain ⟨head, given, ps, hhead, hgiven, hps, hdenotes⟩ := Instructions.exists_write layout h.instructions
  obtain ⟨body, qs, hbody, hqs, hdenotes'⟩ := h.root.printable layout 0
  refine ⟨head ++ body, ps ++ qs, ?_, hdenotes.append hdenotes', given, ps, qs, hps, hgiven, hqs, rfl⟩
  rw [write, hhead, Element.write_eq_print, hbody]

end TaggedText
