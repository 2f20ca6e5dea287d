/-
Listings, line by line.

Outlines and lists of tokens have one line for each item. Names are printed as they are, and a name has neither a space
nor a line end; texts and values are quoted, and nothing quoted has a line end either. So the lines of a listing are its
entries, and the spaces before an element are those of its depth, which tell the tree (`Element.pathsOfDepths`).

Results:
- `listings_line_by_line`: for a file that is read, `Outlined` says what the lines of its outline are; for a file that
  splits into tokens, the list of tokens has the entry of each on one line.
-/
import TaggedText.Proofs.CommandAgreement
import TaggedText.Proofs.PathLengths
import TaggedText.Proofs.Splitting

namespace TaggedText

/-! ## Lines -/

namespace Text

/-- lines without line ends are what is between the line ends after them; behind the last there is nothing -/
theorem split_lines {lines : List Text} (h : ∀ l ∈ lines, '\n' ∉ l) :
    split (· == '\n') (lines.flatMap (· ++ ['\n'])) = lines ++ [[]] := by
  induction lines with
  | nil => rfl
  | cons l lines ih =>
    obtain ⟨hl, hlines⟩ := List.forall_mem_cons.1 h
    have hplain : ∀ x ∈ l, (x == '\n') = false := by
      intro x hx
      exact beq_false_of_ne fun hnewline => hl (hnewline ▸ hx)
    rw [List.flatMap_cons, List.append_assoc, List.singleton_append, split_append_cons l _ rfl, split_of_forall hplain,
      ih hlines]
    rfl

def indentation (line : Text) : Nat :=
  (line.takeWhile (· == ' ')).length

/-- the spaces before another character are the indentation -/
theorem indentation_replicate {c : Char} (n : Nat) (t : Text) (hc : c ≠ ' ') :
    indentation (List.replicate n ' ' ++ c :: t) = n := by
  have hspaces : ∀ x ∈ List.replicate n ' ', (x == ' ') = true := by
    intro x hx
    rw [List.eq_of_mem_replicate hx]
    rfl
  rw [indentation, List.takeWhile_append_of_pos hspaces, List.takeWhile_cons_of_neg (by simpa using hc),
    List.append_nil, List.length_replicate]

/-! ## Texts without line ends -/

theorem newline_not_mem_decimal (n : Nat) : '\n' ∉ decimal n := by
  intro h
  exact absurd (Nat.isDigit_of_mem_toDigits (by decide) (by decide) h) (by decide)

theorem newline_not_mem_hexDigits (n : Nat) : '\n' ∉ Nat.toDigits 16 n := by
  have hdigit : ∀ m < 16, '\n' ≠ Nat.digitChar m := by decide
  induction n using Nat.strongRecOn with
  | ind n ih =>
    rcases Nat.lt_or_ge n 16 with hlt | hle
    · rw [Nat.toDigits_of_lt_base hlt, List.mem_singleton]
      exact hdigit n hlt
    · have hbefore : '\n' ∉ Nat.toDigits 16 (n / 16) := ih (n / 16) (by omega)
      have hlast : '\n' ≠ Nat.digitChar (n % 16) := hdigit (n % 16) (Nat.mod_lt n (by decide))
      rw [Nat.toDigits_of_base_le (by decide) hle]
      simp [hbefore, hlast]

theorem newline_not_mem_quotedChar (c : Char) : '\n' ∉ quotedChar c := by
  unfold quotedChar
  split
  case h_7 hnewline _ _ =>
    split_ifs
    · simpa using Ne.symm hnewline
    · simpa using newline_not_mem_hexDigits c.toNat
  all_goals decide

/-- a quoted text stays on its line -/
theorem newline_not_mem_quoted (t : Text) : '\n' ∉ quoted t := by
  simp [quoted, newline_not_mem_quotedChar]

theorem newline_not_mem_padRight {t : Text} (n : Nat) (h : '\n' ∉ t) : '\n' ∉ padRight n t := by
  simp [padRight, h]

theorem newline_not_mem_padLeft {t : Text} (n : Nat) (h : '\n' ∉ t) : '\n' ∉ padLeft n t := by
  simp [padLeft, h]

end Text

namespace Name

/-- a name stays on its line -/
theorem newline_not_mem {t : Text} (h : isName t = true) : '\n' ∉ t := fun hmem =>
  absurd (inName_of_mem h hmem) (by decide +kernel)

/-- a name begins with no space -/
theorem exists_cons {t : Text} (h : isName t = true) : ∃ c u, t = c :: u ∧ c ≠ ' ' := by
  cases t with
  | nil => exact absurd h (by decide)
  | cons c u =>
    refine ⟨c, u, rfl, ?_⟩
    rintro rfl
    exact absurd (isName_cons.1 h).1 (by decide +kernel)

end Name

namespace CommandLine

open Text

/-! ## Entries -/

def tokenEntry (t : Token) : Text :=
  padLeft 4 (decimal t.span.location.line) ++ ':' :: padRight 4 (decimal t.span.location.column) ++ ' ' ::
    padRight 22 t.kind.label.toList ++ ' ' :: quoted t.text

theorem tokenLine_eq (t : Token) : tokenLine t = tokenEntry t ++ ['\n'] :=
  rfl

theorem newline_not_mem_tokenEntry (t : Token) : '\n' ∉ tokenEntry t := by
  have hlabel : '\n' ∉ t.kind.label.toList := by cases t.kind <;> decide
  simp [tokenEntry, newline_not_mem_padLeft, newline_not_mem_padRight, newline_not_mem_decimal,
    newline_not_mem_quoted, hlabel]

/-- what the line of an element says behind its name: its attributes, and its text if it has one -/
def details (e : Element) : Text :=
  attributesText e.attributes ++
    match e.content with
    | .text t => ':' :: ' ' :: quoted t
    | _ => []

def outlineEntry (depth : Nat) (e : Element) : Text :=
  List.replicate (2 * depth) ' ' ++ e.name ++ details e

theorem outlineLine_eq (depth : Nat) (e : Element) : outlineLine depth e = outlineEntry depth e ++ ['\n'] := by
  obtain ⟨name, attributes, content⟩ := e
  cases content <;> simp [outlineLine, outlineEntry, details]

theorem newline_not_mem_attributesText {a : Attributes} (h : a.WellFormed) : '\n' ∉ attributesText a := by
  intro hmem
  obtain ⟨e, he, hmem⟩ := List.mem_flatMap.1 hmem
  have hkey := Name.newline_not_mem (h e he).1
  simp [hkey, newline_not_mem_quoted] at hmem

theorem newline_not_mem_outlineEntry {e : Element} (depth : Nat) (h : e.Proper) : '\n' ∉ outlineEntry depth e := by
  have hname := Name.newline_not_mem h.name
  have hattributes := newline_not_mem_attributesText h.attributes
  cases hcontent : e.content <;> simp [outlineEntry, details, hcontent, hname, hattributes, newline_not_mem_quoted]

/-- the spaces before an element are two for each element around it, since its name begins with none -/
theorem indentation_outlineEntry {e : Element} (depth : Nat) (h : e.Proper) :
    indentation (outlineEntry depth e) = 2 * depth := by
  obtain ⟨c, u, hname, hc⟩ := Name.exists_cons h.name
  rw [outlineEntry, hname, List.append_assoc, List.cons_append, indentation_replicate _ _ hc]

/-! ## Outlines -/

/-- what is told before the elements: one line, unless there are no instructions -/
def headLines (i : Instructions) : List Text :=
  if i.isEmpty then [] else ['?' :: i.target ++ attributesText i.attributes]

theorem instructionsLine_eq (i : Instructions) : instructionsLine i = (headLines i).flatMap (· ++ ['\n']) := by
  unfold instructionsLine headLines
  split_ifs <;> simp

theorem newline_not_mem_headLines {i : Instructions} (h : i.WellFormed) : ∀ l ∈ headLines i, '\n' ∉ l := by
  intro l hl
  unfold headLines at hl
  split_ifs at hl with hempty
  · cases hl
  · obtain rfl := List.mem_singleton.1 hl
    rcases h with ⟨htarget, hattributes⟩ | ⟨htarget, -⟩
    · simp [Name.newline_not_mem htarget, newline_not_mem_attributesText hattributes]
    · exact absurd (by rw [Instructions.isEmpty, htarget]; rfl) hempty

def elementLines (e : Element) : List Text :=
  (e.entered 0).map fun x => outlineEntry x.1 x.2

theorem flatMap_outlineVisit (visits : List Element.Visit) :
    visits.flatMap outlineVisit = (visits.filterMap Element.Visit.entered?).flatMap fun x => outlineLine x.1 x.2 := by
  induction visits with
  | nil => rfl
  | cons v visits ih =>
    cases v with
    | enter depth e => simp [outlineVisit, Element.Visit.entered?, ih]
    | leave depth e => exact ih

theorem outline_eq (e : Element) : outline e = (elementLines e).flatMap (· ++ ['\n']) := by
  calc outline e
      = (e.around 0).flatMap outlineVisit := by rw [outline, Element.tour_eq_around]
    _ = (e.entered 0).flatMap fun x => outlineLine x.1 x.2 := flatMap_outlineVisit _
    _ = (elementLines e).flatMap (· ++ ['\n']) := by
      rw [elementLines, List.flatMap_map]
      exact List.flatMap_congr fun x _ => outlineLine_eq x.1 x.2

/-- the lines of an outline: one for the instructions if there are any, and one for each element -/
structure Outlined (d : Document) (head lines : List Text) (paths : List (List Nat)) : Prop where
  head_eq : head = headLines d.instructions
  count : lines.length = d.count
  /-- the paths are all that lead to an element, in document order -/
  ascending : paths.Pairwise (· < ·)
  complete : ∀ p, p ∈ paths ↔ (d.root.at? p).isSome = true
  /-- the line at a place is that of the element that the walk comes by there, and the path there leads to it -/
  line : ∀ (i : Nat) (l : Text), lines[i]? = some l →
    ∃ p e, paths[i]? = some p ∧ d.root.at? p = some e ∧ (d.root :: d.root.descendants)[i]? = some e ∧
      l = List.replicate (2 * p.length) ' ' ++ e.name ++ details e ∧ indentation l = 2 * p.length
  /-- the spaces alone tell the paths -/
  nesting : Element.pathsOfDepths (lines.map fun l => indentation l / 2) = paths

theorem proper_of_mem_entered {d : Document} (h : d.WellFormed) : ∀ x ∈ d.root.entered 0, x.2.Proper := by
  intro x hx
  refine h.root x.2 ?_
  rw [← Element.map_snd_entered 0 d.root]
  exact List.mem_map_of_mem hx

theorem exists_outlined {d : Document} (h : d.WellFormed) :
    ∃ paths, Outlined d (headLines d.instructions) (elementLines d.root) paths := by
  obtain ⟨paths, hlead, hdepths⟩ := d.root.exists_lead_entered
  have hlengths : (d.root.entered 0).map Prod.fst = paths.map List.length := by simpa using hdepths 0
  refine ⟨paths, rfl, ?_, hlead.ascending, hlead.complete, ?_, ?_⟩
  · rw [elementLines, List.length_map, Document.count, Element.count_eq_length_preorder,
      ← Element.map_snd_entered 0 d.root, List.length_map]
  · intro i l hl
    rw [elementLines, List.getElem?_map, Option.map_eq_some_iff] at hl
    obtain ⟨⟨depth, e⟩, hx, rfl⟩ := hl
    obtain ⟨p, hp, rfl, hat, hwalk⟩ := hlead.of_entered hlengths hx
    exact ⟨p, e, hp, hat, hwalk, rfl,
      indentation_outlineEntry p.length (proper_of_mem_entered h _ (List.mem_of_getElem? hx))⟩
  · have hdepth : ∀ x ∈ d.root.entered 0, indentation (outlineEntry x.1 x.2) / 2 = x.1 := by
      intro x hx
      rw [indentation_outlineEntry x.1 (proper_of_mem_entered h x hx), Nat.mul_div_cancel_left _ Nat.two_pos]
    rw [elementLines, List.map_map, ← hlead.pathsOfDepths_eq, ← hlengths]
    exact congrArg _ (List.map_congr_left hdepth)

/-- the text of an outline splits into its lines -/
theorem split_outline {d : Document} (h : d.WellFormed) :
    split (· == '\n') (instructionsLine d.instructions ++ outline d.root) =
      headLines d.instructions ++ elementLines d.root ++ [[]] := by
  rw [instructionsLine_eq, outline_eq, ← List.flatMap_append]
  refine split_lines fun l hl => ?_
  rcases List.mem_append.1 hl with hl | hl
  · exact newline_not_mem_headLines h.instructions l hl
  · obtain ⟨x, hx, rfl⟩ := List.mem_map.1 hl
    exact newline_not_mem_outlineEntry x.1 (proper_of_mem_entered h x hx)

/-! ## Commands -/

/-- **Listings, line by line.** The outline of a file that is read has a line that begins with a question mark if there
are instructions, and then as many lines as there are elements: each has two spaces for every element around its
element, the name, and the rest of the entry, and the spaces of all lines tell the tree. The list of the tokens of a
file has one line for each token, the end token included. -/
theorem listings_line_by_line (files : Text → FileState) (path : Text) {s : Text} (rules : BuildRules)
    (hfile : files path = .text s) :
    (∀ d, Document.read rules s = .ok d →
      ((Command.tree path false rules).run files).exit = 0 ∧
        ∃ head lines paths,
          split (· == '\n') ((Command.tree path false rules).run files).stdout = head ++ lines ++ [[]] ∧
            Outlined d head lines paths) ∧
    ∀ ts, s.tokens.value = .ok ts →
      ((Command.tokens path).run files).exit = 0 ∧
        split (· == '\n') ((Command.tokens path).run files).stdout = ts.map tokenEntry ++ [[]] ∧
        ∃ before span, ts = before ++ [Token.eof span] := by
  refine ⟨?_, ?_⟩
  · intro d hread
    have hproper : d.WellFormed := Document.wellFormed_of_read hread
    obtain ⟨events, hdocument⟩ := readDocument_of_read path hread
    obtain ⟨paths, hlines⟩ := exists_outlined hproper
    simp only [Command.run, runOutline, hfile, hdocument, Outcome.printed]
    exact ⟨trivial, _, _, paths, split_outline hproper, hlines⟩
  · intro ts htokens
    obtain ⟨ps, -, hlaid⟩ := Text.tokens_eq_ok_iff_laid.1 htokens
    have hstdout : ts.flatMap tokenLine = (ts.map tokenEntry).flatMap (· ++ ['\n']) := by
      rw [List.flatMap_map]
      exact List.flatMap_congr fun t _ => tokenLine_eq t
    have hplain : ∀ l ∈ ts.map tokenEntry, '\n' ∉ l := by
      intro l hl
      obtain ⟨t, -, rfl⟩ := List.mem_map.1 hl
      exact newline_not_mem_tokenEntry t
    cases hsplit : s.tokens with
    | mk value events =>
      obtain rfl : value = .ok ts := by rw [← htokens, hsplit]
      simp only [Command.run, runTokens, sourceOf, hfile, hsplit, Outcome.printed]
      exact ⟨trivial, by rw [hstdout, split_lines hplain], _, _, hlaid⟩

/-- line ends stand in a value and in a text, and the last child is on the level of the first -/
theorem listings_line_by_line_quoted :
    ∃ d : Document, Document.read ⟨false, some 3, none⟩
        "<?x v='1'?><a k='x\ny'><b>p\nq</b><c><d/></c><e/></a>".toList = .ok d ∧
      (∃ head lines paths,
        split (· == '\n') ((Command.tree ['f'] false ⟨false, some 3, none⟩).run fun _ =>
            .text "<?x v='1'?><a k='x\ny'><b>p\nq</b><c><d/></c><e/></a>".toList).stdout =
            head ++ lines ++ [[]] ∧
          Outlined d head lines paths) ∧
      ∃ ts : List Token,
        (Text.tokens "<?x v='1'?><a k='x\ny'><b>p\nq</b><c><d/></c><e/></a>".toList).value = .ok ts ∧
        split (· == '\n') ((Command.tokens ['f']).run fun _ =>
            .text "<?x v='1'?><a k='x\ny'><b>p\nq</b><c><d/></c><e/></a>".toList).stdout =
          ts.map tokenEntry ++ [[]] := by
  have h : Document.read ⟨false, some 3, none⟩
      "<?x v='1'?><a k='x\ny'><b>p\nq</b><c><d/></c><e/></a>".toList =
        .ok ⟨⟨['a'], .ofList [(['k'], ['x', '\n', 'y'])], .children [⟨['b'], .empty, .text ['p', '\n', 'q']⟩,
          ⟨['c'], .empty, .children [⟨['d'], .empty, .empty⟩]⟩, ⟨['e'], .empty, .empty⟩]⟩,
          ⟨['x'], .ofList [(['v'], ['1'])]⟩⟩ := by cbv
  obtain ⟨ts, -, htokens, -⟩ := Document.exists_tokens_of_read h
  obtain ⟨hlines, hlist⟩ := listings_line_by_line
    (fun _ => .text "<?x v='1'?><a k='x\ny'><b>p\nq</b><c><d/></c><e/></a>".toList) ['f'] ⟨false, some 3, none⟩ rfl
  exact ⟨_, h, (hlines _ h).2, ts, htokens, (hlist ts htokens).2.1⟩

end CommandLine

end TaggedText
