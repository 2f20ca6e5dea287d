/-
Document order.

A path leads from an element to the child at its first place, from there to the child at its second place, and so on
(`Element.at?`). A path that goes on comes after the one that it continues, and of two paths that part the one that
parts to the earlier child comes first: that is the order of lists of numbers. `Element.Lead` says that paths in this
order are all that lead anywhere, and to which elements; the document order of a tree is so led to
(`Element.exists_lead`).

In a text that is read, each element begins at a tag that opens one and ends at a tag that closes one, and these begin
in document order.

Results:
- `walks_follow_tree`: the walks over a tree list, count and measure what the recursions on it do, each element below
  the root once and in document order; the tags of a text do the same.
-/
import TaggedText.Proofs.TextContent
import TaggedText.Proofs.Trimming

namespace TaggedText

namespace Element

/-! ## Paths -/

/-- the element that a path leads to, going from each element to the child at the next place -/
def at? (e : Element) : List Nat → Option Element
  | [] => some e
  | i :: path => e.children[i]?.bind fun c => c.at? path

/-- the element that a path leads to which begins at one of the trees in a list -/
def forestAt? (es : List Element) : List Nat → Option Element
  | [] => none
  | i :: path => es[i]?.bind fun e => e.at? path

/-- the path as it is once one more tree stands in front of the list that it goes into -/
def later (path : List Nat) : List Nat :=
  path.modifyHead (· + 1)

theorem forestAt?_later (e : Element) (es : List Element) (path : List Nat) :
    forestAt? (e :: es) (later path) = forestAt? es path := by
  cases path <;> rfl

theorem later_lt_later {p q : List Nat} (h : p < q) : later p < later q := by
  cases p with
  | nil =>
    cases q with
    | nil => exact absurd h (List.lt_irrefl [])
    | cons j q => exact List.nil_lt_cons (j + 1) q
  | cons i p =>
    cases q with
    | nil => exact absurd h (List.not_lt_nil _)
    | cons j q => simpa [later, List.cons_lt_cons_iff] using h

/-- the paths, in their order, are all that lead to an element, and `es` are the elements they lead to -/
structure Lead (find : List Nat → Option Element) (paths : List (List Nat)) (es : List Element) : Prop where
  found : es.map some = paths.map find
  ascending : paths.Pairwise (· < ·)
  complete : ∀ path, path ∈ paths ↔ (find path).isSome = true

theorem lead_nil : Lead (forestAt? []) [] [] where
  found := rfl
  ascending := .nil
  complete path := by cases path <;> simp [forestAt?]

theorem Lead.ne_nil {es found : List Element} {paths : List (List Nat)} (h : Lead (forestAt? es) paths found)
    {path : List Nat} (hpath : path ∈ paths) : path ≠ [] := by
  rintro rfl
  simpa [forestAt?] using (h.complete []).1 hpath

/-- the paths into the first tree of a list come before those into the others -/
theorem Lead.cons {e : Element} {es : List Element} {ps qs : List (List Nat)} (he : Lead e.at? ps e.preorder)
    (hes : Lead (forestAt? es) qs (forestPreorder es)) :
    Lead (forestAt? (e :: es)) (ps.map (0 :: ·) ++ qs.map later) (forestPreorder (e :: es)) where
  found := by
    have hlater : (forestAt? (e :: es) ∘ later) = forestAt? es := funext (forestAt?_later e es)
    rw [forestPreorder, List.map_append, List.map_append, List.map_map, List.map_map, he.found, hes.found, hlater]
    rfl
  ascending := by
    refine List.pairwise_append.2 ⟨?_, ?_, ?_⟩
    · exact List.pairwise_map.2 (he.ascending.imp fun h => List.cons_lt_cons_iff.2 (Or.inr ⟨rfl, h⟩))
    · exact List.pairwise_map.2 (hes.ascending.imp later_lt_later)
    · intro p hp q hq
      obtain ⟨p, -, rfl⟩ := List.mem_map.1 hp
      obtain ⟨q, hmem, rfl⟩ := List.mem_map.1 hq
      cases q with
      | nil => exact absurd rfl (hes.ne_nil hmem)
      | cons j q => exact List.cons_lt_cons_iff.2 (Or.inl (Nat.succ_pos j))
  complete := by
    intro path
    rw [List.mem_append, List.mem_map, List.mem_map]
    refine ⟨?_, ?_⟩
    · rintro (⟨p, hp, rfl⟩ | ⟨q, hq, rfl⟩)
      · exact (he.complete p).1 hp
      · rw [forestAt?_later]
        exact (hes.complete q).1 hq
    · intro h
      rcases path with _ | ⟨_ | j, path⟩
      · cases h
      · exact Or.inl ⟨path, (he.complete path).2 h, rfl⟩
      · exact Or.inr ⟨j :: path, (hes.complete (j :: path)).2 h, rfl⟩

/-- below an element, a path leads where it leads among the children -/
theorem Lead.map_at? {e : Element} {es : List Element} {paths : List (List Nat)}
    (h : Lead (forestAt? e.children) paths es) : paths.map (forestAt? e.children) = paths.map e.at? := by
  refine List.map_congr_left fun path hpath => ?_
  cases path with
  | nil => exact absurd rfl (h.ne_nil hpath)
  | cons i path => rfl

/-- the empty path leads to the element itself, and comes before those to the elements below -/
theorem Lead.above {e : Element} {paths : List (List Nat)}
    (h : Lead (forestAt? e.children) paths (forestPreorder e.children)) : Lead e.at? ([] :: paths) e.preorder where
  found := by
    rw [preorder_eq, List.map_cons, List.map_cons, h.found, h.map_at?]
    rfl
  ascending := by
    refine List.pairwise_cons.2 ⟨fun path hpath => ?_, h.ascending⟩
    cases path with
    | nil => exact absurd rfl (h.ne_nil hpath)
    | cons i path => exact List.nil_lt_cons i path
  complete := by
    intro path
    cases path with
    | nil => simp [at?]
    | cons i path =>
      rw [List.mem_cons, or_iff_right (List.cons_ne_nil i path)]
      exact h.complete (i :: path)

theorem exists_lead_forest {es : List Element} (ih : ∀ e ∈ es, ∃ paths, Lead e.at? paths e.preorder) :
    ∃ paths, Lead (forestAt? es) paths (forestPreorder es) := by
  induction es with
  | nil => exact ⟨[], lead_nil⟩
  | cons e es ih' =>
    obtain ⟨he, hes⟩ := List.forall_mem_cons.1 ih
    obtain ⟨ps, hps⟩ := he
    obtain ⟨qs, hqs⟩ := ih' hes
    exact ⟨_, hps.cons hqs⟩

/-- paths lead to the elements of a tree in document order -/
theorem exists_lead (e : Element) : ∃ paths, Lead e.at? paths e.preorder := by
  induction e using Element.induction_children with
  | step e ih =>
    obtain ⟨paths, hpaths⟩ := exists_lead_forest ih
    exact ⟨_, hpaths.above⟩

/-- the elements below one are those that paths of some length lead to, in the order of these paths -/
theorem exists_lead_descendants (e : Element) :
    ∃ paths : List (List Nat), e.descendants.map some = paths.map e.at? ∧ paths.Pairwise (· < ·) ∧
      ∀ path, path ∈ paths ↔ path ≠ [] ∧ (e.at? path).isSome = true := by
  obtain ⟨paths, h⟩ := exists_lead_forest fun c _ => exists_lead c
  refine ⟨paths, ?_, h.ascending, ?_⟩
  · rw [descendants_eq, h.found, h.map_at?]
  · intro path
    rw [h.complete path]
    cases path with
    | nil => simp [forestAt?]
    | cons i path => exact (and_iff_right (List.cons_ne_nil i path)).symm

/-! ## Sizes -/

theorem length_forestPreorder {es : List Element} (ih : ∀ e ∈ es, e.preorder.length = e.size) :
    (forestPreorder es).length = forestSize es := by
  induction es with
  | nil => rfl
  | cons e es ih' =>
    obtain ⟨he, hes⟩ := List.forall_mem_cons.1 ih
    rw [forestPreorder, List.length_append, he, ih' hes, forestSize]

theorem length_preorder (e : Element) : e.preorder.length = e.size := by
  induction e using Element.induction_children with
  | step e ih => rw [preorder_eq, List.length_cons, length_forestPreorder ih, size_eq]

theorem map_name_preorder_settled (rules : BuildRules) (e : Element) :
    (rules.settled e).preorder.map Element.name = e.preorder.map Element.name := by
  have hname : Element.name ∘ trimmed = Element.name := by
    funext x
    obtain ⟨name, attributes, content⟩ := x
    rw [Function.comp_apply, trimmed]
  unfold BuildRules.settled
  split_ifs
  · rw [preorder_trimmed, List.map_map, hname]
  · rfl

end Element

/-! ## Tags -/

namespace Piece

/-- whether the piece is a tag that closes an element, whether or not it opens it as well -/
def closesElement (p : Piece) : Bool :=
  p.kind == .tag &&
    match Tag.read p.text with
    | .ok tag => tag.form == .closing || tag.form == .selfClosing
    | .error _ => false

theorem IsTag.closesElement_eq {p : Piece} {tag : Tag} (h : p.IsTag tag) :
    p.closesElement = (tag.form == .closing || tag.form == .selfClosing) := by
  simp [closesElement, h.1, h.2]

theorem marksElements_closesElement : MarksElements closesElement where
  whole h := by simp [h.closesElement_eq]
  pair hfirst hlast := by simp [hfirst.closesElement_eq, hlast.closesElement_eq]
  isTag h := by
    obtain ⟨tag, htag, hform⟩ := exists_isTag_of_form (fun form => form == .closing || form == .selfClosing) h
    refine ⟨tag, htag, ?_⟩
    intro hinstructions
    simp [hinstructions] at hform

/-- the name of the element that the piece opens, if it opens one -/
def openedName? (p : Piece) : Option Text :=
  if p.opensElement then (Tag.read p.text).toOption.map Tag.name else none

theorem isSome_openedName? (p : Piece) : p.openedName?.isSome = p.opensElement := by
  cases hopens : p.opensElement with
  | false => simp [openedName?, hopens]
  | true =>
    obtain ⟨tag, htag, -⟩ := marksElements_opensElement.isTag hopens
    simp [openedName?, hopens, htag.2, Except.toOption]

theorem length_filterMap_openedName? (ps : List Piece) : (ps.filterMap openedName?).length = ps.countP opensElement := by
  simp [List.length_filterMap_eq_countP, isSome_openedName?]

/-- pieces that mean nothing have no names -/
theorem filterMap_openedName?_significant (ps : List Piece) :
    (significant ps).filterMap openedName? = ps.filterMap openedName? := by
  unfold significant
  rw [List.filterMap_filter]
  refine List.filterMap_congr fun p _ => ?_
  cases hidle : p.isIdle with
  | true => simp [openedName?, marksElements_opensElement.eq_false_of_ne (kind_ne_of_isIdle hidle)]
  | false => simp

end Piece

theorem Element.Spelled.exists_head {e : Element} {ps : List Piece} (h : e.Spelled ps) :
    ∃ p rest, ps = p :: rest ∧ p.openedName? = some e.name := by
  obtain ⟨name, attributes, content⟩ := e
  rcases h with ⟨-, p, hp, rfl⟩ | ⟨first, body, last, closing, hfirst, -, -, rfl⟩
  · exact ⟨p, [], rfl, by simp [Piece.openedName?, hp.opensElement_eq, hp.2, Except.toOption]⟩
  · exact ⟨first, body ++ [last], rfl, by simp [Piece.openedName?, hfirst.opensElement_eq, hfirst.2, Except.toOption]⟩

theorem Document.countP_of_spelled {test : Piece → Bool} {d : Document} {ps : List Piece}
    (h : Piece.MarksElements test) (hd : d.Spelled ps) : ps.countP test = d.root.preorder.length := by
  obtain ⟨given, qs, rs, hqs, -, hrs, rfl⟩ := hd
  rw [List.countP_append, Instructions.countP_of_spelled h hqs, Nat.zero_add, Element.countP_of_spelled h hrs]

/-- the tags that open elements have the names of the elements in document order -/
theorem Document.filterMap_openedName?_of_spelled {d : Document} {ps : List Piece} (h : d.Spelled ps) :
    ps.filterMap Piece.openedName? = d.root.preorder.map Element.name := by
  have hlength : (ps.filterMap Piece.openedName?).length = (d.root.preorder.map Element.name).length := by
    rw [Piece.length_filterMap_openedName?, Document.countP_of_spelled Piece.marksElements_opensElement h,
      List.length_map]
  refine List.ext_getElem? fun i => ?_
  cases hx : d.root.preorder[i]? with
  | none =>
    have hle := List.getElem?_eq_none_iff.1 hx
    rw [List.length_map] at hlength
    rw [List.getElem?_map, hx, List.getElem?_eq_none_iff.2 (hlength ▸ hle)]
    rfl
  | some x =>
    obtain ⟨before, qs, after, rfl, hcount, hqs⟩ := Document.standsAt_of_spelled h hx
    obtain ⟨p, rest, rfl, hp⟩ := hqs.exists_head
    have hsplit : (before ++ (p :: rest ++ after)).filterMap Piece.openedName? =
        before.filterMap Piece.openedName? ++ x.name :: (rest ++ after).filterMap Piece.openedName? := by
      simp [hp]
    rw [← Piece.length_filterMap_openedName?] at hcount
    rw [hsplit, List.getElem?_map, hx, ← hcount, List.getElem?_append_right le_rfl, Nat.sub_self]
    rfl

/-- the tokens of a text that is read spell a document, which is built as the rules say -/
theorem Document.exists_tokens_of_read {rules : BuildRules} {s : Text} {d : Document}
    (h : Document.read rules s = .ok d) :
    ∃ ts original, s.tokens.value = .ok ts ∧ Document.Spelled original (Piece.significant (ts.map Token.piece)) ∧
      d = rules.settledDocument original := by
  obtain ⟨ps, original, ⟨all, hall, rfl⟩, hspelled, -, rfl⟩ := Document.read_eq_ok_iff.1 h
  refine ⟨_, original, Text.tokens_eq_ok_iff_laid.2 ⟨all, hall, rfl⟩, ?_, rfl⟩
  rw [List.map_append, Piece.map_piece_laid, Piece.significant, List.filter_append, List.map_singleton,
    List.filter_cons_of_neg (by simp [Token.piece, Token.eof, Piece.isIdle]), List.filter_nil, List.append_nil]
  exact hspelled

/-- **Walks over trees.** The walk below an element lists what the recursion on the tree does, in document order, and so
each element once that a path leads to. The levels and the elements that are counted are the height and the size of the
tree. In a text that is read, as many tags open elements as there are, and as many close them, and the tags that open
them have their names in document order. -/
theorem walks_follow_tree :
    (∀ e : Element,
      e.descendants = Element.forestPreorder e.children ∧
        (∃ paths : List (List Nat), e.descendants.map some = paths.map e.at? ∧ paths.Pairwise (· < ·) ∧
          ∀ path, path ∈ paths ↔ path ≠ [] ∧ (e.at? path).isSome = true) ∧
        e.depth = e.height) ∧
    (∀ d : Document, d.count = d.root.size) ∧
    ∀ (rules : BuildRules) (s : Text) (d : Document), Document.read rules s = .ok d →
      ∃ ts : List Token, s.tokens.value = .ok ts ∧
        d.count = ts.countP (fun t => t.piece.opensElement) ∧
        d.count = ts.countP (fun t => t.piece.closesElement) ∧
        (d.root :: d.root.descendants).map Element.name = ts.filterMap fun t => t.piece.openedName? := by
  have hcount : ∀ d : Document, d.count = d.root.preorder.length := fun d => d.root.count_eq_length_preorder
  refine ⟨?_, ?_, ?_⟩
  · intro e
    exact ⟨e.descendants_eq, e.exists_lead_descendants, e.depth_eq_height⟩
  · intro d
    rw [hcount, Element.length_preorder]
  · intro rules s d h
    obtain ⟨ts, original, hts, hspelled, rfl⟩ := Document.exists_tokens_of_read h
    have hnames : (rules.settled original.root).preorder.map Element.name = original.root.preorder.map Element.name :=
      Element.map_name_preorder_settled rules original.root
    have hlength : (rules.settled original.root).preorder.length = original.root.preorder.length := by
      simpa using congrArg List.length hnames
    have hsize : (rules.settledDocument original).count = original.root.preorder.length :=
      (hcount _).trans hlength
    have htags : ∀ {test : Piece → Bool}, Piece.MarksElements test →
        original.root.preorder.length = ts.countP fun t => test t.piece := by
      intro test htest
      rw [← Document.countP_of_spelled htest hspelled, htest.countP_significant, List.countP_map]
      rfl
    refine ⟨ts, hts, ?_, ?_, ?_⟩
    · rw [hsize, htags Piece.marksElements_opensElement]
    · rw [hsize, htags Piece.marksElements_closesElement]
    · calc ((rules.settledDocument original).root :: (rules.settledDocument original).root.descendants).map Element.name
          = (rules.settled original.root).preorder.map Element.name := by
            rw [Element.descendants_eq, ← Element.preorder_eq]
            rfl
        _ = (Piece.significant (ts.map Token.piece)).filterMap Piece.openedName? := by
            rw [hnames, Document.filterMap_openedName?_of_spelled hspelled]
        _ = ts.filterMap fun t => t.piece.openedName? := by
            rw [Piece.filterMap_openedName?_significant, List.filterMap_map]
            rfl

/-- two comments, one with a tag in it, and instructions are no elements; a text is read without its blanks -/
theorem walks_follow_tree_mixed :
    ∃ d : Document, Document.read ⟨true, some 3, none⟩
        "<?x?><r><!-- <e> --><a k='1'> t </a><b><c/></b></r><!--d-->".toList = .ok d ∧
      ∃ ts : List Token,
        (Text.tokens "<?x?><r><!-- <e> --><a k='1'> t </a><b><c/></b></r><!--d-->".toList).value = .ok ts ∧
        d.count = ts.countP (fun t => t.piece.opensElement) ∧
        d.count = ts.countP (fun t => t.piece.closesElement) ∧
        (d.root :: d.root.descendants).map Element.name = ts.filterMap fun t => t.piece.openedName? := by
  have h : Document.read ⟨true, some 3, none⟩
      "<?x?><r><!-- <e> --><a k='1'> t </a><b><c/></b></r><!--d-->".toList =
        .ok ⟨⟨['r'], .empty, .children [⟨['a'], .ofList [(['k'], ['1'])], .text ['t']⟩,
          ⟨['b'], .empty, .children [⟨['c'], .empty, .empty⟩]⟩]⟩, ⟨['x'], .empty⟩⟩ := by cbv
  exact ⟨_, h, walks_follow_tree.2.2 _ _ _ h⟩

end TaggedText
