/-
Written documents, without errors and by recursion.

`Document.rendered` is the text of a document as it would be if everything could be written; `Layout.margin` and
`Layout.lineEnd` say what the layout adds to it. `Document.offences` lists what cannot be written, in document order.
Every writer, from that of an entry up to that of a document, gives the first of what stops it, or else the rendered
text (`firstOr`). Such writers put one after another are such a writer again (`mapM_firstOr`), which carries this from
a step of the walk around a tree to the whole walk.

Results:
- `Element.write_eq_firstOr`: a tree is rendered, or its first offence is the error;
- `Document.write_eq_firstOr`: the same of a document.
-/
import TaggedText.Proofs.Printing
import TaggedText.Proofs.Traversal

namespace TaggedText

/-! ## What stops a writer -/

section

variable {ε : Type}

/-- the first of what stops a writer, or the text if nothing does -/
def firstOr (t : Text) : List ε → Except ε Text
  | [] => .ok t
  | e :: _ => .error e

theorem firstOr_eq_ok_iff {t u : Text} {stops : List ε} : firstOr t stops = .ok u ↔ stops = [] ∧ u = t := by
  cases stops <;> simp [firstOr, eq_comm]

theorem firstOr_eq_error_iff {t : Text} {stops : List ε} {e : ε} :
    firstOr t stops = .error e ↔ stops.head? = some e := by
  cases stops <;> simp [firstOr]

theorem firstOr_map {ε' : Type} (f : ε → ε') (t : Text) (stops : List ε) :
    firstOr t (stops.map f) = (firstOr t stops).mapError f := by
  cases stops <;> rfl

/-- one text after another, unless one of them is stopped -/
theorem firstOr_append (t u : Text) (os ps : List ε) :
    (do
      let first ← firstOr t os
      let second ← firstOr u ps
      return first ++ second) = firstOr (t ++ u) (os ++ ps) := by
  cases os with
  | cons e os => rfl
  | nil => cases ps <;> rfl

/-- the texts of a list, one after another, unless one of them is stopped -/
theorem mapM_firstOr {α : Type} {write : α → Except ε Text} {text : α → Text} {stops : α → List ε}
    (h : ∀ a, write a = firstOr (text a) (stops a)) (as : List α) :
    List.flatten <$> as.mapM write = firstOr (as.flatMap text) (as.flatMap stops) := by
  induction as with
  | nil => rfl
  | cons a as ih =>
    calc List.flatten <$> (a :: as).mapM write
        = (do
            let first ← write a
            let second ← List.flatten <$> as.mapM write
            return first ++ second) := by simp
      _ = firstOr (text a ++ as.flatMap text) (stops a ++ as.flatMap stops) := by
          rw [h, ih, firstOr_append]
      _ = firstOr ((a :: as).flatMap text) ((a :: as).flatMap stops) := by
          rw [List.flatMap_cons, List.flatMap_cons]

end

/-! ## Layouts -/

namespace Layout

/-- what stands before a tag with `depth` elements around it: nothing, or `width * depth` spaces -/
def margin : Layout → Nat → Text
  | .compact, _ => []
  | .indented width, depth => List.replicate (width * depth) ' '

/-- what ends a line: nothing where there is only one -/
def lineEnd : Layout → Text
  | .compact => []
  | .indented _ => ['\n']

theorem indent_eq_margin (layout : Layout) (depth : Nat) : layout.indent depth = layout.margin depth := by
  cases layout <;> rfl

theorem newline_eq_lineEnd (layout : Layout) : layout.newline = layout.lineEnd := by
  cases layout <;> rfl

end Layout

/-! ## Attributes -/

namespace Attributes

/-- the quote around a value: double, unless the value contains one -/
def quote (value : Text) : Char :=
  if '"' ∈ value then '\'' else '"'

def renderedEntry (entry : Text × Text) : Text :=
  ' ' :: entry.1 ++ '=' :: quote entry.2 :: entry.2 ++ [quote entry.2]

def rendered (a : Attributes) : Text :=
  a.entries.flatMap renderedEntry

/-- what is wrong with an entry of `element`: there is no quote for a value that contains both -/
def entryOffences (element : Text) (entry : Text × Text) : List Unwritable :=
  if '"' ∈ entry.2 ∧ '\'' ∈ entry.2 then [.bothQuotes element entry.1] else []

def offences (element : Text) (a : Attributes) : List Unwritable :=
  a.entries.flatMap (entryOffences element)

theorem writeEntry_eq_firstOr (element : Text) (entry : Text × Text) :
    writeEntry element entry = firstOr (renderedEntry entry) (entryOffences element entry) := by
  by_cases hdouble : '"' ∈ entry.2
  · by_cases hsingle : '\'' ∈ entry.2 <;>
      simp [writeEntry, quoteFor, entryOffences, renderedEntry, quote, firstOr, hdouble, hsingle]
  · simp [writeEntry, quoteFor, entryOffences, renderedEntry, quote, firstOr, hdouble]

theorem write_eq_firstOr (element : Text) (a : Attributes) :
    a.write element = firstOr a.rendered (a.offences element) := by
  rw [rendered, offences, ← mapM_firstOr (writeEntry_eq_firstOr element), write]
  cases a.entries.mapM (writeEntry element) <;> rfl

theorem offences_eq_nil_iff {element : Text} {a : Attributes} :
    a.offences element = [] ↔ ∀ e ∈ a.entries, ¬ ('"' ∈ e.2 ∧ '\'' ∈ e.2) := by
  simp [offences, entryOffences]

end Attributes

/-! ## Elements -/

namespace Element

/-- what is wrong with the text of an element: it must not contain an angle bracket -/
def textOffences (e : Element) : List Unwritable :=
  match e.content with
  | .text t => if '<' ∈ t ∨ '>' ∈ t then [.bracketInText e.name] else []
  | _ => []

/-- what is wrong with an element, not with those below it: first its attributes, then its text -/
def offences (e : Element) : List Unwritable :=
  e.attributes.offences e.name ++ e.textOffences

mutual

/-- a tree as text, with `depth` elements around it -/
def rendered (layout : Layout) (depth : Nat) : Element → Text
  | ⟨name, attributes, content⟩ =>
    layout.margin depth ++ ('<' :: name ++ attributes.rendered) ++ renderedContent layout depth name content ++
      layout.lineEnd

/-- what follows the attributes of the element `name`, up to the end of its last line -/
def renderedContent (layout : Layout) (depth : Nat) (name : Text) : Content Element → Text
  | .empty => ['/', '>']
  | .text t => '>' :: t ++ ('<' :: '/' :: name ++ ['>'])
  | .children cs =>
    '>' :: layout.lineEnd ++ renderedForest layout (depth + 1) cs ++ layout.margin depth ++ ('<' :: '/' :: name ++ ['>'])

def renderedForest (layout : Layout) (depth : Nat) : List Element → Text
  | [] => []
  | e :: es => rendered layout depth e ++ renderedForest layout depth es

end

/-! ## The walk around a tree -/

def renderedStart (layout : Layout) (depth : Nat) (e : Element) : Text :=
  layout.margin depth ++ ('<' :: e.name ++ e.attributes.rendered) ++
    match e.content with
    | .empty => '/' :: '>' :: layout.lineEnd
    | .text t => '>' :: t ++ e.closingTag ++ layout.lineEnd
    | .children _ => '>' :: layout.lineEnd

def renderedVisit (layout : Layout) : Visit → Text
  | .enter depth e => e.renderedStart layout depth
  | .leave depth e => e.writeStop layout depth

/-- what can be wrong at one moment of the walk: nothing that was not seen on entering -/
def visitOffences : Visit → List Unwritable
  | .enter _ e => e.offences
  | .leave _ _ => []

theorem hasBracket_iff {t : Text} : hasBracket t = true ↔ '<' ∈ t ∨ '>' ∈ t := by
  simp [hasBracket, and_or_left, exists_or]

theorem writeStart_eq_firstOr (layout : Layout) (depth : Nat) (e : Element) :
    e.writeStart layout depth = firstOr (e.renderedStart layout depth) e.offences := by
  obtain ⟨name, attributes, content⟩ := e
  rw [writeStart, Attributes.write_eq_firstOr, offences, layout.indent_eq_margin]
  cases attributes.offences name with
  | cons error others => rfl
  | nil =>
    cases content with
    | empty => simp [firstOr, writeContent, textOffences, renderedStart, layout.newline_eq_lineEnd]
    | children cs => simp [firstOr, writeContent, textOffences, renderedStart, layout.newline_eq_lineEnd]
    | text t =>
      by_cases ht : '<' ∈ t ∨ '>' ∈ t
      · simp [firstOr, writeContent, textOffences, hasBracket_iff.2 ht, ht]
      · simp [firstOr, writeContent, textOffences, renderedStart, layout.newline_eq_lineEnd,
          Bool.eq_false_iff.2 (mt hasBracket_iff.1 ht), ht]

theorem writeVisit_eq_firstOr (layout : Layout) (v : Visit) :
    writeVisit layout v = firstOr (renderedVisit layout v) (visitOffences v) := by
  cases v with
  | enter depth e => exact writeStart_eq_firstOr layout depth e
  | leave depth e => rfl

theorem rendered_eq (layout : Layout) (depth : Nat) (e : Element) :
    e.rendered layout depth =
      e.renderedStart layout depth ++ renderedForest layout (depth + 1) e.children ++ e.writeStop layout depth := by
  obtain ⟨name, attributes, content⟩ := e
  cases content <;>
    simp [rendered, renderedContent, renderedStart, renderedForest, children, writeStop, closingTag,
      layout.indent_eq_margin, layout.newline_eq_lineEnd]

theorem renderedForest_eq (layout : Layout) (depth : Nat) (es : List Element) :
    renderedForest layout depth es = es.flatMap (rendered layout depth) := by
  induction es with
  | nil => rfl
  | cons e es ih => rw [renderedForest, ih, List.flatMap_cons]

/-- what is rendered on the walk around a tree is the rendered tree -/
theorem flatMap_around_renderedVisit (layout : Layout) (depth : Nat) (e : Element) :
    (around depth e).flatMap (renderedVisit layout) = e.rendered layout depth := by
  induction e using Element.induction_children generalizing depth with
  | step e ih =>
    have hbelow : (aroundForest (depth + 1) e.children).flatMap (renderedVisit layout) =
        renderedForest layout (depth + 1) e.children := by
      rw [aroundForest_eq, renderedForest_eq, List.flatMap_assoc]
      exact List.flatMap_congr fun c hc => ih c hc (depth + 1)
    rw [around_eq, List.flatMap_append, List.flatMap_cons, List.flatMap_singleton, hbelow, rendered_eq]
    rfl

/-- what is wrong is found in document order on the walk around a tree -/
theorem flatMap_around_visitOffences (depth : Nat) (e : Element) :
    (around depth e).flatMap visitOffences = e.preorder.flatMap offences := by
  induction e using Element.induction_children generalizing depth with
  | step e ih =>
    have hbelow : (aroundForest (depth + 1) e.children).flatMap visitOffences =
        (forestPreorder e.children).flatMap offences := by
      rw [aroundForest_eq, forestPreorder_eq, List.flatMap_assoc, List.flatMap_assoc]
      exact List.flatMap_congr fun c hc => ih c hc (depth + 1)
    rw [around_eq, List.flatMap_append, List.flatMap_cons, List.flatMap_singleton, hbelow, preorder_eq,
      List.flatMap_cons]
    exact List.append_nil _

/-- **Trees.** A tree is written as it is rendered, or its first offence is the error. -/
theorem write_eq_firstOr (layout : Layout) (e : Element) :
    e.write layout = firstOr (e.rendered layout 0) (e.preorder.flatMap offences) := by
  rw [write_eq_print, ← writeVisits_around, writeVisits, mapM_firstOr (writeVisit_eq_firstOr layout),
    flatMap_around_renderedVisit, flatMap_around_visitOffences]

theorem offences_eq_nil_iff {e : Element} :
    e.offences = [] ↔ (∀ entry ∈ e.attributes.entries, ¬ ('"' ∈ entry.2 ∧ '\'' ∈ entry.2)) ∧
      ∀ t, e.content = .text t → '<' ∉ t ∧ '>' ∉ t := by
  have htext : e.textOffences = [] ↔ ∀ t, e.content = .text t → '<' ∉ t ∧ '>' ∉ t := by
    unfold textOffences
    cases e.content <;> simp
  rw [offences, List.append_eq_nil_iff, Attributes.offences_eq_nil_iff, htext]

end Element

/-! ## Documents -/

namespace Instructions

def rendered (layout : Layout) (i : Instructions) : Text :=
  if i.target = [] then [] else '<' :: '?' :: i.target ++ i.attributes.rendered ++ ['?', '>'] ++ layout.lineEnd

/-- what is wrong with instructions: nothing if there are none -/
def offences (i : Instructions) : List Unwritable :=
  if i.target = [] then [] else i.attributes.offences i.target

theorem write_eq_firstOr (layout : Layout) (i : Instructions) :
    i.write layout = firstOr (i.rendered layout) i.offences := by
  by_cases htarget : i.target = []
  · simp [write, isEmpty, rendered, offences, firstOr, htarget]
  · have hfull : i.isEmpty = false := List.isEmpty_eq_false_iff.2 htarget
    rw [write, hfull, Attributes.write_eq_firstOr, rendered, offences, if_neg htarget, if_neg htarget,
      layout.newline_eq_lineEnd]
    cases i.attributes.offences i.target <;> rfl

theorem offences_eq_nil_iff {i : Instructions} :
    i.offences = [] ↔ (i.target ≠ [] → ∀ e ∈ i.attributes.entries, ¬ ('"' ∈ e.2 ∧ '\'' ∈ e.2)) := by
  rw [offences]
  split_ifs with htarget
  · simp [htarget]
  · rw [Attributes.offences_eq_nil_iff]
    exact ⟨fun h _ => h, fun h => h htarget⟩

end Instructions

namespace Document

/-- a document as text: the instructions if there are any, then the root -/
def rendered (layout : Layout) (d : Document) : Text :=
  d.instructions.rendered layout ++ d.root.rendered layout 0

/-- what cannot be written of a document, in document order -/
def offences (d : Document) : List Unwritable :=
  d.instructions.offences ++ d.root.preorder.flatMap Element.offences

theorem write_eq_firstOr (layout : Layout) (d : Document) :
    d.write layout = firstOr (d.rendered layout) d.offences := by
  rw [write, Instructions.write_eq_firstOr, Element.write_eq_firstOr, rendered, offences, ← firstOr_append]
  cases d.instructions.offences with
  | cons e others => rfl
  | nil => cases d.root.preorder.flatMap Element.offences <;> rfl

variable {d : Document}

theorem offences_eq_nil_iff :
    d.offences = [] ↔
      (d.instructions.target ≠ [] → ∀ e ∈ d.instructions.attributes.entries, ¬ ('"' ∈ e.2 ∧ '\'' ∈ e.2)) ∧
        ∀ x ∈ d.root.preorder, (∀ e ∈ x.attributes.entries, ¬ ('"' ∈ e.2 ∧ '\'' ∈ e.2)) ∧
          ∀ t, x.content = .text t → '<' ∉ t ∧ '>' ∉ t := by
  rw [offences, List.append_eq_nil_iff, Instructions.offences_eq_nil_iff, List.flatMap_eq_nil_iff]
  exact and_congr_right fun _ => forall₂_congr fun x _ => Element.offences_eq_nil_iff

end Document

end TaggedText
