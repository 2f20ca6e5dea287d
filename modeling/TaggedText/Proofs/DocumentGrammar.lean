/-
The grammar of documents.

`Element.Spelled` says by recursion on the tree how an element is put together from pieces: one self-closing tag, or
an opening tag, a body and a closing tag of the same name, the body being nothing, pieces of a value, or elements.
`Document.Spelled` puts at most one tag of instructions in front of the root.

Building a document does two things to the tree that the pieces spell. It drops the blanks around texts if the rules
say so (`settled`), and it refuses trees that are too high (`Allows`).
-/
import TaggedText.Document.Builder
import TaggedText.Proofs.Pieces
import TaggedText.Proofs.TreeInduction

namespace TaggedText

/-! ## The grammar -/

namespace Piece

/-- whether the piece is read as the tag -/
def IsTag (p : Piece) (tag : Tag) : Prop :=
  p.kind = .tag ∧ Tag.read p.text = .ok tag

/-- whether the piece is read as instructions; a tag between brackets may hold them too -/
def IsInstructions (p : Piece) (i : Instructions) : Prop :=
  (p.kind = .instructions ∨ p.kind = .tag) ∧ Tag.read p.text = .ok ⟨.instructions, i.target, i.attributes⟩

/-- whether the piece means nothing to a document that has not come to the end of its root -/
def isIdle (p : Piece) : Bool :=
  match p.kind with
  | .stray | .whitespace | .comment | .eof => true
  | .value => p.text.isEmpty
  | .tag | .instructions => false

theorem IsTag.isIdle_eq {p : Piece} {tag : Tag} (h : p.IsTag tag) : p.isIdle = false := by
  simp [isIdle, h.1]

def significant (ps : List Piece) : List Piece :=
  ps.filter fun p => !p.isIdle

theorem isIdle_of_mem_significant {ps : List Piece} {p : Piece} (h : p ∈ significant ps) : p.isIdle = false := by
  simpa using (List.mem_filter.1 h).2

end Piece

namespace Element

mutual

/-- how an element is put together from pieces -/
def Spelled : Element → List Piece → Prop
  | ⟨name, attributes, content⟩, ps =>
    (content = .empty ∧ ∃ p, p.IsTag ⟨.selfClosing, name, attributes⟩ ∧ ps = [p]) ∨
      ∃ first body last closing, first.IsTag ⟨.opening, name, attributes⟩ ∧ ContentSpelled content body ∧
        last.IsTag ⟨.closing, name, closing⟩ ∧ ps = first :: body ++ [last]

/-- how a content is put together -/
def ContentSpelled : Content Element → List Piece → Prop
  | .empty, ps => ps = []
  | .text t, ps => ps ≠ [] ∧ (∀ p ∈ ps, p.kind = .value ∧ p.text ≠ []) ∧ Piece.join ps = t
  | .children cs, ps => cs ≠ [] ∧ ForestSpelled cs ps

/-- how trees are put one after another -/
def ForestSpelled : List Element → List Piece → Prop
  | [], ps => ps = []
  | e :: es, ps => ∃ qs rs, e.Spelled qs ∧ ForestSpelled es rs ∧ ps = qs ++ rs

end

theorem forestSpelled_append {as bs : List Element} {ps qs : List Piece} (ha : ForestSpelled as ps)
    (hb : ForestSpelled bs qs) : ForestSpelled (as ++ bs) (ps ++ qs) := by
  induction as generalizing ps with
  | nil =>
    obtain rfl : ps = [] := ha
    exact hb
  | cons e es ih =>
    obtain ⟨us, vs, hu, hv, rfl⟩ := ha
    exact ⟨us, vs ++ qs, hu, ih hv, List.append_assoc us vs qs⟩

theorem forestSpelled_singleton {e : Element} {ps : List Piece} (h : e.Spelled ps) : ForestSpelled [e] ps :=
  ⟨ps, [], h, rfl, (List.append_nil ps).symm⟩

end Element

/-- how what stands before the root is put together -/
def Instructions.Spelled : Option Instructions → List Piece → Prop
  | .none, ps => ps = []
  | .some i, ps => ∃ p, p.IsInstructions i ∧ ps = [p]

/-- how a document is put together: instructions or none, and the root -/
def Document.Spelled (d : Document) (ps : List Piece) : Prop :=
  ∃ given qs rs, Instructions.Spelled given qs ∧ d.instructions = given.getD .none ∧ d.root.Spelled rs ∧ ps = qs ++ rs

/-! ## Dropping blanks -/

namespace Element

mutual

/-- the tree without blanks around its texts -/
def trimmed : Element → Element
  | ⟨name, attributes, content⟩ => ⟨name, attributes, trimmedContent content⟩

/-- the content without blanks around texts; nothing instead of a text that is all blank -/
def trimmedContent : Content Element → Content Element
  | .empty => .empty
  | .text t => if Text.trim t = [] then .empty else .text (Text.trim t)
  | .children cs => .children (trimmedForest cs)

def trimmedForest : List Element → List Element
  | [] => []
  | e :: es => e.trimmed :: trimmedForest es

end

theorem trimmedForest_eq_map (es : List Element) : trimmedForest es = es.map trimmed := by
  induction es with
  | nil => rfl
  | cons e es ih => rw [trimmedForest, ih, List.map_cons]

/-- a builder drops the blanks around a text as the tree without blanks does -/
theorem trimmedContent_text (t : Text) : trimmedContent (.text t) = (Content.text t).trimmed := by
  rw [trimmedContent, Content.trimmed]

theorem trimmedContent_children (cs : List Element) :
    trimmedContent (.children cs) = .children (cs.map trimmed) := by
  rw [trimmedContent, trimmedForest_eq_map]

end Element

namespace BuildRules

/-- the tree as it is built: without blanks around texts if the rules say so -/
def settled (rules : BuildRules) (e : Element) : Element :=
  if rules.trimText then e.trimmed else e

def settledContent (rules : BuildRules) (c : Content Element) : Content Element :=
  if rules.trimText then Element.trimmedContent c else c

def settledDocument (rules : BuildRules) (d : Document) : Document :=
  ⟨rules.settled d.root, d.instructions⟩

theorem settled_mk (rules : BuildRules) (name : Text) (attributes : Attributes) (c : Content Element) :
    rules.settled ⟨name, attributes, c⟩ = ⟨name, attributes, rules.settledContent c⟩ := by
  unfold settled settledContent
  split_ifs
  · rw [Element.trimmed]
  · rfl

theorem settledContent_empty (rules : BuildRules) : rules.settledContent .empty = .empty := by
  unfold settledContent
  split_ifs <;> rfl

theorem settledContent_children (rules : BuildRules) (cs : List Element) :
    rules.settledContent (.children cs) = .children (cs.map rules.settled) := by
  unfold settledContent
  split_ifs with htrim
  · rw [Element.trimmedContent_children]
    exact congrArg Content.children (List.map_congr_left fun e _ => (if_pos htrim).symm)
  · have hsame : rules.settled = id := funext fun e => if_neg htrim
    rw [hsame, List.map_id]

/-! ## Limits -/

def Allows (rules : BuildRules) (levels : Nat) : Prop :=
  ∀ limit, rules.maxDepth = some limit → levels ≤ limit

theorem Allows.mono {rules : BuildRules} {m n : Nat} (h : rules.Allows n) (hle : m ≤ n) : rules.Allows m :=
  fun limit hlimit => hle.trans (h limit hlimit)

theorem allows_max {rules : BuildRules} {m n : Nat} : rules.Allows (max m n) ↔ rules.Allows m ∧ rules.Allows n := by
  refine ⟨?_, ?_⟩
  · exact fun h => ⟨h.mono (Nat.le_max_left m n), h.mono (Nat.le_max_right m n)⟩
  · exact fun h limit hlimit => Nat.max_le.2 ⟨h.1 limit hlimit, h.2 limit hlimit⟩

end BuildRules

end TaggedText
