/-
JSON texts, and documents as JSON.

A `Json` value is a string, a list, or an object whose members keep their order. It is printed on one line, or with
one item a line: `Json.Style`. Strings escape the quote, the backslash and the characters below U+0020. Printing
keeps a list of the pieces still to be printed, so that values of any depth can be printed.
-/
import TaggedText.Document.Basic

namespace TaggedText

/-- a JSON value without numbers, truth values and null -/
inductive Json where
  | string (t : Text)
  | array (items : List Json)
  | object (members : List (Text × Json))

namespace Json

/-! ## Strings -/

def hexDigit (n : Nat) : Char :=
  Nat.digitChar (n % 16)

def escapedChar (c : Char) : Text :=
  match c with
  | '"' => ['\\', '"']
  | '\\' => ['\\', '\\']
  | '\x08' => ['\\', 'b']
  | '\t' => ['\\', 't']
  | '\n' => ['\\', 'n']
  | '\x0c' => ['\\', 'f']
  | '\r' => ['\\', 'r']
  | c =>
    if c.toNat < 0x20 then ['\\', 'u', '0', '0', hexDigit (c.toNat / 16), hexDigit c.toNat] else [c]

/-- a JSON string with its quotes -/
def stringText (t : Text) : Text :=
  '"' :: t.flatMap escapedChar ++ ['"']

/-! ## Printing -/

inductive Style where
  /-- on one line, without any blank -/
  | compact
  /-- one item a line, indented by two spaces for each value around it -/
  | pretty
deriving DecidableEq, Repr

namespace Style

/-- what stands before an item with `level` values around it, and before the end of the value around `level` -/
def newline : Style → Nat → Text
  | .compact, _ => []
  | .pretty, level => '\n' :: List.replicate (2 * level) ' '

/-- what stands between a key and its value -/
def colon : Style → Text
  | .compact => [':']
  | .pretty => [':', ' ']

end Style

/-- a piece that is still to be printed; `level` values are around a value -/
inductive Piece where
  | text (t : Text)
  | value (level : Nat) (j : Json)

/-- items, each after a comma -/
def itemPieces (style : Style) (level : Nat) (items : List Json) : List Piece :=
  items.flatMap fun j => [.text (',' :: style.newline level), .value level j]

def keyText (style : Style) (key : Text) : Text :=
  stringText key ++ style.colon

/-- members, each after a comma -/
def memberPieces (style : Style) (level : Nat) (members : List (Text × Json)) : List Piece :=
  members.flatMap fun m => [.text (',' :: style.newline level ++ keyText style m.1), .value level m.2]

/-- what a value is made of -/
def pieces (style : Style) (level : Nat) : Json → List Piece
  | .string t => [.text (stringText t)]
  | .array [] => [.text ['[', ']']]
  | .array (j :: items) =>
    [.text ('[' :: style.newline (level + 1)), .value (level + 1) j] ++ itemPieces style (level + 1) items ++
      [.text (style.newline level ++ [']'])]
  | .object [] => [.text ['\x7b', '\x7d']]
  | .object ((key, j) :: members) =>
    [.text ('\x7b' :: style.newline (level + 1) ++ keyText style key), .value (level + 1) j] ++
      memberPieces style (level + 1) members ++ [.text (style.newline level ++ ['\x7d'])]

mutual

/-- a bound on how many pieces a value comes to -/
def weight : Json → Nat
  | .string _ => 2
  | .array items => itemsWeight items + 3
  | .object members => membersWeight members + 3

def itemsWeight : List Json → Nat
  | [] => 0
  | j :: items => j.weight + 1 + itemsWeight items

def membersWeight : List (Text × Json) → Nat
  | [] => 0
  | (_, j) :: members => j.weight + 1 + membersWeight members

end

def Piece.weight : Piece → Nat
  | .text _ => 1
  | .value _ j => j.weight

def piecesWeight : List Piece → Nat
  | [] => 0
  | p :: pending => p.weight + piecesWeight pending

theorem piecesWeight_append (as bs : List Piece) : piecesWeight (as ++ bs) = piecesWeight as + piecesWeight bs := by
  induction as with
  | nil => simp [piecesWeight]
  | cons p as ih => simp only [List.cons_append, piecesWeight, ih, Nat.add_assoc]

theorem piecesWeight_items (style : Style) (level : Nat) (items : List Json) :
    piecesWeight (itemPieces style level items) = itemsWeight items := by
  induction items with
  | nil => rfl
  | cons j items ih =>
    simp only [itemPieces, List.flatMap_cons, List.cons_append, List.nil_append, piecesWeight, Piece.weight,
      itemsWeight] at ih ⊢
    omega

theorem piecesWeight_members (style : Style) (level : Nat) (members : List (Text × Json)) :
    piecesWeight (memberPieces style level members) = membersWeight members := by
  induction members with
  | nil => rfl
  | cons m members ih =>
    obtain ⟨key, j⟩ := m
    simp only [memberPieces, List.flatMap_cons, List.cons_append, List.nil_append, piecesWeight, Piece.weight,
      membersWeight] at ih ⊢
    omega

/-- a value weighs more than its pieces -/
theorem piecesWeight_lt (style : Style) (level : Nat) (j : Json) : piecesWeight (pieces style level j) < j.weight := by
  cases j with
  | string t => simp [pieces, piecesWeight, Piece.weight, weight]
  | array items =>
    cases items with
    | nil => simp [pieces, piecesWeight, Piece.weight, weight, itemsWeight]
    | cons j items =>
      simp only [pieces, piecesWeight_append, piecesWeight_items, weight, itemsWeight]
      simp only [piecesWeight, Piece.weight]
      omega
  | object members =>
    cases members with
    | nil => simp [pieces, piecesWeight, Piece.weight, weight, membersWeight]
    | cons m members =>
      obtain ⟨key, j⟩ := m
      simp only [pieces, piecesWeight_append, piecesWeight_members, weight, membersWeight]
      simp only [piecesWeight, Piece.weight]
      omega

/-- the text of the `pending` pieces after that of `printed`, which is last character first -/
def printFrom (style : Style) (printed : Text) : List Piece → Text
  | [] => printed.reverse
  | .text t :: pending => printFrom style (t.reverse ++ printed) pending
  | .value level j :: pending => printFrom style printed (pieces style level j ++ pending)
termination_by pending => piecesWeight pending
decreasing_by
  · simp [piecesWeight, Piece.weight]
  · have := piecesWeight_lt style level j
    rw [piecesWeight_append]
    simp only [piecesWeight, Piece.weight] at this ⊢
    omega

def print (style : Style) (j : Json) : Text :=
  printFrom style [] [.value 0 j]

end Json

/-! ## Documents -/

/-- attributes as an object, in their order -/
def Attributes.toJson (a : Attributes) : Json :=
  .object (a.entries.map fun e => (e.1, .string e.2))

namespace Element

mutual

/-- an element as an object: its name, its attributes and its content -/
def toJson : Element → Json
  | ⟨name, attributes, content⟩ =>
    .object [("name".toList, .string name), ("attributes".toList, attributes.toJson),
      ("value".toList, contentJson content)]

/-- a content: the string `empty`, or an object with the one key `text` or `children` -/
def contentJson : Content Element → Json
  | .empty => .string "empty".toList
  | .text t => .object [("text".toList, .string t)]
  | .children cs => .object [("children".toList, .array (forestJson [] cs))]

/-- the trees as a list, after those of `done`, which is last first -/
def forestJson (done : List Json) : List Element → List Json
  | [] => done.reverse
  | e :: es => forestJson (e.toJson :: done) es

end

end Element

def Instructions.toJson (i : Instructions) : Json :=
  .object [("target".toList, .string i.target), ("attributes".toList, i.attributes.toJson)]

def Document.toJson (d : Document) : Json :=
  .object [("root".toList, d.root.toJson), ("instructions".toList, d.instructions.toJson)]

end TaggedText
