/-
Documents told by their JSON.

The text of a JSON value shows where it ends: whatever follows it, it is not the beginning of the text of another value
(`Json.SelfDelimiting`). A character of a string can be read back from what stands for it, and an unescaped quote
stands for none; items are told from the end of their list by the comma before them; and no value begins as a list
ends. So a value is told by its text, and a document by its JSON.

Results:
- `Json.text_selfDelimiting`: the texts of JSON values are a prefix code, in either style.
- `json_text_eq_iff`: two documents have the same JSON text only if they are one document.
-/
import TaggedText.Document.Json
import TaggedText.Proofs.TreeInduction

namespace TaggedText

namespace Json

/-! ## Texts that show where they end -/

/-- the text that `f` gives for `a` shows where it ends: no other text that `f` gives begins with it, and nothing that
follows it can be taken for a part of it -/
def SelfDelimiting {α : Type} (f : α → Text) (a : α) : Prop :=
  ∀ b r s, f a ++ r = f b ++ s → a = b ∧ r = s

variable {α : Type} {f : α → Text} {style : Style} {level : Nat} {first last : Char} {r s t : Text}

/-- what can be read back shows where it ends -/
theorem selfDelimiting_of_read (read : Text → Option (α × Text)) (h : ∀ a r, read (f a ++ r) = some (a, r)) (a : α) :
    SelfDelimiting f a := by
  intro b r s hsame
  have hread : some (a, r) = some (b, s) := by rw [← h a r, hsame, h b s]
  obtain ⟨rfl, rfl⟩ := Prod.mk.inj (Option.some.inj hread)
  exact ⟨rfl, rfl⟩

/-! ## Strings -/

def hexValue (c : Char) : Nat :=
  if c.isDigit then c.toNat - '0'.toNat else c.toNat - 'a'.toNat + 10

theorem hexValue_hexDigit (n : Nat) : hexValue (hexDigit n) = n % 16 := by
  have hdigit : ∀ m < 16, hexValue (Nat.digitChar m) = m := by decide
  exact hdigit (n % 16) (Nat.mod_lt n (by decide))

def readEscape : Text → Option (Char × Text)
  | '"' :: r => some ('"', r)
  | '\\' :: r => some ('\\', r)
  | 'b' :: r => some ('\x08', r)
  | 't' :: r => some ('\t', r)
  | 'n' :: r => some ('\n', r)
  | 'f' :: r => some ('\x0c', r)
  | 'r' :: r => some ('\r', r)
  | 'u' :: '0' :: '0' :: high :: low :: r => some (Char.ofNat (16 * hexValue high + hexValue low), r)
  | _ => none

/-- reads one character of a string, which is not its closing quote -/
def readEscaped : Text → Option (Char × Text)
  | '"' :: _ => none
  | '\\' :: r => readEscape r
  | c :: r => some (c, r)
  | [] => none

theorem readEscaped_escapedChar (c : Char) (r : Text) : readEscaped (escapedChar c ++ r) = some (c, r) := by
  unfold escapedChar
  split
  case h_8 hquote hbackslash _ _ _ _ _ =>
    split
    case isTrue hlow =>
      have hvalue : 16 * hexValue (hexDigit (c.toNat / 16)) + hexValue (hexDigit c.toNat) = c.toNat := by
        rw [hexValue_hexDigit, hexValue_hexDigit]
        omega
      simp only [List.cons_append, List.nil_append, readEscaped, readEscape, hvalue, Char.ofNat_toNat]
    case isFalse => exact readEscaped.eq_3 c r hquote hbackslash
  all_goals rfl

theorem escapedChar_selfDelimiting (c : Char) : SelfDelimiting escapedChar c :=
  selfDelimiting_of_read readEscaped readEscaped_escapedChar c

/-- no character is written as what begins with a quote -/
theorem escapedChar_append_ne (c : Char) (r s : Text) : escapedChar c ++ r ≠ '"' :: s := by
  intro h
  have hread := readEscaped_escapedChar c r
  rw [h] at hread
  cases hread

/-- characters up to a quote are told by what stands for them -/
theorem flatMap_escapedChar_inj {t u : Text} (h : t.flatMap escapedChar ++ '"' :: r = u.flatMap escapedChar ++ '"' :: s) :
    t = u ∧ r = s := by
  induction t generalizing u with
  | nil =>
    cases u with
    | nil => exact ⟨rfl, (List.cons.inj h).2⟩
    | cons d u =>
      rw [List.flatMap_cons, List.append_assoc] at h
      exact absurd h.symm (escapedChar_append_ne d _ r)
  | cons c t ih =>
    rw [List.flatMap_cons, List.append_assoc] at h
    cases u with
    | nil => exact absurd h (escapedChar_append_ne c _ s)
    | cons d u =>
      rw [List.flatMap_cons, List.append_assoc] at h
      obtain ⟨rfl, hrest⟩ := escapedChar_selfDelimiting c d _ _ h
      obtain ⟨rfl, rfl⟩ := ih hrest
      exact ⟨rfl, rfl⟩

theorem stringText_selfDelimiting (t : Text) : SelfDelimiting stringText t := by
  intro u r s h
  simp only [stringText, List.cons_append, List.append_assoc, List.cons.injEq, true_and] at h
  exact flatMap_escapedChar_inj h

/-! ## Lists of items -/

/-- items, each after a comma -/
def separated (style : Style) (level : Nat) (ts : List Text) : Text :=
  ts.flatMap fun t => ',' :: style.newline level ++ t

/-- items between brackets, with commas between them -/
def enclosed (style : Style) (level : Nat) (first last : Char) : List Text → Text
  | [] => [first, last]
  | t :: ts =>
    first :: style.newline (level + 1) ++ t ++ separated style (level + 1) ts ++ style.newline level ++ [last]

theorem separated_cons_append (t : Text) (ts : List Text) (r : Text) :
    separated style level (t :: ts) ++ r = ',' :: (style.newline level ++ (t ++ (separated style level ts ++ r))) := by
  simp [separated]

theorem enclosed_cons_append (t : Text) (ts : List Text) (r : Text) :
    enclosed style level first last (t :: ts) ++ r =
      first :: (style.newline (level + 1) ++
        (t ++ (separated style (level + 1) ts ++ (style.newline level ++ last :: r)))) := by
  simp [enclosed]

/-- the text of a value that has `level` values around it, by recursion on the value -/
def text (style : Style) (level : Nat) : Json → Text
  | .string t => stringText t
  | .array items => enclosed style level '[' ']' (items.map fun j => text style (level + 1) j)
  | .object members =>
    enclosed style level '\x7b' '\x7d' (members.map fun m => keyText style m.1 ++ text style (level + 1) m.2)
termination_by j => sizeOf j
decreasing_by
  · have := List.sizeOf_lt_of_mem ‹j ∈ items›
    simp only [array.sizeOf_spec]
    omega
  · have := List.sizeOf_lt_of_mem ‹m ∈ members›
    obtain ⟨key, j⟩ := m
    simp only [object.sizeOf_spec, Prod.mk.sizeOf_spec] at this ⊢
    omega

def Piece.printed (style : Style) : Piece → Text
  | .text t => t
  | .value level j => j.text style level

theorem itemPieces_printed (items : List Json) :
    (itemPieces style level items).flatMap (Piece.printed style) =
      separated style level (items.map fun j => j.text style level) := by
  simp [itemPieces, Piece.printed, separated, List.flatMap_assoc, List.flatMap_map]

theorem memberPieces_printed (members : List (Text × Json)) :
    (memberPieces style level members).flatMap (Piece.printed style) =
      separated style level (members.map fun m => keyText style m.1 ++ m.2.text style level) := by
  simp [memberPieces, Piece.printed, separated, List.flatMap_assoc, List.flatMap_map]

/-- a value is printed as its pieces are -/
theorem pieces_printed (j : Json) : (pieces style level j).flatMap (Piece.printed style) = j.text style level := by
  cases j with
  | string t => simp [pieces, Piece.printed, text]
  | array items =>
    cases items with
    | nil => simp [pieces, Piece.printed, text, enclosed]
    | cons j items => simp [pieces, itemPieces_printed, Piece.printed, text, enclosed]
  | object members =>
    cases members with
    | nil => simp [pieces, Piece.printed, text, enclosed]
    | cons m members => simp [pieces, memberPieces_printed, Piece.printed, text, enclosed]

/-- what printing adds is what the pending pieces are printed as -/
theorem printFrom_eq (printed : Text) (pending : List Piece) :
    printFrom style printed pending = printed.reverse ++ pending.flatMap (Piece.printed style) := by
  fun_induction printFrom style printed pending with
  | case1 printed => simp
  | case2 printed t pending ih =>
    rw [List.unattach_reverse, List.unattach_attach] at ih
    simp [ih, Piece.printed]
  | case3 printed level j pending ih => simp [ih, Piece.printed, pieces_printed]

theorem print_eq_text (j : Json) : j.print style = j.text style 0 := by
  simp [print, printFrom_eq, Piece.printed]

/-! ## Values -/

/-- the character a value begins with, which tells its kind -/
def opening : Json → Char
  | .string _ => '"'
  | .array _ => '['
  | .object _ => '\x7b'

theorem enclosed_cons (ts : List Text) : ∃ u, enclosed style level first last ts = first :: u := by
  cases ts with
  | nil => exact ⟨_, rfl⟩
  | cons t ts => exact ⟨_, rfl⟩

theorem text_cons (j : Json) : ∃ u, j.text style level = j.opening :: u := by
  cases j with
  | string t =>
    rw [text]
    exact ⟨_, rfl⟩
  | array items =>
    rw [text]
    exact enclosed_cons _
  | object members =>
    rw [text]
    exact enclosed_cons _

/-- values of the same text are of the same kind -/
theorem opening_eq {j k : Json} (h : j.text style level ++ r = k.text style level ++ s) : j.opening = k.opening := by
  obtain ⟨t, ht⟩ := j.text_cons
  obtain ⟨u, hu⟩ := k.text_cons
  rw [ht, hu] at h
  exact (List.cons.inj h).1

/-- a text begins as an item does; no list ends so -/
def Opens (t : Text) : Prop :=
  ∃ c u, t = c :: u ∧ (c = '"' ∨ c = '[' ∨ c = '\x7b')

theorem text_opens (j : Json) : Opens (j.text style level) := by
  obtain ⟨u, hu⟩ := j.text_cons
  refine ⟨j.opening, u, hu, ?_⟩
  cases j with
  | string t => exact Or.inl rfl
  | array items => exact Or.inr (Or.inl rfl)
  | object members => exact Or.inr (Or.inr rfl)

theorem keyText_opens (key t : Text) : Opens (keyText style key ++ t) :=
  ⟨'"', _, rfl, Or.inl rfl⟩

/-- no item comes where a list ends -/
theorem Opens.newline_ne (h : Opens t) (hlast : last = ']' ∨ last = '\x7d') :
    last :: r ≠ style.newline level ++ (t ++ s) := by
  obtain ⟨c, u, rfl, hc⟩ := h
  cases style <;> rcases hlast with rfl | rfl <;> rcases hc with rfl | rfl | rfl <;>
    simp [Style.newline]

/-- no list goes on where it ends -/
theorem newline_ne_comma (hlast : last = ']' ∨ last = '\x7d') :
    style.newline level ++ last :: r ≠ ',' :: s := by
  cases style <;> rcases hlast with rfl | rfl <;> simp [Style.newline]

section Lists

variable (hlast : last = ']' ∨ last = '\x7d')

include hlast

/-- the items after the first are told by what is written between them and the end of the list -/
theorem separated_inj {as bs : List α} (has : ∀ a ∈ as, SelfDelimiting f a) {inner outer : Nat}
    (h : separated style inner (as.map f) ++ (style.newline outer ++ last :: r) =
      separated style inner (bs.map f) ++ (style.newline outer ++ last :: s)) :
    as = bs ∧ r = s := by
  induction as generalizing bs with
  | nil =>
    cases bs with
    | nil => exact ⟨rfl, (List.cons.inj (List.append_cancel_left h)).2⟩
    | cons b bs =>
      rw [List.map_cons, separated_cons_append] at h
      exact absurd h (newline_ne_comma hlast)
  | cons a as ih =>
    obtain ⟨ha, has⟩ := List.forall_mem_cons.1 has
    rw [List.map_cons, separated_cons_append] at h
    cases bs with
    | nil => exact absurd h.symm (newline_ne_comma hlast)
    | cons b bs =>
      rw [List.map_cons, separated_cons_append] at h
      obtain ⟨rfl, hrest⟩ := ha b _ _ (List.append_cancel_left (List.cons.inj h).2)
      obtain ⟨rfl, rfl⟩ := ih has hrest
      exact ⟨rfl, rfl⟩

/-- a list is told by its text if each of its items is -/
theorem enclosed_inj {as bs : List α} (has : ∀ a ∈ as, SelfDelimiting f a) (hopens : ∀ a, Opens (f a))
    (h : enclosed style level first last (as.map f) ++ r = enclosed style level first last (bs.map f) ++ s) :
    as = bs ∧ r = s := by
  cases as with
  | nil =>
    cases bs with
    | nil => exact ⟨rfl, List.append_cancel_left h⟩
    | cons b bs =>
      rw [List.map_cons, enclosed_cons_append] at h
      exact absurd (List.cons.inj h).2 ((hopens b).newline_ne hlast)
  | cons a as =>
    obtain ⟨ha, has⟩ := List.forall_mem_cons.1 has
    rw [List.map_cons, enclosed_cons_append] at h
    cases bs with
    | nil => exact absurd (List.cons.inj h).2.symm ((hopens a).newline_ne hlast)
    | cons b bs =>
      rw [List.map_cons, enclosed_cons_append] at h
      obtain ⟨rfl, hrest⟩ := ha b _ _ (List.append_cancel_left (List.cons.inj h).2)
      obtain ⟨rfl, rfl⟩ := separated_inj hlast has hrest
      exact ⟨rfl, rfl⟩

end Lists

/-- a key and its value are told by their text if the value is -/
theorem member_selfDelimiting {m : Text × Json} (h : SelfDelimiting (text style level) m.2) :
    SelfDelimiting (fun m : Text × Json => keyText style m.1 ++ text style level m.2) m := by
  obtain ⟨key, j⟩ := m
  rintro ⟨key', j'⟩ r s hsame
  simp only [keyText, List.append_assoc] at hsame
  obtain ⟨rfl, hvalue⟩ := stringText_selfDelimiting key key' _ _ hsame
  obtain ⟨rfl, rfl⟩ := h j' r s (List.append_cancel_left hvalue)
  exact ⟨rfl, rfl⟩

/-- **A prefix code.** The text of a value shows where it ends. -/
theorem text_selfDelimiting (j : Json) : SelfDelimiting (text style level) j := by
  induction level, j using text.induct with
  | case1 level t =>
    intro k r s h
    have hkind := opening_eq h
    cases k with
    | string u =>
      simp only [text] at h
      obtain ⟨rfl, rfl⟩ := stringText_selfDelimiting t u r s h
      exact ⟨rfl, rfl⟩
    | array => cases hkind
    | object => cases hkind
  | case2 level items ih =>
    intro k r s h
    have hkind := opening_eq h
    cases k with
    | array items' =>
      simp only [text] at h
      obtain ⟨rfl, rfl⟩ := enclosed_inj (Or.inl rfl) ih text_opens h
      exact ⟨rfl, rfl⟩
    | string => cases hkind
    | object => cases hkind
  | case3 level members ih =>
    intro k r s h
    have hkind := opening_eq h
    cases k with
    | object members' =>
      simp only [text] at h
      obtain ⟨rfl, rfl⟩ := enclosed_inj (Or.inr rfl) (fun m hm => member_selfDelimiting (ih m hm))
        (fun m => keyText_opens m.1 _) h
      exact ⟨rfl, rfl⟩
    | string => cases hkind
    | array => cases hkind

theorem print_inj {j k : Json} (h : j.print style = k.print style) : j = k := by
  rw [print_eq_text, print_eq_text] at h
  exact (text_selfDelimiting j k [] [] (congrArg (· ++ []) h)).1

end Json

/-! ## Documents -/

theorem Attributes.toJson_inj {a b : Attributes} (h : a.toJson = b.toJson) : a = b := by
  obtain ⟨as, has⟩ := a
  obtain ⟨bs, hbs⟩ := b
  have hmaps : as.map (fun e => (e.1, Json.string e.2)) = bs.map fun e => (e.1, Json.string e.2) := by
    simpa only [toJson, Json.object.injEq] using h
  have hentry : ∀ e f : Text × Text, (e.1, Json.string e.2) = (f.1, Json.string f.2) → e = f := by
    rintro ⟨key, value⟩ ⟨key', value'⟩ h
    simpa using h
  obtain rfl := (List.map_inj_right hentry).1 hmaps
  rfl

namespace Element

theorem forestJson_eq (done : List Json) (es : List Element) : forestJson done es = done.reverse ++ es.map toJson := by
  induction es generalizing done with
  | nil => simp [forestJson]
  | cons e es ih => simp [forestJson, ih]

/-- lists of trees are told by their JSON if each of the trees is -/
theorem map_toJson_inj {es fs : List Element} (hes : ∀ e ∈ es, ∀ f, e.toJson = f.toJson → e = f)
    (h : es.map toJson = fs.map toJson) : es = fs := by
  induction es generalizing fs with
  | nil => exact (List.map_eq_nil_iff.1 h.symm).symm
  | cons e es ih =>
    cases fs with
    | nil => cases h
    | cons f fs =>
      rw [List.map_cons, List.map_cons] at h
      obtain ⟨hhead, htail⟩ := List.cons.inj h
      rw [hes e List.mem_cons_self f hhead, ih (fun e he => hes e (List.mem_cons_of_mem _ he)) htail]

/-- equal JSON is that of equal parts -/
theorem toJson_parts {name name' : Text} {attributes attributes' : Attributes} {content content' : Content Element}
    (h : toJson ⟨name, attributes, content⟩ = toJson ⟨name', attributes', content'⟩) :
    name = name' ∧ attributes = attributes' ∧ contentJson content = contentJson content' := by
  simp only [toJson, Json.object.injEq, List.cons.injEq, Prod.mk.injEq, Json.string.injEq, true_and, and_true] at h
  exact ⟨h.1, Attributes.toJson_inj h.2.1, h.2.2⟩

theorem toJson_inj {e f : Element} (h : e.toJson = f.toJson) : e = f := by
  induction e using Element.induction generalizing f with
  | empty name attributes =>
    obtain ⟨name', attributes', content'⟩ := f
    obtain ⟨rfl, rfl, hcontent⟩ := toJson_parts h
    cases content' with
    | empty => rfl
    | text => simp [contentJson] at hcontent
    | children => simp [contentJson] at hcontent
  | text name attributes t =>
    obtain ⟨name', attributes', content'⟩ := f
    obtain ⟨rfl, rfl, hcontent⟩ := toJson_parts h
    cases content' with
    | empty => simp [contentJson] at hcontent
    | text u =>
      obtain rfl : t = u := by simpa [contentJson] using hcontent
      rfl
    | children => simp [contentJson] at hcontent
  | children name attributes cs ih =>
    obtain ⟨name', attributes', content'⟩ := f
    obtain ⟨rfl, rfl, hcontent⟩ := toJson_parts h
    cases content' with
    | empty => simp [contentJson] at hcontent
    | text => simp [contentJson] at hcontent
    | children ds =>
      have hmaps : cs.map toJson = ds.map toJson := by simpa [contentJson, forestJson_eq] using hcontent
      rw [map_toJson_inj (fun c hc f => ih c hc) hmaps]

end Element

theorem Instructions.toJson_inj {a b : Instructions} (h : a.toJson = b.toJson) : a = b := by
  obtain ⟨target, attributes⟩ := a
  obtain ⟨target', attributes'⟩ := b
  simp only [toJson, Json.object.injEq, List.cons.injEq, Prod.mk.injEq, Json.string.injEq, true_and, and_true] at h
  rw [h.1, Attributes.toJson_inj h.2]

theorem Document.toJson_inj {a b : Document} (h : a.toJson = b.toJson) : a = b := by
  obtain ⟨root, instructions⟩ := a
  obtain ⟨root', instructions'⟩ := b
  simp only [toJson, Json.object.injEq, List.cons.injEq, Prod.mk.injEq, true_and, and_true] at h
  rw [Element.toJson_inj h.1, Instructions.toJson_inj h.2]

/-- **The JSON of a document keeps all of it.** On one line or laid out, two documents have the same text only if they
are the same document: the same tree with the same names, the attributes in the same order, the same instructions, and
everywhere the same kind of content, be it nothing, an empty text or an empty list of children. -/
theorem json_text_eq_iff (style : Json.Style) (a b : Document) :
    a.toJson.print style = b.toJson.print style ↔ a = b := by
  refine ⟨fun h => ?_, fun h => by rw [h]⟩
  exact Document.toJson_inj (Json.print_inj h)

end TaggedText
