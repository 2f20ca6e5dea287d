/-
Reading a tag from its text.

A tag is a bracket, a mark, a name, attributes and an end. The mark is a slash for a closing tag and a question mark
for instructions; the end is `/>` for a self-closing tag, `?>` for instructions and `>` otherwise. Each attribute has
whitespace before it and is a key, an equals sign and a value between two equal quotes, with whitespace allowed
around the equals sign. `Tag.read` reads the whole text from left to right and reports the first fault.
-/
import TaggedText.CharClass
import TaggedText.Name
import TaggedText.Tag.Basic
import TaggedText.Text.Split

namespace TaggedText.Tag

def inName (c : Char) : Bool :=
  match CharClass.classify c with
  | .letter | .digit | .minus | .colon | .dot => true
  | _ => false

def isQuote (c : Char) : Bool :=
  CharClass.classify c == .quote

/-- reads the longest run of name characters, which has to be a name; the second part is what follows -/
def takeName (t : Text) : Option (Text × Text) :=
  let name := t.takeWhile inName
  if Name.isName name then some (name, t.dropWhile inName) else none

/-- reads a value that ends at the next `quote`; the second part is what follows the quote -/
def takeValue (quote : Char) (t : Text) : Except TagFault (Text × Text) :=
  match t.dropWhile (· != quote) with
  | [] => .error .unterminatedValue
  | _ :: rest => .ok (t.takeWhile (· != quote), rest)

/-- reads what follows a key: the equals sign and the quoted value -/
def takeAssignment (t : Text) : Except TagFault (Text × Text) :=
  match t.dropWhile CharClass.isWhitespace with
  | '=' :: t =>
    match t.dropWhile CharClass.isWhitespace with
    | quote :: t => if isQuote quote then takeValue quote t else .error .unquotedValue
    | [] => .error .unquotedValue
  | _ => .error .noValue

/-- reads a key and its value; the last part is what follows -/
def takeAttribute (t : Text) : Except TagFault (Text × Text × Text) :=
  match takeName t with
  | none => .error .badKey
  | some (key, t) =>
    match takeAssignment t with
    | .error fault => .error fault
    | .ok (value, rest) => .ok (key, value, rest)

/-! ## Progress -/

/-- what follows a name is no longer than the text -/
theorem takeName_length {t name rest : Text} (h : takeName t = some (name, rest)) : rest.length ≤ t.length := by
  simp only [takeName] at h
  split at h
  · cases h
    exact Text.length_dropWhile_le _ _
  · cases h

/-- a value takes at least its closing quote -/
theorem takeValue_length {quote : Char} {t value rest : Text} (h : takeValue quote t = .ok (value, rest)) :
    rest.length < t.length := by
  simp only [takeValue] at h
  split at h
  · cases h
  · rename_i c r hr
    cases h
    exact Text.length_lt_of_dropWhile hr

/-- an equals sign and a value take at least one character -/
theorem takeAssignment_length {t value rest : Text} (h : takeAssignment t = .ok (value, rest)) :
    rest.length < t.length := by
  simp only [takeAssignment] at h
  split at h
  · rename_i t1 h1
    have hlt := Text.length_lt_of_dropWhile h1
    split at h
    · rename_i quote t2 h2
      have hlt2 := Text.length_lt_of_dropWhile h2
      split at h
      · have := takeValue_length h
        omega
      · cases h
    · cases h
  · cases h

/-- an attribute is a name and what is assigned to it -/
theorem exists_of_takeAttribute {t key value rest : Text} (h : takeAttribute t = .ok (key, value, rest)) :
    ∃ u, takeName t = some (key, u) ∧ takeAssignment u = .ok (value, rest) := by
  simp only [takeAttribute] at h
  split at h
  · cases h
  · rename_i name u hname
    split at h
    · cases h
    · rename_i v r hassign
      cases h
      exact ⟨u, hname, hassign⟩

/-- an attribute takes at least one character -/
theorem takeAttribute_length {t key value rest : Text} (h : takeAttribute t = .ok (key, value, rest)) :
    rest.length < t.length := by
  obtain ⟨u, hname, hassign⟩ := exists_of_takeAttribute h
  exact Nat.lt_of_lt_of_le (takeAssignment_length hassign) (takeName_length hname)

/-! ## The whole tag -/

/-- the tag, if nothing follows its end -/
def ended (text : Text) (tag : Tag) : Text → Except TagError Tag
  | [] => .ok tag
  | _ :: _ => .error (.malformed text .contentAfterEnd)

/-- the tag, if a closing bracket comes next and nothing follows it -/
def closed (text : Text) (tag : Tag) (fault : TagFault) : Text → Except TagError Tag
  | '>' :: rest => ended text tag rest
  | _ => .error (.malformed text fault)

def startsWithWhitespace : Text → Bool
  | [] => false
  | c :: _ => CharClass.isWhitespace c

/-- reads attributes and the end of a tag; `tag` is what was read before, and `text` the whole of it -/
def readTail (text : Text) (tag : Tag) (t : Text) : Except TagError Tag :=
  match _hrest : t.dropWhile CharClass.isWhitespace with
  | [] => .error (.malformed text .noClosingBracket)
  | c :: rest =>
    match CharClass.classify c with
    | .angleClose =>
      if tag.form = .instructions then .error (.malformed text .instructionsEnd) else ended text tag rest
    | .slash =>
      if tag.form ≠ .opening then .error (.malformed text .straySlash)
      else closed text { tag with form := .selfClosing } .noBracketAfterSlash rest
    | .question =>
      if tag.form ≠ .instructions then .error (.malformed text .strayQuestion)
      else closed text tag .noBracketAfterQuestion rest
    | .letter =>
      if tag.form = .closing then .error (.malformed text .attributeInClosing)
      else if !startsWithWhitespace t then .error (.malformed text .unseparated)
      else
        match _hattr : takeAttribute (c :: rest) with
        | .error fault => .error (.malformed text fault)
        | .ok (key, value, after) =>
          if tag.attributes.contains key then .error (.duplicateAttribute tag.name key)
          else readTail text { tag with attributes := tag.attributes.insert key value } after
    | _ => .error (.malformed text .unexpectedCharacter)
termination_by t.length
decreasing_by
  have h1 := takeAttribute_length _hattr
  have h2 := Text.length_dropWhile_le CharClass.isWhitespace t
  rw [_hrest] at h2
  omega

def readNamed (text : Text) (form : TagForm) (t : Text) : Except TagError Tag :=
  match takeName t with
  | none => .error (.malformed text .badName)
  | some (name, rest) => readTail text ⟨form, name, .empty⟩ rest

def read (text : Text) : Except TagError Tag :=
  match text with
  | '<' :: '/' :: t => readNamed text .closing t
  | '<' :: '?' :: t => readNamed text .instructions t
  | '<' :: '!' :: _ => .error (.malformed text .declaration)
  | '<' :: t => readNamed text .opening t
  | _ => .error (.malformed text .noOpeningBracket)

end TaggedText.Tag
