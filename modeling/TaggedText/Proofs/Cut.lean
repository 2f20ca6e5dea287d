/-
The first token of a text, told without a cursor.

`cut` takes one token off the front of a text. A bracket run ends at its first closing bracket and may hold no
second opening bracket; a comment that begins with `<!--` ends at the first `-->` after its opener and may hold
any character. A character of no class is a token of its own. Everything up to the next bracket or such character is
text: whitespace if it is all whitespace, a value otherwise. What is inside a tag is not looked at.

`Cursor.takeToken` reads exactly what `cut` takes off: see `Cursor.takeToken_of_ok` and `Cursor.takeToken_of_error`.
-/
import TaggedText.CharClass
import TaggedText.ReadError
import TaggedText.Text.Split
import TaggedText.Token.Basic

namespace TaggedText

/-- a token's kind and text, and what follows it -/
structure Cut where
  kind : TokenKind
  text : Text
  rest : Text
deriving DecidableEq, Repr

namespace Cut

def isAngle (c : Char) : Bool :=
  c == '<' || c == '>'

/-- whether `c` ends a run of text: an angle bracket or a character of no class -/
def endsText (c : Char) : Bool :=
  match CharClass.classify c with
  | .angleOpen | .angleClose | .unknown => true
  | _ => false

/-- splits after the first `-->`; `before` holds what was passed already, last character first -/
def splitCommentEnd (before : Text) : Text → Option (Text × Text)
  | [] => none
  | '-' :: '-' :: '>' :: t => some (before.reverse ++ ['-', '-', '>'], t)
  | c :: t => splitCommentEnd (c :: before) t

/-- the kind of the bracket run with the given text between its brackets -/
def bracketKind : Text → TokenKind
  | '?' :: _ => .instructions
  | '!' :: _ => .comment
  | _ => .tag

def comment (t : Text) : Except ReadFault Cut :=
  match splitCommentEnd [] t with
  | some (body, rest) => .ok ⟨.comment, ['<', '!', '-', '-'] ++ body, rest⟩
  | none => .error (.unbalanced 1)

def bracket (t : Text) : Except ReadFault Cut :=
  let body := t.takeWhile (!isAngle ·)
  match t.dropWhile (!isAngle ·) with
  | [] => .error (.unbalanced 1)
  | c :: rest =>
    if c = '>' then .ok ⟨bracketKind body, '<' :: body ++ ['>'], rest⟩
    else .error (.bracketInTag ('<' :: body) c)

def angle : Text → Except ReadFault Cut
  | '!' :: '-' :: '-' :: t => comment t
  | t => bracket t

def run (t : Text) : Cut :=
  let text := t.takeWhile (!endsText ·)
  ⟨if text.all CharClass.isWhitespace then .whitespace else .value, text, t.dropWhile (!endsText ·)⟩

end Cut

/-- takes the first token off a text; there is none in an empty text -/
def cut : Text → Option (Except ReadFault Cut)
  | [] => none
  | c :: t =>
    match CharClass.classify c with
    | .angleOpen => some (Cut.angle t)
    | .angleClose => some (.error .unmatchedClose)
    | .unknown => some (.ok ⟨.stray, [c], t⟩)
    | _ => some (.ok (Cut.run (c :: t)))

/-! ## Progress -/

namespace Cut

/-- the end of a comment takes at least one character -/
theorem splitCommentEnd_length {before t body rest : Text} (h : splitCommentEnd before t = some (body, rest)) :
    rest.length < t.length := by
  fun_induction splitCommentEnd before t with
  | case1 => simp at h
  | case2 before t =>
    simp only [Option.some.injEq, Prod.mk.injEq] at h
    rw [← h.2]
    simp only [List.length_cons]
    omega
  | case3 before c t _ ih =>
    have := ih h
    simp only [List.length_cons]
    omega

/-- a comment takes at least one character after its opener -/
theorem comment_length {t : Text} {k : Cut} (h : comment t = .ok k) : k.rest.length < t.length := by
  simp only [comment] at h
  split at h
  · rename_i body rest hsplit
    cases h
    exact splitCommentEnd_length hsplit
  · cases h

/-- a bracket run takes at least one character after its opening bracket -/
theorem bracket_length {t : Text} {k : Cut} (h : bracket t = .ok k) : k.rest.length < t.length := by
  simp only [bracket] at h
  split at h
  · cases h
  · rename_i c rest hrest
    split at h
    · cases h
      exact Text.length_lt_of_dropWhile hrest
    · cases h

/-- what begins with an angle bracket takes at least one character after it -/
theorem angle_length {t : Text} {k : Cut} (h : angle t = .ok k) : k.rest.length < t.length := by
  unfold angle at h
  split at h
  · have := comment_length h
    simp only [List.length_cons]
    omega
  · exact bracket_length h

end Cut

/-- a token takes at least one character -/
theorem cut_length {t : Text} {k : Cut} (h : cut t = some (.ok k)) : k.rest.length < t.length := by
  cases t with
  | nil => cases h
  | cons c t =>
    simp only [cut] at h
    split at h
    · have := Cut.angle_length (Option.some.inj h)
      simp only [List.length_cons]
      omega
    · cases h
    · cases h
      simp
    · rename_i hopen hclose hunknown
      cases h
      have hstay : Cut.endsText c = false := by
        unfold Cut.endsText
        split <;> first | contradiction | rfl
      have := Text.length_dropWhile_le (!Cut.endsText ·) t
      simp only [Cut.run, List.dropWhile_cons, hstay, Bool.not_false, if_true, List.length_cons]
      omega

end TaggedText
