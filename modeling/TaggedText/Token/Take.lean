/-
Reading one token.

`Cursor.takeToken` reads the token at a cursor. A bracket run goes from an opening bracket to the closing one that
brings the nesting depth back to zero; an opening bracket before the first closing one is an error, so that nothing
nests in fact. A comment that begins with `<!--` is read in stretches up to a closing bracket, until its end is read.
A character of no class is a token of its own. Everything up to the next bracket or such character is text: whitespace
if it is all whitespace, a value otherwise. What is inside a tag is not looked at.

Errors are told of the place where the token began, wherever the cursor has come to.
-/
import TaggedText.Cursor.Take
import TaggedText.Size
import TaggedText.Text.Split
import TaggedText.Token.Basic

namespace TaggedText

namespace Text

/-- an opening bracket before any closing one, behind the text up to it; `before` holds what was passed already, last
character first -/
def strayOpening (classifier : Classifier) (before : Text) : Text → Option (Text × Char)
  | [] => none
  | c :: t =>
    match classifier c with
    | .angleClose => none
    | .angleOpen => some (before.reverse, c)
    | _ => strayOpening classifier (c :: before) t

/-- whether what was passed, last character first, ends like a comment and is long enough for both ends of one -/
def closesComment (before : Text) : Bool :=
  ['>', '-', '-'].isPrefixOf before && decide (7 ≤ bytes before)

end Text

/-- the kind of a bracket run, told by what follows its opening bracket -/
def TokenKind.ofRun (classifier : Classifier) : Text → TokenKind
  | _ :: c :: _ :: _ =>
    match classifier c with
    | .question => .instructions
    | .exclamation => .comment
    | _ => .tag
  | _ => .tag

/-- the classes that end a run of text -/
def CharClass.textStop : List CharClass :=
  [.angleOpen, .angleClose, .unknown]

namespace Cursor

/-! ## Progress -/

theorem left_takeRun_le (c : Cursor) (p : CharClass → Bool) : (c.takeRun p).2.left ≤ c.left :=
  (List.dropWhile_suffix _).length_le

/-- a run that takes the next character leaves less -/
theorem left_takeRun_lt {c : Cursor} {p : CharClass → Bool} {ch : Char} (h : c.next? = some ch)
    (hp : p (c.classOf ch) = true) : (c.takeRun p).2.left < c.left := by
  obtain ⟨t, ht⟩ := List.head?_eq_some_iff.1 h
  have hle := Text.length_dropWhile_le (fun ch => p (c.classOf ch)) t
  simp only [left, takeRun, advance, ht, List.dropWhile_cons, hp, if_true, List.length_cons]
  omega

theorem left_takeIn_lt {c : Cursor} {set : List CharClass} {ch : Char} (h : c.next? = some ch)
    (hset : set.contains (c.classOf ch) = true) : (c.takeIn set).2.left < c.left :=
  left_takeRun_lt h hset

theorem left_takeNotIn_le (c : Cursor) (set : List CharClass) : (c.takeNotIn set).2.left ≤ c.left :=
  left_takeRun_le c _

theorem left_takeNotIn_lt {c : Cursor} {set : List CharClass} {ch : Char} (h : c.next? = some ch)
    (hset : set.contains (c.classOf ch) = false) : (c.takeNotIn set).2.left < c.left :=
  left_takeRun_lt h (p := (!set.contains ·)) (by rw [hset]; rfl)

theorem left_takeUntil_lt {c c' : Cursor} {delimiter : Char} {run : Text}
    (h : c.takeUntil delimiter true = (.ok run, c')) : c'.left < c.left := by
  unfold takeUntil at h
  split at h
  · cases h
  · rename_i ch rest hrest
    cases h
    exact Text.length_lt_of_dropWhile hrest

end Cursor

/-- a balanced run takes at least one character -/
theorem Text.length_of_splitBalanced {classifier : Classifier} {opening closing : CharClass} {depth : Nat}
    {before t run rest : Text} (h : splitBalanced classifier opening closing depth before t = .ok (run, rest)) :
    rest.length < t.length := by
  fun_induction splitBalanced classifier opening closing depth before t with
  | case1 => cases h
  | case2 =>
    cases h
    exact Nat.lt_succ_self _
  | case3 _ _ _ _ _ _ ih => exact Nat.lt_succ_of_lt (ih h)
  | case4 _ _ _ _ _ _ ih => exact Nat.lt_succ_of_lt (ih h)
  | case5 _ _ _ _ _ _ ih => exact Nat.lt_succ_of_lt (ih h)

namespace Cursor

theorem left_takeBalanced_lt {c c' : Cursor} {opening closing : CharClass} {includeDelimiters : Bool} {run : Text}
    (h : c.takeBalanced opening closing includeDelimiters = (.ok run, c')) : c'.left < c.left := by
  unfold takeBalanced at h
  split at h
  · cases h
  · split at h
    · rename_i hsplit
      cases h
      exact Text.length_of_splitBalanced hsplit
    · cases h

theorem left_takeChar_lt {c c' : Cursor} {ch : Char} (h : c.takeChar true = (.ok ch, c')) : c'.left < c.left := by
  unfold takeChar at h
  dsimp only at h
  split at h
  · cases h
  · rename_i ch rest hrest
    cases h
    have hplace : c.place.rest = ch :: rest := hrest
    simp only [left, advance, hplace, List.length_cons, Nat.lt_succ_self]

/-! ## Bracket runs and comments -/

/-- reads a comment on from where `before`, last character first, was read of it; it began at `start` -/
@[semireducible]
def takeComment (start : Nat) (before : Text) (c : Cursor) : Except ReadError Text × Cursor :=
  match _h : c.takeUntil '>' true with
  | (.error _, c') => (.error (c'.failureAt start (.unbalanced 1)), c')
  | (.ok stretch, c') =>
    let before := '>' :: (stretch.reverse ++ before)
    if Text.closesComment before then (.ok before.reverse, c') else takeComment start before c'
termination_by c.left
decreasing_by exact left_takeUntil_lt _h

/-- an opening bracket between the cursor's own and the first closing one, behind the text up to it -/
def strayOpening (c : Cursor) : Option (Text × Char) :=
  match c.place.rest with
  | [] => none
  | ch :: t => Text.strayOpening c.source.classifier [ch] t

/-- reads what begins with an angle bracket, which stands at `start` -/
def takeAngle (start : Nat) (c : Cursor) : Except ReadError (TokenKind × Text) × Cursor :=
  if c.sees ['<', '!', '-', '-'] then
    match takeComment start [] c with
    | (.error e, c) => (.error e, c)
    | (.ok text, c) => (.ok (.comment, text), c)
  else
    match c.strayOpening with
    | some (tag, found) => (.error (c.failureAt start (.bracketInTag tag found)), c)
    | none =>
      match c.takeBalanced .angleOpen .angleClose true with
      | (.error e, c) => (.error e, c)
      | (.ok run, c) => (.ok (.ofRun c.source.classifier run, run), c)

/-! ## Tokens -/

def takeText (c : Cursor) : (TokenKind × Text) × Cursor :=
  let (blanks, c) := c.takeIn [.whitespace]
  if CharClass.textStop.contains (c.nextClassOr .eof) || c.atEnd then ((.whitespace, blanks), c)
  else
    let (text, c) := c.takeNotIn CharClass.textStop
    ((.value, blanks ++ text), c)

/-- reads the next token, its kind and its text; there is none at the end -/
def takeToken (c : Cursor) : Option (Except ReadError (TokenKind × Text) × Cursor) :=
  match c.nextClassOr .eof with
  | .eof => none
  | .angleOpen => some (takeAngle c.offset c)
  | .angleClose => some (.error (c.failure .unmatchedClose), c)
  | .unknown =>
    match c.takeChar true with
    | (.error e, c) => some (.error e, c)
    | (.ok ch, c) => some (.ok (.stray, [ch]), c)
  | _ =>
    let (token, c) := c.takeText
    some (.ok token, c)

theorem left_takeComment_lt {start : Nat} {before text : Text} {c c' : Cursor}
    (h : takeComment start before c = (.ok text, c')) : c'.left < c.left := by
  fun_induction takeComment start before c with
  | case1 => cases h
  | case2 before c stretch m hread =>
    cases h
    exact left_takeUntil_lt hread
  | case3 before c stretch m hread _ _ ih => exact Nat.lt_trans (ih h) (left_takeUntil_lt hread)

theorem left_takeAngle_lt {start : Nat} {c c' : Cursor} {token : TokenKind × Text}
    (h : takeAngle start c = (.ok token, c')) : c'.left < c.left := by
  unfold takeAngle at h
  split at h
  · split at h
    · cases h
    · rename_i hread
      cases h
      exact left_takeComment_lt hread
  · split at h
    · cases h
    · split at h
      · cases h
      · rename_i hread
        cases h
        exact left_takeBalanced_lt hread

/-- a character that ends no run is taken with the run -/
theorem left_takeText_lt {c : Cursor} {ch : Char} (h : c.next? = some ch)
    (hstop : CharClass.textStop.contains (c.classOf ch) = false) : c.takeText.2.left < c.left := by
  unfold takeText
  dsimp only
  by_cases hwhitespace : [CharClass.whitespace].contains (c.classOf ch) = true
  · have hlt : (c.takeIn [.whitespace]).2.left < c.left := left_takeIn_lt h hwhitespace
    split
    · exact hlt
    · exact Nat.lt_of_le_of_lt (left_takeNotIn_le _ _) hlt
  · -- no blank stands here, and the run begins at once
    obtain ⟨t, ht⟩ := List.head?_eq_some_iff.1 h
    have hstay : (c.takeIn [.whitespace]).2 = c := by
      obtain ⟨source, ⟨offset, rest⟩, mark⟩ := c
      subst ht
      simp only [classOf] at hwhitespace
      simp only [takeIn, takeRun, advance, classOf, List.takeWhile_cons, List.dropWhile_cons, hwhitespace]
      rfl
    have hnext : c.nextClassOr .eof = c.classOf ch := by simp only [nextClassOr, h]
    have hleft : c.atEnd = false := by rw [atEnd, ht]; rfl
    simp only [hstay, hnext, hstop, hleft, Bool.or_false, Bool.false_eq_true, if_false]
    exact left_takeNotIn_lt h hstop

/-- a token takes at least one character -/
theorem left_takeToken_lt {c c' : Cursor} {token : TokenKind × Text} (h : c.takeToken = some (.ok token, c')) :
    c'.left < c.left := by
  unfold takeToken at h
  split at h
  · cases h
  · exact left_takeAngle_lt (Option.some.inj h)
  · cases h
  · split at h
    · cases h
    · rename_i hread
      cases h
      exact left_takeChar_lt hread
  · rename_i hend hopen hclose hunknown
    cases h
    cases hnext : c.next? with
    | none => exact absurd (by simp only [nextClassOr, hnext]) hend
    | some ch =>
      have hclass : c.nextClassOr .eof = c.classOf ch := by simp only [nextClassOr, hnext]
      rw [hclass] at hopen hclose hunknown
      refine left_takeText_lt hnext ?_
      simp only [CharClass.textStop, List.contains_eq_mem, List.mem_cons, List.not_mem_nil, or_false]
      exact decide_eq_false fun hmem => hmem.elim hopen fun hmem => hmem.elim hclose hunknown

end Cursor

end TaggedText
