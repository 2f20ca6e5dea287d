/-
What the classes of characters say about names, blanks and brackets.

The tables of letters and numbers have no code point in common with the blanks and the control characters. So every
character of a name may stand where a name is read in a tag (`inName_of_isPart`), and what begins a name is a letter
(`classify_of_isStart`). A class that only one character has gives that character back (`classify_eq_iff`).
-/
import Mathlib.Tactic
import TaggedText.Tag.Read

namespace TaggedText

/-! ## Tables of code points -/

namespace Text

/-- whether no interval of one table meets an interval of the other -/
def Intervals.apart (s t : Intervals) : Bool :=
  s.all fun i => t.all fun j => decide (i.2 < j.1) || decide (j.2 < i.1)

theorem Intervals.covers_eq_false_of_apart {s t : Intervals} {n : Nat} (h : s.apart t = true)
    (hs : s.covers n = true) : t.covers n = false := by
  by_contra ht
  obtain ⟨i, hi, hin⟩ := exists_of_covers hs
  obtain ⟨j, hj, hjn⟩ := exists_of_covers (Bool.eq_true_of_not_eq_false ht)
  have hij := List.all_eq_true.1 (List.all_eq_true.1 h i hi) j hj
  simp only [Bool.or_eq_true, decide_eq_true_eq] at hij
  omega

/-- the code points of the ten ASCII digits -/
def digits : Intervals :=
  [(0x30, 0x39)]

theorem covers_digits {c : Char} (h : c.isDigit = true) : digits.covers c.toNat = true := by
  simp only [Char.isDigit, Bool.and_eq_true, decide_eq_true_eq, ge_iff_le, UInt32.le_iff_toNat_le] at h
  simp only [digits, Intervals.covers, Bool.or_false]
  split_ifs with hlt
  · exact absurd h.1 (Nat.not_le.2 hlt)
  · exact decide_eq_true h.2

theorem isBlank_of_isDigit {c : Char} (h : c.isDigit = true) : isBlank c = false :=
  Intervals.covers_eq_false_of_apart (by decide +kernel) (covers_digits h)

theorem isLetter_of_isDigit {c : Char} (h : c.isDigit = true) : isLetter c = false :=
  Intervals.covers_eq_false_of_apart (by decide +kernel) (covers_digits h)

/-- no letter or number is a blank -/
theorem isBlank_of_isLetterOrNumber {c : Char} (h : isLetterOrNumber c = true) : isBlank c = false := by
  rcases Bool.or_eq_true_iff.1 h with h | h
  · exact Intervals.covers_eq_false_of_apart (s := letters) (by decide +kernel) h
  · exact Intervals.covers_eq_false_of_apart (s := numbers) (by decide +kernel) h

/-- no letter or number is a control character -/
theorem isControl_of_isLetterOrNumber {c : Char} (h : isLetterOrNumber c = true) : isControl c = false := by
  rcases Bool.or_eq_true_iff.1 h with h | h
  · exact Intervals.covers_eq_false_of_apart (s := letters) (by decide +kernel) h
  · exact Intervals.covers_eq_false_of_apart (s := numbers) (by decide +kernel) h

end Text

/-! ## Classes of one character -/

namespace CharClass

/-- the character of a class, if no other character of tagged text has that class -/
def only? : CharClass → Option Char
  | .angleOpen => some '<'
  | .angleClose => some '>'
  | .slash => some '/'
  | .equals => some '='
  | .question => some '?'
  | .exclamation => some '!'
  | _ => none

theorem classify_eq_iff {k : CharClass} {ch c : Char} (h : k.only? = some ch) : classify c = k ↔ c = ch := by
  refine ⟨?_, ?_⟩
  · intro h
    subst h
    unfold classify at h
    split at h
    all_goals first
      | exact (Option.some.inj h)
      | (simp [only?] at h; done)
      | (split_ifs at h <;> simp [only?] at h)
  · intro h
    subst h
    cases k <;> cases h <;> rfl

theorem isWhitespace_eq_isBlank (c : Char) : isWhitespace c = Text.isBlank c := by
  unfold isWhitespace classify
  split
  all_goals try decide
  split_ifs with hdigit hblank hcontrol
  · rw [Text.isBlank_of_isDigit hdigit]
    rfl
  · rw [hblank]
    rfl
  · rw [Bool.eq_false_of_not_eq_true hblank]
    rfl
  · rw [Bool.eq_false_of_not_eq_true hblank]
    rfl

end CharClass

/-! ## Characters of names -/

/-- letters and numbers of all alphabets have the class of letters, except for the ASCII digits -/
theorem classify_of_isLetterOrNumber {c : Char} (h : Text.isLetterOrNumber c = true) :
    CharClass.classify c = if c.isDigit then .digit else .letter := by
  have hblank := Text.isBlank_of_isLetterOrNumber h
  have hcontrol := Text.isControl_of_isLetterOrNumber h
  unfold CharClass.classify
  split
  all_goals try (exact absurd h (by decide +kernel))
  simp only [hblank, hcontrol, Bool.false_eq_true, if_false]

theorem inName_of_isPart {c : Char} (h : Name.isPart c = true) : Tag.inName c = true := by
  simp only [Name.isPart, Name.isSeparator, Bool.or_eq_true, beq_iff_eq] at h
  rcases h with ((rfl | rfl) | rfl | rfl) | h
  · decide
  · decide
  · decide
  · decide
  · rw [Tag.inName, classify_of_isLetterOrNumber h]
    split_ifs <;> rfl

theorem isPart_of_isStart {c : Char} (h : Name.isStart c = true) : Name.isPart c = true := by
  simp only [Name.isStart, Bool.or_eq_true, beq_iff_eq] at h
  rcases h with rfl | h
  · decide
  · simp [Name.isPart, Text.isLetterOrNumber, h]

/-- what a name can begin with has the class of letters -/
theorem classify_of_isStart {c : Char} (h : Name.isStart c = true) : CharClass.classify c = .letter := by
  simp only [Name.isStart, Bool.or_eq_true, beq_iff_eq] at h
  rcases h with rfl | h
  · decide
  · have hletter : Text.isLetterOrNumber c = true := by simp [Text.isLetterOrNumber, h]
    rw [classify_of_isLetterOrNumber hletter, if_neg]
    intro hdigit
    exact absurd h (by simp [Text.isLetter_of_isDigit hdigit])

namespace Name

theorem isName_cons {c : Char} {t : Text} : isName (c :: t) = true ↔ isStart c = true ∧ ∀ x ∈ t, isPart x = true := by
  simp [isName]

theorem isName_ne_nil {t : Text} (h : isName t = true) : t ≠ [] := by
  intro h
  subst h
  exact absurd h (by decide)

/-- every character of a name may stand where a name is read -/
theorem inName_of_mem {t : Text} {c : Char} (h : isName t = true) (hc : c ∈ t) : Tag.inName c = true := by
  cases t with
  | nil => exact absurd hc List.not_mem_nil
  | cons d t =>
    obtain ⟨hstart, hparts⟩ := isName_cons.1 h
    rcases List.mem_cons.1 hc with rfl | hc
    · exact inName_of_isPart (isPart_of_isStart hstart)
    · exact inName_of_isPart (hparts c hc)

end Name

end TaggedText
