/-
Fillers.

Comments, whitespace between brackets and stray characters are fillers: a builder does nothing with them, whether the
root is still to come or closed already, and they are not counted among what follows it. A list of tokens is fed as it
is without them (`Builder.feed_essential`). All that they can change is which token is the last one, and this is told
only where tokens end without an end token and without a root (`fillers_invisible`).
-/
import TaggedText.Proofs.Feeding

namespace TaggedText

theorem Token.isEof_of_isFiller {t : Token} (h : t.isFiller = true) : t.isEof = false := by
  obtain ⟨kind, text, span⟩ := t
  cases kind with
  | eof => cases h
  | _ => rfl

/-- the tokens of a list that are no fillers -/
def Token.essential (ts : List Token) : List Token :=
  ts.filter fun t => !t.isFiller

theorem Token.essential_cons_of_isFiller {t : Token} (h : t.isFiller = true) (ts : List Token) :
    essential (t :: ts) = essential ts :=
  List.filter_cons_of_neg (by simp [h])

theorem Token.essential_cons {t : Token} (h : t.isFiller = false) (ts : List Token) :
    essential (t :: ts) = t :: essential ts :=
  List.filter_cons_of_pos (by simp [h])

namespace Builder

variable {rules : BuildRules} {b m : Builder}

/-! ## One token -/

/-- a filler is taken, and leaves the builder as it is -/
theorem takes_of_isFiller {t : Token} (h : t.isFiller = true) : Takes rules b [t] b := by
  refine takes_singleton_iff.2 ⟨Token.isEof_of_isFiller h, ?_⟩
  cases hroot : b.root with
  | some root => exact Or.inl ⟨rfl, h, rfl⟩
  | none =>
    refine Or.inr ⟨rfl, step_eq_ok_iff.2 (.idle ?_)⟩
    obtain ⟨kind, text, span⟩ := t
    cases kind with
    | stray | whitespace | comment => rfl
    | eof | tag | value | instructions => cases h

/-- fillers are not counted -/
theorem countSignificant_essential (ts : List Token) : countSignificant (Token.essential ts) = countSignificant ts := by
  unfold countSignificant Token.essential
  rw [List.countP_filter]
  refine List.countP_congr fun t _ => ?_
  cases t.isFiller <;> simp

theorem trailingFault_essential (t : Token) (rest : List Token) :
    trailingFault t (Token.essential rest) = trailingFault t rest := by
  rcases trailingFault_cases t with ⟨name, hname⟩ | hcount
  · rw [hname, hname]
  · have hrest := countSignificant_essential rest
    unfold countSignificant at hrest
    rw [hcount, hcount, countSignificant, countSignificant, List.countP_cons, List.countP_cons, hrest]

/-- a builder halts at the same token, and tells the same of it, if fillers after it are left out -/
theorem Halts.essential {t : Token} {rest : List Token} {r : Except BuildError (Option Span)}
    (h : Halts rules b t rest r) : Halts rules b t (Token.essential rest) r := by
  cases h with
  | ended heof => exact .ended heof
  | trailing heof hroot hfiller =>
    rw [← trailingFault_essential t rest]
    exact .trailing heof hroot hfiller
  | refused fault heof hroot hrefused => exact .refused fault heof hroot hrefused

/-! ## All tokens -/

/-- **All tokens.** Without their fillers, tokens lead to the same builder, and halt it at the same token if at all. -/
theorem feed_essential (rules : BuildRules) (b : Builder) (ts : List Token) :
    feed rules b (Token.essential ts) = feed rules b ts := by
  induction ts generalizing b with
  | nil => rfl
  | cons t ts ih =>
    cases hfiller : t.isFiller with
    | true => rw [Token.essential_cons_of_isFiller hfiller, ih, feed_of_takes (takes_of_isFiller hfiller)]
    | false =>
      rw [Token.essential_cons hfiller]
      rcases takes_or_halts rules b t ts with ⟨m, hm⟩ | ⟨r, hr⟩
      · rw [feed_of_takes hm, feed_of_takes hm, ih]
      · rw [hr.essential.feed_eq, hr.feed_eq]

end Builder

/-- **Fillers are invisible.** Tokens without their fillers lead through the same events to the same document or the
same error. Only where there is no end token, and the root or the ends of elements are missing after the last token,
the place of the error may differ: it is that of the last token, which a filler may be. -/
theorem fillers_invisible (rules : BuildRules) (ts : List Token) :
    (Document.ofTokens rules (ts.filter fun t => !t.isFiller)).events = (Document.ofTokens rules ts).events ∧
      ((Document.ofTokens rules (ts.filter fun t => !t.isFiller)).value = (Document.ofTokens rules ts).value ∨
        (∀ t ∈ ts, t.isEof = false) ∧
          ∃ fault, ((∃ names, fault = .unclosed names.length names) ∨ fault = .reading .endOfInput) ∧
            (Document.ofTokens rules ts).value = .error ⟨fault, (Builder.lastSpan ts).location⟩ ∧
            (Document.ofTokens rules (ts.filter fun t => !t.isFiller)).value =
              .error ⟨fault, (Builder.lastSpan (ts.filter fun t => !t.isFiller)).location⟩) := by
  have hfeed : Builder.feed rules .start (ts.filter fun t => !t.isFiller) = Builder.feed rules .start ts :=
    Builder.feed_essential rules .start ts
  refine ⟨?_, ?_⟩
  · simp only [Document.ofTokens, hfeed]
    rcases Builder.feed rules .start ts with ⟨m, stop | e⟩ <;> rfl
  · cases h : Builder.feed rules .start ts with
    | mk m r =>
      rw [h] at hfeed
      cases r with
      | error e =>
        rw [Builder.value_ofTokens_of_error h, Builder.value_ofTokens_of_error hfeed]
        exact Or.inl rfl
      | ok stop =>
        rw [Builder.value_ofTokens_of_ok h, Builder.value_ofTokens_of_ok hfeed]
        cases stop with
        | some span => exact Or.inl rfl
        | none =>
          have htakes : Builder.Takes rules .start ts m := h
          cases hroot : m.root with
          | some root =>
            rw [Builder.result_of_root hroot, Builder.result_of_root hroot]
            exact Or.inl rfl
          | none =>
            rw [Builder.result_of_no_root hroot, Builder.result_of_no_root hroot]
            exact Or.inr ⟨htakes.isEof_eq, m.missing, m.missing_cases, rfl, rfl⟩

end TaggedText
