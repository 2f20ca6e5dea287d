/-
The run of a builder.

`Builder.Step` lists what one token can do to a builder, guards included, and `step_eq_ok_iff` says that this is all
that `Builder.step` does. `Builder.run` takes pieces one after another. The end of a list is left out of a run:
`feed_iff` says how `Builder.feed` comes to a root: by a run that ends where the root closes, with fillers after it.
-/
import TaggedText.Proofs.DocumentGrammar

namespace TaggedText.Builder

/-! ## One step -/

/-- how many elements are open if one of them is known -/
theorem depth_of_stack {b : Builder} {top : Frame} {below : List Frame} (h : b.stack = top :: below) :
    b.depth = below.length + 1 := by
  rw [b.depth_eq, h, List.length_cons]

theorem depth_of_text {b : Builder} {top : Frame} {below : List Frame} (held : Held) (h : b.stack = top :: below) :
    b.depth = ({ top with held } :: below).length :=
  depth_of_stack h

theorem limitReached?_eq_none_iff {rules : BuildRules} {b : Builder} :
    b.limitReached? rules = none ↔ rules.Allows (b.depth + 1) := by
  simp only [limitReached?, Option.filter_eq_none_iff, BuildRules.Allows, decide_eq_true_eq, Nat.not_le]
  exact Iff.rfl

theorem openElement_eq_ok_iff {rules : BuildRules} {b b' : Builder} {tag : Tag} :
    b.openElement rules tag = .ok b' ↔
      rules.Allows (b.depth + 1) ∧ textHolder? b.stack = none ∧ b' = b.push tag := by
  rw [← limitReached?_eq_none_iff]
  unfold openElement
  refine ⟨?_, ?_⟩
  · intro h
    split at h
    · cases h
    · rename_i hlimit
      split at h
      · cases h
      · rename_i htext
        cases h
        exact ⟨hlimit, htext, rfl⟩
  · intro h
    obtain ⟨hlimit, htext, rfl⟩ := h
    rw [hlimit, htext]

theorem closeElement_of_nil {rules : BuildRules} {b : Builder} {name : Text} (h : b.stack = []) :
    b.closeElement rules name = .error (.strayClosing name) := by
  unfold closeElement
  split
  · rfl
  · rename_i top below hstack
    rw [h] at hstack
    cases hstack

theorem closeElement_of_cons {rules : BuildRules} {b : Builder} {top : Frame} {below : List Frame} {name : Text}
    (h : b.stack = top :: below) :
    b.closeElement rules name =
      if top.name = name then .ok (b.pop name (finished rules top) below (depth_of_stack h))
      else .error (.wrongClosing top.name name b.depth) := by
  unfold closeElement
  split
  · rename_i hstack
    rw [h] at hstack
    cases hstack
  · rename_i top' below' hstack
    rw [h] at hstack
    cases hstack
    rfl

theorem closeElement_eq_ok_iff {rules : BuildRules} {b b' : Builder} {name : Text} :
    b.closeElement rules name = .ok b' ↔
      ∃ top below, ∃ h : b.stack = top :: below,
        top.name = name ∧ b' = b.pop name (finished rules top) below (depth_of_stack h) := by
  refine ⟨?_, ?_⟩
  · intro h
    unfold closeElement at h
    split at h
    · cases h
    · rename_i top below hstack
      split_ifs at h with hname
      cases h
      exact ⟨top, below, hstack, hname, rfl⟩
  · intro h
    obtain ⟨top, below, hstack, hname, rfl⟩ := h
    rw [closeElement_of_cons hstack, if_pos hname]

/-- what a piece can do to a builder that takes it -/
inductive Step (rules : BuildRules) (b : Builder) (p : Piece) : Builder → Prop
  | idle (h : p.isIdle = true) : Step rules b p b
  | opened (tag : Tag) (htag : p.IsTag tag) (hform : tag.form = .opening) (hlimit : rules.Allows (b.depth + 1))
      (htext : textHolder? b.stack = none) : Step rules b p (b.push tag)
  | closed (top : Frame) (below : List Frame) (attributes : Attributes)
      (htag : p.IsTag ⟨.closing, top.name, attributes⟩) (h : b.stack = top :: below) :
      Step rules b p (b.pop top.name (finished rules top) below (depth_of_stack h))
  | whole (tag : Tag) (htag : p.IsTag tag) (hform : tag.form = .selfClosing) (hlimit : rules.Allows (b.depth + 1))
      (htext : textHolder? b.stack = none) :
      Step rules b p ((b.push tag).pop tag.name (finished rules (frameOf tag)) (expectChild b.stack)
        (depth_of_stack rfl))
  | given (i : Instructions) (h : p.IsInstructions i) (hstarted : b.started = false)
      (hnone : b.instructions = none) : Step rules b p { b with instructions := some i }
  | text (top : Frame) (below : List Frame) (held : Held) (hkind : p.kind = .value) (hne : p.text ≠ [])
      (h : b.stack = top :: below) (hheld : extendText p.text top.held = some held) :
      Step rules b p { b with stack := { top with held } :: below, depth_eq := depth_of_text held h }

theorem addText_eq_ok {b b' : Builder} {t : Text} (h : b.addText t = .ok b') :
    (t = [] ∧ b' = b) ∨ ∃ top below held, ∃ h : b.stack = top :: below, t ≠ [] ∧ extendText t top.held = some held ∧
      b' = { b with stack := { top with held } :: below, depth_eq := depth_of_text held h } := by
  unfold addText at h
  split_ifs at h with ht
  · cases h
    exact Or.inl ⟨ht, rfl⟩
  · split at h
    · cases h
    · rename_i top below hstack
      split at h
      · rename_i held hheld
        cases h
        exact Or.inr ⟨top, below, held, hstack, ht, hheld, rfl⟩
      · cases h

theorem addText_of_cons {b : Builder} {t : Text} {top : Frame} {below : List Frame} (ht : t ≠ [])
    (h : b.stack = top :: below) :
    b.addText t =
      match extendText t top.held with
      | some held => .ok { b with stack := { top with held } :: below, depth_eq := depth_of_text held h }
      | none => .error (.mixedContent top.name) := by
  unfold addText
  rw [if_neg ht]
  split
  · rename_i hnil
    rw [h] at hnil
    cases hnil
  · rename_i top' below' hstack'
    rw [h] at hstack'
    cases hstack'
    rfl

theorem addText_of_held {b : Builder} {t : Text} {top : Frame} {below : List Frame} {held : Held} (ht : t ≠ [])
    (h : b.stack = top :: below) (hheld : extendText t top.held = some held) :
    b.addText t = .ok { b with stack := { top with held } :: below, depth_eq := depth_of_text held h } := by
  simp only [addText_of_cons ht h, hheld]

theorem giveInstructions_eq_ok_iff {b b' : Builder} {tag : Tag} :
    b.giveInstructions tag = .ok b' ↔
      b.started = false ∧ b.instructions = none ∧ b' = { b with instructions := some ⟨tag.name, tag.attributes⟩ } := by
  unfold giveInstructions
  refine ⟨?_, ?_⟩
  · intro h
    split_ifs at h with hstarted hsome
    cases h
    exact ⟨Bool.eq_false_of_not_eq_true hstarted, by simpa using hsome, rfl⟩
  · intro h
    obtain ⟨hstarted, hnone, rfl⟩ := h
    rw [hstarted, hnone]
    rfl

/-! ### What is done is a step -/

variable {rules : BuildRules} {b b' : Builder}

theorem step_of_giveInstructions {p : Piece} {tag : Tag} (hkind : p.kind = .instructions ∨ p.kind = .tag)
    (hread : Tag.read p.text = .ok tag) (hform : tag.form = .instructions) (h : b.giveInstructions tag = .ok b') :
    Step rules b p b' := by
  obtain ⟨hstarted, hnone, rfl⟩ := giveInstructions_eq_ok_iff.1 h
  obtain ⟨form, name, attributes⟩ := tag
  obtain rfl : form = .instructions := hform
  exact .given ⟨name, attributes⟩ ⟨hkind, hread⟩ hstarted hnone

theorem step_of_addTag {p : Piece} {tag : Tag} (htag : p.IsTag tag) (h : b.addTag rules tag = .ok b') :
    Step rules b p b' := by
  unfold addTag at h
  split at h
  · rename_i hform
    obtain ⟨hlimit, htext, rfl⟩ := openElement_eq_ok_iff.1 h
    exact .opened tag htag hform hlimit htext
  · rename_i hform
    obtain ⟨top, below, hstack, hname, rfl⟩ := closeElement_eq_ok_iff.1 h
    obtain ⟨form, name, attributes⟩ := tag
    obtain rfl : form = .closing := hform
    obtain rfl : top.name = name := hname
    exact .closed top below attributes htag hstack
  · rename_i hform
    split at h
    · cases h
    · rename_i m hopen
      obtain ⟨hlimit, htext, rfl⟩ := openElement_eq_ok_iff.1 hopen
      obtain ⟨top, below, hstack, -, rfl⟩ := closeElement_eq_ok_iff.1 h
      obtain ⟨rfl, rfl⟩ := List.cons.inj hstack
      exact .whole tag htag hform hlimit htext
  · rename_i hform
    exact step_of_giveInstructions (Or.inr htag.1) htag.2 hform h

theorem step_of_addInstructions {p : Piece} (hkind : p.kind = .instructions) (h : b.addInstructions p.text = .ok b') :
    Step rules b p b' := by
  unfold addInstructions at h
  split at h
  · cases h
  · rename_i tag hread
    split_ifs at h with hform
    exact step_of_giveInstructions (Or.inl hkind) hread hform h

theorem step_of_addText {p : Piece} (hkind : p.kind = .value) (h : b.addText p.text = .ok b') : Step rules b p b' := by
  rcases addText_eq_ok h with ⟨ht, rfl⟩ | ⟨top, below, held, hstack, hne, hheld, rfl⟩
  · exact .idle (by simp [Piece.isIdle, hkind, ht])
  · exact .text top below held hkind hne hstack hheld

theorem step_of_eq_ok {t : Token} (h : b.step rules t = .ok b') : Step rules b t.piece b' := by
  unfold step at h
  split at h
  · rename_i hkind
    split at h
    · cases h
    · rename_i tag hread
      exact step_of_addTag ⟨hkind, hread⟩ h
  · rename_i hkind
    exact step_of_addInstructions hkind h
  · rename_i hkind
    exact step_of_addText hkind h
  all_goals
    rename_i hkind
    cases h
    exact .idle (by simp [Piece.isIdle, Token.piece, hkind])

/-! ### A step is done -/

theorem step_of_isTag {t : Token} {tag : Tag} (h : t.piece.IsTag tag) : b.step rules t = b.addTag rules tag := by
  obtain ⟨hkind, hread⟩ : t.kind = .tag ∧ Tag.read t.text = .ok tag := h
  simp only [step, hkind, hread]

theorem step_of_isInstructions {t : Token} {i : Instructions} (h : t.piece.IsInstructions i) :
    b.step rules t = b.giveInstructions ⟨.instructions, i.target, i.attributes⟩ := by
  obtain ⟨hkind, hread⟩ : (t.kind = .instructions ∨ t.kind = .tag) ∧
    Tag.read t.text = .ok ⟨.instructions, i.target, i.attributes⟩ := h
  rcases hkind with hkind | hkind
  · simp only [step, hkind, addInstructions, hread, if_true]
  · simp only [step, hkind, hread, addTag]

theorem Step.eq_ok {t : Token} (h : Step rules b t.piece b') : b.step rules t = .ok b' := by
  cases h with
  | idle h =>
    unfold step
    cases hkind : t.kind <;> simp_all [Piece.isIdle, Token.piece, addText]
  | opened tag htag hform hlimit htext =>
    rw [step_of_isTag htag, addTag, hform]
    exact openElement_eq_ok_iff.2 ⟨hlimit, htext, rfl⟩
  | closed top below attributes htag hstack =>
    rw [step_of_isTag htag, addTag]
    exact closeElement_eq_ok_iff.2 ⟨top, below, hstack, rfl, rfl⟩
  | whole tag htag hform hlimit htext =>
    have hopen : b.openElement rules tag = .ok (b.push tag) := openElement_eq_ok_iff.2 ⟨hlimit, htext, rfl⟩
    rw [step_of_isTag htag, addTag, hform]
    simp only [hopen]
    exact closeElement_eq_ok_iff.2 ⟨frameOf tag, expectChild b.stack, rfl, rfl, rfl⟩
  | given i hi hstarted hnone =>
    rw [step_of_isInstructions hi]
    exact giveInstructions_eq_ok_iff.2 ⟨hstarted, hnone, rfl⟩
  | text top below held hkind hne hstack hheld =>
    have hvalue : t.kind = .value := hkind
    simp only [step, hvalue]
    exact addText_of_held hne hstack hheld

/-- **One step.** What a builder does with a token is what a step with its kind and text can do. -/
theorem step_eq_ok_iff {t : Token} : b.step rules t = .ok b' ↔ Step rules b t.piece b' :=
  ⟨step_of_eq_ok, Step.eq_ok⟩

/-! ## Runs -/

/-- takes pieces one after another -/
def run (rules : BuildRules) (b : Builder) : List Piece → Except BuildFault Builder
  | [] => .ok b
  | p :: ps =>
    match b.step rules ⟨p.kind, p.text, .nowhere⟩ with
    | .ok b => run rules b ps
    | .error fault => .error fault

theorem run_cons_iff {p : Piece} {ps : List Piece} :
    run rules b (p :: ps) = .ok b' ↔ ∃ m, Step rules b p m ∧ run rules m ps = .ok b' := by
  have hstep : ∀ m, b.step rules ⟨p.kind, p.text, .nowhere⟩ = .ok m ↔ Step rules b p m := fun m => step_eq_ok_iff
  simp only [run]
  refine ⟨?_, ?_⟩
  · intro h
    split at h
    · rename_i m hm
      exact ⟨m, (hstep m).1 hm, h⟩
    · cases h
  · intro h
    obtain ⟨m, hm, h⟩ := h
    rw [(hstep m).2 hm]
    exact h

theorem run_append_iff {ps qs : List Piece} :
    run rules b (ps ++ qs) = .ok b' ↔ ∃ m, run rules b ps = .ok m ∧ run rules m qs = .ok b' := by
  induction ps generalizing b with
  | nil =>
    refine ⟨?_, ?_⟩
    · exact fun h => ⟨b, rfl, h⟩
    · intro h
      obtain ⟨m, hm, h⟩ := h
      cases hm
      exact h
  | cons p ps ih =>
    rw [List.cons_append, run_cons_iff]
    refine ⟨?_, ?_⟩
    · intro h
      obtain ⟨m, hm, h⟩ := h
      obtain ⟨n, hn, h⟩ := ih.1 h
      exact ⟨n, run_cons_iff.2 ⟨m, hm, hn⟩, h⟩
    · intro h
      obtain ⟨n, hn, h⟩ := h
      obtain ⟨m, hm, hn⟩ := run_cons_iff.1 hn
      exact ⟨m, hm, ih.2 ⟨n, hn, h⟩⟩

theorem run_singleton_iff {p : Piece} : run rules b [p] = .ok b' ↔ Step rules b p b' := by
  rw [run_cons_iff]
  refine ⟨?_, ?_⟩
  · intro h
    obtain ⟨m, hm, h⟩ := h
    cases h
    exact hm
  · exact fun h => ⟨b', h, rfl⟩

/-- nothing but idling can be done with a piece that means nothing -/
theorem Step.eq_of_idle {p : Piece} (h : Step rules b p b') (hp : p.isIdle = true) : b' = b := by
  obtain ⟨kind, t⟩ := p
  cases h with
  | idle => rfl
  | opened tag htag => cases htag.1; cases hp
  | closed top below attributes htag => cases htag.1; cases hp
  | whole tag htag => cases htag.1; cases hp
  | given i hi => rcases hi.1 with hkind | hkind <;> (cases hkind; cases hp)
  | text top below held hkind hne => cases hkind; exact absurd (List.isEmpty_iff.1 hp) hne

/-- pieces that mean nothing can be left out -/
theorem run_significant (ps : List Piece) :
    run rules b (Piece.significant ps) = .ok b' ↔ run rules b ps = .ok b' := by
  unfold Piece.significant
  induction ps generalizing b with
  | nil => exact Iff.rfl
  | cons p ps ih =>
    cases hp : p.isIdle with
    | true =>
      rw [List.filter_cons_of_neg (by simp [hp]), ih, run_cons_iff]
      refine ⟨?_, ?_⟩
      · exact fun h => ⟨b, .idle hp, h⟩
      · intro h
        obtain ⟨m, hm, h⟩ := h
        obtain rfl := hm.eq_of_idle hp
        exact h
    | false =>
      rw [List.filter_cons_of_pos (by simp [hp]), run_cons_iff, run_cons_iff]
      exact exists_congr fun m => and_congr_right fun _ => ih

/-- a root is never lost -/
theorem Step.root_isSome {p : Piece} (h : Step rules b p b') (hroot : b.root.isSome = true) :
    b'.root.isSome = true := by
  cases h with
  | closed top below => cases below <;> first | rfl | exact hroot
  | whole tag =>
    simp only [pop, push]
    split
    · rfl
    · exact hroot
  | _ => exact hroot

theorem run_root_isSome {ps : List Piece} (h : run rules b ps = .ok b') (hroot : b.root.isSome = true) :
    b'.root.isSome = true := by
  induction ps generalizing b with
  | nil =>
    cases h
    exact hroot
  | cons p ps ih =>
    obtain ⟨m, hm, h⟩ := run_cons_iff.1 h
    exact ih h (hm.root_isSome hroot)

/-! ## The end of a list -/

/-- the tokens that are looked at: those before the end token -/
def live (ts : List Token) : List Token :=
  ts.takeWhile fun t => !t.isEof

theorem live_cons_of_eof {t : Token} (h : t.isEof = true) (ts : List Token) : live (t :: ts) = [] :=
  List.takeWhile_cons_of_neg (by simp [h])

theorem live_cons {t : Token} (h : t.isEof = false) (ts : List Token) : live (t :: ts) = t :: live ts :=
  List.takeWhile_cons_of_pos (by simp [h])

theorem feed_nil_iff : (∃ stop, feed rules b [] = (b', .ok stop)) ↔ b' = b := by
  refine ⟨?_, ?_⟩
  · intro ⟨stop, h⟩
    cases h
    rfl
  · intro h
    subst h
    exact ⟨none, rfl⟩

theorem feed_eof_iff {t : Token} {ts : List Token} (h : t.isEof = true) :
    (∃ stop, feed rules b (t :: ts) = (b', .ok stop)) ↔ b' = b := by
  rw [feed, if_pos h]
  refine ⟨?_, ?_⟩
  · intro ⟨stop, h⟩
    cases h
    rfl
  · intro h
    subst h
    exact ⟨some t.span, rfl⟩

/-- once there is a root, fillers alone may follow -/
theorem feed_of_root {ts : List Token} (hroot : b.root.isSome = true) :
    (∃ stop, feed rules b ts = (b', .ok stop)) ↔ b' = b ∧ ∀ t ∈ live ts, t.isFiller = true := by
  induction ts with
  | nil =>
    rw [feed_nil_iff]
    exact (and_iff_left fun t ht => absurd ht List.not_mem_nil).symm
  | cons t ts ih =>
    cases heof : t.isEof with
    | true =>
      rw [feed_eof_iff heof, live_cons_of_eof heof]
      exact (and_iff_left fun t ht => absurd ht List.not_mem_nil).symm
    | false =>
      rw [feed, live_cons heof, hroot, List.forall_mem_cons]
      cases hfiller : t.isFiller with
      | true => simpa [heof] using ih
      | false => simp [heof]

/-- comes to a builder with its root by a run that ends where the root closes; fillers alone are left -/
def Closes (rules : BuildRules) (b : Builder) (ts : List Token) (b' : Builder) : Prop :=
  ∃ before last after m, ts = before ++ last :: after ∧ (∀ t ∈ after, t.isFiller = true) ∧
    run rules b (before.map Token.piece) = .ok m ∧ m.root = none ∧ Step rules m last.piece b'

theorem not_closes_nil : ¬ Closes rules b [] b' := by
  intro h
  obtain ⟨before, last, after, m, h, -⟩ := h
  exact List.append_ne_nil_of_right_ne_nil before (List.cons_ne_nil last after) h.symm

theorem closes_cons_iff {t : Token} {ts : List Token} :
    Closes rules b (t :: ts) b' ↔
      (b.root = none ∧ Step rules b t.piece b' ∧ ∀ t ∈ ts, t.isFiller = true) ∨
        ∃ m, Step rules b t.piece m ∧ Closes rules m ts b' := by
  refine ⟨?_, ?_⟩
  · intro h
    obtain ⟨before, last, after, m, h, hafter, hrun, hroot, hlast⟩ := h
    cases before with
    | nil =>
      obtain ⟨rfl, rfl⟩ := List.cons.inj h
      cases hrun
      exact Or.inl ⟨hroot, hlast, hafter⟩
    | cons x before =>
      obtain ⟨rfl, rfl⟩ := List.cons.inj h
      obtain ⟨n, hn, hrun⟩ := run_cons_iff.1 hrun
      exact Or.inr ⟨n, hn, before, last, after, m, rfl, hafter, hrun, hroot, hlast⟩
  · intro h
    rcases h with ⟨hroot, hlast, hafter⟩ | ⟨n, hn, before, last, after, m, rfl, hafter, hrun, hroot, hlast⟩
    · exact ⟨[], t, ts, b, rfl, hafter, rfl, hroot, hlast⟩
    · exact ⟨t :: before, last, after, m, rfl, hafter, run_cons_iff.2 ⟨n, hn, hrun⟩, hroot, hlast⟩

theorem Closes.root_eq_none {ts : List Token} (h : Closes rules b ts b') : b.root = none := by
  obtain ⟨before, last, after, m, -, -, hrun, hroot, -⟩ := h
  cases hb : b.root with
  | none => rfl
  | some root =>
    have hm := run_root_isSome hrun (by rw [hb]; rfl)
    rw [hroot] at hm
    cases hm

/-- **How a root is come to**: by a run over the tokens up to the one that closes it, and fillers after that. -/
theorem feed_iff {ts : List Token} (hroot : b.root = none) (hsome : b'.root.isSome = true) :
    (∃ stop, feed rules b ts = (b', .ok stop)) ↔ Closes rules b (live ts) b' := by
  -- a builder without a root is not the one that is come to
  have hopen : ∀ m : Builder, m.root = none → b' ≠ m := by
    intro m hm h
    rw [h, hm] at hsome
    cases hsome
  induction ts generalizing b with
  | nil =>
    rw [feed_nil_iff]
    exact iff_of_false (hopen b hroot) not_closes_nil
  | cons t ts ih =>
    cases heof : t.isEof with
    | true =>
      rw [feed_eof_iff heof, live_cons_of_eof heof]
      exact iff_of_false (hopen b hroot) not_closes_nil
    | false =>
      rw [feed, live_cons heof, closes_cons_iff, hroot]
      simp only [heof, Bool.false_eq_true, if_false, Option.isSome_none, true_and, ← step_eq_ok_iff]
      cases b.step rules t with
      | error fault => simp
      | ok n =>
        simp only [Except.ok.injEq, exists_eq_left']
        cases hn : n.root with
        | none =>
          refine (ih hn).trans ⟨Or.inr, ?_⟩
          intro h
          rcases h with ⟨h, -⟩ | hcloses
          · exact absurd h.symm (hopen n hn)
          · exact hcloses
        | some root =>
          rw [feed_of_root (by rw [hn]; rfl)]
          refine ⟨fun ⟨h, hafter⟩ => Or.inl ⟨h.symm, hafter⟩, ?_⟩
          intro h
          rcases h with ⟨h, hafter⟩ | hcloses
          · exact ⟨h.symm, hafter⟩
          · rw [hcloses.root_eq_none] at hn
            cases hn

end TaggedText.Builder
