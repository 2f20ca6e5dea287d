/-
The limit on levels.

With a limit a builder takes the same steps as without, until a tag would open an element inside as many others as the
limit allows levels (`step_of_lt`, `step_of_le`). As no more elements than that are ever open (`Step.depth_le`), this is
the first opening tag that the builder without the limit comes to at the level below (`feed_limited`).

`limit_bounds_depth` says what this means for documents: those that are built are those built without the limit whose
depth it allows, and errors are the same unless such a tag comes first.
-/
import TaggedText.Proofs.Feeding
import TaggedText.Proofs.Trimming

namespace TaggedText

namespace Builder

variable {trim : Bool} {limit : Nat} {reserve : Option Nat} {b m : Builder}

/-! ## One step -/

theorem openElement_of_lt (h : b.depth < limit) (tag : Tag) :
    b.openElement ⟨trim, some limit, reserve⟩ tag = b.openElement ⟨trim, none, reserve⟩ tag := by
  have hlimit : b.limitReached? ⟨trim, some limit, reserve⟩ = none := by
    refine limitReached?_eq_none_iff.2 ?_
    intro levels hlevels
    cases hlevels
    exact h
  have hnone : b.limitReached? ⟨trim, none, reserve⟩ = none := rfl
  simp only [openElement, hlimit, hnone]

theorem openElement_of_le (h : limit ≤ b.depth) (tag : Tag) :
    b.openElement ⟨trim, some limit, reserve⟩ tag = .error (.tooDeep limit) := by
  have hlimit : b.limitReached? ⟨trim, some limit, reserve⟩ = some limit :=
    Option.filter_eq_some_iff.2 ⟨rfl, decide_eq_true h⟩
  simp only [openElement, hlimit]

/-- below the limit, and on tags that open nothing, it makes no difference -/
theorem step_of_lt {t : Token} (h : t.piece.Opens → b.depth < limit) :
    b.step ⟨trim, some limit, reserve⟩ t = b.step ⟨trim, none, reserve⟩ t := by
  unfold step
  cases hkind : t.kind with
  | tag =>
    cases hread : Tag.read t.text with
    | error e => rfl
    | ok tag =>
      have htag : t.piece.IsTag tag := ⟨hkind, hread⟩
      simp only [addTag]
      cases hform : tag.form with
      | opening => exact openElement_of_lt (h ⟨tag, htag, Or.inl hform⟩) tag
      | selfClosing =>
        have hopen : b.openElement ⟨trim, some limit, reserve⟩ tag = b.openElement ⟨trim, none, reserve⟩ tag :=
          openElement_of_lt (h ⟨tag, htag, Or.inr hform⟩) tag
        simp only [hopen]
        cases b.openElement ⟨trim, none, reserve⟩ tag <;> rfl
      | _ => rfl
  | _ => rfl

/-- at the limit, tags that open an element are refused, whatever else may be wrong with them -/
theorem step_of_le {t : Token} (hopens : t.piece.Opens) (h : limit ≤ b.depth) :
    b.step ⟨trim, some limit, reserve⟩ t = .error (.tooDeep limit) := by
  obtain ⟨tag, htag, hform⟩ := hopens
  rw [step_of_isTag htag, addTag]
  rcases hform with hform | hform
  · simp only [hform]
    exact openElement_of_le h tag
  · simp only [hform, openElement_of_le h tag]

/-- no more elements than the limit are ever open -/
theorem Step.depth_le {p : Piece} {b' : Builder} (h : Step ⟨trim, some limit, reserve⟩ b p b') (hb : b.depth ≤ limit) :
    b'.depth ≤ limit := by
  cases h with
  | opened tag htag hform hlimit htext => exact hlimit limit rfl
  | closed top below attributes htag hstack => exact (Nat.sub_le b.depth 1).trans hb
  | whole tag htag hform hlimit htext => exact (Nat.sub_le (b.depth + 1) 1).trans (hlimit limit rfl)
  | _ => exact hb

/-! ## All steps -/

/-- a builder that takes the tokens before it comes to a tag that opens an element inside `level` others -/
def OpensAt (rules : BuildRules) (b : Builder) (level : Nat) (ts : List Token) : Prop :=
  ∃ before t after m, ts = before ++ t :: after ∧ Takes rules b before m ∧ m.root = none ∧ t.piece.Opens ∧
    m.depth = level

theorem Piece.Opens.isEof_eq {t : Token} (h : t.piece.Opens) : t.isEof = false := by
  obtain ⟨tag, ⟨hkind, -⟩, -⟩ := h
  have htag : t.kind = .tag := hkind
  simp [Token.isEof, htag]

theorem not_opensAt_nil {rules : BuildRules} {level : Nat} : ¬ OpensAt rules b level [] := by
  intro hopens
  obtain ⟨before, t, after, m, heq, -⟩ := hopens
  exact List.append_ne_nil_of_right_ne_nil before (List.cons_ne_nil t after) heq.symm

theorem opensAt_cons_iff {rules : BuildRules} {level : Nat} {t : Token} {ts : List Token} :
    OpensAt rules b level (t :: ts) ↔
      (b.root = none ∧ t.piece.Opens ∧ b.depth = level) ∨ ∃ m, Takes rules b [t] m ∧ OpensAt rules m level ts := by
  refine ⟨?_, ?_⟩
  · intro hopens
    obtain ⟨before, u, after, n, heq, hbefore, hroot, hu, hdepth⟩ := hopens
    cases before with
    | nil =>
      obtain ⟨rfl, -⟩ := List.cons.inj heq
      obtain rfl := hbefore.unique (Takes.nil rules b)
      exact Or.inl ⟨hroot, hu, hdepth⟩
    | cons x before =>
      obtain ⟨rfl, rfl⟩ := List.cons.inj heq
      obtain ⟨m, hm, hbefore⟩ := takes_cons_iff.1 hbefore
      exact Or.inr ⟨m, hm, before, u, after, n, rfl, hbefore, hroot, hu, hdepth⟩
  · intro hopens
    rcases hopens with ⟨hroot, ht, hdepth⟩ | ⟨m, hm, before, u, after, n, rfl, hbefore, hroot, hu, hdepth⟩
    · exact ⟨[], t, ts, b, rfl, Takes.nil rules b, hroot, ht, hdepth⟩
    · exact ⟨t :: before, u, after, n, rfl, takes_cons_iff.2 ⟨m, hm, hbefore⟩, hroot, hu, hdepth⟩

/-- **All steps.** The limit makes no difference unless an opening tag is come to at the level below it, and then the
first such tag is the error. -/
theorem feed_limited (trim : Bool) (reserve : Option Nat) (ts : List Token) (hb : b.depth ≤ limit) :
    (feed ⟨trim, some limit, reserve⟩ b ts = feed ⟨trim, none, reserve⟩ b ts ∧
        ¬ OpensAt ⟨trim, none, reserve⟩ b limit ts) ∨
      ((∃ m location, feed ⟨trim, some limit, reserve⟩ b ts = (m, .error ⟨.tooDeep limit, location⟩)) ∧
        OpensAt ⟨trim, none, reserve⟩ b limit ts) := by
  induction ts generalizing b with
  | nil => exact Or.inl ⟨rfl, not_opensAt_nil⟩
  | cons t ts ih =>
    by_cases hfirst : b.root = none ∧ t.piece.Opens ∧ b.depth = limit
    · obtain ⟨hroot, hopens, hdepth⟩ := hfirst
      have hhalts : Halts ⟨trim, some limit, reserve⟩ b t ts (.error ⟨.tooDeep limit, t.span.location⟩) :=
        .refused _ (Piece.Opens.isEof_eq hopens) hroot (step_of_le hopens hdepth.ge)
      exact Or.inr ⟨⟨b, t.span.location, hhalts.feed_eq⟩, opensAt_cons_iff.2 (Or.inl ⟨hroot, hopens, hdepth⟩)⟩
    · have hstep : b.root = none →
          b.step ⟨trim, some limit, reserve⟩ t = (b.step ⟨trim, none, reserve⟩ t).map id := by
        intro hroot
        have hlt : t.piece.Opens → b.depth < limit :=
          fun hopens => lt_of_le_of_ne hb fun hdepth => hfirst ⟨hroot, hopens, hdepth⟩
        rw [step_of_lt hlt, Except.map_id]
        rfl
      rcases takes_or_halts ⟨trim, none, reserve⟩ b t ts with ⟨m, hm⟩ | ⟨r, hr⟩
      · have hm' : Takes ⟨trim, some limit, reserve⟩ b [t] m := hm.map (f := id) rfl hstep
        have hdepth : m.depth ≤ limit := hm'.preserves (fun _ _ _ hstep hle => hstep.depth_le hle) hb
        have hopens : OpensAt ⟨trim, none, reserve⟩ b limit (t :: ts) ↔ OpensAt ⟨trim, none, reserve⟩ m limit ts := by
          rw [opensAt_cons_iff, or_iff_right hfirst]
          exact ⟨fun ⟨n, hn, h⟩ => hn.unique hm ▸ h, fun h => ⟨m, hm, h⟩⟩
        rw [feed_of_takes hm, feed_of_takes hm', hopens]
        exact ih hdepth
      · have hr' : Halts ⟨trim, some limit, reserve⟩ b t ts r := hr.map (f := id) rfl hstep
        have hopens : ¬ OpensAt ⟨trim, none, reserve⟩ b limit (t :: ts) := by
          rw [opensAt_cons_iff, or_iff_right hfirst]
          exact fun ⟨n, hn, _⟩ => hr.not_takes hn
        exact Or.inl ⟨by rw [hr.feed_eq, hr'.feed_eq], hopens⟩

/-! ## Without a limit -/

theorem missing_ne_tooDeep (b : Builder) : b.missing ≠ .tooDeep limit :=
  b.missing_ne (fun _ _ => BuildFault.noConfusion) BuildFault.noConfusion

theorem Fails.ne_tooDeep {rules : BuildRules} {t : Token} {rest : List Token} {fault : BuildFault}
    (h : Fails rules b t rest fault) (hnone : rules.maxDepth = none) : fault ≠ .tooDeep limit := by
  cases h with
  | ended heof hroot => exact missing_ne_tooDeep b
  | trailing heof hroot hfiller =>
    exact trailingFault_ne t rest (fun _ => BuildFault.noConfusion) fun _ => BuildFault.noConfusion
  | refused fault heof hroot hrefused =>
    intro h
    subst h
    cases refuses_of_step hrefused with
    | deep _ _ hmax =>
      rw [hnone] at hmax
      cases hmax

/-- nothing is too deep without a limit -/
theorem ofTokens_ne_tooDeep {rules : BuildRules} (hnone : rules.maxDepth = none) (ts : List Token)
    (location : Location) : (Document.ofTokens rules ts).value ≠ .error ⟨.tooDeep limit, location⟩ := by
  intro h
  rcases ofTokens_eq_error_iff.1 h with ⟨m, -, -, he⟩ | ⟨before, t, after, m, fault, -, -, hfails, he⟩
  · exact missing_ne_tooDeep m (congrArg BuildError.fault he).symm
  · exact hfails.ne_tooDeep hnone (congrArg BuildError.fault he).symm

end Builder

/-- a document is built with a limit if it is built without and the limit allows its height -/
theorem Document.ofTokens_limited_eq_ok_iff {trim : Bool} {limit : Nat} {reserve : Option Nat} {ts : List Token}
    {d : Document} :
    (ofTokens ⟨trim, some limit, reserve⟩ ts).value = .ok d ↔
      (ofTokens ⟨trim, none, reserve⟩ ts).value = .ok d ∧ d.root.height ≤ limit := by
  have hsettled : ∀ original : Document, BuildRules.settledDocument ⟨trim, some limit, reserve⟩ original =
      BuildRules.settledDocument ⟨trim, none, reserve⟩ original := fun _ => rfl
  rw [ofTokens_eq_ok_iff, ofTokens_eq_ok_iff]
  refine ⟨?_, ?_⟩
  · intro h
    obtain ⟨before, last, after, original, hlive, hafter, hspelled, hallows, rfl⟩ := h
    refine ⟨⟨before, last, after, original, hlive, hafter, hspelled, ?_, hsettled original⟩, ?_⟩
    · intro levels hlevels
      cases hlevels
    · exact (BuildRules.height_settled _ original.root).le.trans (hallows limit rfl)
  · intro h
    obtain ⟨⟨before, last, after, original, hlive, hafter, hspelled, -, rfl⟩, hheight⟩ := h
    refine ⟨before, last, after, original, hlive, hafter, hspelled, ?_, (hsettled original).symm⟩
    intro levels hlevels
    cases hlevels
    exact (BuildRules.height_settled _ original.root).ge.trans hheight

/-- where building fails without a limit, it fails with it for the same error or for the depth, the latter exactly if
the limit is come to -/
theorem Document.ofTokens_limited_of_error {trim : Bool} {limit : Nat} {reserve : Option Nat} {ts : List Token}
    {e : BuildError} (he : (ofTokens ⟨trim, none, reserve⟩ ts).value = .error e) :
    ((ofTokens ⟨trim, some limit, reserve⟩ ts).value = .error e ∨
        ∃ location, (ofTokens ⟨trim, some limit, reserve⟩ ts).value = .error ⟨.tooDeep limit, location⟩) ∧
      ((∃ location, (ofTokens ⟨trim, some limit, reserve⟩ ts).value = .error ⟨.tooDeep limit, location⟩) ↔
        Builder.OpensAt ⟨trim, none, reserve⟩ .start limit ts) := by
  have hstart : Builder.start.depth ≤ limit := Nat.zero_le limit
  rcases Builder.feed_limited trim reserve ts hstart with ⟨hfeed, hopens⟩ | ⟨⟨m, location, hfeed⟩, hopens⟩
  · have hsame : (ofTokens ⟨trim, some limit, reserve⟩ ts).value = .error e := by
      rw [← he]
      simp only [ofTokens, hfeed]
    refine ⟨Or.inl hsame, iff_of_false ?_ hopens⟩
    intro hdeep
    obtain ⟨location, hdeep⟩ := hdeep
    rw [hsame, ← he] at hdeep
    exact Builder.ofTokens_ne_tooDeep rfl ts location hdeep
  · have hdeep := Builder.value_ofTokens_of_error hfeed
    exact ⟨Or.inr ⟨location, hdeep⟩, iff_of_true ⟨location, hdeep⟩ hopens⟩

/-- **The limit bounds the depth.** With a limit exactly those documents are built, and read, that are so without it and
are no deeper. Where building fails without it, it fails with it for the same error or for the depth, the latter exactly
if an opening or self-closing tag inside as many elements as the limit is come to before the failure, or is itself the
failure. -/
theorem limit_bounds_depth (trim : Bool) (limit : Nat) (reserve : Option Nat) :
    (∀ ts d, (Document.ofTokens ⟨trim, some limit, reserve⟩ ts).value = .ok d ↔
      (Document.ofTokens ⟨trim, none, reserve⟩ ts).value = .ok d ∧ d.root.depth ≤ limit) ∧
    (∀ s d, Document.read ⟨trim, some limit, reserve⟩ s = .ok d ↔
      Document.read ⟨trim, none, reserve⟩ s = .ok d ∧ d.root.depth ≤ limit) ∧
    ∀ ts e, (Document.ofTokens ⟨trim, none, reserve⟩ ts).value = .error e →
      ((Document.ofTokens ⟨trim, some limit, reserve⟩ ts).value = .error e ∨
        ∃ location, (Document.ofTokens ⟨trim, some limit, reserve⟩ ts).value = .error ⟨.tooDeep limit, location⟩) ∧
      ((∃ location, (Document.ofTokens ⟨trim, some limit, reserve⟩ ts).value = .error ⟨.tooDeep limit, location⟩) ↔
        Builder.OpensAt ⟨trim, none, reserve⟩ .start limit ts) := by
  have hbuilt : ∀ ts d, (Document.ofTokens ⟨trim, some limit, reserve⟩ ts).value = .ok d ↔
      (Document.ofTokens ⟨trim, none, reserve⟩ ts).value = .ok d ∧ d.root.depth ≤ limit := by
    intro ts d
    rw [Element.depth_eq_height]
    exact Document.ofTokens_limited_eq_ok_iff
  refine ⟨hbuilt, ?_, fun ts e he => Document.ofTokens_limited_of_error he⟩
  intro s d
  rcases Document.read_cases s with ⟨e, he⟩ | ⟨ts, hts⟩
  · rw [he, he]
    exact iff_of_false (fun h => by cases h) (fun h => by cases h.1)
  · rw [hts, hts]
    exact hbuilt ts d

/-- a closing tag with a wrong name inside two elements; with one level allowed, the second element is too deep before
that -/
theorem limit_bounds_depth_wrongClosing :
    ∃ ts e, (Document.ofTokens ⟨false, none, none⟩ ts).value = .error e ∧ e.fault = .wrongClosing ['b'] ['a'] 2 ∧
      Builder.OpensAt ⟨false, none, none⟩ .start 1 ts := by
  obtain ⟨he, hdeep⟩ :
      (Document.ofTokens ⟨false, none, none⟩ [⟨.tag, "<a>".toList, .nowhere⟩, ⟨.tag, "<b>".toList, .nowhere⟩,
        ⟨.tag, "</a>".toList, .nowhere⟩]).value = .error ⟨.wrongClosing ['b'] ['a'] 2, Span.nowhere.location⟩ ∧
      (Document.ofTokens ⟨false, some 1, none⟩ [⟨.tag, "<a>".toList, .nowhere⟩, ⟨.tag, "<b>".toList, .nowhere⟩,
        ⟨.tag, "</a>".toList, .nowhere⟩]).value = .error ⟨.tooDeep 1, Span.nowhere.location⟩ := ⟨by cbv, by cbv⟩
  exact ⟨_, _, he, rfl, ((limit_bounds_depth false 1 none).2.2 _ _ he).2.1 ⟨_, hdeep⟩⟩

end TaggedText
