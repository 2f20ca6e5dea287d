/-
The first wrong token.

Building fails at the first token after which no tokens make a document any more, and what is told of it does not
depend on what follows, except for a count of it after the root (`BuildFault.followedBy`). Before that token a document
can always be completed: the names of open elements are names (`Takes.named`), so that their closing tags lead to a root
(`takes_closings_iff`), and one self-closing tag makes a document where nothing is open.

`fails_at_first_wrong_token` puts this together for all tokens and rules, but for those that allow no element at all.
-/
import TaggedText.Proofs.Feeding
import TaggedText.Proofs.WrittenText

namespace TaggedText

/-- what is told when the tokens `w` follow the wrong one: what comes after the root is counted, the first included -/
def BuildFault.followedBy (w : List Token) : BuildFault → BuildFault
  | .trailing _ => .trailing (1 + w.countP fun t => !t.isFiller && !t.isEof)
  | fault => fault

def Token.closing (name : Text) : Token :=
  ⟨.tag, Tag.text .closing name [], .nowhere⟩

def Token.selfClosing (name : Text) : Token :=
  ⟨.tag, Tag.text .selfClosing name [], .nowhere⟩

theorem Token.isTag_closing {name : Text} (h : Name.isName name = true) :
    (closing name).piece.IsTag ⟨.closing, name, .empty⟩ :=
  Element.isTag_closing h

theorem Token.isTag_selfClosing {name : Text} (h : Name.isName name = true) :
    (selfClosing name).piece.IsTag ⟨.selfClosing, name, .empty⟩ := by
  have htag : (Tag.piece .selfClosing name []).IsTag ⟨.selfClosing, name, .empty⟩ :=
    Tag.isTag_piece (by decide) h (fun hform => by cases hform) rfl
  exact htag

namespace Builder

variable {rules : BuildRules} {b m : Builder}

/-! ## The names of open elements -/

theorem map_name_expectChild (stack : List Frame) : (expectChild stack).map (·.name) = stack.map (·.name) := by
  unfold expectChild
  split <;> rfl

theorem map_name_giveChild (child : Element) (stack : List Frame) :
    (giveChild child stack).map (·.name) = stack.map (·.name) := by
  cases stack with
  | nil => rfl
  | cons f below =>
    obtain ⟨name, attributes, held⟩ := f
    cases held <;> rfl

def Named (b : Builder) : Prop :=
  ∀ name ∈ b.stack.map (·.name), Name.isName name = true

theorem Step.named {p : Piece} {b' : Builder} (h : Step rules b p b') (hb : b.Named) : b'.Named := by
  cases h with
  | idle => exact hb
  | given i hi hstarted hnone => exact hb
  | opened tag htag hform hlimit htext =>
    have hname : Name.isName tag.name = true := (Tag.read_eq_ok_iff.1 htag.2).1
    have hstack : (b.push tag).stack.map (·.name) = tag.name :: b.stack.map (·.name) :=
      congrArg (tag.name :: ·) (map_name_expectChild b.stack)
    rw [Named, hstack]
    exact List.forall_mem_cons.2 ⟨hname, hb⟩
  | closed top below attributes htag hstack =>
    have hbelow : (b.pop top.name (finished rules top) below (depth_of_stack hstack)).stack.map (·.name) =
        below.map (·.name) := map_name_giveChild _ below
    rw [Named, hstack, List.map_cons] at hb
    rw [Named, hbelow]
    exact (List.forall_mem_cons.1 hb).2
  | whole tag htag hform hlimit htext =>
    have hstack : ((b.push tag).pop tag.name (finished rules (frameOf tag)) (expectChild b.stack)
        (depth_of_stack rfl)).stack.map (·.name) = b.stack.map (·.name) :=
      (map_name_giveChild _ _).trans (map_name_expectChild b.stack)
    rw [Named, hstack]
    exact hb
  | text top below held hkind hne hstack hheld =>
    rw [Named, hstack] at hb
    exact hb

theorem Takes.named {ts : List Token} (h : Takes rules start ts m) : m.Named := by
  refine h.preserves (fun _ _ _ hstep hnamed => hstep.named hnamed) ?_
  intro name hname
  cases hname

/-! ## Completion -/

theorem takes_of_step {t : Token} (heof : t.isEof = false) (hroot : b.root = none) (h : Step rules b t.piece m) :
    Takes rules b [t] m :=
  takes_singleton_iff.2 ⟨heof, Or.inr ⟨hroot, step_eq_ok_iff.2 h⟩⟩

theorem step_closing {name : Text} (h : Name.isName name = true) :
    b.step rules (Token.closing name) = b.closeElement rules name := by
  have hread : Tag.read (Token.closing name).text = .ok ⟨.closing, name, .empty⟩ := (Token.isTag_closing h).2
  unfold step
  simp only [hread]
  rfl

theorem takes_closing_iff {name : Text} (h : Name.isName name = true) :
    Takes rules b [Token.closing name] m ↔
      b.root = none ∧ ∃ top below, ∃ hstack : b.stack = top :: below,
        top.name = name ∧ m = b.pop name (finished rules top) below (depth_of_stack hstack) := by
  rw [takes_singleton_iff, step_closing h, closeElement_eq_ok_iff]
  refine ⟨?_, ?_⟩
  · intro ⟨_, hcases⟩
    rcases hcases with ⟨-, hfiller, -⟩ | htaken
    · cases hfiller
    · exact htaken
  · intro htaken
    exact ⟨rfl, Or.inr htaken⟩

/-- closing tags lead to a root exactly if there is one and they are none, or if they close the open elements, the
innermost first -/
theorem takes_closings_iff {names : List Text} (h : ∀ n ∈ names, Name.isName n = true) :
    (∃ m, Takes rules b (names.map Token.closing) m ∧ m.root.isSome = true) ↔
      (b.root.isSome = true ∧ names = []) ∨ (b.root = none ∧ b.stack ≠ [] ∧ names = b.stack.map (·.name)) := by
  induction names generalizing b with
  | nil =>
    refine ⟨?_, ?_⟩
    · intro hm
      obtain ⟨m, hm, hroot⟩ := hm
      cases hm
      exact Or.inl ⟨hroot, rfl⟩
    · intro hcases
      rcases hcases with ⟨hroot, -⟩ | ⟨-, hstack, hnames⟩
      · exact ⟨b, Takes.nil rules b, hroot⟩
      · exact absurd (List.map_eq_nil_iff.1 hnames.symm) hstack
  | cons name names ih =>
    obtain ⟨hname, hnames⟩ := List.forall_mem_cons.1 h
    -- after the first of them, the next elements are open, or the root is closed
    have hpopped : ∀ {top below} (hstack : b.stack = top :: below), b.root = none →
        ((∃ m, Takes rules (b.pop name (finished rules top) below (depth_of_stack hstack)) (names.map Token.closing) m ∧
          m.root.isSome = true) ↔ names = below.map (·.name)) := by
      intro top below hstack hroot
      rw [ih hnames]
      cases below with
      | nil => simp [pop]
      | cons parent others =>
        have hmap := map_name_giveChild (finished rules top) (parent :: others)
        simp only [pop, hmap]
        simp [hroot, giveChild]
    refine ⟨?_, ?_⟩
    · intro hm
      obtain ⟨m, hm, hsome⟩ := hm
      obtain ⟨n, hn, hrest⟩ := takes_cons_iff.1 hm
      obtain ⟨hroot, top, below, hstack, rfl, rfl⟩ := (takes_closing_iff hname).1 hn
      have hbelow := (hpopped hstack hroot).1 ⟨m, hrest, hsome⟩
      refine Or.inr ⟨hroot, ?_, ?_⟩
      · rw [hstack]
        exact List.cons_ne_nil top below
      · rw [hstack, List.map_cons, hbelow]
    · intro hcases
      rcases hcases with ⟨-, hnil⟩ | ⟨hroot, -, hnames'⟩
      · cases hnil
      · obtain ⟨top, below, hstack, rfl, hbelow⟩ := List.map_eq_cons_iff.1 hnames'.symm
        obtain ⟨m, hm, hsome⟩ := (hpopped hstack hroot).2 hbelow.symm
        exact ⟨m, takes_cons_iff.2 ⟨_, (takes_closing_iff hname).2 ⟨hroot, top, below, hstack, rfl, rfl⟩, hm⟩, hsome⟩

/-- an element alone is a document -/
theorem exists_takes_selfClosing (hallows : rules.Allows 1) (hroot : b.root = none) (hstack : b.stack = []) :
    ∃ m, Takes rules b [Token.selfClosing ['a']] m ∧ m.root.isSome = true := by
  have htag : (Token.selfClosing ['a']).piece.IsTag ⟨.selfClosing, ['a'], .empty⟩ := Token.isTag_selfClosing (by decide)
  have hdepth : b.depth = 0 := by rw [b.depth_eq, hstack]; rfl
  have hlimit : rules.Allows (b.depth + 1) := by rwa [hdepth]
  have htext : textHolder? b.stack = none := by rw [hstack]; rfl
  refine ⟨_, takes_of_step rfl hroot (.whole _ htag rfl hlimit htext), ?_⟩
  simp [pop, hstack, expectChild]

/-- **Completion.** Whatever tokens are taken, they begin those of a document. -/
theorem exists_document_of_takes {ts : List Token} (hallows : rules.Allows 1) (h : Takes rules start ts m) :
    ∃ w d, (Document.ofTokens rules (ts ++ w)).value = .ok d := by
  have hcomplete : ∃ w n, Takes rules m w n ∧ n.root.isSome = true := by
    cases hroot : m.root with
    | some root => exact ⟨[], m, Takes.nil rules m, by rw [hroot]; rfl⟩
    | none =>
      by_cases hstack : m.stack = []
      · exact ⟨_, exists_takes_selfClosing hallows hroot hstack⟩
      · exact ⟨_, (takes_closings_iff h.named).2 (Or.inr ⟨hroot, hstack, rfl⟩)⟩
  obtain ⟨w, n, hw, hsome⟩ := hcomplete
  obtain ⟨root, hroot⟩ := Option.isSome_iff_exists.1 hsome
  have hfeed : feed rules start (ts ++ w) = (n, .ok none) := (h.feed_append w).trans hw
  refine ⟨w, ⟨root, n.instructions.getD .none⟩, ?_⟩
  rw [value_ofTokens_of_ok hfeed, result_of_root hroot]

/-! ## What follows the wrong token -/

theorem followedBy_missing (b : Builder) (w : List Token) : b.missing.followedBy w = b.missing := by
  unfold missing
  split_ifs <;> rfl

theorem followedBy_trailingFault {t : Token} (heof : t.isEof = false) (hfiller : t.isFiller = false)
    (rest w : List Token) : (trailingFault t rest).followedBy w = trailingFault t w := by
  rcases trailingFault_cases t with ⟨name, hname⟩ | hcount
  · rw [hname, hname]
    rfl
  · have hfirst : countSignificant (t :: w) = countSignificant w + 1 :=
      List.countP_cons_of_pos (by simp [heof, hfiller])
    rw [hcount, hcount, hfirst, Nat.add_comm]
    rfl

theorem Refuses.followedBy_eq {p : Piece} {fault : BuildFault} (h : Refuses rules b p fault) (w : List Token) :
    fault.followedBy w = fault := by
  cases h <;> rfl

/-- a failure at a token stays one whatever follows, and only the count of what follows is told of it -/
theorem Fails.followedBy {t : Token} {rest : List Token} {fault : BuildFault} (h : Fails rules b t rest fault)
    (w : List Token) : Fails rules b t w (fault.followedBy w) := by
  cases h with
  | ended heof hroot =>
    rw [followedBy_missing]
    exact .ended heof hroot
  | trailing heof hroot hfiller =>
    rw [followedBy_trailingFault heof hfiller]
    exact .trailing heof hroot hfiller
  | refused fault heof hroot hrefused =>
    rw [(refuses_of_step hrefused).followedBy_eq]
    exact .refused fault heof hroot hrefused

end Builder

theorem BuildRules.allows_one_of_ne {rules : BuildRules} (h : rules.maxDepth ≠ some 0) : rules.Allows 1 := by
  intro limit hlimit
  refine Nat.one_le_iff_ne_zero.2 fun hzero => h ?_
  rw [hlimit, hzero]

/-- **The first wrong token.** Unless the rules allow no element at all, building fails in one of two ways. Either there
is no end token, the root or the ends of elements are missing after the last token, and further tokens make a document
of all. Or it fails at a token such that further tokens make a document of those before it, while with it building
fails for the same fault at the same place whatever follows, except that what follows the root is counted. -/
theorem fails_at_first_wrong_token {rules : BuildRules} {ts : List Token} {e : BuildError}
    (hlimit : rules.maxDepth ≠ some 0) (h : (Document.ofTokens rules ts).value = .error e) :
    ((∀ t ∈ ts, t.isEof = false) ∧ ((∃ names, e.fault = .unclosed names.length names) ∨ e.fault = .reading .endOfInput) ∧
        e.location = (Builder.lastSpan ts).location ∧ ∃ w d, (Document.ofTokens rules (ts ++ w)).value = .ok d) ∨
      ∃ before t after, ts = before ++ t :: after ∧ e.location = t.span.location ∧
        (∃ w d, (Document.ofTokens rules (before ++ w)).value = .ok d) ∧
        ∀ w, (Document.ofTokens rules (before ++ t :: w)).value = .error ⟨e.fault.followedBy w, e.location⟩ := by
  have hallows : rules.Allows 1 := BuildRules.allows_one_of_ne hlimit
  rcases Builder.ofTokens_eq_error_iff.1 h with
    ⟨m, hm, hroot, rfl⟩ | ⟨before, t, after, m, fault, rfl, hbefore, hfails, rfl⟩
  · exact Or.inl ⟨hm.isEof_eq, m.missing_cases, rfl, Builder.exists_document_of_takes hallows hm⟩
  · refine Or.inr ⟨before, t, after, rfl, rfl, Builder.exists_document_of_takes hallows hbefore, ?_⟩
    intro w
    exact (hfails.followedBy w).value_eq hbefore

/-- a text and a closing tag after the root are two tokens too many, and the text is the wrong one of them -/
theorem fails_at_first_wrong_token_trailing :
    ∃ ts e, (Document.ofTokens ⟨false, some 1, none⟩ ts).value = .error e ∧ e.fault = .trailing 2 ∧
      ∃ before t after, ts = before ++ t :: after ∧ e.location = t.span.location ∧
        (∃ w d, (Document.ofTokens ⟨false, some 1, none⟩ (before ++ w)).value = .ok d) ∧
        ∀ w, (Document.ofTokens ⟨false, some 1, none⟩ (before ++ t :: w)).value =
          .error ⟨e.fault.followedBy w, e.location⟩ := by
  have h : (Document.ofTokens ⟨false, some 1, none⟩ [Token.selfClosing ['a'], ⟨.value, ['b'], .nowhere⟩,
      Token.closing ['a']]).value = .error ⟨.trailing 2, Span.nowhere.location⟩ := by cbv
  rcases fails_at_first_wrong_token (by decide) h with ⟨-, ⟨names, hnames⟩ | hend, -⟩ | hwrong
  · cases hnames
  · cases hend
  · exact ⟨_, _, h, rfl, hwrong⟩

end TaggedText
