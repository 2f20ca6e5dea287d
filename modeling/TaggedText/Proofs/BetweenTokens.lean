/-
Builders between two tokens.

`Builder.Consistent` says what holds of a builder in every state that it comes to between two tokens: what is open and
what is finished, and how these go with the root, the start and the limit. `Consistent.step` keeps it. An element that
is closed is given to one that already holds children, so that it comes after them: `Builder.Keeps` says of one token
that nothing held before it is lost, but for the blanks that are dropped when an element is closed.

Results:
- `Takes.consistent`: every state between two tokens is consistent;
- `consistent_between_tokens`: in all these states, elements are given to elements that hold children only, and no token
  overwrites a text or a child.
-/
import TaggedText.Proofs.Feeding
import TaggedText.Proofs.WellFormed

namespace TaggedText

/-! ## What is finished -/

/-- keys are names, and no value contains both quotes -/
def Attributes.Quotable (a : Attributes) : Prop :=
  ∀ e ∈ a.entries, Name.isName e.1 = true ∧ ¬ ('"' ∈ e.2 ∧ '\'' ∈ e.2)

/-- a text is not empty, and neither is a list of children -/
def Content.Filled : Content Element → Prop
  | .empty => True
  | .text t => t ≠ []
  | .children cs => cs ≠ []

/-- an element that was closed; what is inside it is not looked at -/
structure Element.Finished (e : Element) : Prop where
  name : Name.isName e.name = true
  attributes : e.attributes.Quotable
  content : e.content.Filled

/-- an open element: its tag was read, and all elements that it holds, at any depth, are finished -/
structure Frame.Sound (f : Frame) : Prop where
  name : Name.isName f.name = true
  attributes : f.attributes.Quotable
  children : ∀ c ∈ f.element.children, ∀ x ∈ c.preorder, x.Finished

theorem Tag.quotable_of_read {text : Text} {tag : Tag} (h : Tag.read text = .ok tag) :
    Name.isName tag.name = true ∧ tag.attributes.Quotable := by
  obtain ⟨hname, -, u, w, hu, -, -⟩ := read_eq_ok_iff.1 h
  refine ⟨hname, fun e he => ?_⟩
  obtain ⟨hkey, -, hquotes⟩ := hu.mem he
  exact ⟨hkey, hquotes⟩

theorem Content.Filled.trimmed {c : Content Element} (h : c.Filled) : c.trimmed.Filled := by
  cases c with
  | text t =>
    rw [Content.trimmed]
    split_ifs with hblank
    · exact trivial
    · exact hblank
  | _ => exact h

namespace Builder

variable {rules : BuildRules} {b b' m : Builder} {f top : Frame} {below stack : List Frame}

/-- a piece of text after what is held is a text that is not empty -/
theorem filled_of_extendText {t : Text} {held held' : Held} (ht : t ≠ []) (h : extendText t held = some held') :
    held'.content.Filled := by
  have hreverse : t.reverse ≠ [] := fun hnil => ht (List.reverse_eq_nil_iff.1 hnil)
  cases held with
  | empty =>
    cases h
    exact fun hnil => hreverse (List.reverse_eq_nil_iff.1 hnil)
  | text reversed =>
    cases h
    exact fun hnil => hreverse (List.append_eq_nil_iff.1 (List.reverse_eq_nil_iff.1 hnil)).1
  | children reversed => cases h

/-- closing an element finishes it, and leaves those inside it finished -/
theorem finished_of_sound (rules : BuildRules) (hf : f.Sound) (hfilled : f.element.content.Filled) :
    ∀ x ∈ (finished rules f).preorder, x.Finished := by
  intro x hx
  rcases Element.mem_preorder_iff.1 hx with rfl | ⟨c, hc, hx⟩
  · rw [finished_eq]
    refine ⟨hf.name, hf.attributes, ?_⟩
    simp only
    split_ifs
    · exact hfilled.trimmed
    · exact hfilled
  · rw [children_finished] at hc
    exact hf.children c hc x hx

theorem sound_frameOf {tag : Tag} (hname : Name.isName tag.name = true) (hattributes : tag.attributes.Quotable) :
    (frameOf tag).Sound :=
  ⟨hname, hattributes, List.forall_mem_nil _⟩

theorem sound_expectChild (h : ∀ f ∈ stack, f.Sound) : ∀ f ∈ expectChild stack, f.Sound := by
  unfold expectChild
  split
  · obtain ⟨htop, hbelow⟩ := List.forall_mem_cons.1 h
    exact List.forall_mem_cons.2 ⟨⟨htop.name, htop.attributes, List.forall_mem_nil _⟩, hbelow⟩
  · exact h

theorem sound_addChild {e : Element} (hf : f.Sound) (he : ∀ x ∈ e.preorder, x.Finished) : (f.addChild e).Sound := by
  have hsame : (f.addChild e).name = f.name ∧ (f.addChild e).attributes = f.attributes := by
    unfold Frame.addChild
    split <;> exact ⟨rfl, rfl⟩
  refine ⟨hsame.1 ▸ hf.name, hsame.2 ▸ hf.attributes, ?_⟩
  rw [children_addChild]
  exact List.forall_mem_append.2 ⟨hf.children, List.forall_mem_singleton.2 he⟩

/-! ## The invariant -/

/-- what holds of a builder between two tokens -/
structure Consistent (rules : BuildRules) (b : Builder) : Prop where
  /-- nothing is open once there is a root -/
  closed : b.root.isSome = true → b.stack = []
  /-- an element was opened exactly if one is open or there is a root -/
  started : b.started = true ↔ b.stack ≠ [] ∨ b.root.isSome = true
  /-- an open element with another inside it holds children -/
  below : ∀ f ∈ b.stack.tail, f.HoldsChildren
  /-- the innermost open element holds nothing, or a text or children, but none that are empty -/
  top : ∀ f, b.stack.head? = some f → f.element.content.Filled
  /-- all that open elements hold is finished -/
  open_sound : ∀ f ∈ b.stack, f.Sound
  /-- every element of the root is finished -/
  root_finished : ∀ e, b.root = some e → ∀ x ∈ e.preorder, x.Finished
  /-- no more elements are open than the limit allows -/
  allowed : rules.Allows b.stack.length

theorem consistent_start (rules : BuildRules) : Consistent rules start where
  closed _ := rfl
  started := by simp [start]
  below := List.forall_mem_nil _
  top f hf := by cases hf
  open_sound := List.forall_mem_nil _
  root_finished e he := by cases he
  allowed _ _ := Nat.zero_le _

namespace Consistent

theorem stacked (h : Consistent rules b) : Stacked b.stack := by
  refine ⟨h.below, fun f hf hempty => ?_⟩
  have hfilled := h.top f hf
  rw [Frame.element, hempty] at hfilled
  exact hfilled rfl

/-- the element around the innermost one holds children -/
theorem holdsChildren_parent {parent : Frame} (h : Consistent rules b) (hstack : b.stack = top :: parent :: below) :
    parent.HoldsChildren := by
  have hholds := h.below
  rw [hstack] at hholds
  exact (List.forall_mem_cons.1 hholds).1

/-- no root is there yet as long as an element is open -/
theorem root_eq_none (h : Consistent rules b) (hstack : b.stack = top :: below) : b.root = none := by
  by_contra hsome
  have hnil := h.closed (Option.isSome_iff_ne_none.2 hsome)
  rw [hstack] at hnil
  cases hnil

theorem started_of_stack (h : Consistent rules b) (hstack : b.stack = top :: below) : b.started = true :=
  h.started.2 (Or.inl (by rw [hstack]; exact List.cons_ne_nil top below))

theorem sound_of_stack (h : Consistent rules b) (hstack : b.stack = top :: below) :
    top.Sound ∧ ∀ f ∈ below, f.Sound :=
  List.forall_mem_cons.1 (hstack ▸ h.open_sound)

/-- the innermost element can be closed: it and all that it holds are finished then -/
theorem finished_top (h : Consistent rules b) (hstack : b.stack = top :: below) :
    ∀ x ∈ (finished rules top).preorder, x.Finished :=
  finished_of_sound rules (h.sound_of_stack hstack).1 (h.top top (by rw [hstack]; rfl))

theorem push {tag : Tag} (h : Consistent rules b) (hroot : b.root = none) (hlimit : rules.Allows (b.depth + 1))
    (htext : textHolder? b.stack = none) (htag : (frameOf tag).Sound) : Consistent rules (b.push tag) where
  closed hsome := by
    rw [Builder.push, hroot] at hsome
    cases hsome
  started := iff_of_true rfl (Or.inl (List.cons_ne_nil _ _))
  below := holdsChildren_expectChild h.stacked htext
  top f hf := by
    cases hf
    exact trivial
  open_sound := List.forall_mem_cons.2 ⟨htag, sound_expectChild h.open_sound⟩
  root_finished := h.root_finished
  allowed := by rwa [← (b.push tag).depth_eq]

/-- the last open element is closed, and is the root -/
theorem pop_last (h : Consistent rules b) (hstack : b.stack = [top]) :
    Consistent rules (b.pop top.name (finished rules top) [] (depth_of_stack hstack)) where
  closed _ := rfl
  started := iff_of_true (h.started_of_stack hstack) (Or.inr rfl)
  below := List.forall_mem_nil _
  top f hf := by cases hf
  open_sound := List.forall_mem_nil _
  root_finished e he := by
    cases he
    exact h.finished_top hstack
  allowed _ _ := Nat.zero_le _

/-- an element inside another is closed, and is the last child of this one -/
theorem pop_inner {parent : Frame} (h : Consistent rules b) (hstack : b.stack = top :: parent :: below) :
    Consistent rules (b.pop top.name (finished rules top) (parent :: below) (depth_of_stack hstack)) where
  closed hsome := by
    have hnone : (none : Option Element).isSome = true := h.root_eq_none hstack ▸ hsome
    cases hnone
  started := iff_of_true (h.started_of_stack hstack) (Or.inl (List.cons_ne_nil _ _))
  below := by
    have hholds := h.below
    rw [hstack] at hholds
    exact (List.forall_mem_cons.1 hholds).2
  top f hf := by
    obtain ⟨reversed, hheld⟩ := h.holdsChildren_parent hstack
    cases hf
    rw [Frame.addChild, hheld]
    exact fun hnil => List.cons_ne_nil _ _ (List.reverse_eq_nil_iff.1 hnil)
  open_sound := by
    obtain ⟨hparent, hbelow⟩ := List.forall_mem_cons.1 (h.sound_of_stack hstack).2
    exact List.forall_mem_cons.2 ⟨sound_addChild hparent (h.finished_top hstack), hbelow⟩
  root_finished := h.root_finished
  allowed := by
    have hallowed := h.allowed
    rw [hstack] at hallowed
    exact hallowed.mono (Nat.le_succ _)

theorem pop (h : Consistent rules b) (hstack : b.stack = top :: below) :
    Consistent rules (b.pop top.name (finished rules top) below (depth_of_stack hstack)) := by
  cases below with
  | nil => exact h.pop_last hstack
  | cons parent below => exact h.pop_inner hstack

theorem addText {t : Text} {held : Held} (h : Consistent rules b) (ht : t ≠ []) (hstack : b.stack = top :: below)
    (hheld : extendText t top.held = some held) :
    Consistent rules { b with stack := { top with held } :: below, depth_eq := depth_of_text held hstack } := by
  obtain ⟨htop, hrest⟩ := h.sound_of_stack hstack
  have hsound : ({ top with held } : Frame).Sound := by
    refine ⟨htop.name, htop.attributes, ?_⟩
    rw [children_of_extendText hheld]
    exact htop.children
  obtain ⟨hclosed, hstarted, hbelow, -, -, hroot, hallowed⟩ := h
  rw [hstack] at hclosed hstarted hbelow hallowed
  refine ⟨fun hsome => ?_, by simpa using hstarted, hbelow, ?_, List.forall_mem_cons.2 ⟨hsound, hrest⟩, hroot, hallowed⟩
  · cases hclosed hsome
  · intro f hf
    cases hf
    exact filled_of_extendText ht hheld

/-- **One step** keeps a builder consistent. -/
theorem step {p : Piece} (h : Consistent rules b) (hroot : b.root = none) (hstep : Step rules b p b') :
    Consistent rules b' := by
  have hsound : ∀ {tag : Tag}, p.IsTag tag → (frameOf tag).Sound := by
    intro tag htag
    obtain ⟨hname, hattributes⟩ := Tag.quotable_of_read htag.2
    exact sound_frameOf hname hattributes
  cases hstep with
  | idle => exact h
  | opened tag htag hform hlimit htext => exact h.push hroot hlimit htext (hsound htag)
  | closed top below attributes htag hstack => exact h.pop hstack
  | whole tag htag hform hlimit htext =>
    have hstack : (b.push tag).stack = frameOf tag :: expectChild b.stack := rfl
    exact (h.push hroot hlimit htext (hsound htag)).pop hstack
  | given i => exact ⟨h.closed, h.started, h.below, h.top, h.open_sound, h.root_finished, h.allowed⟩
  | text top below held hkind hne hstack hheld => exact h.addText hne hstack hheld

end Consistent

/-- **All steps.** Every state between two tokens is consistent. -/
theorem Takes.consistent {ts : List Token} (h : Takes rules start ts m) : Consistent rules m :=
  h.preserves_before_root (fun _ _ _ hroot hstep hb => hb.step hroot hstep) (consistent_start rules)

/-! ## Nothing is overwritten -/

end Builder

/-- what is held is held still, and perhaps more after it -/
inductive Held.Extends : Held → Held → Prop
  | empty (held : Held) : Held.Extends .empty held
  | text (more reversed : Text) : Held.Extends (.text reversed) (.text (more ++ reversed))
  | children (more reversed : List Element) : Held.Extends (.children reversed) (.children (more ++ reversed))

/-- the same open element, which holds still what it held -/
structure Frame.Extends (f f' : Frame) : Prop where
  name_eq : f'.name = f.name
  attributes_eq : f'.attributes = f.attributes
  held : f.held.Extends f'.held

theorem Held.Extends.refl (held : Held) : held.Extends held := by
  cases held with
  | empty => exact .empty .empty
  | text reversed => exact .text [] reversed
  | children reversed => exact .children [] reversed

theorem Frame.Extends.refl (f : Frame) : f.Extends f :=
  ⟨rfl, rfl, .refl f.held⟩

theorem Frame.forall₂_extends_refl (stack : List Frame) : List.Forall₂ Frame.Extends stack stack :=
  List.forall₂_same.2 fun f _ => .refl f

namespace Builder

variable {rules : BuildRules} {b b' m : Builder} {f top : Frame} {below stack : List Frame}

/-- nothing is lost between two states: what was open is open still and holds all that it held; or the innermost
element was closed, and it is the root now, or comes after the children that the element around it held -/
inductive Keeps (rules : BuildRules) (b b' : Builder) : Prop
  | grown (inner outer : List Frame) (hstack : b'.stack = inner ++ outer)
      (houter : List.Forall₂ Frame.Extends b.stack outer) (hroot : ∀ e, b.root = some e → b'.root = some e) :
    Keeps rules b b'
  | rooted (top : Frame) (hstack : b.stack = [top]) (hclosed : b'.stack = [])
      (hroot : b'.root = some (finished rules top)) : Keeps rules b b'
  | given (top parent : Frame) (below : List Frame) (reversed : List Element)
      (hstack : b.stack = top :: parent :: below) (hparent : parent.held = .children reversed)
      (hgiven : b'.stack = { parent with held := .children (finished rules top :: reversed) } :: below)
      (hroot : b'.root = b.root) : Keeps rules b b'

/-- the builder in which a token closes the innermost element: as it is at a closing tag, and with the tag's own
element open at a self-closing one -/
inductive ClosesIn (rules : BuildRules) (b : Builder) (t : Token) : Builder → Prop
  | closing (tag : Tag) (htag : t.piece.IsTag tag) (hform : tag.form = .closing) : ClosesIn rules b t b
  | whole (tag : Tag) (htag : t.piece.IsTag tag) (hform : tag.form = .selfClosing) {m : Builder}
      (hopen : b.openElement rules tag = .ok m) : ClosesIn rules b t m

theorem Keeps.refl (rules : BuildRules) (b : Builder) : Keeps rules b b :=
  .grown [] b.stack rfl (Frame.forall₂_extends_refl b.stack) fun _ he => he

/-- an element that is about to hold children held nothing, or holds children already -/
theorem extends_expectChild (stack : List Frame) : List.Forall₂ Frame.Extends stack (expectChild stack) := by
  unfold expectChild
  split
  · exact .cons ⟨rfl, rfl, .empty _⟩ (Frame.forall₂_extends_refl _)
  · exact Frame.forall₂_extends_refl _

/-- an element that holds children holds them still when it is given one more -/
theorem addChild_of_held {reversed : List Element} (h : f.held = .children reversed) (e : Element) :
    f.addChild e = { f with held := .children (e :: reversed) } := by
  simp only [Frame.addChild, h]

/-- a child comes after those that its element held, or is the first that it holds -/
theorem extends_giveChild (e : Element) (hholds : ∀ f ∈ expectChild stack, f.HoldsChildren) :
    List.Forall₂ Frame.Extends stack (giveChild e (expectChild stack)) := by
  cases stack with
  | nil => exact .nil
  | cons top below =>
    obtain ⟨name, attributes, held⟩ := top
    cases held with
    | empty => exact .cons ⟨rfl, rfl, .empty _⟩ (Frame.forall₂_extends_refl below)
    | text reversed =>
      obtain ⟨⟨_, hheld⟩, -⟩ := List.forall_mem_cons.1 hholds
      cases hheld
    | children reversed => exact .cons ⟨rfl, rfl, .children [e] reversed⟩ (Frame.forall₂_extends_refl below)

theorem extendText_extends {t : Text} {held held' : Held} (h : extendText t held = some held') :
    held.Extends held' := by
  cases held with
  | empty => exact .empty held'
  | text reversed =>
    cases h
    exact .text t.reverse reversed
  | children reversed => cases h

theorem Consistent.keeps {p : Piece} (h : Consistent rules b) (hroot : b.root = none) (hstep : Step rules b p b') :
    Keeps rules b b' := by
  cases hstep with
  | idle => exact .refl rules b
  | opened tag =>
    exact .grown [frameOf tag] (expectChild b.stack) rfl (extends_expectChild b.stack) fun _ he => he
  | closed top below attributes htag hstack =>
    cases below with
    | nil => exact .rooted top hstack rfl rfl
    | cons parent below =>
      obtain ⟨reversed, hheld⟩ := h.holdsChildren_parent hstack
      have hgiven : giveChild (finished rules top) (parent :: below) =
          { parent with held := .children (finished rules top :: reversed) } :: below := by
        rw [giveChild, addChild_of_held hheld]
      exact .given top parent below reversed hstack hheld hgiven rfl
  | whole tag htag hform hlimit htext =>
    refine .grown [] _ rfl (extends_giveChild _ (holdsChildren_expectChild h.stacked htext)) fun e he => ?_
    cases hroot.symm.trans he
  | given i => exact .grown [] b.stack rfl (Frame.forall₂_extends_refl b.stack) fun _ he => he
  | text top below held hkind hne hstack hheld =>
    refine .grown [] _ rfl ?_ fun _ he => he
    rw [hstack]
    exact .cons ⟨rfl, rfl, extendText_extends hheld⟩ (Frame.forall₂_extends_refl below)

/-- where an element is closed, the one around it holds children -/
theorem Consistent.holdsChildren_of_closesIn {t : Token} {c : Builder} {parent : Frame} (h : Consistent rules b)
    (hcloses : ClosesIn rules b t c) (hstack : c.stack = top :: parent :: below) : parent.HoldsChildren := by
  cases hcloses with
  | closing tag => exact h.holdsChildren_parent hstack
  | whole tag htag hform hopen =>
    obtain ⟨-, htext, rfl⟩ := openElement_eq_ok_iff.1 hopen
    obtain ⟨-, hbelow⟩ := List.cons.inj hstack
    have hholds := holdsChildren_expectChild h.stacked htext
    rw [hbelow] at hholds
    exact (List.forall_mem_cons.1 hholds).1

end Builder

open Builder in
/-- **Between two tokens.** The builder that has taken the tokens before a place in a list, whatever the rules and the
list, and goes on with those behind it, is consistent. When the next token closes an element, the one around it holds
children, so that the closed one comes after them. The next token, if it is taken, overwrites no text and no child. -/
theorem consistent_between_tokens {rules : BuildRules} {before : List Token} {m : Builder}
    (h : Takes rules start before m) :
    (∀ after, start.feed rules (before ++ after) = m.feed rules after) ∧ m.Consistent rules ∧
      (∀ t c, ClosesIn rules m t c → ∀ top parent below, c.stack = top :: parent :: below → parent.HoldsChildren) ∧
      ∀ t n, Takes rules m [t] n → Keeps rules m n := by
  have hm := h.consistent
  refine ⟨h.feed_append, hm, ?_, ?_⟩
  · intro t c hcloses top parent below hstack
    exact hm.holdsChildren_of_closesIn hcloses hstack
  · intro t n hn
    obtain ⟨-, ⟨-, -, rfl⟩ | ⟨hroot, hstep⟩⟩ := takes_singleton_iff.1 hn
    · exact .refl rules n
    · exact hm.keeps hroot (step_eq_ok_iff.1 hstep)

/-- inside an element with a finished child another is open and holds blanks; its closing tag gives it to the first,
after the child -/
theorem consistent_between_tokens_blank :
    ∃ m n, Builder.Takes ⟨true, some 2, none⟩ .start [⟨.tag, "<a>".toList, .nowhere⟩, ⟨.tag, "<b/>".toList, .nowhere⟩,
        ⟨.tag, "<c>".toList, .nowhere⟩, ⟨.value, [' '], .nowhere⟩] m ∧
      m.openNames = [['a'], ['c']] ∧ m.Consistent ⟨true, some 2, none⟩ ∧
      Builder.Takes ⟨true, some 2, none⟩ m [⟨.tag, "</c>".toList, .nowhere⟩] n ∧ n.openNames = [['a']] ∧
      Builder.Keeps ⟨true, some 2, none⟩ m n := by
  let rules : BuildRules := ⟨true, some 2, none⟩
  let before : List Token := [⟨.tag, "<a>".toList, .nowhere⟩, ⟨.tag, "<b/>".toList, .nowhere⟩,
    ⟨.tag, "<c>".toList, .nowhere⟩, ⟨.value, [' '], .nowhere⟩]
  let closing : List Token := [⟨.tag, "</c>".toList, .nowhere⟩]
  let m := (Builder.start.feed rules before).1
  let n := (m.feed rules closing).1
  have hm : Builder.Takes rules .start before m := Prod.ext rfl (by decide +kernel)
  have hn : Builder.Takes rules m closing n := Prod.ext rfl (by decide +kernel)
  obtain ⟨-, hconsistent, -, hkeeps⟩ := consistent_between_tokens hm
  exact ⟨m, n, hm, by decide +kernel, hconsistent, hn, by decide +kernel, hkeeps _ n hn⟩

end TaggedText
