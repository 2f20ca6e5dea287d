/-
Dropping blanks while building, or afterwards.

A builder that drops the blanks around texts does so when an element closes. At every moment it is the builder that
keeps them, with the blanks dropped in what is closed (`Builder.trimmed`): the two take each step together
(`step_trimmed`), and come to the same faults at the same places (`feed_trimmed`). So the document without blanks is
what dropping them makes of the document with them, and the errors are the same (`trimmed_after_building`).
-/
import TaggedText.Proofs.Feeding
import TaggedText.Proofs.Trimming

namespace TaggedText

/-! ## What is under construction, without blanks -/

/-- what is held, its children being closed and so without blanks -/
def Held.trimmed : Held → Held
  | .children reversed => .children (reversed.map Element.trimmed)
  | held => held

def Frame.trimmed (f : Frame) : Frame :=
  { f with held := f.held.trimmed }

def Builder.trimmed (b : Builder) : Builder :=
  { b with
    stack := b.stack.map Frame.trimmed
    root := b.root.map Element.trimmed
    depth_eq := by rw [b.depth_eq, List.length_map] }

theorem Held.trimmed_content (held : Held) :
    held.trimmed.content.trimmed = Element.trimmedContent held.content := by
  cases held with
  | empty => rfl
  | text reversed => exact (Element.trimmedContent_text _).symm
  | children reversed =>
    rw [Held.content, Element.trimmedContent_children, List.map_reverse]
    rfl

namespace Builder

variable {limit reserve : Option Nat} {b : Builder}

@[simp]
theorem stack_trimmed (b : Builder) : b.trimmed.stack = b.stack.map Frame.trimmed :=
  rfl

@[simp]
theorem root_trimmed (b : Builder) : b.trimmed.root = b.root.map Element.trimmed :=
  rfl

theorem finished_trimmed (f : Frame) :
    finished ⟨true, limit, reserve⟩ f.trimmed = (finished ⟨false, limit, reserve⟩ f).trimmed := by
  have hcontent := Held.trimmed_content f.held
  rw [finished_eq, finished_eq, Element.trimmed]
  simp only [if_true, Bool.false_eq_true, if_false]
  rw [← hcontent]
  rfl

theorem textHolder?_trimmed (stack : List Frame) : textHolder? (stack.map Frame.trimmed) = textHolder? stack := by
  cases stack with
  | nil => rfl
  | cons f below =>
    obtain ⟨name, attributes, held⟩ := f
    cases held <;> rfl

theorem expectChild_trimmed (stack : List Frame) :
    expectChild (stack.map Frame.trimmed) = (expectChild stack).map Frame.trimmed := by
  cases stack with
  | nil => rfl
  | cons f below =>
    obtain ⟨name, attributes, held⟩ := f
    cases held <;> rfl

theorem giveChild_trimmed (child : Element) (stack : List Frame) :
    giveChild child.trimmed (stack.map Frame.trimmed) = (giveChild child stack).map Frame.trimmed := by
  cases stack with
  | nil => rfl
  | cons f below =>
    obtain ⟨name, attributes, held⟩ := f
    cases held <;> rfl

theorem extendText_trimmed (t : Text) (held : Held) :
    extendText t held.trimmed = (extendText t held).map Held.trimmed := by
  cases held <;> rfl

/-! ## Steps -/

theorem push_trimmed (b : Builder) (tag : Tag) : b.trimmed.push tag = (b.push tag).trimmed := by
  have hstack := expectChild_trimmed b.stack
  simp only [push, trimmed, hstack]
  rfl

theorem pop_trimmed (b : Builder) (name : Text) (e : Element) (below : List Frame) (h : b.depth = below.length + 1)
    (h' : b.trimmed.depth = (below.map Frame.trimmed).length + 1) :
    b.trimmed.pop name e.trimmed (below.map Frame.trimmed) h' = (b.pop name e below h).trimmed := by
  have hstack := giveChild_trimmed e below
  obtain ⟨ename, attributes, content⟩ := e
  cases below with
  | nil => rfl
  | cons f below =>
    simp only [pop, trimmed, hstack]
    rfl

theorem openElement_trimmed (tag : Tag) :
    b.trimmed.openElement ⟨true, limit, reserve⟩ tag =
      (b.openElement ⟨false, limit, reserve⟩ tag).map trimmed := by
  have hlimit : b.trimmed.limitReached? ⟨true, limit, reserve⟩ = b.limitReached? ⟨false, limit, reserve⟩ := rfl
  have htext : textHolder? b.trimmed.stack = textHolder? b.stack := textHolder?_trimmed b.stack
  simp only [openElement, hlimit, htext]
  cases b.limitReached? ⟨false, limit, reserve⟩ with
  | some levels => rfl
  | none =>
    cases textHolder? b.stack with
    | some name => rfl
    | none => exact congrArg Except.ok (push_trimmed b tag)

theorem closeElement_trimmed (name : Text) :
    b.trimmed.closeElement ⟨true, limit, reserve⟩ name =
      (b.closeElement ⟨false, limit, reserve⟩ name).map trimmed := by
  cases hstack : b.stack with
  | nil =>
    have hstack' : b.trimmed.stack = [] := by simp [hstack]
    rw [closeElement_of_nil hstack, closeElement_of_nil hstack']
    rfl
  | cons top below =>
    have hstack' : b.trimmed.stack = top.trimmed :: below.map Frame.trimmed := by simp [hstack]
    rw [closeElement_of_cons hstack, closeElement_of_cons hstack']
    by_cases hname : top.name = name
    · rw [if_pos hname, if_pos (show top.trimmed.name = name from hname), finished_trimmed]
      exact congrArg Except.ok (pop_trimmed b name _ below _ _)
    · rw [if_neg hname, if_neg (show ¬ top.trimmed.name = name from hname)]
      rfl

theorem giveInstructions_trimmed (tag : Tag) :
    b.trimmed.giveInstructions tag = (b.giveInstructions tag).map trimmed := by
  unfold giveInstructions
  by_cases hstarted : b.started = true
  · rw [if_pos hstarted, if_pos (show b.trimmed.started = true from hstarted)]
    rfl
  · rw [if_neg hstarted, if_neg (show ¬ b.trimmed.started = true from hstarted)]
    by_cases hsome : b.instructions.isSome = true
    · rw [if_pos hsome, if_pos (show b.trimmed.instructions.isSome = true from hsome)]
      rfl
    · rw [if_neg hsome, if_neg (show ¬ b.trimmed.instructions.isSome = true from hsome)]
      rfl

theorem addText_trimmed (t : Text) : b.trimmed.addText t = (b.addText t).map trimmed := by
  by_cases ht : t = []
  · simp only [addText, ht, if_true]
    rfl
  · cases hstack : b.stack with
    | nil =>
      have hstack' : b.trimmed.stack = [] := by simp [hstack]
      rw [addText_of_nil ht hstack, addText_of_nil ht hstack']
      rfl
    | cons top below =>
      have hstack' : b.trimmed.stack = top.trimmed :: below.map Frame.trimmed := by simp [hstack]
      have hextend : extendText t top.trimmed.held = (extendText t top.held).map Held.trimmed :=
        extendText_trimmed t top.held
      cases hheld : extendText t top.held with
      | none =>
        rw [hheld] at hextend
        rw [addText_of_none ht hstack hheld, addText_of_none ht hstack' hextend]
        rfl
      | some held =>
        rw [hheld] at hextend
        rw [addText_of_held ht hstack hheld, addText_of_held ht hstack' hextend]
        rfl

theorem addTag_trimmed (tag : Tag) :
    b.trimmed.addTag ⟨true, limit, reserve⟩ tag = (b.addTag ⟨false, limit, reserve⟩ tag).map trimmed := by
  unfold addTag
  cases tag.form with
  | opening => exact openElement_trimmed tag
  | closing => exact closeElement_trimmed tag.name
  | instructions => exact giveInstructions_trimmed tag
  | selfClosing =>
    simp only [openElement_trimmed]
    cases b.openElement ⟨false, limit, reserve⟩ tag with
    | error fault => rfl
    | ok opened => exact closeElement_trimmed tag.name

/-- **One step.** Both builders take it, or refuse it for the same fault. -/
theorem step_trimmed (t : Token) :
    b.trimmed.step ⟨true, limit, reserve⟩ t = (b.step ⟨false, limit, reserve⟩ t).map trimmed := by
  unfold step
  cases t.kind with
  | tag =>
    cases Tag.read t.text with
    | error e => rfl
    | ok tag => exact addTag_trimmed tag
  | instructions =>
    simp only [addInstructions]
    cases Tag.read t.text with
    | error e => rfl
    | ok tag =>
      by_cases hform : tag.form = .instructions
      · simp only [hform, if_true]
        exact giveInstructions_trimmed tag
      · simp only [hform, if_false]
        rfl
  | value => exact addText_trimmed t.text
  | _ => rfl

/-- **All steps.** Both builders come to a halt at the same place, if at all, and tell the same of it. -/
theorem feed_trimmed (limit reserve : Option Nat) (ts : List Token) :
    feed ⟨true, limit, reserve⟩ b.trimmed ts =
      ((feed ⟨false, limit, reserve⟩ b ts).1.trimmed, (feed ⟨false, limit, reserve⟩ b ts).2) := by
  induction ts generalizing b with
  | nil => rfl
  | cons t ts ih =>
    have hroot : b.trimmed.root.isSome = b.root.isSome := Option.isSome_map
    rcases takes_or_halts ⟨false, limit, reserve⟩ b t ts with ⟨m, hm⟩ | ⟨r, hr⟩
    · have hm' : Takes ⟨true, limit, reserve⟩ b.trimmed [t] m.trimmed := hm.map hroot fun _ => step_trimmed t
      rw [feed_of_takes hm, feed_of_takes hm', ih]
    · have hr' : Halts ⟨true, limit, reserve⟩ b.trimmed t ts r := hr.map hroot fun _ => step_trimmed t
      rw [hr.feed_eq, hr'.feed_eq]

theorem result_trimmed (stop : Span) : b.trimmed.result stop = (b.result stop).map Document.trimmed := by
  have hnames : b.trimmed.openNames = b.openNames := by
    simp only [openNames, stack_trimmed, List.map_map]
    rfl
  have hempty : b.trimmed.stack.isEmpty = b.stack.isEmpty := List.isEmpty_map
  cases hroot : b.root with
  | some root =>
    simp only [result, root_trimmed, hroot, Option.map_some]
    rfl
  | none =>
    simp only [result, root_trimmed, hroot, Option.map_none, hempty, hnames]
    split_ifs <;> rfl

end Builder

/-- the document without blanks is made of the document with them, and the errors are the same -/
theorem Document.ofTokens_trimmed (limit reserve : Option Nat) (ts : List Token) :
    (ofTokens ⟨true, limit, reserve⟩ ts).value = (ofTokens ⟨false, limit, reserve⟩ ts).value.map trimmed := by
  have hfeed := Builder.feed_trimmed (b := Builder.start) limit reserve ts
  have hstart : Builder.start.trimmed = Builder.start := rfl
  rw [hstart] at hfeed
  cases h : Builder.feed ⟨false, limit, reserve⟩ Builder.start ts with
  | mk m r =>
    rw [h] at hfeed
    cases r with
    | ok stop =>
      rw [Builder.value_ofTokens_of_ok h, Builder.value_ofTokens_of_ok hfeed, Builder.result_trimmed]
    | error e =>
      rw [Builder.value_ofTokens_of_error h, Builder.value_ofTokens_of_error hfeed]
      rfl

theorem Document.read_trimmed (limit reserve : Option Nat) (s : Text) :
    read ⟨true, limit, reserve⟩ s = (read ⟨false, limit, reserve⟩ s).map trimmed := by
  rcases read_cases s with ⟨e, he⟩ | ⟨ts, hts⟩
  · rw [he, he]
    rfl
  · rw [hts, hts]
    exact ofTokens_trimmed limit reserve ts

/-- **Dropping blanks comes after building.** From any tokens or text, and with any limit, the rules that drop blanks
give the document of those that keep them, without its blanks, and fail where those fail, with the same error. What is
left of a text stands in it between two stretches of blanks, and no blank is at either end of it. In a document that is
read from a text no text is lost by it: every element goes on holding what it held, and the elements and the levels are
as many as before. -/
theorem trimmed_after_building (limit reserve : Option Nat) :
    (∀ ts, (Document.ofTokens ⟨true, limit, reserve⟩ ts).value =
      (Document.ofTokens ⟨false, limit, reserve⟩ ts).value.map Document.trimmed) ∧
    (∀ s, Document.read ⟨true, limit, reserve⟩ s =
      (Document.read ⟨false, limit, reserve⟩ s).map Document.trimmed) ∧
    (∀ t, ∃ u v, t = u ++ Text.trim t ++ v ∧ (∀ c ∈ u ++ v, Text.isBlank c = true) ∧
      (∀ c, (Text.trim t).head? = some c → Text.isBlank c = false) ∧
      ∀ c, (Text.trim t).getLast? = some c → Text.isBlank c = false) ∧
    ∀ s d, Document.read ⟨false, limit, reserve⟩ s = .ok d →
      (∀ e ∈ d.root.preorder, e.Kept) ∧ d.trimmed.root.preorder = d.root.preorder.map Element.trimmed ∧
        d.trimmed.count = d.count ∧ d.trimmed.root.depth = d.root.depth := by
  refine ⟨Document.ofTokens_trimmed limit reserve, Document.read_trimmed limit reserve, Text.exists_blanks_trim, ?_⟩
  intro s d h
  have hproper : d.root.WellFormed := (Document.wellFormed_of_read h).root
  have hpreorder : d.trimmed.root.preorder = d.root.preorder.map Element.trimmed := d.root.preorder_trimmed
  have hcount : d.trimmed.count = d.count := by
    rw [Document.count, Document.count, Element.count_eq_length_preorder, Element.count_eq_length_preorder, hpreorder,
      List.length_map]
  have hdepth : d.trimmed.root.depth = d.root.depth := by
    rw [Element.depth_eq_height, Element.depth_eq_height]
    exact d.root.height_trimmed
  exact ⟨fun e he => (hproper e he).kept, hpreorder, hcount, hdepth⟩

/-- blanks around a text and between elements are dropped and no text is lost; a text of blanks alone, which only tokens
that come from no text can hold, leaves nothing -/
theorem trimmed_after_building_mixed :
    (∃ d, Document.read ⟨false, some 2, none⟩ "<a>\n <b> c d </b>\t<e/></a>".toList = .ok d ∧
      Document.read ⟨true, some 2, none⟩ "<a>\n <b> c d </b>\t<e/></a>".toList =
        .ok ⟨⟨['a'], .empty, .children [⟨['b'], .empty, .text ['c', ' ', 'd']⟩, ⟨['e'], .empty, .empty⟩]⟩, .none⟩ ∧
      (∀ e ∈ d.root.preorder, e.Kept) ∧ d.trimmed.root.preorder = d.root.preorder.map Element.trimmed ∧
        d.trimmed.count = d.count ∧ d.trimmed.root.depth = d.root.depth) ∧
    (Document.ofTokens ⟨true, some 2, none⟩ [⟨.tag, "<a>".toList, .nowhere⟩, ⟨.value, [' ', '\t'], .nowhere⟩,
      ⟨.tag, "</a>".toList, .nowhere⟩]).value = .ok ⟨⟨['a'], .empty, .empty⟩, .none⟩ := by
  obtain ⟨h, hblank⟩ : Document.read ⟨false, some 2, none⟩ "<a>\n <b> c d </b>\t<e/></a>".toList =
        .ok ⟨⟨['a'], .empty, .children [⟨['b'], .empty, .text [' ', 'c', ' ', 'd', ' ']⟩, ⟨['e'], .empty, .empty⟩]⟩,
          .none⟩ ∧
      (Document.ofTokens ⟨false, some 2, none⟩ [⟨.tag, "<a>".toList, .nowhere⟩, ⟨.value, [' ', '\t'], .nowhere⟩,
        ⟨.tag, "</a>".toList, .nowhere⟩]).value = .ok ⟨⟨['a'], .empty, .text [' ', '\t']⟩, .none⟩ := ⟨by cbv, by cbv⟩
  obtain ⟨htokens, htexts, -, hkept⟩ := trimmed_after_building (some 2) none
  refine ⟨⟨_, h, ?_, hkept _ _ h⟩, ?_⟩
  · rw [htexts, h]
    rfl
  · rw [htokens, hblank]
    rfl

end TaggedText
