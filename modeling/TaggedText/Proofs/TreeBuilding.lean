/-
Documents from tokens.

A builder that has come to no root spells what it has taken (`Builder.Spells`): each open element is an opening tag
and the pieces of what it holds, one after another from the outermost. `Step.spells` keeps this, or comes to the root
of a document spelled by all that was taken. The other way around, a run over the pieces of an element gives the
element to the one around it (`run_of_spelled`).

`Document.ofTokens_eq_ok_iff` puts both together for any rules, and `ofTokens_iff_spelled` for rules that keep blanks
and set no limit.
-/
import TaggedText.Proofs.BuilderRun

namespace TaggedText

open BuildRules

/-! ## What an open element holds -/

/-- how what an element holds, that has so many elements around it and itself, is put together -/
def Held.Spelled (rules : BuildRules) (level : Nat) : Held → List Piece → Prop
  | .empty, ps => ps = [] ∧ rules.Allows level
  | .text reversed, ps => Element.ContentSpelled (.text reversed.reverse) ps ∧ rules.Allows level
  | .children reversed, ps =>
    ∃ es, reversed.reverse = es.map rules.settled ∧ Element.ForestSpelled es ps ∧
      rules.Allows (level + Element.forestHeight es)

theorem forestHeight_append (as bs : List Element) :
    Element.forestHeight (as ++ bs) = max (Element.forestHeight as) (Element.forestHeight bs) := by
  induction as with
  | nil => simp [Element.forestHeight]
  | cons e es ih => rw [List.cons_append, Element.forestHeight, Element.forestHeight, ih, Nat.max_assoc]

theorem forestHeight_singleton (e : Element) : Element.forestHeight [e] = e.height := by
  simp [Element.forestHeight]

/-- what is held is the content of an element, unless it is an empty list of children -/
theorem Held.Spelled.content {rules : BuildRules} {level : Nat} {held : Held} {ps : List Piece}
    (h : held.Spelled rules level ps) (hne : held ≠ .children []) :
    ∃ c, Element.ContentSpelled c ps ∧ rules.Allows (level + Element.contentHeight c) ∧
      rules.settledContent c = if rules.trimText then held.content.trimmed else held.content := by
  cases held with
  | empty => exact ⟨.empty, h.1, h.2, by rw [settledContent_empty]; split_ifs <;> rfl⟩
  | text reversed => exact ⟨.text reversed.reverse, h.1, h.2, rfl⟩
  | children reversed =>
    obtain ⟨es, hes, hspelled, hallows⟩ := h
    refine ⟨.children es, ⟨?_, hspelled⟩, hallows, ?_⟩
    · intro h
      subst h
      exact hne (congrArg Held.children (List.reverse_eq_nil_iff.1 hes))
    · rw [settledContent_children, ← hes]
      split_ifs <;> rfl

/-- one more child -/
theorem Held.Spelled.addChild {rules : BuildRules} {level : Nat} {reversed : List Element} {e : Element}
    {ps qs : List Piece} (h : (Held.children reversed).Spelled rules level ps) (he : e.Spelled qs)
    (hallows : rules.Allows (level + e.height)) :
    (Held.children (rules.settled e :: reversed)).Spelled rules level (ps ++ qs) := by
  obtain ⟨es, hes, hspelled, hes'⟩ := h
  refine ⟨es ++ [e], ?_, Element.forestSpelled_append hspelled (Element.forestSpelled_singleton he), ?_⟩
  · rw [List.reverse_cons, hes, List.map_append, List.map_singleton]
  · rw [forestHeight_append, forestHeight_singleton, ← Nat.add_max_add_left]
    exact allows_max.2 ⟨hes', hallows⟩

theorem Builder.extendText_ne_children {t : Text} {held : Held} {reversed : List Element} :
    Builder.extendText t held ≠ some (.children reversed) := by
  cases held <;> (intro h; cases h)

/-- one more piece of text -/
theorem Held.Spelled.extendText {rules : BuildRules} {level : Nat} {held held' : Held} {ps : List Piece} {p : Piece}
    (h : held.Spelled rules level ps) (hkind : p.kind = .value) (hne : p.text ≠ [])
    (hheld : Builder.extendText p.text held = some held') : held'.Spelled rules level (ps ++ [p]) := by
  cases held with
  | empty =>
    obtain ⟨rfl, hallows⟩ := h
    cases hheld
    refine ⟨⟨List.cons_ne_nil p [], ?_, ?_⟩, hallows⟩
    · intro q hq
      obtain rfl := List.mem_singleton.1 hq
      exact ⟨hkind, hne⟩
    · rw [List.reverse_reverse, List.nil_append, Piece.join_cons]
      exact List.append_nil p.text
  | text reversed =>
    obtain ⟨⟨-, hvalues, hjoin⟩, hallows⟩ := h
    cases hheld
    refine ⟨⟨List.append_ne_nil_of_right_ne_nil ps (List.cons_ne_nil p []), ?_, ?_⟩, hallows⟩
    · intro q hq
      rcases List.mem_append.1 hq with hq | hq
      · exact hvalues q hq
      · obtain rfl := List.mem_singleton.1 hq
        exact ⟨hkind, hne⟩
    · rw [List.reverse_append, List.reverse_reverse, ← hjoin]
      simp [Piece.join]
  | children reversed => cases hheld

/-! ## Open elements -/

/-- how open elements are put together, the innermost first: each is an opening tag and what it holds -/
def FramesSpelled (rules : BuildRules) : List Frame → List Piece → Prop
  | [], ps => ps = []
  | f :: below, ps =>
    ∃ qs p rs, FramesSpelled rules below qs ∧ p.IsTag ⟨.opening, f.name, f.attributes⟩ ∧
      f.held.Spelled rules (below.length + 1) rs ∧ ps = qs ++ p :: rs

/-- whether the element takes children -/
def Frame.HoldsChildren (f : Frame) : Prop :=
  ∃ reversed, f.held = .children reversed

/-- the shape of open elements: an element with another inside it holds children, and an element holds no empty list
of children unless another is inside it -/
structure Stacked (stack : List Frame) : Prop where
  below : ∀ f ∈ stack.tail, f.HoldsChildren
  top : ∀ f, stack.head? = some f → f.held ≠ .children []

theorem Stacked.nil : Stacked [] := by
  refine ⟨?_, ?_⟩ <;> (intro f hf; cases hf)

theorem framesSpelled_expectChild {rules : BuildRules} {stack : List Frame} {ps : List Piece}
    (h : FramesSpelled rules stack ps) : FramesSpelled rules (Builder.expectChild stack) ps := by
  unfold Builder.expectChild
  split
  · obtain ⟨qs, p, rs, hqs, hp, ⟨rfl, hallows⟩, rfl⟩ := h
    exact ⟨qs, p, [], hqs, hp, ⟨[], rfl, rfl, hallows⟩, rfl⟩
  · exact h

theorem holdsChildren_expectChild {stack : List Frame} (h : Stacked stack)
    (htext : Builder.textHolder? stack = none) : ∀ f ∈ Builder.expectChild stack, f.HoldsChildren := by
  cases stack with
  | nil => exact fun f hf => by cases hf
  | cons top below =>
    obtain ⟨name, attributes, held⟩ := top
    cases held with
    | empty => exact List.forall_mem_cons.2 ⟨⟨[], rfl⟩, h.below⟩
    | text reversed => cases htext
    | children reversed => exact List.forall_mem_cons.2 ⟨⟨reversed, rfl⟩, h.below⟩

/-- a child given to the innermost of elements that take children -/
theorem framesSpelled_giveChild {rules : BuildRules} {stack : List Frame} {e : Element} {ps qs : List Piece}
    (hne : stack ≠ []) (hholds : ∀ f ∈ stack, f.HoldsChildren) (h : FramesSpelled rules stack ps)
    (he : e.Spelled qs) (hallows : rules.Allows (stack.length + e.height)) :
    FramesSpelled rules (Builder.giveChild (rules.settled e) stack) (ps ++ qs) ∧
      Stacked (Builder.giveChild (rules.settled e) stack) := by
  cases stack with
  | nil => exact absurd rfl hne
  | cons top below =>
    obtain ⟨⟨reversed, hheld⟩, hbelow⟩ := List.forall_mem_cons.1 hholds
    obtain ⟨name, attributes, held⟩ := top
    obtain rfl : held = .children reversed := hheld
    obtain ⟨us, p, vs, hus, hp, hvs, rfl⟩ := h
    refine ⟨?_, ?_⟩
    · refine ⟨us, p, vs ++ qs, hus, hp, hvs.addChild he hallows, ?_⟩
      rw [List.append_assoc, List.cons_append]
    · refine ⟨hbelow, ?_⟩
      intro f h
      cases h
      exact fun heq => List.cons_ne_nil _ _ (Held.children.inj heq)

/-! ## What a builder spells -/

namespace Builder

/-- a builder without a root spells what it has taken, but for the pieces that mean nothing -/
structure Spells (rules : BuildRules) (b : Builder) (ps : List Piece) : Prop where
  root : b.root = none
  stacked : Stacked b.stack
  started : b.started = true ↔ b.stack ≠ []
  pieces : ∃ qs rs, Instructions.Spelled b.instructions qs ∧ FramesSpelled rules b.stack rs ∧ ps = qs ++ rs

/-- a builder with a root has built a document spelled by what it has taken -/
def HasBuilt (rules : BuildRules) (b : Builder) (ps : List Piece) : Prop :=
  ∃ d, Document.Spelled d ps ∧ rules.Allows d.root.height ∧ b.root = some (rules.settled d.root) ∧
    b.instructions.getD .none = d.instructions

theorem spells_start (rules : BuildRules) : Spells rules start [] :=
  ⟨rfl, Stacked.nil, by simp [start], [], [], rfl, rfl, rfl⟩

variable {rules : BuildRules} {b b' : Builder}

/-- an element that is over goes to the one around it, or is the root -/
theorem spells_or_hasBuilt_of_give {stack : List Frame} {e : Element} {us ps qs rs : List Piece}
    (hholds : ∀ f ∈ stack, f.HoldsChildren) (hframes : FramesSpelled rules stack rs) (he : e.Spelled qs)
    (hallows : rules.Allows (stack.length + e.height)) (hus : Instructions.Spelled b'.instructions us)
    (hstack : b'.stack = giveChild (rules.settled e) stack) (hstarted : b'.started = true)
    (hroot : b'.root = if stack.isEmpty then some (rules.settled e) else none) (hps : ps = us ++ (rs ++ qs)) :
    Spells rules b' ps ∨ HasBuilt rules b' ps := by
  cases stack with
  | nil =>
    obtain rfl : rs = [] := hframes
    refine Or.inr ⟨⟨e, b'.instructions.getD .none⟩, ⟨b'.instructions, us, qs, hus, rfl, he, hps⟩, ?_, hroot, rfl⟩
    exact hallows.mono (Nat.le_add_left e.height _)
  | cons f below =>
    obtain ⟨hgiven, hstacked⟩ := framesSpelled_giveChild (List.cons_ne_nil f below) hholds hframes he hallows
    refine Or.inl ⟨hroot, hstack ▸ hstacked, ?_, us, rs ++ qs, hus, hstack ▸ hgiven, hps⟩
    rw [hstarted, hstack]
    simp [giveChild]

theorem finished_eq (rules : BuildRules) (f : Frame) :
    finished rules f =
      ⟨f.name, f.attributes, if rules.trimText then f.held.content.trimmed else f.held.content⟩ := by
  unfold finished
  split_ifs <;> rfl

theorem finished_frameOf (rules : BuildRules) (tag : Tag) :
    finished rules (frameOf tag) = rules.settled ⟨tag.name, tag.attributes, .empty⟩ := by
  rw [finished_eq, settled_mk, settledContent_empty]
  split_ifs <;> rfl

theorem children_addChild (f : Frame) (e : Element) :
    (f.addChild e).element.children = f.element.children ++ [e] := by
  obtain ⟨name, attributes, held⟩ := f
  cases held <;> simp [Frame.addChild, Frame.element, Held.content, Element.children]

/-- a text is no child -/
theorem children_of_extendText {f : Frame} {t : Text} {held : Held} (h : extendText t f.held = some held) :
    ({ f with held } : Frame).element.children = f.element.children := by
  obtain ⟨name, attributes, held'⟩ := f
  cases held' <;> cases h <;> rfl

/-- trimming leaves the children of an element that is closed as they are -/
theorem children_finished (rules : BuildRules) (f : Frame) : (finished rules f).children = f.element.children := by
  obtain ⟨name, attributes, held⟩ := f
  rw [finished_eq, Frame.element]
  cases held with
  | empty => split_ifs <;> rfl
  | text reversed =>
    simp only [Held.content, Content.trimmed, Element.children]
    split_ifs <;> rfl
  | children reversed => split_ifs <;> rfl

theorem name_finished (rules : BuildRules) (f : Frame) : (finished rules f).name = f.name := by
  rw [finished_eq]

theorem Spells.push {p : Piece} {ps : List Piece} {tag : Tag} (hb : Spells rules b ps)
    (htag : p.IsTag ⟨.opening, tag.name, tag.attributes⟩) (hlimit : rules.Allows (b.depth + 1))
    (htext : textHolder? b.stack = none) : Spells rules (b.push tag) (ps ++ [p]) := by
  obtain ⟨hroot, hstacked, -, qs, rs, hqs, hrs, rfl⟩ := hb
  have hshape : Stacked (frameOf tag :: expectChild b.stack) := by
    refine ⟨holdsChildren_expectChild hstacked htext, ?_⟩
    intro f h
    cases h
    exact Held.noConfusion
  have hlevel : rules.Allows ((expectChild b.stack).length + 1) := by rwa [length_expectChild, ← b.depth_eq]
  have hframes : FramesSpelled rules (frameOf tag :: expectChild b.stack) (rs ++ [p]) :=
    ⟨rs, p, [], framesSpelled_expectChild hrs, htag, ⟨rfl, hlevel⟩, rfl⟩
  exact ⟨hroot, hshape, by simp [Builder.push], qs, rs ++ [p], hqs, hframes, List.append_assoc qs rs [p]⟩

theorem Spells.close {p : Piece} {ps : List Piece} {top : Frame} {below : List Frame} {attributes : Attributes}
    (hb : Spells rules b ps) (htag : p.IsTag ⟨.closing, top.name, attributes⟩) (hstack : b.stack = top :: below) :
    Spells rules (b.pop top.name (finished rules top) below (depth_of_stack hstack)) (ps ++ [p]) ∨
      HasBuilt rules (b.pop top.name (finished rules top) below (depth_of_stack hstack)) (ps ++ [p]) := by
  obtain ⟨hroot, hstacked, hstarted, qs, rs, hqs, hrs, rfl⟩ := hb
  rw [hstack] at hrs hstacked
  obtain ⟨us, first, body, hus, hfirst, hbody, rfl⟩ := hrs
  obtain ⟨c, hc, hallows, hcontent⟩ := hbody.content (hstacked.top top rfl)
  have hfinished : finished rules top = rules.settled ⟨top.name, top.attributes, c⟩ := by
    rw [finished_eq, settled_mk, hcontent]
  have he : Element.Spelled ⟨top.name, top.attributes, c⟩ (first :: body ++ [p]) :=
    Or.inr ⟨first, body, p, attributes, hfirst, hc, htag, rfl⟩
  have hheight : below.length + 1 + Element.contentHeight c =
      below.length + Element.height ⟨top.name, top.attributes, c⟩ := by
    rw [Element.height]
    omega
  refine spells_or_hasBuilt_of_give hstacked.below hus he (hheight ▸ hallows) hqs ?_ ?_ ?_ (by simp)
  · rw [← hfinished]
    rfl
  · exact hstarted.2 (by rw [hstack]; exact List.cons_ne_nil top below)
  · rw [← hfinished, ← hroot]
    rfl

theorem Spells.whole {p : Piece} {ps : List Piece} {tag : Tag} (hb : Spells rules b ps)
    (htag : p.IsTag ⟨.selfClosing, tag.name, tag.attributes⟩) (hlimit : rules.Allows (b.depth + 1))
    (htext : textHolder? b.stack = none) :
    Spells rules ((b.push tag).pop tag.name (finished rules (frameOf tag)) (expectChild b.stack) (depth_of_stack rfl))
        (ps ++ [p]) ∨
      HasBuilt rules
        ((b.push tag).pop tag.name (finished rules (frameOf tag)) (expectChild b.stack) (depth_of_stack rfl))
        (ps ++ [p]) := by
  obtain ⟨hroot, hstacked, -, qs, rs, hqs, hrs, rfl⟩ := hb
  have hholds := holdsChildren_expectChild hstacked htext
  have he : Element.Spelled ⟨tag.name, tag.attributes, .empty⟩ [p] := Or.inl ⟨rfl, p, htag, rfl⟩
  have hlevel : rules.Allows ((expectChild b.stack).length + 1) := by rwa [length_expectChild, ← b.depth_eq]
  refine spells_or_hasBuilt_of_give hholds (framesSpelled_expectChild hrs) he hlevel hqs ?_ rfl ?_
    (List.append_assoc qs rs [p])
  · rw [← finished_frameOf]
    rfl
  · rw [← finished_frameOf, ← hroot]
    rfl

theorem Spells.give {p : Piece} {ps : List Piece} {i : Instructions} (hb : Spells rules b ps)
    (hi : p.IsInstructions i) (hnotStarted : b.started = false) (hnone : b.instructions = none) :
    Spells rules { b with instructions := some i } (ps ++ [p]) := by
  obtain ⟨hroot, hstacked, hstarted, qs, rs, hqs, hrs, rfl⟩ := hb
  have hempty : b.stack = [] := by
    by_contra hne
    rw [hstarted.2 hne] at hnotStarted
    cases hnotStarted
  rw [hempty] at hrs
  rw [hnone] at hqs
  obtain rfl : rs = [] := hrs
  obtain rfl : qs = [] := hqs
  exact ⟨hroot, hstacked, hstarted, [p], [], ⟨p, hi, rfl⟩, by rw [hempty]; rfl, rfl⟩

theorem Spells.addText {p : Piece} {ps : List Piece} {top : Frame} {below : List Frame} {held : Held}
    (hb : Spells rules b ps) (hkind : p.kind = .value) (hne : p.text ≠ []) (hstack : b.stack = top :: below)
    (hheld : extendText p.text top.held = some held) :
    Spells rules { b with stack := { top with held } :: below, depth_eq := depth_of_text held hstack } (ps ++ [p]) := by
  obtain ⟨hroot, hstacked, hstarted, qs, rs, hqs, hrs, rfl⟩ := hb
  rw [hstack] at hrs hstacked hstarted
  obtain ⟨us, first, body, hus, hfirst, hbody, rfl⟩ := hrs
  have hshape : Stacked ({ top with held } :: below) := by
    refine ⟨hstacked.below, ?_⟩
    intro f h hchildren
    cases h
    exact extendText_ne_children (hheld.trans (congrArg some hchildren))
  have hframes : FramesSpelled rules ({ top with held } :: below) (us ++ first :: (body ++ [p])) :=
    ⟨us, first, body ++ [p], hus, hfirst, hbody.extendText hkind hne hheld, rfl⟩
  exact ⟨hroot, hshape, by simpa using hstarted, qs, _, hqs, hframes, by simp⟩

/-- **One step.** A builder spells what it took as long as it has no root, and what the root was built from when it
comes to one. -/
theorem Step.spells {p : Piece} {ps : List Piece} (h : Step rules b p b') (hp : p.isIdle = false)
    (hb : Spells rules b ps) : Spells rules b' (ps ++ [p]) ∨ HasBuilt rules b' (ps ++ [p]) := by
  cases h with
  | idle hidle =>
    rw [hidle] at hp
    cases hp
  | opened tag htag hform hlimit htext => exact Or.inl (hb.push (hform ▸ htag) hlimit htext)
  | closed top below attributes htag hstack => exact hb.close htag hstack
  | whole tag htag hform hlimit htext => exact hb.whole (hform ▸ htag) hlimit htext
  | given i hi hstarted hnone => exact Or.inl (hb.give hi hstarted hnone)
  | text top below held hkind hne hstack hheld => exact Or.inl (hb.addText hkind hne hstack hheld)

/-- **A run.** As long as a builder has no root, it spells what it took. -/
theorem spells_of_run {ps qs : List Piece} (h : run rules b ps = .ok b') (hps : ∀ p ∈ ps, p.isIdle = false)
    (hroot : b'.root = none) (hb : Spells rules b qs) : Spells rules b' (qs ++ ps) := by
  induction ps generalizing b qs with
  | nil =>
    cases h
    rwa [List.append_nil]
  | cons p ps ih =>
    obtain ⟨m, hm, h⟩ := run_cons_iff.1 h
    obtain ⟨hp, hps⟩ := List.forall_mem_cons.1 hps
    rw [List.append_cons]
    rcases hm.spells hp hb with hspells | ⟨d, -, -, hsome, -⟩
    · exact ih h hps hspells
    · have := run_root_isSome h (by rw [hsome]; rfl)
      rw [hroot] at this
      cases this

/-! ## A run over what spells an element -/

/-- the builder was given the element: the one around it holds it, or it is the root -/
structure Given (b b' : Builder) (e : Element) : Prop where
  stack : b'.stack = giveChild e (expectChild b.stack)
  root : b'.root = if b.stack.isEmpty then some e else b.root
  instructions : b'.instructions = b.instructions
  started : b'.started = true

/-- the builder went on inside the open element `f`, which holds `held` now -/
structure Inside (b b' : Builder) (f : Frame) (below : List Frame) (held : Held) : Prop where
  stack : b'.stack = { f with held } :: below
  root : b'.root = b.root
  instructions : b'.instructions = b.instructions
  started : b'.started = b.started

theorem isEmpty_expectChild (stack : List Frame) : (expectChild stack).isEmpty = stack.isEmpty := by
  rw [Bool.eq_iff_iff, List.isEmpty_iff_length_eq_zero, List.isEmpty_iff_length_eq_zero, length_expectChild]

/-- closing an element that was opened in `b` gives it -/
theorem given_pop {m : Builder} {name : Text} {e : Element} (h : m.depth = (expectChild b.stack).length + 1)
    (hroot : m.root = b.root) (hinstructions : m.instructions = b.instructions) (hstarted : m.started = true) :
    Given b (m.pop name e (expectChild b.stack) h) e := by
  refine ⟨rfl, ?_, hinstructions, hstarted⟩
  simp only [pop, isEmpty_expectChild, hroot]

/-- an element with the content `c` closes where it holds the pieces of `c` -/
theorem Inside.step {m : Builder} {p : Piece} {tag : Tag} {c : Content Element} {held : Held} {closing : Attributes}
    (hm : Inside (b.push tag) m (frameOf tag) (expectChild b.stack) held)
    (hc : rules.settledContent c = if rules.trimText then held.content.trimmed else held.content)
    (hp : p.IsTag ⟨.closing, tag.name, closing⟩) :
    ∃ b', Step rules m p b' ∧ Given b b' (rules.settled ⟨tag.name, tag.attributes, c⟩) := by
  have hfinished : finished rules { frameOf tag with held } = rules.settled ⟨tag.name, tag.attributes, c⟩ := by
    rw [finished_eq, settled_mk, hc]
    rfl
  rw [← hfinished]
  exact ⟨_, .closed { frameOf tag with held } (expectChild b.stack) closing hp hm.stack,
    given_pop _ hm.root hm.instructions hm.started⟩

theorem Inside.trans {m : Builder} {f : Frame} {below : List Frame} {held held' : Held}
    (h : Inside b m f below held) (h' : Inside m b' f below held') : Inside b b' f below held' :=
  ⟨h'.stack, h'.root.trans h.root, h'.instructions.trans h.instructions, h'.started.trans h.started⟩

/-- an element given inside an open one is held by it -/
theorem Given.inside {m : Builder} {e : Element} {f : Frame} {below : List Frame} {held held' : Held}
    (h : Given b m e) (hstack : b.stack = { f with held } :: below) (hstarted : b.started = true)
    (hheld : giveChild e (expectChild ({ f with held } :: below)) = { f with held := held' } :: below) :
    Inside b m f below held' := by
  refine ⟨?_, ?_, h.instructions, h.started.trans hstarted.symm⟩
  · rw [h.stack, hstack]
    exact hheld
  · rw [h.root, hstack]
    rfl

theorem Inside.depth {f : Frame} {below : List Frame} {held held' : Held} (h : Inside b b' f below held')
    (hstack : b.stack = { f with held } :: below) : b'.depth = b.depth := by
  rw [depth_of_stack h.stack, depth_of_stack hstack]

theorem step_value (rules : BuildRules) {f : Frame} {below : List Frame} {p : Piece} {held held' : Held}
    (hp : p.kind = .value ∧ p.text ≠ []) (hstack : b.stack = { f with held } :: below)
    (hheld : extendText p.text held = some held') : ∃ b', Step rules b p b' ∧ Inside b b' f below held' :=
  ⟨_, .text { f with held } below held' hp.1 hp.2 hstack hheld, rfl, rfl, rfl, rfl⟩

/-- values are taken one after another by an element that holds text -/
theorem run_values (rules : BuildRules) {f : Frame} {below : List Frame} {ps : List Piece} {t : Text}
    (hps : ∀ p ∈ ps, p.kind = .value ∧ p.text ≠ []) (hstack : b.stack = { f with held := .text t.reverse } :: below) :
    ∃ b', run rules b ps = .ok b' ∧ Inside b b' f below (.text (t ++ Piece.join ps).reverse) := by
  induction ps generalizing b t with
  | nil => exact ⟨b, rfl, by simpa [Piece.join] using hstack, rfl, rfl, rfl⟩
  | cons p ps ih =>
    obtain ⟨hp, hps⟩ := List.forall_mem_cons.1 hps
    obtain ⟨m, hm, hin⟩ := step_value rules hp hstack rfl
    obtain ⟨b', hrun, hin'⟩ := ih (t := t ++ p.text) hps (by rw [hin.stack, List.reverse_append])
    refine ⟨b', run_cons_iff.2 ⟨m, hm, hrun⟩, hin.trans ?_⟩
    rwa [Piece.join_cons, ← List.append_assoc]

/-- what a builder does with the pieces of an element: all but the last leave the root alone, and with the last the
element is over -/
def TakesElement (rules : BuildRules) (e : Element) : Prop :=
  ∀ b ps, e.Spelled ps → textHolder? b.stack = none → rules.Allows (b.depth + e.height) →
    ∃ qs p m b', ps = qs ++ [p] ∧ run rules b qs = .ok m ∧ m.root = b.root ∧ Step rules m p b' ∧
      Given b b' (rules.settled e)

theorem TakesElement.run {e : Element} {ps : List Piece} (h : TakesElement rules e) (he : e.Spelled ps)
    (htext : textHolder? b.stack = none) (hallows : rules.Allows (b.depth + e.height)) :
    ∃ b', run rules b ps = .ok b' ∧ Given b b' (rules.settled e) := by
  obtain ⟨qs, p, m, b', rfl, hqs, -, hp, hgiven⟩ := h b ps he htext hallows
  exact ⟨b', run_append_iff.2 ⟨m, hqs, run_singleton_iff.2 hp⟩, hgiven⟩

/-- elements are taken one after another by an element that holds children -/
theorem run_forest {f : Frame} {below : List Frame} {es : List Element} {ps : List Piece} {reversed : List Element}
    (htakes : ∀ e ∈ es, TakesElement rules e) (hes : Element.ForestSpelled es ps)
    (hstack : b.stack = { f with held := .children reversed } :: below) (hstarted : b.started = true)
    (hallows : rules.Allows (b.depth + Element.forestHeight es)) :
    ∃ b', run rules b ps = .ok b' ∧
      Inside b b' f below (.children ((es.map rules.settled).reverse ++ reversed)) := by
  induction es generalizing b ps reversed with
  | nil =>
    obtain rfl : ps = [] := hes
    exact ⟨b, rfl, hstack, rfl, rfl, rfl⟩
  | cons e es ih =>
    obtain ⟨qs, rs, he, hes, rfl⟩ := hes
    obtain ⟨hetakes, htakes⟩ := List.forall_mem_cons.1 htakes
    rw [Element.forestHeight, ← Nat.add_max_add_left, allows_max] at hallows
    obtain ⟨m, hm, hgiven⟩ := hetakes.run he (by rw [hstack]; rfl) hallows.1
    have hfirst : Inside b m f below (.children (rules.settled e :: reversed)) := hgiven.inside hstack hstarted rfl
    have hrest : rules.Allows (m.depth + Element.forestHeight es) := by
      rw [hfirst.depth hstack]
      exact hallows.2
    obtain ⟨b', hrun, hin⟩ := ih htakes hes hfirst.stack hgiven.started hrest
    refine ⟨b', run_append_iff.2 ⟨m, hm, hrun⟩, ?_⟩
    rw [List.map_cons, List.reverse_cons, List.append_assoc]
    exact hfirst.trans hin

/-- what a builder does with the body of an element that holds nothing yet -/
def TakesBody (rules : BuildRules) (c : Content Element) : Prop :=
  ∀ b f below ps, Element.ContentSpelled c ps → b.stack = { f with held := .empty } :: below → b.started = true →
    rules.Allows (b.depth + Element.contentHeight c) →
    ∃ b' held, run rules b ps = .ok b' ∧ Inside b b' f below held ∧
      rules.settledContent c = if rules.trimText then held.content.trimmed else held.content

theorem takesBody_empty (rules : BuildRules) : TakesBody rules .empty := by
  intro b f below ps hps hstack _ _
  obtain rfl : ps = [] := hps
  refine ⟨b, .empty, rfl, ⟨hstack, rfl, rfl, rfl⟩, ?_⟩
  rw [settledContent_empty]
  split_ifs <;> rfl

theorem takesBody_text (rules : BuildRules) (t : Text) : TakesBody rules (.text t) := by
  intro b f below ps hps hstack _ _
  obtain ⟨hne, hvalues, rfl⟩ := hps
  obtain ⟨p, ps, rfl⟩ := List.exists_cons_of_ne_nil hne
  obtain ⟨hp, hps⟩ := List.forall_mem_cons.1 hvalues
  obtain ⟨m, hm, hin⟩ := step_value rules hp hstack rfl
  obtain ⟨b', hrun, hin'⟩ := run_values rules hps hin.stack
  refine ⟨b', _, run_cons_iff.2 ⟨m, hm, hrun⟩, hin.trans hin', ?_⟩
  rw [Held.content, List.reverse_reverse, Piece.join_cons]
  rfl

theorem takesBody_children {cs : List Element} (htakes : ∀ c ∈ cs, TakesElement rules c) :
    TakesBody rules (.children cs) := by
  intro b f below ps hps hstack hstarted hallows
  obtain ⟨hne, hspelled⟩ := hps
  obtain ⟨e, es, rfl⟩ := List.exists_cons_of_ne_nil hne
  obtain ⟨qs, rs, he, hes, rfl⟩ := hspelled
  obtain ⟨hetakes, htakes⟩ := List.forall_mem_cons.1 htakes
  rw [Element.contentHeight, Element.forestHeight, ← Nat.add_max_add_left, allows_max] at hallows
  -- the first child turns what holds nothing into what holds children
  obtain ⟨m, hm, hgiven⟩ := hetakes.run he (by rw [hstack]; rfl) hallows.1
  have hfirst : Inside b m f below (.children [rules.settled e]) := hgiven.inside hstack hstarted rfl
  have hrest : rules.Allows (m.depth + Element.forestHeight es) := by
    rw [hfirst.depth hstack]
    exact hallows.2
  obtain ⟨b', hrun, hin⟩ := run_forest htakes hes hfirst.stack hgiven.started hrest
  refine ⟨b', _, run_append_iff.2 ⟨m, hm, hrun⟩, hfirst.trans hin, ?_⟩
  rw [settledContent_children, Held.content, List.reverse_append, List.reverse_reverse]
  split_ifs <;> rfl

/-- an element is taken if its body is -/
theorem TakesBody.element {c : Content Element} (h : TakesBody rules c) (name : Text) (attributes : Attributes) :
    TakesElement rules ⟨name, attributes, c⟩ := by
  intro b ps hps htext hallows
  rw [Element.height, ← Nat.add_assoc, Nat.add_right_comm] at hallows
  have hlimit : rules.Allows (b.depth + 1) := hallows.mono (Nat.le_add_right _ _)
  rcases hps with ⟨rfl, p, hp, rfl⟩ | ⟨first, body, last, closing, hfirst, hbody, hlast, rfl⟩
  · rw [← finished_frameOf rules ⟨.selfClosing, name, attributes⟩]
    exact ⟨[], p, b, _, rfl, rfl, rfl, .whole _ hp rfl hlimit htext, given_pop _ rfl rfl rfl⟩
  · obtain ⟨m, held, hrun, hin, hc⟩ := h (b.push ⟨.opening, name, attributes⟩) (frameOf ⟨.opening, name, attributes⟩)
      (expectChild b.stack) body hbody rfl rfl hallows
    obtain ⟨b', hstep, hgiven⟩ := hin.step hc hlast
    exact ⟨first :: body, last, m, b', rfl, run_cons_iff.2 ⟨_, .opened _ hfirst rfl hlimit htext, hrun⟩, hin.root,
      hstep, hgiven⟩

/-- **Elements are taken.** A run over the pieces of an element gives the element, without blanks if the rules say
so, to the one around it. -/
theorem takesElement (rules : BuildRules) (e : Element) : TakesElement rules e := by
  induction e using Element.induction with
  | empty name attributes => exact (takesBody_empty rules).element name attributes
  | text name attributes t => exact (takesBody_text rules t).element name attributes
  | children name attributes cs ih => exact (takesBody_children ih).element name attributes

/-! ## Documents -/

/-- what a run to the root has taken spells a document -/
theorem Closes.hasBuilt {ts : List Token} (h : Closes rules start ts b') (hsome : b'.root.isSome = true) :
    ∃ before last after, ts = before ++ last :: after ∧ (∀ t ∈ after, t.isFiller = true) ∧
      HasBuilt rules b' (Piece.significant (before.map Token.piece) ++ [last.piece]) := by
  obtain ⟨before, last, after, m, rfl, hafter, hrun, hroot, hlast⟩ := h
  refine ⟨before, last, after, rfl, hafter, ?_⟩
  have hm : Spells rules m (Piece.significant (before.map Token.piece)) :=
    spells_of_run ((run_significant _).2 hrun) (fun _ => Piece.isIdle_of_mem_significant) hroot (spells_start rules)
  cases hidle : last.piece.isIdle with
  | true =>
    rw [hlast.eq_of_idle hidle, hroot] at hsome
    cases hsome
  | false =>
    rcases hlast.spells hidle hm with hspells | hbuilt
    · rw [hspells.root] at hsome
      cases hsome
    · exact hbuilt

/-- a run over the pieces of a document comes to its root with the last of them -/
theorem run_of_spelled {d : Document} {ps : List Piece} (h : d.Spelled ps) (hallows : rules.Allows d.root.height) :
    ∃ qs p m b', ps = qs ++ [p] ∧ run rules start qs = .ok m ∧ m.root = none ∧ Step rules m p b' ∧
      b'.root = some (rules.settled d.root) ∧ b'.instructions.getD .none = d.instructions := by
  obtain ⟨given, us, rs, hus, hinstructions, hrs, rfl⟩ := h
  have hbegin : ∃ n, run rules start us = .ok n ∧ n.stack = [] ∧ n.depth = 0 ∧ n.root = none ∧
      n.instructions = given := by
    cases given with
    | none =>
      obtain rfl : us = [] := hus
      exact ⟨start, rfl, rfl, rfl, rfl, rfl⟩
    | some i =>
      obtain ⟨p, hp, rfl⟩ := hus
      exact ⟨_, run_singleton_iff.2 (.given i hp rfl rfl), rfl, rfl, rfl, rfl⟩
  obtain ⟨n, hn, hstack, hdepth, hroot, rfl⟩ := hbegin
  obtain ⟨qs, p, m, b', rfl, hqs, hm, hstep, hgiven⟩ :=
    takesElement rules d.root n rs hrs (by rw [hstack]; rfl) (by rwa [hdepth, Nat.zero_add])
  refine ⟨us ++ qs, p, m, b', (List.append_assoc us qs [p]).symm, run_append_iff.2 ⟨n, hn, hqs⟩, hm.trans hroot,
    hstep, ?_, ?_⟩
  · rw [hgiven.root, hstack]
    rfl
  · rw [hgiven.instructions, hinstructions]

theorem ofTokens_eq_ok {ts : List Token} {d : Document} :
    (Document.ofTokens rules ts).value = .ok d ↔
      ∃ b' root, (∃ stop, feed rules start ts = (b', .ok stop)) ∧ b'.root = some root ∧
        d = ⟨root, b'.instructions.getD .none⟩ := by
  unfold Document.ofTokens
  refine ⟨?_, ?_⟩
  · intro h
    split at h
    · rename_i b' stop hfeed
      simp only [result] at h
      split at h
      · rename_i root hroot
        cases h
        exact ⟨b', root, ⟨stop, hfeed⟩, hroot, rfl⟩
      · split_ifs at h
    · cases h
  · intro h
    obtain ⟨b', root, ⟨stop, hfeed⟩, hroot, rfl⟩ := h
    simp only [hfeed, result, hroot]

end Builder

/-- **Documents from tokens.** A document is built if the tokens before the end token spell it up to the one that
closes its root, apart from those that mean nothing, and fillers alone follow; it is built as the rules say, and if
they allow its height. -/
theorem Document.ofTokens_eq_ok_iff {rules : BuildRules} {ts : List Token} {d : Document} :
    (Document.ofTokens rules ts).value = .ok d ↔
      ∃ before last after original, Builder.live ts = before ++ last :: after ∧ (∀ t ∈ after, t.isFiller = true) ∧
        Document.Spelled original (Piece.significant (before.map Token.piece) ++ [last.piece]) ∧
        rules.Allows original.root.height ∧ d = rules.settledDocument original := by
  rw [Builder.ofTokens_eq_ok]
  refine ⟨?_, ?_⟩
  · intro h
    obtain ⟨b', root, hfeed, hroot, rfl⟩ := h
    have hsome : b'.root.isSome = true := by rw [hroot]; rfl
    obtain ⟨before, last, after, hlive, hafter, original, hspelled, hallows, horiginal, hinstructions⟩ :=
      ((Builder.feed_iff rfl hsome).1 hfeed).hasBuilt hsome
    refine ⟨before, last, after, original, hlive, hafter, hspelled, hallows, ?_⟩
    rw [hinstructions, Option.some.inj (hroot.symm.trans horiginal)]
    rfl
  · intro h
    obtain ⟨before, last, after, original, hlive, hafter, hspelled, hallows, rfl⟩ := h
    obtain ⟨qs, p, m, b', heq, hrun, hm, hstep, hroot, hinstructions⟩ := Builder.run_of_spelled hspelled hallows
    obtain ⟨rfl, hp⟩ := List.append_inj' heq rfl
    obtain rfl : last.piece = p := List.singleton_inj.1 hp
    have hsome : b'.root.isSome = true := by rw [hroot]; rfl
    refine ⟨b', _, (Builder.feed_iff rfl hsome).2 ?_, hroot, by rw [hinstructions]; rfl⟩
    exact ⟨before, last, after, m, hlive, hafter, (Builder.run_significant _).1 hrun, hm, hstep⟩

/-- **The builder accepts the grammar.** With blanks kept and no limit set, a list of tokens is built into a document
exactly if its tokens before the end token, apart from fillers and from empty values before the root closes, are the
pieces of that document. -/
theorem ofTokens_iff_spelled (reserve : Option Nat) (ts : List Token) (d : Document) :
    (Document.ofTokens ⟨false, none, reserve⟩ ts).value = .ok d ↔
      ∃ before last after, ts.takeWhile (fun t => !t.isEof) = before ++ last :: after ∧
        (∀ t ∈ after, t.isFiller = true) ∧
        d.Spelled ((before.map Token.piece).filter (fun p => !p.isIdle) ++ [last.piece]) := by
  rw [Document.ofTokens_eq_ok_iff]
  refine ⟨?_, ?_⟩
  · intro h
    obtain ⟨before, last, after, original, hlive, hafter, hspelled, -, rfl⟩ := h
    exact ⟨before, last, after, hlive, hafter, hspelled⟩
  · intro h
    obtain ⟨before, last, after, hlive, hafter, hspelled⟩ := h
    refine ⟨before, last, after, d, hlive, hafter, hspelled, ?_, rfl⟩
    intro limit hlimit
    cases hlimit

end TaggedText
