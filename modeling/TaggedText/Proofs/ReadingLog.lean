/-
The log of a reading.

While a text is read, each token is reported as it is found, and each element as it is opened and closed. Together with
the stack of a builder the reports make a walk around a tree that is not at its end (`Builder.openWalk`): every open
element was opened, and what it holds was walked around. `Builder.Logs` says this of a builder, each step keeps it
(`Builder.Logs.step`), and so do all tokens that are taken.

Results:
- `log_walks_tree`: a text that is read leaves the walk around its tree in the log, and one that is refused the
  beginning of such a walk; the elements that it leaves open are those that the refusal names.
-/
import TaggedText.Proofs.Printing
import TaggedText.Proofs.ReadingPieces
import TaggedText.Proofs.StreamItems

namespace TaggedText

/-! ## Events -/

namespace Event

/-- whether the event is about tokens: one is found, or the text has been split into all of them -/
def isSplit : Event → Bool
  | .token .. | .tokenized .. => true
  | _ => false

/-- whether the event is about an element that is opened or closed -/
def isVisit : Event → Bool
  | .opened .. | .closed .. => true
  | _ => false

theorem isVisit_of_isSplit {x : Event} (h : x.isSplit = true) : x.isVisit = false := by
  cases x <;> first | rfl | cases h

/-- the names of the elements that are opened and not closed again, the outermost first, after elements of the names
`before` were opened, which are the innermost first: what is closed is the innermost of those that are open -/
def leftOpen (before : List Text) : List Event → List Text
  | [] => before.reverse
  | .opened name _ :: events => leftOpen (name :: before) events
  | .closed _ _ :: events => leftOpen before.tail events
  | _ :: events => leftOpen before events

end Event

namespace Element

/-- what a visit is reported as -/
def Visit.event : Visit → Event
  | .enter depth e => .opened e.name depth
  | .leave depth e => .closed e.name depth

/-- what the walk around a tree with `depth` elements around it is reported as -/
def walk (depth : Nat) (e : Element) : List Event :=
  (around depth e).map Visit.event

/-- an element is opened, its children are walked around, and it is closed -/
theorem walk_eq (depth : Nat) (e : Element) :
    e.walk depth = .opened e.name depth :: e.children.flatMap (walk (depth + 1)) ++ [.closed e.name depth] := by
  rw [walk, around_eq, aroundForest_eq, List.map_append, List.map_cons, List.map_flatMap]
  rfl

/-- nothing of the walks around trees is left open if nothing of each of them is -/
theorem leftOpen_forest {depth : Nat} {es : List Element} {before : List Text} {events : List Event}
    (h : ∀ e ∈ es, ∀ events, Event.leftOpen before (e.walk depth ++ events) = Event.leftOpen before events) :
    Event.leftOpen before (es.flatMap (walk depth) ++ events) = Event.leftOpen before events := by
  induction es with
  | nil => rfl
  | cons e es ih =>
    obtain ⟨he, hes⟩ := List.forall_mem_cons.1 h
    rw [List.flatMap_cons, List.append_assoc, he, ih hes]

/-- nothing of a walk is left open -/
theorem leftOpen_walk (e : Element) (depth : Nat) (before : List Text) (events : List Event) :
    Event.leftOpen before (e.walk depth ++ events) = Event.leftOpen before events := by
  induction e using Element.induction_children generalizing depth before events with
  | step e ih =>
    rw [walk_eq, List.append_assoc, List.cons_append, Event.leftOpen, leftOpen_forest fun c hc => ih c hc _ _]
    rfl

end Element

namespace Builder

open Element (walk)

variable {rules : BuildRules} {b b' m : Builder} {f top : Frame} {below stack : List Frame}

/-! ## Walks that are not at their end -/

/-- what is reported while the elements of a stack are opened, and those that they hold are walked around -/
def openWalk : List Frame → List Event
  | [] => []
  | f :: below => openWalk below ++ .opened f.name below.length :: f.element.children.flatMap (walk (below.length + 1))

theorem openWalk_expectChild (stack : List Frame) : openWalk (expectChild stack) = openWalk stack := by
  unfold expectChild
  split <;> rfl

/-- an element that is given to the one around it was walked around -/
theorem openWalk_addChild (f : Frame) (e : Element) (below : List Frame) :
    openWalk (f.addChild e :: below) = openWalk (f :: below) ++ e.walk (below.length + 1) := by
  have hname : (f.addChild e).name = f.name := by
    unfold Frame.addChild
    split <;> rfl
  simp [openWalk, hname, children_addChild]

/-- the walk around an element is at its end where the element is closed -/
theorem openWalk_closed (rules : BuildRules) (top : Frame) (below : List Frame) :
    openWalk (top :: below) ++ [.closed top.name below.length] =
      openWalk below ++ (finished rules top).walk below.length := by
  rw [openWalk, Element.walk_eq, children_finished, name_finished, List.append_assoc]

/-- what is left open is what is on the stack -/
theorem leftOpen_openWalk (stack : List Frame) (events : List Event) :
    Event.leftOpen [] (openWalk stack ++ events) = Event.leftOpen (stack.map (·.name)) events := by
  induction stack generalizing events with
  | nil => rfl
  | cons f below ih =>
    rw [openWalk, List.append_assoc, ih, List.cons_append, Event.leftOpen,
      Element.leftOpen_forest fun e _ => e.leftOpen_walk _ _]
    rfl

/-- whatever is left open, and walked around inside it, begins the walk around some tree -/
theorem exists_walk (hstack : stack ≠ []) (inner : List Element) :
    ∃ root : Element, openWalk stack ++ inner.flatMap (walk stack.length) <+: root.walk 0 := by
  induction stack generalizing inner with
  | nil => exact absurd rfl hstack
  | cons f below ih =>
    -- the innermost element as it is if it is closed with the inner elements as its last children
    let closed : Element := ⟨f.name, f.attributes, .children (f.element.children ++ inner)⟩
    have hclosed : openWalk (f :: below) ++ inner.flatMap (walk (below.length + 1)) <+:
        openWalk below ++ closed.walk below.length := by
      refine ⟨[.closed f.name below.length], ?_⟩
      rw [Element.walk_eq]
      simp [openWalk, closed, Element.children]
    cases below with
    | nil => exact ⟨closed, hclosed⟩
    | cons g below =>
      obtain ⟨root, hroot⟩ := ih (List.cons_ne_nil g below) [closed]
      rw [List.flatMap_singleton] at hroot
      exact ⟨root, hclosed.trans hroot⟩

/-! ## Runs -/

/-- the elements that were opened and closed so far, as they were reported -/
def visits (b : Builder) : List Event :=
  b.events.reverse.filter Event.isVisit

/-- what a builder reported: before there is a root, the elements on the stack; afterwards, the walk around the root -/
structure Logs (b : Builder) : Prop where
  open_eq : b.root = none → b.visits = openWalk b.stack
  root_eq : ∀ e, b.root = some e → b.visits = e.walk 0
  not_split : ∀ x ∈ b.events, x.isSplit = false

theorem logs_start : Logs start where
  open_eq _ := rfl
  root_eq e he := by cases he
  not_split := List.forall_mem_nil _

theorem Logs.push (h : Logs b) (hroot : b.root = none) (tag : Tag) : Logs (b.push tag) where
  open_eq _ := by
    have hvisits : (b.push tag).visits = b.visits ++ [.opened tag.name b.depth] := by
      simp [visits, Builder.push, Event.isVisit]
    rw [hvisits, h.open_eq hroot, b.depth_eq]
    simp [Builder.push, openWalk, openWalk_expectChild, length_expectChild, frameOf, Frame.element, Held.content,
      Element.children]
  root_eq e he := by
    rw [Builder.push, hroot] at he
    cases he
  not_split := List.forall_mem_cons.2 ⟨rfl, h.not_split⟩

/-- where an element is closed, the walk around it is at its end -/
theorem Logs.visits_pop (h : Logs b) (hroot : b.root = none) (hstack : b.stack = top :: below) :
    (b.pop top.name (finished rules top) below (depth_of_stack hstack)).visits =
      openWalk below ++ (finished rules top).walk below.length := by
  have hdepth : b.depth - 1 = below.length := by rw [depth_of_stack hstack, Nat.add_sub_cancel]
  calc (b.pop top.name (finished rules top) below (depth_of_stack hstack)).visits
      = b.visits ++ [.closed top.name below.length] := by
        rw [← hdepth]
        unfold visits Builder.pop
        cases below <;> simp [List.filter_cons, Event.isVisit]
    _ = openWalk (top :: below) ++ [.closed top.name below.length] := by rw [h.open_eq hroot, hstack]
    _ = openWalk below ++ (finished rules top).walk below.length := openWalk_closed rules top below

theorem Logs.pop (h : Logs b) (hroot : b.root = none) (hstack : b.stack = top :: below) :
    Logs (b.pop top.name (finished rules top) below (depth_of_stack hstack)) where
  open_eq hnone := by
    rw [h.visits_pop hroot hstack]
    cases below with
    | nil => cases hnone
    | cons parent below => exact (openWalk_addChild parent _ below).symm
  root_eq e he := by
    rw [h.visits_pop hroot hstack]
    cases below with
    | nil =>
      cases he
      rfl
    | cons parent below =>
      have hsome : b.root = some e := he
      cases hroot.symm.trans hsome
  not_split := by
    have hclosed : ∀ x ∈ Event.closed top.name (b.depth - 1) :: b.events, x.isSplit = false :=
      List.forall_mem_cons.2 ⟨rfl, h.not_split⟩
    cases below with
    | nil => exact List.forall_mem_cons.2 ⟨rfl, hclosed⟩
    | cons parent below => exact hclosed

/-- **One step** keeps the log in step with the stack. -/
theorem Logs.step {p : Piece} (h : Logs b) (hroot : b.root = none) (hstep : Step rules b p b') : Logs b' := by
  cases hstep with
  | idle => exact h
  | opened tag => exact h.push hroot tag
  | closed top below attributes htag hstack => exact h.pop hroot hstack
  | whole tag =>
    have hstack : (b.push tag).stack = frameOf tag :: expectChild b.stack := rfl
    exact (h.push hroot tag).pop hroot hstack
  | given i => exact ⟨h.open_eq, h.root_eq, h.not_split⟩
  | text top below held hkind hne hstack hheld =>
    refine ⟨fun hnone => ?_, h.root_eq, h.not_split⟩
    have hsame : openWalk ({ top with held } :: below) = openWalk b.stack := by
      rw [hstack, openWalk, openWalk, children_of_extendText hheld]
    exact (h.open_eq hnone).trans hsame.symm

theorem Takes.logs {ts : List Token} (h : Takes rules start ts m) : Logs m :=
  h.preserves_before_root (fun _ _ _ hroot hstep hlogs => hlogs.step hroot hstep) logs_start

/-- what was reported begins the walk around some tree -/
theorem Logs.exists_walk (h : Logs b) : ∃ root : Element, b.visits <+: root.walk 0 := by
  cases hroot : b.root with
  | some root => exact ⟨root, (h.root_eq root hroot).symm ▸ List.prefix_rfl⟩
  | none =>
    rw [h.open_eq hroot]
    cases hstack : b.stack with
    | nil => exact ⟨Element.leaf [], List.nil_prefix⟩
    | cons f below =>
      obtain ⟨root, hwalk⟩ := Builder.exists_walk (List.cons_ne_nil f below) []
      rw [List.flatMap_nil, List.append_nil] at hwalk
      exact ⟨root, hwalk⟩

/-- the elements that are left open are those on the stack -/
theorem Logs.leftOpen_visits (h : Logs b) (hroot : b.root = none) : Event.leftOpen [] b.visits = b.openNames := by
  rw [h.open_eq hroot, ← List.append_nil (openWalk b.stack), leftOpen_openWalk]
  rfl

/-- what building leaves behind: the log of a builder, and what this builder comes to or what it could not take -/
theorem exists_logs_ofTokens (rules : BuildRules) (ts : List Token) :
    ∃ m, Logs m ∧ (Document.ofTokens rules ts).events = m.events.reverse ∧
      ((∃ stop, (Document.ofTokens rules ts).value = m.result stop) ∨
        ∃ e, (Document.ofTokens rules ts).value = .error e ∧ ∀ count names, e.fault ≠ .unclosed count names) := by
  rcases feed_cases rules start ts with ⟨m, hm⟩ | ⟨before, t, after, m, r, rfl, hbefore, hr⟩
  · refine ⟨m, hm.logs, ?_, Or.inl ⟨_, value_ofTokens_of_ok hm⟩⟩
    simp only [Document.ofTokens, show feed rules start ts = (m, .ok none) from hm]
  · have hfeed : feed rules start (before ++ t :: after) = (m, r) := (hbefore.feed_append (t :: after)).trans hr.feed_eq
    refine ⟨m, hbefore.logs, ?_, ?_⟩
    · simp only [Document.ofTokens, hfeed]
      cases r <;> rfl
    · cases hr with
      | ended heof => exact Or.inl ⟨_, value_ofTokens_of_ok hfeed⟩
      | trailing heof hroot hfiller =>
        refine Or.inr ⟨_, value_ofTokens_of_error hfeed, fun count names => ?_⟩
        exact trailingFault_ne t after (fun _ => BuildFault.noConfusion) fun _ => BuildFault.noConfusion
      | refused fault heof hroot hrefused =>
        exact Or.inr ⟨_, value_ofTokens_of_error hfeed, (refuses_of_step hrefused).ne_unclosed⟩

end Builder

/-! ## Tokens -/

namespace TokenStream.Completes

variable {s : TokenStream} {ts : List Token} {last : Except ReadError Token}

/-- the tokens among what is yielded -/
theorem item_eq_ok_iff (h : s.Completes ts last) (k : Nat) (t : Token) :
    s.item k = some (.ok t) ↔ (ts ++ last.toOption.toList)[k]? = some t := by
  rw [h.item_eq]
  cases last with
  | ok tok =>
    have hitems : ts.map Except.ok ++ [Except.ok tok] = (ts ++ [tok]).map (Except.ok (ε := ReadError)) := by simp
    rw [hitems, List.getElem?_map]
    simp [Except.toOption]
  | error e =>
    rw [Except.toOption, Option.toList_none, List.append_nil]
    rcases Nat.lt_or_ge k ts.length with hlt | hle
    · rw [List.getElem?_append_left (by rwa [List.length_map]), List.getElem?_map]
      simp
    · rw [List.getElem?_append_right (by rwa [List.length_map]), List.getElem?_eq_none hle]
      refine iff_of_false (fun hitem => ?_) fun hnone => nomatch hnone
      cases List.mem_singleton.1 (List.mem_of_getElem? hitem)

/-- what is yielded is reported, and then how many tokens there are, unless an error ends them -/
theorem events_collect (h : s.Completes ts last) {eof : Token} (heof : eof.isEof = true) :
    (s.collect (some eof)).events = (ts ++ last.toOption.toList).map Token.event ++
      last.toOption.toList.map fun _ => .tokenized (ts.length + 1) := by
  obtain ⟨stuck, ended, hdelivers, -, hnext, hended⟩ := h.delivers
  rw [collect, hdelivers.collectFrom_eq, collectFrom_eq, hnext]
  cases last with
  | error e => simp [Except.toOption]
  | ok tok =>
    have hkind : tok.kind = eof.kind := by
      have htok := h.isEof_last tok rfl
      simp only [Token.isEof, beq_iff_eq] at htok heof
      rw [htok, heof]
    simp [collectFrom_eq, next_of_not_running hended, withEnd, hkind, Except.toOption, Token.event]

end TokenStream.Completes

/-- the tokens that the stream of a text yields are reported, and then, if there is no error, how many there are -/
theorem Text.exists_events (s : Text) :
    ∃ ts : List Token, (∀ k t, (TokenStream.ofText s).item k = some (.ok t) ↔ ts[k]? = some t) ∧
      s.tokens.events = ts.map Token.event ++
        match s.tokens.value with
        | .ok _ => [.tokenized ts.length]
        | .error _ => [] := by
  obtain ⟨ts, last, h⟩ := (TokenStream.running_ofText s).exists_completes
  have hvalue := h.value_collect (some (.eof (TokenStream.ofText s).spanAtEnd))
  refine ⟨ts ++ last.toOption.toList, h.item_eq_ok_iff, ?_⟩
  rw [Text.tokens, h.events_collect rfl, hvalue]
  cases last with
  | error e => rfl
  | ok tok => simp [Except.toOption, Except.map]

/-- nothing but tokens is reported while a text is split -/
theorem Text.isSplit_of_mem_events {s : Text} {x : Event} (h : x ∈ s.tokens.events) : x.isSplit = true := by
  obtain ⟨ts, -, hevents⟩ := s.exists_events
  rw [hevents] at h
  rcases List.mem_append.1 h with h | h
  · obtain ⟨t, -, rfl⟩ := List.mem_map.1 h
    rfl
  · split at h
    · rw [List.mem_singleton.1 h]
      rfl
    · cases h

/-! ## Texts -/

namespace Document

/-- what reading leaves behind: the log of the tokens, then that of a builder, and what this builder comes to or what is
wrong before -/
theorem exists_logs_ofText (rules : BuildRules) (s : Text) :
    ∃ m, Builder.Logs m ∧ (ofText rules s).events = s.tokens.events ++ m.events.reverse ∧
      ((∃ stop, read rules s = m.result stop) ∨
        ∃ e, read rules s = .error e ∧ ∀ count names, e.fault ≠ .unclosed count names) := by
  cases htokens : s.tokens with
  | mk value events =>
    cases value with
    | error e =>
      refine ⟨.start, Builder.logs_start, ?_, Or.inr ⟨.ofReadError e, ?_, fun _ _ => BuildFault.noConfusion⟩⟩
      · simp [ofText, ofSplit, htokens, Builder.start]
      · simp only [read, ofText, ofSplit, htokens]
    | ok ts =>
      obtain ⟨m, hm, hevents, hvalue⟩ := Builder.exists_logs_ofTokens rules ts
      have hread : read rules s = (ofTokens rules ts).value := by simp only [read, ofText, ofSplit, htokens]
      refine ⟨m, hm, ?_, hread ▸ hvalue⟩
      simp only [ofText, ofSplit, htokens, hevents]

variable {rules : BuildRules} {s : Text} {m : Builder}

/-- the tokens are reported before all elements -/
theorem filter_isSplit_events (hm : m.Logs) (h : (ofText rules s).events = s.tokens.events ++ m.events.reverse) :
    (ofText rules s).events.filter Event.isSplit = s.tokens.events := by
  have hrest : ∀ x ∈ m.events.reverse, ¬ x.isSplit = true := by
    intro x hx
    rw [hm.not_split x (List.mem_reverse.1 hx)]
    exact Bool.false_ne_true
  rw [h, List.filter_append, List.filter_eq_self.2 fun x => Text.isSplit_of_mem_events, List.filter_eq_nil_iff.2 hrest,
    List.append_nil]

theorem filter_isVisit_events (h : (ofText rules s).events = s.tokens.events ++ m.events.reverse) :
    (ofText rules s).events.filter Event.isVisit = m.visits := by
  have hnone : ∀ x ∈ s.tokens.events, ¬ x.isVisit = true := by
    intro x hx
    rw [Event.isVisit_of_isSplit (Text.isSplit_of_mem_events hx)]
    exact Bool.false_ne_true
  rw [h, List.filter_append, List.filter_eq_nil_iff.2 hnone, List.nil_append, Builder.visits]

end Document

/-- **The log is the walk around the tree.** Every token that is found is reported, in its order and with its kind and
start, and then, if the text splits into tokens, how many there are. If the text is read, the elements are reported as
the walk around its tree opens and closes them; if not, as such a walk begins. If elements are not closed, those that
the log leaves open have the names that the error tells. -/
theorem log_walks_tree (rules : BuildRules) (s : Text) :
    let log := (Document.ofText rules s).events
    (∃ ts : List Token, (∀ k t, (TokenStream.ofText s).item k = some (.ok t) ↔ ts[k]? = some t) ∧
      log.filter Event.isSplit = (ts.map fun t => .token t.kind t.span.start) ++
        match s.tokens.value with
        | .ok _ => [.tokenized ts.length]
        | .error _ => []) ∧
    (∀ d, Document.read rules s = .ok d → log.filter Event.isVisit = d.root.walk 0) ∧
    ∀ e, Document.read rules s = .error e →
      (∃ root : Element, log.filter Event.isVisit <+: root.walk 0) ∧
        ∀ count names, e.fault = .unclosed count names → Event.leftOpen [] (log.filter Event.isVisit) = names := by
  intro log
  obtain ⟨m, hm, hlog, hvalue⟩ := Document.exists_logs_ofText rules s
  have htokens : log.filter Event.isSplit = s.tokens.events := Document.filter_isSplit_events hm hlog
  have hvisits : log.filter Event.isVisit = m.visits := Document.filter_isVisit_events hlog
  rw [htokens, hvisits]
  refine ⟨s.exists_events, ?_, ?_⟩
  · intro d hread
    rcases hvalue with ⟨stop, hresult⟩ | ⟨e, herror, -⟩
    · cases hroot : m.root with
      | none =>
        rw [hread, Builder.result_of_no_root hroot] at hresult
        cases hresult
      | some root =>
        rw [hread, Builder.result_of_root hroot] at hresult
        cases hresult
        exact hm.root_eq root hroot
    · cases hread.symm.trans herror
  · intro e hread
    refine ⟨hm.exists_walk, fun count names hnames => ?_⟩
    rcases hvalue with ⟨stop, hresult⟩ | ⟨e', herror, hother⟩
    · obtain ⟨hroot, rfl⟩ := Builder.result_eq_error_iff.1 (hresult.symm.trans hread)
      rw [hm.leftOpen_visits hroot, (Builder.missing_eq_unclosed_iff.1 hnames).2.2]
    · obtain rfl := Except.error.inj (hread.symm.trans herror)
      exact absurd hnames (hother count names)

/-- a text whose elements are all closed, and one that leaves two open around one that it closes -/
theorem log_walks_tree_nested :
    (∃ d : Document, Document.read .default "<a><b> x </b><c/></a>".toList = .ok d ∧
      (Document.ofText .default "<a><b> x </b><c/></a>".toList).events.filter Event.isVisit = d.root.walk 0) ∧
    ∃ e : BuildError, Document.read .default "<a><b/><c>x".toList = .error e ∧ e.fault = .unclosed 2 [['a'], ['c']] ∧
      (∃ root : Element,
        (Document.ofText .default "<a><b/><c>x".toList).events.filter Event.isVisit <+: root.walk 0) ∧
      Event.leftOpen [] ((Document.ofText .default "<a><b/><c>x".toList).events.filter Event.isVisit) =
        [['a'], ['c']] := by
  obtain ⟨hread, herror⟩ : Document.read .default "<a><b> x </b><c/></a>".toList =
        .ok ⟨⟨['a'], .empty, .children [⟨['b'], .empty, .text [' ', 'x', ' ']⟩, ⟨['c'], .empty, .empty⟩]⟩, .none⟩ ∧
      Document.read .default "<a><b/><c>x".toList = .error ⟨.unclosed 2 [['a'], ['c']], ⟨1, 12⟩⟩ := ⟨by cbv, by cbv⟩
  obtain ⟨-, hwalk, -⟩ := log_walks_tree .default "<a><b> x </b><c/></a>".toList
  obtain ⟨-, -, hrefused⟩ := log_walks_tree .default "<a><b/><c>x".toList
  obtain ⟨hbegins, hnames⟩ := hrefused _ herror
  exact ⟨⟨_, hread, hwalk _ hread⟩, _, herror, rfl, hbegins, hnames _ _ rfl⟩

end TaggedText
