/-
Texts that do not split into tokens.

A stream yields the pieces that are cut off the front of its text, in their places (`TokenStream.Running.delivers_of_cutsTo`),
and fails where none can be cut off. There a closing bracket stands, or an opening one whose run holds another opening
bracket or does not end (`Text.stuck_cases`).

Results:
- `Text.tokens_eq_error_iff`: splitting fails exactly where the next piece cannot be cut off, and for that fault;
- `tokens_fail_at_stuck`: the error is located there, wherever the failing call has come to, what stands before splits
  into the tokens that were yielded, and the fault tells which of three things is wrong.
-/
import TaggedText.Proofs.PrefixCuts
import TaggedText.Proofs.Spans

namespace TaggedText

/-! ## What is wrong at an offset -/

/-- a closing bracket stands where a token should begin -/
structure Text.ClosesNothing (s : Text) (p : Nat) (fault : ReadFault) : Prop where
  bracket : s[p]? = some '>'
  fault_eq : fault = .unmatchedClose

/-- a bracket run, not a comment, begins at `p`, and the next bracket opens another -/
structure Text.OpensTwice (s : Text) (p : Nat) (fault : ReadFault) : Prop where
  bracket : s[p]? = some '<'
  no_opener : ¬ ['<', '!', '-', '-'] <+: s.drop p
  second : ∃ q, p < q ∧ s[q]? = some '<' ∧ (∀ c ∈ s.slice (p + 1) q, c ≠ '<' ∧ c ≠ '>') ∧
    fault = .bracketInTag (s.slice p q) '<'

/-- no bracket follows the one at `p`, or a comment begins there and no `-->` follows its opener -/
structure Text.NeverCloses (s : Text) (p : Nat) (fault : ReadFault) : Prop where
  bracket : s[p]? = some '<'
  open_end : (¬ ['<', '!', '-', '-'] <+: s.drop p ∧ ∀ c ∈ s.drop (p + 1), c ≠ '<' ∧ c ≠ '>') ∨
    (['<', '!', '-', '-'] <+: s.drop p ∧ ¬ ['-', '-', '>'] <:+: s.drop (p + 4))
  fault_eq : fault = .unbalanced 1

/-! ## What is wrong where nothing can be cut off -/

/-- **What is stuck.** Where no piece can be cut off, one of the three things is wrong. -/
theorem Text.stuck_cases {u rest : Text} {fault : ReadFault} (h : cut rest = some (.error fault)) :
    ClosesNothing (u ++ rest) u.length fault ∨ OpensTwice (u ++ rest) u.length fault ∨
      NeverCloses (u ++ rest) u.length fault := by
  obtain ⟨c, t, rfl, ⟨rfl, rfl⟩ | ⟨rfl, hangle⟩⟩ := Cut.cut_eq_error h
  · exact Or.inl ⟨by simp, rfl⟩
  · have hbracket : (u ++ '<' :: t)[u.length]? = some '<' := by simp
    have hdrop : (u ++ '<' :: t).drop u.length = '<' :: t := List.drop_left
    by_cases hopener : ['!', '-', '-'] <+: t
    · obtain ⟨t, rfl⟩ := hopener
      obtain ⟨hend, rfl⟩ := Cut.comment_eq_error_iff.1 hangle
      have hbehind : (u ++ '<' :: (['!', '-', '-'] ++ t)).drop (u.length + 4) = t := by
        rw [List.drop_append, Nat.add_sub_cancel_left]
        simp
      refine Or.inr (Or.inr ⟨hbracket, Or.inr ⟨?_, ?_⟩, rfl⟩)
      · rw [hdrop]
        exact ⟨t, rfl⟩
      · rwa [hbehind]
    · have hno : ¬ ['<', '!', '-', '-'] <+: (u ++ '<' :: t).drop u.length := by
        rw [hdrop]
        exact fun hpre => hopener (List.cons_prefix_cons.1 hpre).2
      rw [Cut.angle_eq_bracket hopener] at hangle
      rcases Cut.bracket_eq_error_iff.1 hangle with ⟨hall, rfl⟩ | ⟨body, rest, rfl, hbody, rfl⟩
      · have hbehind : (u ++ '<' :: t).drop (u.length + 1) = t := by
          rw [List.drop_append, Nat.add_sub_cancel_left]
          simp
        exact Or.inr (Or.inr ⟨hbracket, Or.inl ⟨hno, by rwa [hbehind]⟩, rfl⟩)
      · have hinside : Text.slice (u ++ '<' :: (body ++ '<' :: rest)) (u.length + 1) (u.length + 1 + body.length) =
            body := by
          simpa using Text.slice_append (u ++ ['<']) body ('<' :: rest)
        have hwhole : Text.slice (u ++ '<' :: (body ++ '<' :: rest)) u.length (u.length + 1 + body.length) =
            '<' :: body := by
          have hlength : u.length + 1 + body.length = u.length + ('<' :: body).length := by
            rw [List.length_cons, Nat.add_assoc, Nat.add_comm 1]
          rw [hlength]
          exact Text.slice_append u ('<' :: body) ('<' :: rest)
        refine Or.inr (Or.inl ⟨hbracket, hno, u.length + 1 + body.length, by omega, ?_, ?_, ?_⟩)
        · rw [Nat.add_assoc, List.getElem?_append_right (Nat.le_add_right _ _), Nat.add_sub_cancel_left, Nat.add_comm 1]
          simp
        · rwa [hinside]
        · rw [hwhole]

/-! ## What is yielded before an error -/

/-- places are told by what a table says of the offsets up to the end -/
theorem Piece.laid_congr {lines lines' : LineTable} {offset : Nat} {ps : List Piece}
    (h : ∀ q, q ≤ offset + (join ps).length → lines.locate q = lines'.locate q) :
    laid lines offset ps = laid lines' offset ps := by
  induction ps generalizing offset with
  | nil => rfl
  | cons p ps ih =>
    have hrest : laid lines (offset + p.text.length) ps = laid lines' (offset + p.text.length) ps := by
      refine ih fun q hq => h q ?_
      rwa [length_join_cons, ← Nat.add_assoc]
    rw [laid, laid, h offset (Nat.le_add_right _ _), hrest]

def Token.event (t : Token) : Event :=
  .token t.kind t.span.start

namespace TokenStream

/-- the stream yields the tokens, one after another -/
inductive Delivers : TokenStream → List Token → TokenStream → Prop
  | nil (s : TokenStream) : Delivers s [] s
  | cons {s s' s'' : TokenStream} {t : Token} {ts : List Token} (h : s.next = (some (.ok t), s'))
    (hrest : Delivers s' ts s'') : Delivers s (t :: ts) s''

/-- a running stream yields the pieces that are cut off its text, in their places, and is then behind them -/
theorem Running.delivers_of_cutsTo {s : TokenStream} {t rest : Text} {ps : List Piece} (hs : s.Running)
    (ht : s.cursor.place.rest = t) (h : CutsTo t ps rest) :
    ∃ stuck : TokenStream, s.Delivers (Piece.laid s.cursor.source.lines s.cursor.offset ps) stuck ∧ stuck.Running ∧
      s.cursor.Reaches (Piece.join ps) stuck.cursor := by
  induction h generalizing s with
  | done t => exact ⟨s, .nil s, hs, (Cursor.Passes.refl s.cursor).toReaches⟩
  | @step t rest k ps hcut _ ih =>
    subst ht
    obtain ⟨s', hrunning, hpasses, hrest, hnext⟩ := hs.next_of_ok hcut
    obtain ⟨stuck, hdelivers, hstuck, hreaches⟩ := ih hrunning hrest
    rw [hpasses.source_eq, hpasses.offset_eq] at hdelivers
    rw [hpasses.offset_eq] at hnext
    exact ⟨stuck, .cons hnext hdelivers, hstuck, hpasses.toReaches.trans hreaches⟩

/-- what is yielded is collected and reported, and collecting goes on behind it -/
theorem Delivers.collectFrom_eq {s s' : TokenStream} {ts : List Token} (h : s.Delivers ts s') (eof : Option Token)
    (tokens : List Token) (events : List Event) :
    s.collectFrom eof tokens events =
      s'.collectFrom eof (ts.reverse ++ tokens) ((ts.map Token.event).reverse ++ events) := by
  induction h generalizing tokens events with
  | nil s => rfl
  | @cons s s' s'' t ts hnext _ ih =>
    have htokens : (t :: ts).reverse ++ tokens = ts.reverse ++ t :: tokens := by
      rw [List.reverse_cons, List.append_assoc, List.singleton_append]
    have hevents : ((t :: ts).map Token.event).reverse ++ events =
        (ts.map Token.event).reverse ++ t.event :: events := by
      rw [List.map_cons, List.reverse_cons, List.append_assoc, List.singleton_append]
    rw [htokens, hevents, TokenStream.collectFrom_eq, hnext]
    exact ih (t :: tokens) (t.event :: events)

/-- an error that is yielded is the error of the whole stream -/
theorem Delivers.value_of_error {s stuck after : TokenStream} {ts : List Token} {e : ReadError}
    (h : s.Delivers ts stuck) (hnext : stuck.next = (some (.error e), after)) (eof : Option Token) :
    (s.collect eof).value = .error e := by
  rw [collect, h.collectFrom_eq, TokenStream.collectFrom_eq, hnext]

end TokenStream

/-- **The failing call.** The stream of a text yields what is cut off its front, and then the fault of what is left,
told of the place where the stream stood; the call leaves the cursor there or takes it to the end. -/
theorem Text.delivers_stuck {s rest : Text} {ps : List Piece} {fault : ReadFault} (h : CutsTo s ps rest)
    (hstuck : cut rest = some (.error fault)) :
    ∃ stuck : TokenStream, (TokenStream.ofText s).Delivers (Piece.laid (LineTable.ofText s) 0 ps) stuck ∧
      (TokenStream.ofText s).cursor.Reaches (Piece.join ps) stuck.cursor ∧
      stuck.next = (some (.error ⟨fault, (LineTable.ofText s).locate (Piece.join ps).length⟩),
        ⟨stuck.cursor.haltedBy fault, .finished⟩) := by
  obtain ⟨stuck, hdelivers, hrunning, hreaches⟩ := (TokenStream.running_ofText s).delivers_of_cutsTo rfl h
  have hrest : rest = stuck.cursor.place.rest :=
    List.append_cancel_left (h.eq_append.symm.trans hreaches.rest_eq)
  have herror : stuck.cursor.failure fault = ⟨fault, (LineTable.ofText s).locate (Piece.join ps).length⟩ := by
    have hoffset : stuck.cursor.offset = (Piece.join ps).length := hreaches.offset_eq.trans (Nat.zero_add _)
    rw [Cursor.failure, Cursor.failureAt, Cursor.locate, hreaches.source_eq, hoffset]
    rfl
  have hnext := hrunning.next_of_error (hrest ▸ hstuck)
  rw [herror] at hnext
  exact ⟨stuck, hdelivers, hreaches, hnext⟩

/-- splitting fails exactly where the next piece cannot be cut off, and for that fault -/
theorem Text.tokens_eq_error_iff {s : Text} {e : ReadError} :
    s.tokens.value = .error e ↔
      ∃ ps rest fault, CutsTo s ps rest ∧ cut rest = some (.error fault) ∧
        e = ⟨fault, (LineTable.ofText s).locate (Piece.join ps).length⟩ := by
  have hstuck : ∀ ps rest fault, CutsTo s ps rest → cut rest = some (.error fault) →
      s.tokens.value = .error ⟨fault, (LineTable.ofText s).locate (Piece.join ps).length⟩ := by
    intro ps rest fault hps hfault
    obtain ⟨stuck, hdelivers, -, hnext⟩ := Text.delivers_stuck hps hfault
    exact hdelivers.value_of_error hnext _
  refine ⟨?_, ?_⟩
  · intro h
    rcases cuts_or_stuck s with ⟨ps, hps⟩ | ⟨ps, rest, fault, hps, hfault⟩
    · have hok := Text.tokens_eq_ok_iff.2 ⟨ps, hps, rfl⟩
      cases h.symm.trans hok
    · exact ⟨ps, rest, fault, hps, hfault, Except.error.inj (h.symm.trans (hstuck ps rest fault hps hfault))⟩
  · intro h
    obtain ⟨ps, rest, fault, hps, hfault, rfl⟩ := h
    exact hstuck ps rest fault hps hfault

/-- the text up to what is left splits into the tokens of the pieces that are cut off -/
theorem CutsTo.tokens_join {s rest : Text} {ps : List Piece} (h : CutsTo s ps rest) :
    (Text.tokens (Piece.join ps)).value = .ok (Piece.laid (LineTable.ofText s) 0 ps ++
      [.eof ⟨(Piece.join ps).length, (Piece.join ps).length, (LineTable.ofText s).locate (Piece.join ps).length⟩]) := by
  have hjoin : Piece.join ps = s.take (Piece.join ps).length := by rw [h.eq_append, List.take_left]
  have hle : (Piece.join ps).length ≤ s.length := by rw [h.eq_append, List.length_append]; exact Nat.le_add_right _ _
  have hlocate : ∀ q, q ≤ 0 + (Piece.join ps).length →
      (LineTable.ofText (Piece.join ps)).locate q = (LineTable.ofText s).locate q := by
    intro q hq
    rw [hjoin]
    exact LineTable.locate_ofText_take (by rwa [Nat.zero_add] at hq) hle
  refine Text.tokens_eq_ok_iff_laid.2 ⟨ps, h.cuts_join, ?_⟩
  rw [Piece.laid_congr hlocate, hlocate _ (Nat.zero_add _).ge]

/-- only one thing is wrong, and the fault says which -/
theorem Text.exactly_one_wrong {s : Text} {p : Nat} {fault : ReadFault}
    (h : s.ClosesNothing p fault ∨ s.OpensTwice p fault ∨ s.NeverCloses p fault) :
    fault ≠ .endOfInput ∧
      ((s.ClosesNothing p fault ∧ ¬ s.OpensTwice p fault ∧ ¬ s.NeverCloses p fault) ∨
        (¬ s.ClosesNothing p fault ∧ s.OpensTwice p fault ∧ ¬ s.NeverCloses p fault) ∨
        (¬ s.ClosesNothing p fault ∧ ¬ s.OpensTwice p fault ∧ s.NeverCloses p fault)) := by
  have htwice : s.OpensTwice p fault → ∃ tag, fault = .bracketInTag tag '<' := by
    intro hopens
    obtain ⟨q, -, -, -, hfault⟩ := hopens.second
    exact ⟨_, hfault⟩
  rcases h with hcloses | hopens | hends
  · have hfault := hcloses.fault_eq
    refine ⟨by simp [hfault], Or.inl ⟨hcloses, fun h' => ?_, fun h' => ?_⟩⟩
    · obtain ⟨tag, htag⟩ := htwice h'
      cases hfault.symm.trans htag
    · cases hfault.symm.trans h'.fault_eq
  · obtain ⟨tag, hfault⟩ := htwice hopens
    refine ⟨by simp [hfault], Or.inr (Or.inl ⟨fun h' => ?_, hopens, fun h' => ?_⟩)⟩
    · cases hfault.symm.trans h'.fault_eq
    · cases hfault.symm.trans h'.fault_eq
  · have hfault := hends.fault_eq
    refine ⟨by simp [hfault], Or.inr (Or.inr ⟨fun h' => ?_, fun h' => ?_, hends⟩)⟩
    · cases hfault.symm.trans h'.fault_eq
    · obtain ⟨tag, htag⟩ := htwice h'
      cases hfault.symm.trans htag

/-- a call that fails leaves the cursor where the error is, or at the end if a run or a comment does not end -/
theorem Text.offset_haltedBy {s : Text} {c : Cursor} {fault : ReadFault} (hc : c.place.In s)
    (h : s.ClosesNothing c.offset fault ∨ s.OpensTwice c.offset fault ∨ s.NeverCloses c.offset fault) :
    (c.haltedBy fault).offset = if fault = .unbalanced 1 then s.length else c.offset := by
  rcases h with hcloses | hopens | hends
  · rw [hcloses.fault_eq]
    rfl
  · obtain ⟨q, -, -, -, hfault⟩ := hopens.second
    rw [hfault]
    rfl
  · rw [hends.fault_eq, if_pos rfl]
    exact hc.length_eq

/-- **Errors of tokens.** If a text does not split into tokens, there is an offset where the next token cannot be
completed. The stream stands there when it fails, and the error is located there, although the failing call goes on to
the end of the text in search of the end of a bracket run or a comment. What stands before splits into the tokens that
the stream yielded, and the end token. Exactly one thing is wrong at the offset: a closing bracket has no opening one, a
second bracket opens inside a bracket run, or a bracket run or comment does not end. The fault says which. -/
theorem tokens_fail_at_stuck {s : Text} {e : ReadError} (h : s.tokens.value = .error e) :
    e.fault ≠ .endOfInput ∧ ∃ p ts stuck after, e.location = s.locationAt p ∧
      (TokenStream.ofText s).Delivers ts stuck ∧ stuck.next = (some (.error e), after) ∧
      stuck.cursor.offset = p ∧ after.cursor.offset = (if e.fault = .unbalanced 1 then s.length else p) ∧
      (Text.tokens (s.take p)).value = .ok (ts ++ [.eof ⟨p, p, e.location⟩]) ∧
      ((s.ClosesNothing p e.fault ∧ ¬ s.OpensTwice p e.fault ∧ ¬ s.NeverCloses p e.fault) ∨
        (¬ s.ClosesNothing p e.fault ∧ s.OpensTwice p e.fault ∧ ¬ s.NeverCloses p e.fault) ∨
        (¬ s.ClosesNothing p e.fault ∧ ¬ s.OpensTwice p e.fault ∧ s.NeverCloses p e.fault)) := by
  obtain ⟨ps, rest, fault, hps, hfault, rfl⟩ := Text.tokens_eq_error_iff.1 h
  obtain ⟨stuck, hdelivers, hreaches, hnext⟩ := Text.delivers_stuck hps hfault
  have hs := hps.eq_append
  have htake : s.take (Piece.join ps).length = Piece.join ps := by rw [hs, List.take_left]
  have hoffset : stuck.cursor.offset = (Piece.join ps).length := hreaches.offset_eq.trans (Nat.zero_add _)
  have hlocation : (LineTable.ofText s).locate (Piece.join ps).length = s.locationAt (Piece.join ps).length := by
    refine LineTable.locate_eq_locationAt ?_
    rw [hs, List.length_append]
    exact Nat.le_add_right _ _
  have hwrong := Text.stuck_cases (u := Piece.join ps) hfault
  rw [← hs] at hwrong
  have hin : stuck.cursor.place.In s := hreaches.place_in ⟨Nat.zero_le _, rfl⟩
  have hafter := Text.offset_haltedBy hin (hoffset ▸ hwrong)
  obtain ⟨hend, hone⟩ := Text.exactly_one_wrong hwrong
  refine ⟨hend, (Piece.join ps).length, _, stuck, _, hlocation, hdelivers, hnext, hoffset, ?_, ?_, hone⟩
  · rw [← hoffset]
    exact hafter
  · rw [htake]
    exact hps.tokens_join

/-- after a tag and a text, the tag on the next line does not end; it is read up to the end, and the error is told of
the place where it begins -/
theorem tokens_fail_at_stuck_openEnd :
    ∃ e : ReadError, (Text.tokens "<a>x\n<b c".toList).value = .error e ∧ e = ⟨.unbalanced 1, ⟨2, 1⟩⟩ ∧
      e.fault ≠ .endOfInput ∧
      ∃ p ts stuck after, e.location = Text.locationAt "<a>x\n<b c".toList p ∧
        (TokenStream.ofText "<a>x\n<b c".toList).Delivers ts stuck ∧ stuck.next = (some (.error e), after) ∧
        stuck.cursor.offset = p ∧
        after.cursor.offset = (if e.fault = .unbalanced 1 then "<a>x\n<b c".toList.length else p) ∧
        (Text.tokens (List.take p "<a>x\n<b c".toList)).value = .ok (ts ++ [.eof ⟨p, p, e.location⟩]) ∧
        ((Text.ClosesNothing "<a>x\n<b c".toList p e.fault ∧ ¬ Text.OpensTwice "<a>x\n<b c".toList p e.fault ∧
            ¬ Text.NeverCloses "<a>x\n<b c".toList p e.fault) ∨
          (¬ Text.ClosesNothing "<a>x\n<b c".toList p e.fault ∧ Text.OpensTwice "<a>x\n<b c".toList p e.fault ∧
            ¬ Text.NeverCloses "<a>x\n<b c".toList p e.fault) ∨
          (¬ Text.ClosesNothing "<a>x\n<b c".toList p e.fault ∧ ¬ Text.OpensTwice "<a>x\n<b c".toList p e.fault ∧
            Text.NeverCloses "<a>x\n<b c".toList p e.fault)) := by
  have h : (Text.tokens "<a>x\n<b c".toList).value = .error ⟨.unbalanced 1, ⟨2, 1⟩⟩ := by cbv
  exact ⟨_, h, rfl, tokens_fail_at_stuck h⟩

end TaggedText
