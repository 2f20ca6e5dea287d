/-
Tags and the kinds of their tokens.

A bracket run is put among tags, instructions and comments by the first character after its opening bracket. What is
between the brackets is read later, character by character. The two agree: what is read says nothing else than the kind
(`Piece.Bracketed.head_question_iff`), and no reader of a part of a tag passes over the only closing bracket, which is
the last character of the run (`Tag.EndsOnce`). So the reader never misses a bracket, and never finds anything behind
one (`Tag.not_foreign_of_read`).

`tags_agree_with_tokens` says what follows for texts: instructions come from tokens of that kind only, and no value
contains a bracket.
-/
import TaggedText.Proofs.Feeding
import TaggedText.Proofs.WellFormed

namespace TaggedText

/-- the faults that reading a bracket run never comes to: those about its brackets and about what follows them, and the
one that is told of tokens only -/
def TagFault.foreign : List TagFault :=
  [.noOpeningBracket, .declaration, .noClosingBracket, .contentAfterEnd, .notInstructions]

namespace Tag

/-! ## The closing bracket -/

/-- the text ends with a closing bracket and has no other -/
def EndsOnce (t : Text) : Prop :=
  ∃ u, t = u ++ ['>'] ∧ '>' ∉ u

theorem EndsOnce.mem {t : Text} (h : EndsOnce t) : '>' ∈ t := by
  obtain ⟨u, rfl, -⟩ := h
  simp

theorem endsOnce_cons {c : Char} {t : Text} : EndsOnce (c :: t) ↔ (c = '>' ∧ t = []) ∨ (c ≠ '>' ∧ EndsOnce t) := by
  refine ⟨?_, ?_⟩
  · intro h
    obtain ⟨u, hu, hnot⟩ := h
    cases u with
    | nil =>
      obtain ⟨rfl, rfl⟩ := List.cons.inj hu
      exact Or.inl ⟨rfl, rfl⟩
    | cons d u =>
      obtain ⟨rfl, rfl⟩ := List.cons.inj hu
      rw [List.mem_cons, not_or] at hnot
      exact Or.inr ⟨Ne.symm hnot.1, u, rfl, hnot.2⟩
  · intro h
    rcases h with ⟨rfl, rfl⟩ | ⟨hc, u, rfl, hnot⟩
    · exact ⟨[], rfl, List.not_mem_nil⟩
    · exact ⟨c :: u, rfl, by simp [Ne.symm hc, hnot]⟩

/-- what is left of such a text is one as long as anything is left -/
theorem EndsOnce.of_append {u v : Text} (h : EndsOnce (u ++ v)) (hv : v ≠ []) : EndsOnce v := by
  induction u with
  | nil => exact h
  | cons c u ih =>
    rcases endsOnce_cons.1 h with ⟨-, hnil⟩ | ⟨-, h⟩
    · exact absurd (List.append_eq_nil_iff.1 hnil).2 hv
    · exact ih h

/-- what is left after characters other than the bracket -/
theorem EndsOnce.of_append_of_not_mem {u v : Text} (h : EndsOnce (u ++ v)) (hu : '>' ∉ u) : EndsOnce v := by
  refine h.of_append ?_
  intro hv
  rw [hv, List.append_nil] at h
  exact hu h.mem

theorem EndsOnce.eq_of_append_singleton {u : Text} {c : Char} (h : EndsOnce (u ++ [c])) : c = '>' := by
  obtain ⟨v, hv, -⟩ := h
  exact List.singleton_inj.1 (List.append_inj' hv rfl).2

theorem EndsOnce.dropWhile {t : Text} (h : EndsOnce t) : EndsOnce (t.dropWhile CharClass.isWhitespace) := by
  refine EndsOnce.of_append_of_not_mem (u := t.takeWhile CharClass.isWhitespace) ?_ ?_
  · rwa [List.takeWhile_append_dropWhile]
  · intro hmem
    exact absurd (Text.blank_takeWhile t _ hmem) (by decide)

/-- an attribute ends with a quote, so that the bracket stands after it -/
theorem EndsOnce.after_attribute {t key value after : Text} (h : EndsOnce t)
    (hattribute : takeAttribute t = .ok (key, value, after)) : EndsOnce after := by
  obtain ⟨u, hkey, ⟨before, between, quote, -, -, hquote, -, rfl⟩, rfl⟩ := takeAttribute_eq_ok_iff.1 hattribute
  have hlast : key ++ (before ++ '=' :: (between ++ quote :: (value ++ [quote]))) =
      key ++ before ++ '=' :: between ++ quote :: value ++ [quote] := by simp
  rw [← List.append_assoc] at h
  refine h.of_append ?_
  intro hafter
  rw [hafter, List.append_nil, hlast] at h
  rw [h.eq_of_append_singleton] at hquote
  exact absurd hquote (by decide)

/-! ## Faults -/

theorem takeAssignment_fault {t : Text} {fault : TagFault} (h : takeAssignment t = .error fault) :
    fault ∈ [TagFault.noValue, .unquotedValue, .unterminatedValue] := by
  simp only [takeAssignment, takeValue] at h
  split at h
  · split at h
    · split_ifs at h
      · split at h <;> cases h
        decide
      · cases h
        decide
    · cases h
      decide
  · cases h
    decide

theorem takeAttribute_fault {t : Text} {fault : TagFault} (h : takeAttribute t = .error fault) :
    fault ∉ TagFault.foreign := by
  simp only [takeAttribute] at h
  split at h
  · cases h
    decide
  · split at h
    · rename_i fault' hassign
      cases h
      have hmem := takeAssignment_fault hassign
      cases fault <;> first | decide | exact absurd hmem (by decide)
    · cases h

theorem ended_of_endsOnce {text t : Text} {tag : Tag} (h : EndsOnce ('>' :: t)) : ended text tag t = .ok tag := by
  rcases endsOnce_cons.1 h with ⟨-, rfl⟩ | ⟨hne, -⟩
  · rfl
  · exact absurd rfl hne

/-- what follows another character ends with the bracket too -/
theorem EndsOnce.of_cons {c : Char} {t : Text} (h : EndsOnce (c :: t)) (hc : c ≠ '>') : EndsOnce t := by
  rcases endsOnce_cons.1 h with ⟨heq, -⟩ | ⟨-, ht⟩
  · exact absurd heq hc
  · exact ht

theorem eq_of_closed_eq_error {text t tx : Text} {tag : Tag} {fault fault' : TagFault} (ht : EndsOnce t)
    (h : closed text tag fault t = .error (.malformed tx fault')) : fault' = fault := by
  unfold closed at h
  split at h
  · rw [ended_of_endsOnce ht] at h
    cases h
  · cases h
    rfl

/-- at every attribute the only bracket is still to come, so that it is neither missed nor passed over -/
theorem not_foreign_of_readTail {text t tx : Text} {tag : Tag} {fault : TagFault}
    (h : readTail text tag t = .error (.malformed tx fault)) (ht : EndsOnce t) : fault ∉ TagFault.foreign := by
  fun_induction readTail text tag t with
  | case1 tag t hnil =>
    have hmem := ht.dropWhile.mem
    rw [hnil] at hmem
    cases hmem
  | case3 tag t c rest hdrop hc hform =>
    have hends := ht.dropWhile
    rw [hdrop, (CharClass.classify_eq_iff rfl).1 hc] at hends
    rw [ended_of_endsOnce hends] at h
    cases h
  | case5 tag t c rest hdrop hc hform =>
    have hends := ht.dropWhile
    rw [hdrop, (CharClass.classify_eq_iff rfl).1 hc] at hends
    rw [eq_of_closed_eq_error (hends.of_cons (by decide)) h]
    decide
  | case7 tag t c rest hdrop hc hform =>
    have hends := ht.dropWhile
    rw [hdrop, (CharClass.classify_eq_iff rfl).1 hc] at hends
    rw [eq_of_closed_eq_error (hends.of_cons (by decide)) h]
    decide
  | case10 tag t c rest hdrop hc hform hblank fault' hattribute =>
    cases h
    exact takeAttribute_fault hattribute
  | case12 tag t c rest hdrop hc hform hblank key value after hattribute hnew ih =>
    have hends := ht.dropWhile
    rw [hdrop] at hends
    exact ih h (hends.after_attribute hattribute)
  | _ =>
    cases h
    try decide

theorem not_foreign_of_readNamed {text t tx : Text} {form : TagForm} {fault : TagFault}
    (h : readNamed text form t = .error (.malformed tx fault)) (ht : EndsOnce t) : fault ∉ TagFault.foreign := by
  simp only [readNamed] at h
  split at h
  · cases h
    decide
  · rename_i name rest hname
    obtain ⟨rfl, hok, -⟩ := takeName_eq_some_iff.1 hname
    refine not_foreign_of_readTail h (ht.of_append_of_not_mem ?_)
    intro hmem
    exact absurd (Name.inName_of_mem hok hmem) (by decide)

/-- **The reader finds the brackets that the run was cut at.** It never misses one, and finds nothing behind the last. -/
theorem not_foreign_of_read {body text tx : Text} {fault : TagFault} (hbody : Piece.Bracketed body text)
    (hhead : body.head? ≠ some '!') (h : Tag.read text = .error (.malformed tx fault)) :
    fault ∉ TagFault.foreign := by
  have hnot : '>' ∉ '<' :: body := by
    rw [List.mem_cons, not_or]
    exact ⟨by decide, fun hmem => (hbody.no_angle _ hmem).2 rfl⟩
  have hends : EndsOnce text := ⟨'<' :: body, hbody.text_eq, hnot⟩
  unfold read at h
  split at h
  · exact not_foreign_of_readNamed h ((hends.of_cons (by decide)).of_cons (by decide))
  · exact not_foreign_of_readNamed h ((hends.of_cons (by decide)).of_cons (by decide))
  · rename_i t
    have htext := hbody.text_eq
    cases body with
    | nil => cases htext
    | cons c body =>
      cases htext
      exact absurd rfl hhead
  · exact not_foreign_of_readNamed h (hends.of_cons (by decide))
  · rename_i hother
    exact absurd hbody.text_eq (hother (body ++ ['>']))

end Tag

/-! ## Kinds and forms -/

namespace Piece

/-- what stands between the brackets begins with the mark of what is read -/
theorem Bracketed.mark_prefix {body text : Text} {tag : Tag} (hbody : Bracketed body text)
    (h : Tag.read text = .ok tag) : ∃ c rest, Name.isStart c = true ∧ body = Tag.mark tag.form ++ c :: rest := by
  obtain ⟨hname, -, u, w, -, -, htext⟩ := Tag.read_eq_ok_iff.1 h
  obtain ⟨c, name, hcons⟩ := List.exists_cons_of_ne_nil (Name.isName_ne_nil hname)
  have heq : '<' :: (Tag.mark tag.form ++ c :: (name ++ u ++ w ++ Tag.endMark tag.form)) ++ ['>'] =
      '<' :: body ++ ['>'] := by
    rw [← hbody.text_eq, htext, hcons, Tag.ending_eq]
    simp
  obtain ⟨-, heq⟩ := List.cons.inj (List.append_inj' heq rfl).1
  exact ⟨c, _, (Name.isName_cons.1 (hcons ▸ hname)).1, heq.symm⟩

/-- a bracket run begins with a question mark exactly if it is read as instructions, when it is read at all -/
theorem Bracketed.head_question_iff {body text : Text} {tag : Tag} (hbody : Bracketed body text)
    (h : Tag.read text = .ok tag) : body.head? = some '?' ↔ tag.form = .instructions := by
  obtain ⟨c, rest, hstart, rfl⟩ := hbody.mark_prefix h
  have hc : c ≠ '?' := by
    rintro rfl
    exact absurd (classify_of_isStart hstart) (by decide)
  cases tag.form <;> simp [Tag.mark, hc]

end Piece

/-- the kind of a bracketed token agrees with what its text is read as -/
structure Token.AgreesWithTag (t : Token) : Prop where
  tag : t.kind = .tag → ∀ tag, Tag.read t.text = .ok tag →
    tag.form = .opening ∨ tag.form = .closing ∨ tag.form = .selfClosing
  instructions : t.kind = .instructions → ∀ tag, Tag.read t.text = .ok tag → tag.form = .instructions
  fault : t.kind = .tag ∨ t.kind = .instructions → ∀ text fault, Tag.read t.text = .error (.malformed text fault) →
    fault ≠ .noOpeningBracket ∧ fault ≠ .declaration ∧ fault ≠ .noClosingBracket ∧ fault ≠ .contentAfterEnd ∧
      fault ≠ .notInstructions

theorem Token.agreesWithTag_of_canonical {t : Token} (h : t.piece.Canonical) : t.AgreesWithTag := by
  obtain ⟨kind, text, span⟩ := t
  have hfault : ∀ {fault : TagFault}, fault ∉ TagFault.foreign → fault ≠ .noOpeningBracket ∧ fault ≠ .declaration ∧
      fault ≠ .noClosingBracket ∧ fault ≠ .contentAfterEnd ∧ fault ≠ .notInstructions := by
    intro fault hnot
    simpa [TagFault.foreign] using hnot
  refine ⟨?_, ?_, ?_⟩
  · rintro rfl tag hread
    obtain ⟨body, hbody, hquestion, -⟩ := h
    have hform : tag.form ≠ .instructions := fun hform => hquestion ((hbody.head_question_iff hread).2 hform)
    cases hf : tag.form <;> simp_all
  · rintro rfl tag hread
    obtain ⟨body, hbody, hquestion⟩ := h
    exact (hbody.head_question_iff hread).1 hquestion
  · rintro (rfl | rfl) tx fault hread
    · obtain ⟨body, hbody, -, hexclamation⟩ := h
      exact hfault (Tag.not_foreign_of_read hbody hexclamation hread)
    · obtain ⟨body, hbody, hquestion⟩ := h
      have hexclamation : body.head? ≠ some '!' := by
        rw [hquestion]
        decide
      exact hfault (Tag.not_foreign_of_read hbody hexclamation hread)

/-! ## What building makes of them -/

theorem Token.AgreesWithTag.not_isInstructions {t : Token} (h : t.AgreesWithTag) (hkind : t.kind = .tag)
    (i : Instructions) : ¬ t.piece.IsInstructions i := by
  intro hi
  have hform := h.tag hkind _ hi.2
  simp at hform

namespace Builder

variable {rules : BuildRules} {b b' : Builder} {t : Token} {fault : BuildFault}

/-- a tag gives no instructions -/
theorem Step.instructions_eq (h : Step rules b t.piece b') (hagrees : t.AgreesWithTag) (hkind : t.kind = .tag) :
    b'.instructions = b.instructions := by
  cases h with
  | given i hi => exact absurd hi (hagrees.not_isInstructions hkind i)
  | _ => rfl

/-- a tag is never refused for giving instructions -/
theorem Refuses.ne_of_tag (h : Refuses rules b t.piece fault) (hagrees : t.AgreesWithTag) (hkind : t.kind = .tag)
    (target : Text) : fault ≠ .lateInstructions target ∧ fault ≠ .repeatedInstructions target := by
  cases h with
  | late i hi => exact absurd hi (hagrees.not_isInstructions hkind i)
  | repeated i hi => exact absurd hi (hagrees.not_isInstructions hkind i)
  | _ => exact ⟨BuildFault.noConfusion, BuildFault.noConfusion⟩

/-- what is put among instructions is never refused for being another kind of tag -/
theorem Refuses.ne_notInstructions (h : Refuses rules b t.piece fault) (hagrees : t.AgreesWithTag) (text : Text) :
    fault ≠ .tag (.malformed text .notInstructions) := by
  intro heq
  cases h with
  | unreadable e hkind hread =>
    obtain rfl := BuildFault.tag.inj heq
    exact (hagrees.fault hkind _ _ hread).2.2.2.2 rfl
  | notInstructions tag hkind hread hform => exact hform (hagrees.instructions hkind _ hread)
  | _ => cases heq

theorem Fails.ne_notInstructions {rest : List Token} (h : Fails rules b t rest fault) (hagrees : t.AgreesWithTag)
    (text : Text) : fault ≠ .tag (.malformed text .notInstructions) := by
  cases h with
  | ended heof hroot => exact b.missing_ne (fun _ _ => BuildFault.noConfusion) BuildFault.noConfusion
  | trailing heof hroot hfiller =>
    exact trailingFault_ne t rest (fun _ => BuildFault.noConfusion) fun _ => BuildFault.noConfusion
  | refused fault heof hroot hrefused => exact (refuses_of_step hrefused).ne_notInstructions hagrees text

end Builder

/-- every token of a text agrees with what it is read as -/
theorem Text.agreesWithTag_of_mem {s : Text} {ts : List Token} (h : s.tokens.value = .ok ts) :
    ∀ t ∈ ts, t.AgreesWithTag := by
  obtain ⟨ps, hps, rfl⟩ := Text.tokens_eq_ok_iff.1 h
  intro t ht
  have hmem := List.mem_map_of_mem (f := Token.piece) ht
  rw [Piece.map_piece_place, List.mem_append] at hmem
  rcases hmem with hmem | hmem
  · exact Token.agreesWithTag_of_canonical (hps.canonical _ hmem)
  · have hkind : t.kind = .eof := congrArg Piece.kind (List.mem_singleton.1 hmem)
    refine ⟨?_, ?_, ?_⟩ <;> (intro h; simp [hkind] at h)

/-- what is read of a text is never refused for being another kind of tag than its token says -/
theorem Document.ne_notInstructions_of_read {rules : BuildRules} {s : Text} {e : BuildError}
    (h : Document.read rules s = .error e) (text : Text) : e.fault ≠ .tag (.malformed text .notInstructions) := by
  rw [Document.read_eq] at h
  cases htokens : s.tokens.value with
  | error e' =>
    rw [htokens] at h
    cases h
    exact BuildFault.noConfusion
  | ok ts =>
    rw [htokens] at h
    have hagrees := Text.agreesWithTag_of_mem htokens
    rcases Builder.ofTokens_eq_error_iff.1 h with ⟨m, -, -, rfl⟩ | ⟨before, t, after, m, fault, rfl, -, hfails, rfl⟩
    · exact m.missing_ne (fun _ _ => BuildFault.noConfusion) BuildFault.noConfusion
    · exact hfails.ne_notInstructions (hagrees t (by simp)) text

/-- **Tags agree with their tokens.** Of every text that splits into tokens: what is read from a token of kind tag
opens, closes or does both, and what is read from one of kind instructions is instructions. Neither is refused for a
missing bracket or for what stands behind one. A tag changes no instructions and is never refused for giving some, at
whatever point it is built in. So no text is refused for a tag in the place of instructions, and no value of a document
that is read contains a bracket. -/
theorem tags_agree_with_tokens (s : Text) :
    (∀ ts, s.tokens.value = .ok ts → ∀ t ∈ ts, t.AgreesWithTag ∧ (t.kind = .tag → ∀ (rules : BuildRules) (b : Builder),
      (∀ b', b.step rules t = .ok b' → b'.instructions = b.instructions) ∧
        ∀ target, b.step rules t ≠ .error (.lateInstructions target) ∧
          b.step rules t ≠ .error (.repeatedInstructions target))) ∧
    (∀ rules e, Document.read rules s = .error e → ∀ text, e.fault ≠ .tag (.malformed text .notInstructions)) ∧
    ∀ rules d, Document.read rules s = .ok d →
      (∀ x ∈ d.root.preorder, ∀ entry ∈ x.attributes.entries, ∀ c ∈ entry.2, c ≠ '<' ∧ c ≠ '>') ∧
        ∀ entry ∈ d.instructions.attributes.entries, ∀ c ∈ entry.2, c ≠ '<' ∧ c ≠ '>' := by
  refine ⟨?_, fun rules e h text => Document.ne_notInstructions_of_read h text, ?_⟩
  · intro ts hts t ht
    have hagrees := Text.agreesWithTag_of_mem hts t ht
    refine ⟨hagrees, fun hkind rules b => ⟨fun b' hstep => ?_, fun target => ⟨fun hstep => ?_, fun hstep => ?_⟩⟩⟩
    · exact (Builder.step_eq_ok_iff.1 hstep).instructions_eq hagrees hkind
    · exact ((Builder.refuses_of_step hstep).ne_of_tag hagrees hkind target).1 rfl
    · exact ((Builder.refuses_of_step hstep).ne_of_tag hagrees hkind target).2 rfl
  · intro rules d h
    have hwell := Document.wellFormed_of_read h
    refine ⟨fun x hx entry hentry => ((hwell.root x hx).attributes entry hentry).2.1, fun entry hentry => ?_⟩
    rcases hwell.instructions with ⟨-, hattributes⟩ | ⟨-, hnone⟩
    · exact (hattributes entry hentry).2.1
    · rw [hnone] at hentry
      cases hentry

/-- instructions before a root with an attribute, and a tag without a value -/
theorem tags_agree_with_tokens_mixed :
    (∃ ts, (Text.tokens "<?x v='1'?><a k=\"2\"></a>".toList).value = .ok ts ∧ ∀ t ∈ ts, t.AgreesWithTag) ∧
    (∃ d, Document.read .default "<?x v='1'?><a k=\"2\"></a>".toList = .ok d ∧
      ∀ entry ∈ d.instructions.attributes.entries, ∀ c ∈ entry.2, c ≠ '<' ∧ c ≠ '>') ∧
    ∃ e, Document.read .default "<a b></a>".toList = .error e ∧
      ∀ text, e.fault ≠ .tag (.malformed text .notInstructions) := by
  obtain ⟨htokens, hread, hfails⟩ : (Text.tokens "<?x v='1'?><a k=\"2\"></a>".toList).value = .ok
        [⟨.instructions, "<?x v='1'?>".toList, ⟨0, 11, ⟨1, 1⟩⟩⟩, ⟨.tag, "<a k=\"2\">".toList, ⟨11, 20, ⟨1, 12⟩⟩⟩,
          ⟨.tag, "</a>".toList, ⟨20, 24, ⟨1, 21⟩⟩⟩, ⟨.eof, [], ⟨24, 24, ⟨1, 25⟩⟩⟩] ∧
      Document.read .default "<?x v='1'?><a k=\"2\"></a>".toList =
        .ok ⟨⟨['a'], .ofList [(['k'], ['2'])], .empty⟩, ⟨['x'], .ofList [(['v'], ['1'])]⟩⟩ ∧
      Document.read .default "<a b></a>".toList = .error ⟨.tag (.malformed "<a b>".toList .noValue), ⟨1, 1⟩⟩ :=
    ⟨by cbv, by cbv, by cbv⟩
  obtain ⟨hagree, -, hplain⟩ := tags_agree_with_tokens "<?x v='1'?><a k=\"2\"></a>".toList
  exact ⟨⟨_, htokens, fun t ht => (hagree _ htokens t ht).1⟩, ⟨_, hread, (hplain _ _ hread).2⟩, _, hfails,
    (tags_agree_with_tokens "<a b></a>".toList).2.1 _ _ hfails⟩

end TaggedText
