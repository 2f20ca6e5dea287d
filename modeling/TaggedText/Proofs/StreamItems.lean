/-
What a stream yields.

`TokenStream.item s k` is what the stream yields on the call after `k` others, and `TokenStream.after s k` the stream
that this call finds. `TokenStream.InText` says that the cursor of a stream stands in the text. Every call keeps this,
so that the end of the text is the same before and after any number of calls. `TokenStream.Completes s ts last` says
that the stream yields `ts` and then `last`, behind which nothing comes.

Results:
- `TokenStream.InText.offset_of_next`: every token but the end token moves the cursor over its own text, which is not empty;
- `stream_yields`: a stream yields tokens, then the end token or an error, and then nothing any more; what is collected
  is what it yields.
-/
import TaggedText.Proofs.TokenErrors

namespace TaggedText

namespace TokenStream

/-- the stream after so many calls -/
def after (s : TokenStream) : Nat → TokenStream
  | 0 => s
  | k + 1 => after s.next.2 k

/-- what the stream yields after so many calls -/
def item (s : TokenStream) (k : Nat) : Option (Except ReadError Token) :=
  (s.after k).next.1

theorem after_succ (s : TokenStream) (k : Nat) : s.after (k + 1) = (s.after k).next.2 := by
  induction k generalizing s with
  | zero => rfl
  | succ k ih => exact ih s.next.2

/-! ## One call -/

/-- the stream reads `t`, and its cursor stands in it -/
structure InText (t : Text) (s : TokenStream) : Prop where
  source : s.cursor.source = Source.ofText CharClass.classify t
  place : s.cursor.place.In t

theorem inText_ofText (t : Text) : (ofText t).InText t where
  source := rfl
  place := ⟨Nat.zero_le _, rfl⟩

theorem InText.running {t : Text} {s : TokenStream} (h : s.InText t) (hphase : s.phase = .running) : s.Running :=
  ⟨hphase, congrArg Source.classifier h.source⟩

/-- a call leaves the cursor in the text -/
theorem InText.next {t : Text} {s : TokenStream} (h : s.InText t) : s.next.2.InText t := by
  by_cases hphase : s.phase = .running
  · have hrunning := h.running hphase
    cases hcut : cut s.cursor.place.rest with
    | none =>
      rw [hrunning.next_of_none hcut]
      exact ⟨h.source, h.place⟩
    | some r =>
      cases r with
      | error fault =>
        obtain ⟨passed, hpasses⟩ := s.cursor.passes_haltedBy fault
        rw [hrunning.next_of_error hcut]
        exact ⟨hpasses.source_eq.trans h.source, hpasses.place_in h.place⟩
      | ok k =>
        obtain ⟨s', -, hpasses, -, hnext⟩ := hrunning.next_of_ok hcut
        rw [hnext]
        exact ⟨hpasses.source_eq.trans h.source, hpasses.place_in h.place⟩
  · rw [next_of_not_running hphase]
    exact ⟨h.source, h.place⟩

/-- every token but the end token moves the cursor over its own text, which is not empty -/
theorem InText.offset_of_next {t : Text} {s s' : TokenStream} {tok : Token} (hs : s.InText t)
    (h : s.next = (some (.ok tok), s')) (htok : tok.isEof = false) :
    s'.cursor.offset = s.cursor.offset + tok.text.length ∧ s.cursor.offset < s'.cursor.offset := by
  by_cases hphase : s.phase = .running
  · have hrunning := hs.running hphase
    cases hcut : cut s.cursor.place.rest with
    | none =>
      rw [hrunning.next_of_none hcut] at h
      cases h
      cases htok
    | some r =>
      cases r with
      | error fault =>
        rw [hrunning.next_of_error hcut] at h
        cases h
      | ok k =>
        obtain ⟨s'', -, hpasses, -, hnext⟩ := hrunning.next_of_ok hcut
        rw [hnext] at h
        cases h
        have hlength : 0 < k.text.length := by
          have hshorter := cut_length hcut
          rw [(Cut.canonical_of_cut hcut).1, List.length_append] at hshorter
          omega
        refine ⟨hpasses.offset_eq, ?_⟩
        rw [hpasses.offset_eq]
        exact Nat.lt_add_of_pos_right hlength
  · rw [next_of_not_running hphase] at h
    cases h

theorem InText.after {t : Text} {s : TokenStream} (h : s.InText t) (k : Nat) : (s.after k).InText t := by
  induction k generalizing s with
  | zero => exact h
  | succ k ih => exact ih h.next

theorem InText.spanAtEnd_eq {t : Text} {s : TokenStream} (h : s.InText t) :
    s.spanAtEnd = ⟨t.length, t.length, (LineTable.ofText t).locate t.length⟩ := by
  have hend : s.cursor.offset + s.cursor.left = t.length := h.place.length_eq
  simp only [spanAtEnd, Cursor.spanAtEnd, Cursor.locate, hend, h.source]
  rfl

/-! ## All calls -/

/-- the first call takes one item off what a stream yields -/
theorem item_succ_of_next {s s' : TokenStream} {i : Option (Except ReadError Token)} (h : s.next = (i, s')) (k : Nat) :
    s.item (k + 1) = s'.item k :=
  congrArg (fun s : TokenStream => s.item k) (congrArg Prod.snd h)

theorem item_of_not_running {s : TokenStream} (h : s.phase ≠ .running) (k : Nat) : s.item k = none := by
  induction k generalizing s with
  | zero => exact congrArg Prod.fst (next_of_not_running h)
  | succ k ih =>
    rw [item_succ_of_next (next_of_not_running h)]
    exact ih Phase.noConfusion

/-- tokens that are delivered are yielded first, and then what the stream behind them yields -/
theorem Delivers.item_eq {s s' : TokenStream} {ts : List Token} {items : List (Except ReadError Token)}
    (h : s.Delivers ts s') (hitems : ∀ k, s'.item k = items[k]?) (k : Nat) :
    s.item k = (ts.map .ok ++ items)[k]? := by
  induction h generalizing k with
  | nil s => exact hitems k
  | cons hnext _ ih =>
    cases k with
    | zero => exact congrArg Prod.fst hnext
    | succ k =>
      rw [item_succ_of_next hnext, ih hitems k]
      rfl

theorem Delivers.length_le {s s' : TokenStream} {ts : List Token} (h : s.Delivers ts s') :
    ts.length + s'.toCome ≤ s.toCome := by
  induction h with
  | nil s => simp
  | cons hnext _ ih =>
    have := toCome_next hnext
    rw [List.length_cons]
    omega

/-- the stream yields the tokens `ts`, which are no end tokens, and then `last`, which is the end token or an error;
nothing comes behind it -/
structure Completes (s : TokenStream) (ts : List Token) (last : Except ReadError Token) : Prop where
  delivers : ∃ stuck ended : TokenStream, s.Delivers ts stuck ∧ stuck.phase = .running ∧
    stuck.next = (some last, ended) ∧ ended.phase ≠ .running
  isEof_eq : ∀ tok ∈ ts, tok.isEof = false
  isEof_last : ∀ tok, last = .ok tok → tok.isEof = true

theorem completes_nil {s ended : TokenStream} {last : Except ReadError Token} (hphase : s.phase = .running)
    (hnext : s.next = (some last, ended)) (hended : ended.phase ≠ .running)
    (hlast : ∀ tok, last = .ok tok → tok.isEof = true) : s.Completes [] last where
  delivers := ⟨s, ended, .nil s, hphase, hnext, hended⟩
  isEof_eq := by simp
  isEof_last := hlast

theorem Completes.cons {s s' : TokenStream} {t : Token} {ts : List Token} {last : Except ReadError Token}
    (hnext : s.next = (some (.ok t), s')) (ht : t.isEof = false) (h : s'.Completes ts last) :
    s.Completes (t :: ts) last where
  delivers := by
    obtain ⟨stuck, ended, hdelivers, hlast⟩ := h.delivers
    exact ⟨stuck, ended, .cons hnext hdelivers, hlast⟩
  isEof_eq := List.forall_mem_cons.2 ⟨ht, h.isEof_eq⟩
  isEof_last := h.isEof_last

/-- a running stream comes to its end -/
theorem Running.exists_completes {s : TokenStream} (h : s.Running) : ∃ ts last, s.Completes ts last := by
  induction hn : s.cursor.place.rest.length using Nat.strongRecOn generalizing s with
  | ind n ih =>
    cases hcut : cut s.cursor.place.rest with
    | none =>
      refine ⟨[], _, completes_nil h.phase (h.next_of_none hcut) Phase.noConfusion ?_⟩
      intro tok htok
      cases htok
      rfl
    | some r =>
      cases r with
      | error fault =>
        refine ⟨[], _, completes_nil h.phase (h.next_of_error hcut) Phase.noConfusion ?_⟩
        intro tok htok
        cases htok
      | ok k =>
        obtain ⟨s', hrunning, -, hrest, hnext⟩ := h.next_of_ok hcut
        obtain ⟨ts, last, hcompletes⟩ := ih k.rest.length (hn ▸ cut_length hcut) hrunning (congrArg List.length hrest)
        exact ⟨_, last, hcompletes.cons hnext (Piece.Canonical.isEof_eq (Cut.canonical_of_cut hcut).2.1)⟩

namespace Completes

variable {s : TokenStream} {ts : List Token} {last : Except ReadError Token}

theorem item_eq (h : s.Completes ts last) (k : Nat) : s.item k = (ts.map .ok ++ [last])[k]? := by
  obtain ⟨stuck, ended, hdelivers, -, hnext, hended⟩ := h.delivers
  refine hdelivers.item_eq (fun k => ?_) k
  cases k with
  | zero => exact congrArg Prod.fst hnext
  | succ k =>
    rw [item_succ_of_next hnext, item_of_not_running hended]
    rfl

theorem length_lt (h : s.Completes ts last) : ts.length < s.toCome := by
  obtain ⟨stuck, ended, hdelivers, hphase, -, -⟩ := h.delivers
  have hle := hdelivers.length_le
  rw [toCome, if_pos hphase] at hle
  omega

/-- what is yielded is collected; another terminal token stands behind the end token if it is not of its kind -/
theorem value_collect (h : s.Completes ts last) (eof : Option Token) :
    (s.collect eof).value = last.map fun tok => ts ++ tok :: eof.toList.filter fun e => !e.isEof := by
  obtain ⟨stuck, ended, hdelivers, -, hnext, hended⟩ := h.delivers
  cases last with
  | error e => exact hdelivers.value_of_error hnext eof
  | ok tok =>
    have htok : tok.kind = .eof := by simpa [Token.isEof] using h.isEof_last tok rfl
    have hends : (withEnd eof (tok :: ts.reverse)).reverse =
        ts ++ tok :: eof.toList.filter fun e => !e.isEof := by
      cases eof with
      | none => simp [withEnd]
      | some e =>
        by_cases he : e.kind = .eof
        · simp [withEnd, Token.isEof, htok, he]
        · simp [withEnd, Token.isEof, htok, he, Ne.symm he]
    rw [collect, hdelivers.collectFrom_eq, collectFrom_eq, hnext, List.append_nil]
    exact (collectFrom_of_not_running hended _ _ _).trans (congrArg Except.ok hends)

end Completes

end TokenStream

/-- **What a stream yields.** Every token but the end token moves the cursor over its own text, which is not empty. The
end of the text is the same after any number of calls. The stream yields tokens, and then the end token or an error,
altogether at most one item more than the text has characters. From then on it yields nothing. Collecting is stopped
exactly if no buffer has room for as many tokens as are asked for. Otherwise what is collected is the error, or else all
that is yielded, and behind it the terminal token that is asked for unless it is an end token. -/
theorem stream_yields (t : Text) :
    (∀ k tok, (TokenStream.ofText t).item k = some (.ok tok) → tok.isEof = false →
      ((TokenStream.ofText t).after (k + 1)).cursor.offset =
          ((TokenStream.ofText t).after k).cursor.offset + tok.text.length ∧
        ((TokenStream.ofText t).after k).cursor.offset < ((TokenStream.ofText t).after (k + 1)).cursor.offset) ∧
    (∀ k, ((TokenStream.ofText t).after k).spanAtEnd = (TokenStream.ofText t).spanAtEnd) ∧
    ∃ ts last, (∀ k, (TokenStream.ofText t).item k = (ts.map .ok ++ [last])[k]?) ∧
      (∀ tok ∈ ts, tok.isEof = false) ∧ (∀ tok, last = .ok tok → tok.isEof = true) ∧
      (ts.map .ok ++ [last]).length ≤ t.length + 1 ∧
      ∀ eof reserve, ((TokenStream.ofText t).collectSized eof reserve).map (·.value) =
        if reserve * Token.bytes ≤ Size.maxBytes then
          some (last.map fun tok => ts ++ tok :: eof.toList.filter fun e => !e.isEof)
        else none := by
  refine ⟨?_, ?_, ?_⟩
  · intro k tok hitem htok
    rw [TokenStream.after_succ]
    exact ((TokenStream.inText_ofText t).after k).offset_of_next (Prod.ext hitem rfl) htok
  · intro k
    have hstart := TokenStream.inText_ofText t
    rw [(hstart.after k).spanAtEnd_eq, hstart.spanAtEnd_eq]
  · obtain ⟨ts, last, h⟩ := (TokenStream.running_ofText t).exists_completes
    refine ⟨ts, last, h.item_eq, h.isEof_eq, h.isEof_last, ?_, ?_⟩
    · rw [List.length_append, List.length_map]
      exact h.length_lt
    · intro eof reserve
      rw [TokenStream.collectSized_eq]
      split_ifs
      · rw [Option.map_some, h.value_collect]
      · rfl

/-- a stream yields one tag and the end token, but there is no room for as many tokens as there are sizes -/
theorem not_collected_without_room :
    (TokenStream.ofText "<a/>".toList).item 0 = some (.ok ⟨.tag, "<a/>".toList, ⟨0, 4, ⟨1, 1⟩⟩⟩) ∧
      (TokenStream.ofText "<a/>".toList).item 1 = some (.ok (.eof ⟨4, 4, ⟨1, 5⟩⟩)) ∧
      (TokenStream.ofText "<a/>".toList).item 2 = none ∧
      (TokenStream.ofText "<a/>".toList).collectSized none (Size.limit - 1) = none :=
  ⟨by cbv, by cbv, by cbv, by cbv⟩

end TaggedText
