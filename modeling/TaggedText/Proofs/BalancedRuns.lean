/-
Balanced runs.

`Cursor.takeBalanced` counts delimiters: an opening one is one more that is open, a closing one is one less, and the
run ends where none is left. When both delimiters are of one class, nothing opens inside a run, and it ends at the next
of them. `Text.deeper` counts what opens inside a run in either case, so that the depth at a place is told by the
characters before it (`Text.splitBalanced_cons` for one character, `Text.splitBalanced_cases` for all of them).

Results:
- `takeBalanced_exactly`: which texts have a balanced run at their start, which run is taken, and what the error is
  otherwise; for any classes of characters, any two classes of delimiters and any cursor.
-/
import Mathlib.Tactic
import TaggedText.Cursor.Take

namespace TaggedText

namespace Text

section

variable (classifier : Classifier) (opening closing : CharClass)

/-- how many characters of a class a text has -/
def tally (l : CharClass) (t : Text) : Nat :=
  t.countP fun c => classifier c == l

def BeginsWith (l : CharClass) (t : Text) : Prop :=
  ∃ c, t.head? = some c ∧ classifier c = l

/-- begins with an opening delimiter, and has as many of them as closing ones -/
def Balanced (t : Text) : Prop :=
  BeginsWith classifier opening t ∧ tally classifier opening t = tally classifier closing t

/-- the shortest balanced text that `t` begins with -/
structure ShortestBalanced (run t : Text) : Prop where
  front : run <+: t
  balanced : Balanced classifier opening closing run
  shortest : ∀ p, p <+: t → Balanced classifier opening closing p → run.length ≤ p.length

/-- two characters of a class, and what stands between them, which has none of the class -/
def Quoted (l : CharClass) (run : Text) : Prop :=
  ∃ first body last, run = first :: body ++ [last] ∧ classifier first = l ∧ (∀ c ∈ body, classifier c ≠ l) ∧
    classifier last = l

/-- how many delimiters are opened inside a run: none if both are of one class -/
def deeper (t : Text) : Nat :=
  if opening = closing then 0 else tally classifier opening t

/-- after `depth` opening delimiters, the text brings the depth back to zero at its end, and not before -/
structure Closes (depth : Nat) (t : Text) : Prop where
  back : depth + deeper classifier opening closing t = tally classifier closing t
  first : ∀ p, p <+: t → p ≠ t → tally classifier closing p < depth + deeper classifier opening closing p

/-- after `depth` opening delimiters, the text never brings the depth back to zero -/
def StaysOpen (depth : Nat) (t : Text) : Prop :=
  ∀ p, p <+: t → tally classifier closing p < depth + deeper classifier opening closing p

end

variable {classifier : Classifier} {opening closing : CharClass} {depth : Nat} {c : Char} {t : Text}

/-! ## Counting -/

theorem tally_cons (l : CharClass) (c : Char) (t : Text) :
    tally classifier l (c :: t) = tally classifier l [c] + tally classifier l t := by
  simp [tally, List.countP_cons, Nat.add_comm]

theorem tally_singleton (l : CharClass) (c : Char) :
    tally classifier l [c] = if classifier c = l then 1 else 0 := by
  simp [tally, List.countP_cons]

theorem deeper_cons (c : Char) (t : Text) :
    deeper classifier opening closing (c :: t) =
      deeper classifier opening closing [c] + deeper classifier opening closing t := by
  unfold deeper
  split_ifs
  · rfl
  · exact tally_cons opening c t

/-- a closing delimiter opens nothing, whether both delimiters are of one class or not -/
theorem deeper_singleton_of_closing (hc : classifier c = closing) : deeper classifier opening closing [c] = 0 := by
  unfold deeper
  split_ifs with hsame
  · rfl
  · rw [tally_singleton, if_neg fun hopening => hsame (hopening.symm.trans hc)]

/-- **One character.** It closes the last open delimiter and ends the run, or it moves the depth and reading goes on. -/
theorem splitBalanced_cons (before : Text) (h : 0 < depth) :
    (classifier c = closing ∧ depth = 1 ∧
        splitBalanced classifier opening closing depth before (c :: t) = .ok ((c :: before).reverse, t)) ∨
      ∃ depth', 0 < depth' ∧
        depth' + tally classifier closing [c] = depth + deeper classifier opening closing [c] ∧
        splitBalanced classifier opening closing depth before (c :: t) =
          splitBalanced classifier opening closing depth' (c :: before) t := by
  by_cases hclosing : classifier c = closing
  · by_cases hone : depth = 1
    · exact Or.inl ⟨hclosing, hone, by simp [splitBalanced, hclosing, hone]⟩
    · refine Or.inr ⟨depth - 1, by omega, ?_, by simp [splitBalanced, hclosing, hone, h]⟩
      rw [deeper_singleton_of_closing hclosing, tally_singleton, if_pos hclosing]
      omega
  · by_cases hopening : classifier c = opening
    · have hne : opening ≠ closing := fun hsame => hclosing (hopening.trans hsame)
      exact Or.inr ⟨depth + 1, by omega, by simp [deeper, tally_singleton, hopening, hne],
        by simp [splitBalanced, hopening, hne]⟩
    · exact Or.inr ⟨depth, h, by simp [deeper, tally_singleton, hclosing, hopening],
        by simp [splitBalanced, hclosing, hopening]⟩

theorem StaysOpen.cons {depth' : Nat} (h : 0 < depth)
    (hdepth : depth' + tally classifier closing [c] = depth + deeper classifier opening closing [c])
    (ht : StaysOpen classifier opening closing depth' t) : StaysOpen classifier opening closing depth (c :: t) := by
  intro p hp
  rcases List.prefix_cons_iff.1 hp with rfl | ⟨q, rfl, hq⟩
  · exact Nat.lt_add_right _ h
  · have := ht q hq
    rw [tally_cons, deeper_cons]
    omega

theorem Closes.cons {depth' : Nat} (h : 0 < depth)
    (hdepth : depth' + tally classifier closing [c] = depth + deeper classifier opening closing [c])
    (ht : Closes classifier opening closing depth' t) : Closes classifier opening closing depth (c :: t) where
  back := by
    have := ht.back
    rw [tally_cons, deeper_cons]
    omega
  first := by
    intro p hp hne
    rcases List.prefix_cons_iff.1 hp with rfl | ⟨q, rfl, hq⟩
    · exact Nat.lt_add_right _ h
    · have := ht.first q hq fun heq => hne (congrArg (c :: ·) heq)
      rw [tally_cons, deeper_cons]
      omega

/-- **The loop.** After an opening delimiter, a run is taken that brings the depth back to zero at its end and not
before, or the depth never comes back to zero, and is told as it is at the end. -/
theorem splitBalanced_cases (before : Text) (h : 0 < depth) :
    (∃ u rest, splitBalanced classifier opening closing depth before t = .ok (before.reverse ++ u, rest) ∧
        t = u ++ rest ∧ Closes classifier opening closing depth u) ∨
      ∃ d, splitBalanced classifier opening closing depth before t = .error d ∧
        d + tally classifier closing t = depth + deeper classifier opening closing t ∧
        StaysOpen classifier opening closing depth t := by
  induction t generalizing depth before with
  | nil =>
    refine Or.inr ⟨depth, rfl, by simp [tally, deeper], ?_⟩
    intro p hp
    rw [List.prefix_nil.1 hp]
    exact Nat.lt_add_right _ h
  | cons c t ih =>
    rcases splitBalanced_cons (t := t) before h with ⟨hc, rfl, heq⟩ | ⟨depth', hpos, hdepth, heq⟩
    · refine Or.inl ⟨[c], t, by rw [heq, List.reverse_cons], rfl, ?_, ?_⟩
      · rw [deeper_singleton_of_closing hc, tally_singleton, if_pos hc]
      · intro p hp hne
        rcases List.prefix_cons_iff.1 hp with rfl | ⟨q, rfl, hq⟩
        · exact Nat.lt_add_right _ h
        · exact absurd (by rw [List.prefix_nil.1 hq]) hne
    · rw [heq]
      rcases ih (c :: before) hpos with ⟨u, rest, hok, rfl, hu⟩ | ⟨d, herror, hd, hopen⟩
      · exact Or.inl ⟨c :: u, rest, by rw [hok, List.reverse_cons, List.append_assoc, List.singleton_append], rfl,
          hu.cons h hdepth⟩
      · refine Or.inr ⟨d, herror, ?_, hopen.cons h hdepth⟩
        rw [tally_cons, deeper_cons]
        omega

/-! ## Two classes of delimiters -/

theorem deeper_of_ne (h : opening ≠ closing) (t : Text) :
    deeper classifier opening closing t = tally classifier opening t :=
  if_neg h

/-- what begins with an opening delimiter is balanced as far as what follows brings the depth back to zero -/
theorem balanced_cons_iff (h : opening ≠ closing) (hc : classifier c = opening) :
    Balanced classifier opening closing (c :: t) ↔
      1 + deeper classifier opening closing t = tally classifier closing t := by
  have hnot : classifier c ≠ closing := fun hclosing => h (hc.symm.trans hclosing)
  rw [Balanced, tally_cons, tally_cons closing, tally_singleton, tally_singleton, if_pos hc, if_neg hnot, Nat.zero_add,
    deeper_of_ne h]
  exact and_iff_right ⟨c, rfl, hc⟩

theorem not_balanced_nil : ¬ Balanced classifier opening closing [] := by
  intro h
  obtain ⟨⟨c, hc, -⟩, -⟩ := h
  cases hc

/-- what closes a delimiter makes the shortest balanced text with it -/
theorem Closes.shortestBalanced {u : Text} (hu : Closes classifier opening closing 1 u) (h : opening ≠ closing)
    (hc : classifier c = opening) (rest : Text) :
    ShortestBalanced classifier opening closing (c :: u) (c :: (u ++ rest)) where
  front := List.prefix_append (c :: u) rest
  balanced := (balanced_cons_iff h hc).2 hu.back
  shortest := by
    intro p hp hbalanced
    rcases List.prefix_cons_iff.1 hp with rfl | ⟨q, rfl, hq⟩
    · exact absurd hbalanced not_balanced_nil
    · by_contra hlt
      rw [List.length_cons, List.length_cons] at hlt
      have hshort : q <+: u := List.prefix_of_prefix_length_le hq (List.prefix_append u rest) (by omega)
      have hopen := hu.first q hshort (by rintro rfl; omega)
      rw [← (balanced_cons_iff h hc).1 hbalanced] at hopen
      exact absurd hopen (lt_irrefl _)

theorem StaysOpen.not_balanced {p : Text} (ht : StaysOpen classifier opening closing 1 t) (h : opening ≠ closing)
    (hc : classifier c = opening) (hp : p <+: c :: t) : ¬ Balanced classifier opening closing p := by
  intro hbalanced
  rcases List.prefix_cons_iff.1 hp with rfl | ⟨q, rfl, hq⟩
  · exact absurd hbalanced not_balanced_nil
  · have hopen := ht q hq
    rw [← (balanced_cons_iff h hc).1 hbalanced] at hopen
    exact absurd hopen (lt_irrefl _)

/-! ## Delimiters of one class -/

theorem deeper_self (t : Text) : deeper classifier closing closing t = 0 :=
  if_pos rfl

theorem tally_eq_zero_iff {l : CharClass} : tally classifier l t = 0 ↔ ∀ c ∈ t, classifier c ≠ l := by
  simp [tally, List.countP_eq_zero]

/-- what closes a quote ends with the first delimiter in it -/
theorem Closes.quoted {u : Text} (hu : Closes classifier closing closing 1 u) (hc : classifier c = closing) :
    Quoted classifier closing (c :: u) := by
  have hone : tally classifier closing u = 1 := by rw [← hu.back, deeper_self]
  rcases List.eq_nil_or_concat' u with rfl | ⟨body, last, rfl⟩
  · cases hone
  · have hbody : tally classifier closing body = 0 := by
      have := hu.first body (List.prefix_append body [last]) (by simp)
      rw [deeper_self] at this
      omega
    refine ⟨c, body, last, rfl, hc, tally_eq_zero_iff.1 hbody, ?_⟩
    by_contra hlast
    have hnone : tally classifier closing (body ++ [last]) = 0 := by
      rw [tally_eq_zero_iff, List.forall_mem_append]
      exact ⟨tally_eq_zero_iff.1 hbody, List.forall_mem_singleton.2 hlast⟩
    omega

theorem StaysOpen.tally_eq_zero (ht : StaysOpen classifier closing closing 1 t) : tally classifier closing t = 0 := by
  have hlt := ht t List.prefix_rfl
  rw [deeper_self] at hlt
  omega

theorem Closes.ne_nil {u : Text} (hu : Closes classifier opening closing 1 u) : u ≠ [] := by
  rintro rfl
  exact absurd hu.back (by simp [tally, deeper])

end Text

/-! ## Reading a run -/

namespace Cursor

variable {c : Cursor} {opening closing : CharClass}

theorem takeBalanced_of_not_beginsWith (includeDelimiters : Bool)
    (h : ¬ Text.BeginsWith c.source.classifier opening c.place.rest) :
    c.takeBalanced opening closing includeDelimiters = (.error (c.failure (.unbalanced 0)), c) := by
  obtain ⟨source, ⟨offset, rest⟩, mark⟩ := c
  cases rest with
  | nil =>
    -- the class that stands for the end may be asked for, and is found, but nothing is read
    simp [takeBalanced, Text.splitBalanced, toEnd, advance, left]
  | cons ch rest =>
    have hne : source.classifier ch ≠ opening := fun hopening => h ⟨ch, rfl, hopening⟩
    simp [takeBalanced, nextClassOr, next?, classOf, hne]

theorem takeBalanced_of_cons {ch : Char} {t : Text} (includeDelimiters : Bool) (ht : c.place.rest = ch :: t)
    (hch : c.source.classifier ch = opening) :
    (∃ u rest, t = u ++ rest ∧ Text.Closes c.source.classifier opening closing 1 u ∧
        c.takeBalanced opening closing includeDelimiters =
          (.ok (if includeDelimiters then ch :: u else u.dropLast), c.advance (ch :: u).length rest)) ∨
      ∃ d, d + Text.tally c.source.classifier closing t = 1 + Text.deeper c.source.classifier opening closing t ∧
        Text.StaysOpen c.source.classifier opening closing 1 t ∧
        c.takeBalanced opening closing includeDelimiters = (.error (c.failure (.unbalanced d)), c.toEnd) := by
  have hnext : c.nextClassOr .eof = opening := by simp [nextClassOr, next?, ht, classOf, hch]
  have hsplit : Text.splitBalanced c.source.classifier opening closing 0 [] (ch :: t) =
      Text.splitBalanced c.source.classifier opening closing 1 [ch] t := by
    simp [Text.splitBalanced, hch]
  rcases @Text.splitBalanced_cases c.source.classifier opening closing 1 t [ch] Nat.one_pos with
    ⟨u, rest, hok, rfl, hu⟩ | ⟨d, herror, hd, hopen⟩
  · refine Or.inl ⟨u, rest, rfl, hu, ?_⟩
    simp only [takeBalanced, hnext, ne_eq, not_true_eq_false, if_false, ht, hsplit, hok]
    rfl
  · refine Or.inr ⟨d, hd, hopen, ?_⟩
    simp only [takeBalanced, hnext, ne_eq, not_true_eq_false, if_false, ht, hsplit, herror]

theorem eq_of_takeBalanced_eq_ok {includeDelimiters : Bool} {text : Text} {c' : Cursor}
    (h : c.takeBalanced opening closing includeDelimiters = (.ok text, c')) :
    ∃ run rest, c.place.rest = run ++ rest ∧ 2 ≤ run.length ∧
      text = (if includeDelimiters then run else run.tail.dropLast) ∧ c' = c.advance run.length rest ∧
      (opening ≠ closing → Text.ShortestBalanced c.source.classifier opening closing run c.place.rest) ∧
      (opening = closing → Text.Quoted c.source.classifier opening run) := by
  by_cases hbegins : Text.BeginsWith c.source.classifier opening c.place.rest
  · obtain ⟨ch, hhead, hch⟩ := hbegins
    obtain ⟨t, ht⟩ := List.head?_eq_some_iff.1 hhead
    rcases takeBalanced_of_cons includeDelimiters ht hch with ⟨u, rest, rfl, hu, hok⟩ | ⟨d, -, -, herror⟩
    · obtain ⟨htext, rfl⟩ := Prod.mk.inj (h.symm.trans hok)
      have hlength : 0 < u.length := List.length_pos_iff.2 hu.ne_nil
      refine ⟨ch :: u, rest, ht, Nat.succ_le_succ hlength, Except.ok.inj htext, rfl, ?_, ?_⟩
      · intro hne
        rw [ht]
        exact hu.shortestBalanced hne hch rest
      · rintro rfl
        exact hu.quoted hch
    · cases h.symm.trans herror
  · cases h.symm.trans (takeBalanced_of_not_beginsWith includeDelimiters hbegins)

theorem eq_of_takeBalanced_eq_error {includeDelimiters : Bool} {e : ReadError} {c' : Cursor}
    (h : c.takeBalanced opening closing includeDelimiters = (.error e, c')) :
    (¬ Text.BeginsWith c.source.classifier opening c.place.rest ∧ e = c.failure (.unbalanced 0) ∧ c' = c) ∨
      (Text.BeginsWith c.source.classifier opening c.place.rest ∧ c' = c.toEnd ∧
        ∃ depth, e = c.failure (.unbalanced depth) ∧
          (opening ≠ closing → depth + Text.tally c.source.classifier closing c.place.rest =
            Text.tally c.source.classifier opening c.place.rest) ∧
          (opening = closing → depth = 1)) := by
  by_cases hbegins : Text.BeginsWith c.source.classifier opening c.place.rest
  · obtain ⟨ch, hhead, hch⟩ := hbegins
    obtain ⟨t, ht⟩ := List.head?_eq_some_iff.1 hhead
    rcases takeBalanced_of_cons includeDelimiters ht hch with ⟨u, rest, -, -, hok⟩ | ⟨d, hd, hopen, herror⟩
    · cases h.symm.trans hok
    · obtain ⟨he, rfl⟩ := Prod.mk.inj (h.symm.trans herror)
      refine Or.inr ⟨⟨ch, hhead, hch⟩, rfl, d, Except.error.inj he, ?_, ?_⟩
      · intro hne
        have hnot : c.source.classifier ch ≠ closing := fun hclosing => hne (hch.symm.trans hclosing)
        rw [Text.deeper_of_ne hne] at hd
        rw [ht, Text.tally_cons, Text.tally_cons opening, Text.tally_singleton, Text.tally_singleton, if_neg hnot,
          if_pos hch, Nat.zero_add, hd]
      · rintro rfl
        rw [hopen.tally_eq_zero, Text.deeper_self] at hd
        exact hd
  · obtain ⟨he, rfl⟩ := Prod.mk.inj (h.symm.trans (takeBalanced_of_not_beginsWith includeDelimiters hbegins))
    exact Or.inl ⟨hbegins, Except.error.inj he, rfl⟩

/-- two classes: a run is taken exactly if there is one -/
theorem exists_takeBalanced_iff (includeDelimiters : Bool) (h : opening ≠ closing) :
    (∃ text c', c.takeBalanced opening closing includeDelimiters = (.ok text, c')) ↔
      ∃ p, p <+: c.place.rest ∧ Text.Balanced c.source.classifier opening closing p := by
  refine ⟨?_, ?_⟩
  · intro hread
    obtain ⟨text, c', hread⟩ := hread
    obtain ⟨run, rest, -, -, -, -, hrun, -⟩ := eq_of_takeBalanced_eq_ok hread
    exact ⟨run, (hrun h).front, (hrun h).balanced⟩
  · intro hp
    obtain ⟨p, ⟨rest, hrest⟩, hbalanced⟩ := hp
    obtain ⟨ch, hhead, hch⟩ := hbalanced.1
    obtain ⟨q, rfl⟩ := List.head?_eq_some_iff.1 hhead
    rcases takeBalanced_of_cons includeDelimiters hrest.symm hch with ⟨u, rest', -, -, hok⟩ | ⟨d, -, hopen, -⟩
    · exact ⟨_, _, hok⟩
    · exact absurd hbalanced (hopen.not_balanced h hch (List.prefix_append (ch :: q) rest))

/-- one class: a run is taken exactly if a second delimiter follows the first -/
theorem exists_takeBalanced_self_iff (includeDelimiters : Bool) :
    (∃ text c', c.takeBalanced closing closing includeDelimiters = (.ok text, c')) ↔
      Text.BeginsWith c.source.classifier closing c.place.rest ∧
        2 ≤ Text.tally c.source.classifier closing c.place.rest := by
  refine ⟨?_, ?_⟩
  · intro hread
    obtain ⟨text, c', hread⟩ := hread
    obtain ⟨run, rest, hrest, -, -, -, -, hrun⟩ := eq_of_takeBalanced_eq_ok hread
    obtain ⟨first, body, last, rfl, hfirst, -, hlast⟩ := hrun rfl
    refine ⟨⟨first, by rw [hrest]; rfl, hfirst⟩, ?_⟩
    simp only [hrest, Text.tally, List.countP_append, List.countP_cons, List.countP_nil, hfirst, hlast, beq_self_eq_true,
      if_true]
    omega
  · intro h
    obtain ⟨⟨ch, hhead, hch⟩, htally⟩ := h
    obtain ⟨t, ht⟩ := List.head?_eq_some_iff.1 hhead
    rcases @takeBalanced_of_cons c closing closing ch t includeDelimiters ht hch with
      ⟨u, rest, -, -, hok⟩ | ⟨d, -, hopen, -⟩
    · exact ⟨_, _, hok⟩
    · rw [ht, Text.tally_cons, Text.tally_singleton, if_pos hch, hopen.tally_eq_zero] at htally
      omega

end Cursor

/-- **Balanced runs.** Between delimiters of two classes, a run is taken exactly if what is left begins with an opening
delimiter and has a prefix with as many opening as closing ones; it is the shortest such prefix. Between delimiters of
one class, a run is taken exactly if what is left begins with one and has another; it ends with the next of them. The
cursor then stands behind the run, and what is read is the run, or what is between its first and last character.
Otherwise the delimiters are unbalanced, which is told of the place where the read began: with depth 0 and an unmoved
cursor if no opening delimiter stands there, and else with the cursor at the end and as many delimiters as are open
there. -/
theorem takeBalanced_exactly (c : Cursor) (opening closing : CharClass) (includeDelimiters : Bool) :
    ((opening ≠ closing →
        ((∃ text c', c.takeBalanced opening closing includeDelimiters = (.ok text, c')) ↔
          ∃ p, p <+: c.place.rest ∧ Text.Balanced c.source.classifier opening closing p)) ∧
      (opening = closing →
        ((∃ text c', c.takeBalanced opening closing includeDelimiters = (.ok text, c')) ↔
          Text.BeginsWith c.source.classifier opening c.place.rest ∧
            2 ≤ Text.tally c.source.classifier opening c.place.rest))) ∧
    (∀ text c', c.takeBalanced opening closing includeDelimiters = (.ok text, c') →
      ∃ run rest, c.place.rest = run ++ rest ∧ 2 ≤ run.length ∧
        text = (if includeDelimiters then run else run.tail.dropLast) ∧
        c' = { c with place := ⟨c.place.offset + run.length, rest⟩ } ∧
        (opening ≠ closing → Text.ShortestBalanced c.source.classifier opening closing run c.place.rest) ∧
        (opening = closing → Text.Quoted c.source.classifier opening run)) ∧
    ∀ e c', c.takeBalanced opening closing includeDelimiters = (.error e, c') →
      (¬ Text.BeginsWith c.source.classifier opening c.place.rest ∧
          e = ⟨.unbalanced 0, c.source.lines.locate c.place.offset⟩ ∧ c' = c) ∨
        (Text.BeginsWith c.source.classifier opening c.place.rest ∧
          c' = { c with place := ⟨c.place.offset + c.place.rest.length, []⟩ } ∧
          ∃ depth, e = ⟨.unbalanced depth, c.source.lines.locate c.place.offset⟩ ∧
            (opening ≠ closing → depth + Text.tally c.source.classifier closing c.place.rest =
              Text.tally c.source.classifier opening c.place.rest) ∧
            (opening = closing → depth = 1)) := by
  refine ⟨⟨?_, ?_⟩, fun text c' h => Cursor.eq_of_takeBalanced_eq_ok h,
    fun e c' h => Cursor.eq_of_takeBalanced_eq_error h⟩
  · intro hne
    exact Cursor.exists_takeBalanced_iff includeDelimiters hne
  · rintro rfl
    exact Cursor.exists_takeBalanced_self_iff includeDelimiters

end TaggedText
