/-
Equal trees.

The deciders are exact: `Attributes.same` decides whether two lists of attributes hold the same values under the same
keys (`Attributes.same_iff`), and `Element.same`, which compares pair after pair, decides `Element.Same`, which
follows the trees (`Element.same_iff`). Equal documents can be exchanged (`Document.same_symm`).

Results:
- `equal_up_to_attribute_order`: when trees are equal, and that this is an equivalence that an exchanged child keeps.
-/
import Mathlib.Data.List.Forall2
import Mathlib.Data.List.Perm.Subperm
import TaggedText.Document.Basic
import TaggedText.Proofs.TreeInduction

namespace TaggedText

/-! ## Attributes -/

namespace Attributes

def keys (a : Attributes) : List Text :=
  a.entries.map Prod.fst

theorem keys_nodup (a : Attributes) : a.keys.Nodup :=
  List.pairwise_map.2 a.distinct

theorem lookup_eq_some_iff {key value : Text} {entries : List (Text × Text)}
    (h : entries.Pairwise fun a b => a.1 ≠ b.1) : lookup key entries = some value ↔ (key, value) ∈ entries := by
  induction entries with
  | nil => simp [lookup]
  | cons e entries ih =>
    obtain ⟨k, v⟩ := e
    obtain ⟨hfirst, hrest⟩ := List.pairwise_cons.1 h
    rw [lookup]
    split_ifs with hk
    · subst hk
      refine ⟨?_, ?_⟩
      · intro hv
        cases hv
        exact List.mem_cons_self
      · intro hmem
        rcases List.mem_cons.1 hmem with heq | hmem
        · cases heq
          rfl
        · exact absurd rfl (hfirst (k, value) hmem)
    · rw [ih hrest, List.mem_cons]
      refine ⟨?_, ?_⟩
      · exact Or.inr
      · intro h
        rcases h with heq | hmem
        · cases heq
          exact absurd rfl hk
        · exact hmem

theorem get?_eq_some_iff {a : Attributes} {key value : Text} : a.get? key = some value ↔ (key, value) ∈ a.entries :=
  lookup_eq_some_iff a.distinct

theorem get?_eq_none_iff {a : Attributes} {key : Text} : a.get? key = none ↔ key ∉ a.keys := by
  rw [get?, lookup_eq_none_iff, keys, List.mem_map]
  refine ⟨?_, ?_⟩
  · rintro h ⟨e, he, hkey⟩
    exact h e he hkey
  · intro h e he hkey
    exact h ⟨e, he, hkey⟩

theorem Same.refl (a : Attributes) : a.Same a :=
  fun _ => rfl

theorem Same.symm {a b : Attributes} (h : a.Same b) : b.Same a :=
  fun key => (h key).symm

theorem Same.trans {a b c : Attributes} (hab : a.Same b) (hbc : b.Same c) : a.Same c :=
  fun key => (hab key).trans (hbc key)

theorem Same.mem_entries {a b : Attributes} (h : a.Same b) {e : Text × Text} (he : e ∈ a.entries) : e ∈ b.entries :=
  get?_eq_some_iff.1 ((h e.1).symm.trans (get?_eq_some_iff.2 he))

theorem Same.keys_subset {a b : Attributes} (h : a.Same b) : a.keys ⊆ b.keys := by
  intro key hkey
  obtain ⟨e, he, rfl⟩ := List.mem_map.1 hkey
  exact List.mem_map_of_mem (h.mem_entries he)

/-- the size and the look-up of every entry decide it -/
theorem same_iff {a b : Attributes} : a.same b = true ↔ a.Same b := by
  have hlength : ∀ x : Attributes, x.keys.length = x.entries.length := fun x => List.length_map _
  simp only [same, Bool.and_eq_true, beq_iff_eq, List.all_eq_true]
  refine ⟨?_, ?_⟩
  · rintro ⟨hsize, hentries⟩ key
    have hsubset : a.keys ⊆ b.keys := by
      intro k hk
      obtain ⟨e, he, rfl⟩ := List.mem_map.1 hk
      exact List.mem_map_of_mem (get?_eq_some_iff.1 (hentries e he))
    -- as many distinct keys, and all of them among the others, are the same keys
    have hperm : a.keys.Perm b.keys :=
      (a.keys_nodup.subperm hsubset).perm_of_length_le (by rw [hlength, hlength]; exact Nat.le_of_eq hsize.symm)
    cases ha : a.get? key with
    | none =>
      rw [get?_eq_none_iff, hperm.mem_iff, ← get?_eq_none_iff] at ha
      exact ha.symm
    | some value => exact (hentries (key, value) (get?_eq_some_iff.1 ha)).symm
  · intro h
    refine ⟨?_, fun e he => get?_eq_some_iff.2 (h.mem_entries he)⟩
    have hle := (a.keys_nodup.subperm h.keys_subset).length_le
    have hge := (b.keys_nodup.subperm h.symm.keys_subset).length_le
    rw [hlength, hlength] at hle hge
    exact Nat.le_antisymm hle hge

end Attributes

/-! ## Trees -/

namespace Element

theorem forestSame_iff {as bs : List Element} : ForestSame as bs ↔ List.Forall₂ Same as bs := by
  induction as generalizing bs with
  | nil => rw [ForestSame, List.forall₂_nil_left_iff]
  | cons a as ih =>
    cases bs with
    | nil => simp [ForestSame]
    | cons b bs => rw [ForestSame, List.forall₂_cons, ih]

theorem same_def {a b : Element} :
    a.Same b ↔ a.name = b.name ∧ a.attributes.Same b.attributes ∧ ContentSame a.content b.content := by
  obtain ⟨name, attributes, content⟩ := a
  rw [Same]

theorem contentSame_children_iff {as bs : List Element} :
    ContentSame (.children as) (.children bs) ↔ as.length = bs.length ∧ ∀ p ∈ as.zip bs, p.1.Same p.2 := by
  rw [ContentSame, forestSame_iff, List.forall₂_iff_zip]
  simp only [Prod.forall]

/-- equal contents are both nothing, the same text, or as many children that are equal one by one -/
theorem contentSame_iff {a b : Content Element} :
    ContentSame a b ↔
      (a = .empty ∧ b = .empty) ∨ (∃ t, a = .text t ∧ b = .text t) ∨
        ∃ as bs, a = .children as ∧ b = .children bs ∧ as.length = bs.length ∧ ∀ p ∈ as.zip bs, p.1.Same p.2 := by
  cases a with
  | empty => cases b <;> simp [ContentSame]
  | text s => cases b <;> simp [ContentSame, eq_comm]
  | children as =>
    cases b with
    | children bs => simp [contentSame_children_iff]
    | _ => simp [ContentSame]

theorem Same.refl (e : Element) : e.Same e := by
  induction e using Element.induction with
  | empty name attributes => exact same_def.2 ⟨rfl, .refl attributes, trivial⟩
  | text name attributes t => exact same_def.2 ⟨rfl, .refl attributes, rfl⟩
  | children name attributes cs ih =>
    exact same_def.2 ⟨rfl, .refl attributes, forestSame_iff.2 (List.forall₂_same.2 ih)⟩

theorem forestSame_symm {as bs : List Element} (hsymm : ∀ a ∈ as, ∀ b, a.Same b → b.Same a)
    (h : ForestSame as bs) : ForestSame bs as := by
  induction as generalizing bs with
  | nil =>
    obtain rfl : bs = [] := h
    exact rfl
  | cons a as ih =>
    obtain ⟨ha, has⟩ := List.forall_mem_cons.1 hsymm
    cases bs with
    | nil => exact h.elim
    | cons b bs => exact ⟨ha b h.1, ih has h.2⟩

theorem contentSame_symm {a b : Content Element}
    (hsymm : ∀ as, a = .children as → ∀ x ∈ as, ∀ y, x.Same y → y.Same x) (h : ContentSame a b) :
    ContentSame b a := by
  cases a with
  | empty =>
    cases b with
    | empty => exact trivial
    | _ => exact h.elim
  | text s =>
    cases b with
    | text t => exact Eq.symm h
    | _ => exact h.elim
  | children as =>
    cases b with
    | children bs => exact forestSame_symm (hsymm as rfl) h
    | _ => exact h.elim

theorem Same.symm {a b : Element} (h : a.Same b) : b.Same a := by
  induction a using Element.induction_children generalizing b with
  | step a ih =>
    obtain ⟨hname, hattributes, hcontent⟩ := same_def.1 h
    refine same_def.2 ⟨hname.symm, hattributes.symm, contentSame_symm ?_ hcontent⟩
    intro as has x hx y hxy
    exact ih x (by simpa [children, has] using hx) hxy

theorem forestSame_trans {as bs cs : List Element} (htrans : ∀ a ∈ as, ∀ b c, a.Same b → b.Same c → a.Same c)
    (hab : ForestSame as bs) (hbc : ForestSame bs cs) : ForestSame as cs := by
  induction as generalizing bs cs with
  | nil =>
    obtain rfl : bs = [] := hab
    exact hbc
  | cons a as ih =>
    obtain ⟨ha, has⟩ := List.forall_mem_cons.1 htrans
    cases bs with
    | nil => exact hab.elim
    | cons b bs =>
      cases cs with
      | nil => exact hbc.elim
      | cons c cs => exact ⟨ha b c hab.1 hbc.1, ih has hab.2 hbc.2⟩

theorem contentSame_trans {a b c : Content Element}
    (htrans : ∀ as, a = .children as → ∀ x ∈ as, ∀ y z, x.Same y → y.Same z → x.Same z) (hab : ContentSame a b)
    (hbc : ContentSame b c) : ContentSame a c := by
  cases a with
  | empty =>
    cases b with
    | empty => exact hbc
    | _ => exact hab.elim
  | text s =>
    cases b with
    | text t =>
      obtain rfl : s = t := hab
      exact hbc
    | _ => exact hab.elim
  | children as =>
    cases b with
    | children bs =>
      cases c with
      | children cs => exact forestSame_trans (htrans as rfl) hab hbc
      | _ => exact hbc.elim
    | _ => exact hab.elim

theorem Same.trans {a b c : Element} (hab : a.Same b) (hbc : b.Same c) : a.Same c := by
  induction a using Element.induction_children generalizing b c with
  | step a ih =>
    obtain ⟨hname, hattributes, hcontent⟩ := same_def.1 hab
    obtain ⟨hname', hattributes', hcontent'⟩ := same_def.1 hbc
    refine same_def.2 ⟨hname.trans hname', hattributes.trans hattributes', contentSame_trans ?_ hcontent hcontent'⟩
    intro as has x hx y z hxy hyz
    exact ih x (by simpa [children, has] using hx) hxy hyz

theorem exists_same_of_mem {as bs : List Element} (h : ForestSame as bs) {a : Element} (ha : a ∈ as) :
    ∃ b ∈ bs, a.Same b := by
  induction as generalizing bs with
  | nil => cases ha
  | cons c as ih =>
    cases bs with
    | nil => exact h.elim
    | cons b bs =>
      obtain ⟨hcb, hrest⟩ := h
      rcases List.mem_cons.1 ha with rfl | ha
      · exact ⟨b, List.mem_cons_self, hcb⟩
      · obtain ⟨d, hd, had⟩ := ih hrest ha
        exact ⟨d, List.mem_cons_of_mem b hd, had⟩

/-- every child has one that it is the same as -/
theorem Same.exists_child {a b : Element} (h : a.Same b) {c : Element} (hc : c ∈ a.children) :
    ∃ d ∈ b.children, c.Same d := by
  obtain ⟨-, -, hcontent⟩ := same_def.1 h
  obtain ⟨name, attributes, content⟩ := a
  cases content with
  | children as =>
    obtain ⟨name', attributes', content'⟩ := b
    cases content' with
    | children bs => exact exists_same_of_mem hcontent hc
    | _ => exact hcontent.elim
  | _ => exact absurd hc List.not_mem_nil

/-- what is left to compare when the names and the attributes agree -/
theorem same_iff_contentSame {a b : Element} (h : ¬ (a.name ≠ b.name ∨ a.attributes.same b.attributes = false)) :
    a.Same b ↔ ContentSame a.content b.content := by
  obtain ⟨hname, hattributes⟩ := not_or.1 h
  rw [same_def, and_iff_right (not_not.1 hname),
    and_iff_right (Attributes.same_iff.1 (by simpa using hattributes))]

/-- every pending pair is compared as the trees are -/
theorem sameFrom_iff {pending : List (Element × Element)} :
    sameFrom pending = true ↔ ∀ p ∈ pending, p.1.Same p.2 := by
  fun_induction sameFrom pending with
  | case1 => simp
  | case2 a b pending hdiffer =>
    rw [List.forall_mem_cons, same_def, ← Attributes.same_iff]
    rcases hdiffer with hname | hattributes
    · simp [hname]
    · simp [hattributes]
  | case3 a b pending hagree ha hb ih =>
    rw [ih, List.forall_mem_cons, same_iff_contentSame hagree, ha, hb]
    exact (and_iff_right trivial).symm
  | case4 a b pending hagree t hb ha ih =>
    rw [ih, List.forall_mem_cons, same_iff_contentSame hagree, ha, hb]
    exact (and_iff_right rfl).symm
  | case5 a b pending hagree s t ha hb hne =>
    rw [List.forall_mem_cons, same_iff_contentSame hagree, ha, hb]
    exact iff_of_false Bool.false_ne_true fun h => hne h.1
  | case6 a b pending hagree as bs ha hb hlength ih =>
    rw [ih, List.forall_mem_append, List.forall_mem_cons, same_iff_contentSame hagree, ha, hb,
      contentSame_children_iff, and_iff_right hlength]
  | case7 a b pending hagree as bs ha hb hlength =>
    rw [List.forall_mem_cons, same_iff_contentSame hagree, ha, hb, contentSame_children_iff]
    exact iff_of_false Bool.false_ne_true fun h => hlength h.1.1
  | case8 a b pending hagree hempty htext hchildren =>
    rw [List.forall_mem_cons, same_iff_contentSame hagree]
    refine iff_of_false Bool.false_ne_true fun h => ?_
    cases ha : a.content <;> cases hb : b.content <;> simp_all [ContentSame]

/-- comparing pair after pair decides it -/
theorem same_iff {a b : Element} : a.same b = true ↔ a.Same b := by
  rw [same, sameFrom_iff, List.forall_mem_singleton]

end Element

theorem Instructions.same_iff {a b : Instructions} :
    a.same b = true ↔ a.target = b.target ∧ a.attributes.Same b.attributes := by
  rw [same, Bool.and_eq_true, beq_iff_eq, Attributes.same_iff]

theorem Document.same_iff {a b : Document} :
    a.same b = true ↔ a.root.Same b.root ∧ a.instructions.target = b.instructions.target ∧
      a.instructions.attributes.Same b.instructions.attributes := by
  rw [same, Bool.and_eq_true, Element.same_iff, Instructions.same_iff]

theorem Document.same_symm {a b : Document} (h : a.same b = true) : b.same a = true := by
  obtain ⟨hroot, htarget, hattributes⟩ := Document.same_iff.1 h
  exact Document.same_iff.2 ⟨hroot.symm, htarget.symm, hattributes.symm⟩

theorem Document.same_refl (d : Document) : d.same d = true :=
  Document.same_iff.2 ⟨.refl d.root, rfl, .refl d.instructions.attributes⟩

theorem Document.same_trans {a b c : Document} (hab : a.same b = true) (hbc : b.same c = true) : a.same c = true := by
  obtain ⟨hroot, htarget, hattributes⟩ := Document.same_iff.1 hab
  obtain ⟨hroot', htarget', hattributes'⟩ := Document.same_iff.1 hbc
  exact Document.same_iff.2 ⟨hroot.trans hroot', htarget.trans htarget', hattributes.trans hattributes'⟩

/-- trees that have all but one of their children in common are equal exactly if these children are -/
theorem Element.same_exchange (name : Text) (attributes : Attributes) (before after : List Element) (c d : Element) :
    Same ⟨name, attributes, .children (before ++ c :: after)⟩ ⟨name, attributes, .children (before ++ d :: after)⟩ ↔
      c.Same d := by
  have hself : ∀ es : List Element, ∀ p ∈ es.zip es, p.1.Same p.2 := by
    intro es p hp
    exact (List.forall₂_iff_zip.1 (List.forall₂_same.2 fun e _ => Same.refl e)).2 hp
  have hlength : (before ++ c :: after).length = (before ++ d :: after).length := by simp
  rw [same_def, and_iff_right rfl, and_iff_right (Attributes.Same.refl attributes), contentSame_children_iff,
    and_iff_right hlength, List.zip_append rfl, List.zip_cons_cons, List.forall_mem_append, List.forall_mem_cons,
    and_iff_right (hself before), and_iff_left (hself after)]

/-- **Equal trees.** Comparing pair after pair tells two trees equal exactly if they have the same name, the same values
under the same keys in whatever order, and contents that are both nothing, the same text, or as many children, which are
equal one by one; so it decides the equality that follows the trees. This is an equivalence, for documents too, and
trees that have all but one of their children in common are equal exactly if these children are. -/
theorem equal_up_to_attribute_order :
    (∀ a b : Element, a.same b = true ↔
      a.name = b.name ∧ (∀ key, a.attributes.get? key = b.attributes.get? key) ∧
        ((a.content = .empty ∧ b.content = .empty) ∨ (∃ t, a.content = .text t ∧ b.content = .text t) ∨
          ∃ as bs, a.content = .children as ∧ b.content = .children bs ∧ as.length = bs.length ∧
            ∀ p ∈ as.zip bs, p.1.same p.2 = true)) ∧
    (∀ a b : Element, a.same b = true ↔ a.Same b) ∧
    (Equivalence fun a b : Element => a.same b = true) ∧
    (Equivalence fun a b : Document => a.same b = true) ∧
    ∀ (name : Text) (attributes : Attributes) (before after : List Element) (c d : Element),
      Element.same ⟨name, attributes, .children (before ++ c :: after)⟩
        ⟨name, attributes, .children (before ++ d :: after)⟩ = c.same d := by
  refine ⟨?_, fun _ _ => Element.same_iff, ?_, ?_, ?_⟩
  · intro a b
    simp only [Element.same_iff]
    rw [Element.same_def, Element.contentSame_iff]
    exact Iff.rfl
  · simp only [Element.same_iff]
    exact ⟨Element.Same.refl, Element.Same.symm, Element.Same.trans⟩
  · exact ⟨Document.same_refl, Document.same_symm, Document.same_trans⟩
  · intro name attributes before after c d
    rw [Bool.eq_iff_iff, Element.same_iff, Element.same_iff, Element.same_exchange]

end TaggedText
