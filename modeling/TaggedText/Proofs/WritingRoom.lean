/-
Room for what is written.

The spaces before a tag have to fit into a text. Of the tags of a tree those on the lowest level need most of them, and
the walk around the tree comes to that level (`Element.exists_mem_around`), so that there is room for all tags if there
is for the lowest. `Document.halts` lists what stops a writer that counts sizes: what cannot be written, and where there
is no room; the writer gives the first of them, or else the rendered text.

Results:
- `Document.writeSized_of_room`: where there is room, a document is written as if sizes were not counted;
- `document_rendered_or_first_offence`: which documents are written, as what, and what stops the writer otherwise.
-/
import TaggedText.Proofs.Rendering

namespace TaggedText

namespace Layout

theorem hasRoom_iff {layout : Layout} {depth : Nat} :
    layout.hasRoom depth = true ↔ ∀ width, layout = .indented width → width * depth ≤ Size.maxBytes := by
  cases layout <;> simp [hasRoom]

/-- where there is room for a tag, there is for one further up -/
theorem hasRoom_mono {layout : Layout} {m n : Nat} (hle : m ≤ n) (h : layout.hasRoom n = true) :
    layout.hasRoom m = true :=
  hasRoom_iff.2 fun width hwidth => (Nat.mul_le_mul_left width hle).trans (hasRoom_iff.1 h width hwidth)

end Layout

namespace Element

/-! ## The lowest level of the walk -/

theorem height_le_forestHeight {c : Element} {es : List Element} (h : c ∈ es) : c.height ≤ forestHeight es := by
  induction es with
  | nil => cases h
  | cons e es ih =>
    rw [forestHeight]
    rcases List.mem_cons.1 h with rfl | h
    · exact le_max_left _ _
    · exact (ih h).trans (le_max_right _ _)

theorem exists_height_eq_forestHeight {es : List Element} (h : es ≠ []) : ∃ c ∈ es, c.height = forestHeight es := by
  induction es with
  | nil => exact absurd rfl h
  | cons e es ih =>
    rw [forestHeight]
    rcases le_total (forestHeight es) e.height with hle | hle
    · exact ⟨e, List.mem_cons_self, (max_eq_left hle).symm⟩
    · -- the first tree is not higher than the others, so that there are others
      have hes : es ≠ [] := by
        rintro rfl
        have hpos : 0 < e.height := by
          rw [height_eq]
          exact Nat.succ_pos _
        exact absurd hle (Nat.not_le.2 hpos)
      obtain ⟨c, hc, hheight⟩ := ih hes
      exact ⟨c, List.mem_cons_of_mem e hc, hheight.trans (max_eq_right hle).symm⟩

/-- the walk stays above the lowest level -/
theorem depth_lt_of_mem_around {depth : Nat} {e : Element} {v : Visit} (h : v ∈ around depth e) :
    v.depth < depth + e.height := by
  induction e using Element.induction_children generalizing depth with
  | step e ih =>
    rw [height_eq]
    rw [around_eq, List.mem_append, List.mem_cons, List.mem_singleton] at h
    rcases h with (rfl | hbelow) | rfl
    · exact Nat.lt_add_of_pos_right (Nat.succ_pos _)
    · rw [aroundForest_eq, List.mem_flatMap] at hbelow
      obtain ⟨c, hc, hv⟩ := hbelow
      have hdepth := ih c hc hv
      have hheight := height_le_forestHeight hc
      omega
    · exact Nat.lt_add_of_pos_right (Nat.succ_pos _)

/-- the walk comes to the lowest level -/
theorem exists_mem_around (depth : Nat) (e : Element) : ∃ v ∈ around depth e, v.depth + 1 = depth + e.height := by
  induction e using Element.induction_children generalizing depth with
  | step e ih =>
    rw [height_eq, around_eq]
    by_cases hchildren : e.children = []
    · refine ⟨.enter depth e, by simp, ?_⟩
      rw [hchildren]
      rfl
    · obtain ⟨c, hc, hheight⟩ := exists_height_eq_forestHeight hchildren
      obtain ⟨v, hv, hdepth⟩ := ih c hc (depth + 1)
      refine ⟨v, ?_, by omega⟩
      rw [aroundForest_eq]
      exact List.mem_append_left _ (List.mem_cons_of_mem _ (List.mem_flatMap.2 ⟨c, hc, hv⟩))

/-- there is room for all tags if there is for the lowest -/
theorem hasRoom_around_iff {layout : Layout} {e : Element} :
    (∀ v ∈ around 0 e, layout.hasRoom v.depth = true) ↔ layout.hasRoom (e.height - 1) = true := by
  refine ⟨?_, ?_⟩
  · intro h
    obtain ⟨v, hv, hdepth⟩ := exists_mem_around 0 e
    have heq : v.depth = e.height - 1 := by omega
    exact heq ▸ h v hv
  · intro h v hv
    have hdepth := depth_lt_of_mem_around hv
    exact Layout.hasRoom_mono (by omega) h

/-! ## What stops a writer that counts sizes -/

/-- what stops a writer at one moment of the walk: that there is no room, or else what is wrong -/
def visitHalts (layout : Layout) (v : Visit) : List Halt :=
  if layout.hasRoom v.depth then (visitOffences v).map .offence else [.tooWide]

/-- what stops a writer on the walk around a tree -/
def halts (layout : Layout) (e : Element) : List Halt :=
  (around 0 e).flatMap (visitHalts layout)

theorem writeVisitSized_eq_firstOr (layout : Layout) (v : Visit) :
    writeVisitSized layout v = firstOr (renderedVisit layout v) (visitHalts layout v) := by
  rw [writeVisitSized, visitHalts]
  split_ifs
  · rw [writeVisit_eq_firstOr, firstOr_map]
  · rfl

theorem writeSized_eq_firstOr (layout : Layout) (e : Element) :
    e.writeSized layout = firstOr (e.rendered layout 0) (e.halts layout) := by
  rw [halts, ← flatMap_around_renderedVisit, ← mapM_firstOr (writeVisitSized_eq_firstOr layout), ← tour_eq_around,
    writeSized]
  cases e.tour.mapM (writeVisitSized layout) <;> rfl

theorem halts_of_room {layout : Layout} {e : Element} (h : layout.hasRoom (e.height - 1) = true) :
    e.halts layout = (e.preorder.flatMap offences).map .offence := by
  rw [← flatMap_around_visitOffences 0, List.map_flatMap]
  exact List.flatMap_congr fun v hv => if_pos (hasRoom_around_iff.2 h v hv)

theorem halts_ne_nil {layout : Layout} {e : Element} (h : layout.hasRoom (e.height - 1) ≠ true) :
    e.halts layout ≠ [] := by
  intro hnil
  refine h (hasRoom_around_iff.1 fun v hv => ?_)
  by_contra hroom
  have hvisit := List.flatMap_eq_nil_iff.1 hnil v hv
  rw [visitHalts, if_neg hroom] at hvisit
  cases hvisit

/-- an offence that is the first halt is the first offence -/
theorem head?_offences_of_halts {layout : Layout} {error : Unwritable} {visits : List Visit}
    (h : (visits.flatMap (visitHalts layout)).head? = some (.offence error)) :
    (visits.flatMap visitOffences).head? = some error := by
  induction visits with
  | nil => cases h
  | cons v visits ih =>
    rw [List.flatMap_cons, visitHalts] at h
    split_ifs at h
    · rw [List.flatMap_cons]
      cases hoffences : visitOffences v with
      | nil =>
        rw [hoffences] at h
        exact ih h
      | cons first others =>
        rw [hoffences] at h
        exact congrArg some (Halt.offence.inj (Option.some.inj h))
    · cases h

end Element

namespace Document

/-- what stops a writer: that something cannot be written, or that there is no room for it -/
def halts (layout : Layout) (d : Document) : List Halt :=
  d.instructions.offences.map .offence ++ d.root.halts layout

theorem writeSized_eq_firstOr (layout : Layout) (d : Document) :
    d.writeSized layout = firstOr (d.rendered layout) (d.halts layout) := by
  rw [writeSized, Instructions.write_eq_firstOr, Element.writeSized_eq_firstOr, rendered, halts, ← firstOr_append]
  cases d.instructions.offences with
  | cons e others => rfl
  | nil => cases d.root.halts layout <;> rfl

variable {layout : Layout} {d : Document}

theorem halts_of_room (h : layout.hasRoom (d.root.height - 1) = true) : d.halts layout = d.offences.map .offence := by
  rw [halts, Element.halts_of_room h, offences, List.map_append]

/-- where there is room, a document is written as if sizes were not counted -/
theorem writeSized_of_room (h : layout.hasRoom (d.root.height - 1) = true) :
    d.writeSized layout = (d.write layout).mapError .offence := by
  rw [writeSized_eq_firstOr, halts_of_room h, write_eq_firstOr, firstOr_map]

theorem halts_eq_nil_iff :
    d.halts layout = [] ↔ layout.hasRoom (d.root.height - 1) = true ∧ d.offences = [] := by
  by_cases hroom : layout.hasRoom (d.root.height - 1) = true
  · rw [halts_of_room hroom, List.map_eq_nil_iff, and_iff_right hroom]
  · refine iff_of_false ?_ fun h => hroom h.1
    intro hnil
    exact Element.halts_ne_nil hroom (List.append_eq_nil_iff.1 hnil).2

theorem head?_offences_of_halts {error : Unwritable} (h : (d.halts layout).head? = some (.offence error)) :
    d.offences.head? = some error := by
  rw [halts] at h
  rw [offences]
  cases hoffences : d.instructions.offences with
  | nil =>
    rw [hoffences] at h
    rw [← Element.flatMap_around_visitOffences 0]
    exact Element.head?_offences_of_halts h
  | cons first others =>
    rw [hoffences] at h
    exact congrArg some (Halt.offence.inj (Option.some.inj h))

end Document

/-- **Writing by recursion.** A document is written exactly if there is room for the spaces before its lowest tag, no
value of its instructions, when they have a target, or of an element contains both quotes, and no text an angle bracket.
Then it is written as it is rendered. Otherwise, where there is room, the error is its first offence in document order:
the instructions before the elements, each element before those below it, and its attributes before its text. Where
there is none, that is what stops the writer, unless the first offence comes before. -/
theorem document_rendered_or_first_offence (layout : Layout) (d : Document) :
    let room := ∀ width, layout = .indented width → width * (d.root.height - 1) ≤ Size.maxBytes
    ((∃ t, d.writeSized layout = .ok t) ↔ room ∧
      (d.instructions.target ≠ [] → ∀ e ∈ d.instructions.attributes.entries, ¬ ('"' ∈ e.2 ∧ '\'' ∈ e.2)) ∧
        ∀ x ∈ d.root.preorder, (∀ e ∈ x.attributes.entries, ¬ ('"' ∈ e.2 ∧ '\'' ∈ e.2)) ∧
          ∀ t, x.content = .text t → '<' ∉ t ∧ '>' ∉ t) ∧
    (∀ t, d.writeSized layout = .ok t ↔ room ∧ d.offences = [] ∧ t = d.rendered layout) ∧
    (room → ∀ e, d.writeSized layout = .error (.offence e) ↔ d.offences.head? = some e) ∧
    ∀ halt, d.writeSized layout = .error halt →
      halt = .tooWide ∧ ¬ room ∨ ∃ e, halt = .offence e ∧ d.offences.head? = some e := by
  intro room
  have hroom : layout.hasRoom (d.root.height - 1) = true ↔ room := Layout.hasRoom_iff
  have hok : ∀ t, d.writeSized layout = .ok t ↔ room ∧ d.offences = [] ∧ t = d.rendered layout := by
    intro t
    rw [Document.writeSized_eq_firstOr, firstOr_eq_ok_iff, Document.halts_eq_nil_iff, hroom, and_assoc]
  have herror : room → ∀ halt, d.writeSized layout = .error halt ↔ ∃ e, d.offences.head? = some e ∧ .offence e = halt := by
    intro h halt
    rw [Document.writeSized_eq_firstOr, Document.halts_of_room (hroom.2 h), firstOr_eq_error_iff, List.head?_map,
      Option.map_eq_some_iff]
  refine ⟨?_, hok, ?_, ?_⟩
  · rw [← Document.offences_eq_nil_iff]
    simp only [hok, exists_and_left, exists_eq, and_true]
  · intro h e
    simp only [herror h, Halt.offence.injEq, exists_eq_right]
  · intro halt hhalt
    cases halt with
    | offence e =>
      rw [Document.writeSized_eq_firstOr, firstOr_eq_error_iff] at hhalt
      exact Or.inr ⟨e, rfl, Document.head?_offences_of_halts hhalt⟩
    | tooWide =>
      refine Or.inl ⟨rfl, fun h => ?_⟩
      obtain ⟨e, -, heq⟩ := (herror h _).1 hhalt
      cases heq

/-- nothing is wrong with an element in another, but no text has room for half as many spaces as there are sizes -/
theorem not_rendered_of_tooWide :
    (Document.mk ⟨['a'], .empty, .children [.leaf ['b']]⟩ .none).offences = [] ∧
      ¬ ∃ t, (Document.mk ⟨['a'], .empty, .children [.leaf ['b']]⟩ .none).writeSized (.indented (2 ^ 63)) =
        .ok t := by
  have htooWide : (Document.mk ⟨['a'], .empty, .children [.leaf ['b']]⟩ .none).writeSized
      (.indented (2 ^ 63)) = .error .tooWide := by cbv
  refine ⟨by cbv, ?_⟩
  rintro ⟨t, ht⟩
  cases ht.symm.trans htooWide

/-- the value is the first offence, although the text of the same element has a bracket -/
example : Document.writeSized (.indented 2)
    ⟨⟨['r'], .empty, .children [⟨['a'], Attributes.empty.insert ['k'] ['"', '\''], .text ['<']⟩]⟩, .none⟩ =
      .error (.offence (.bothQuotes ['a'] ['k'])) := by cbv

end TaggedText
