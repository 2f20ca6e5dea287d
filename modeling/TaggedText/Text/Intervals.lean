/-
Sets of code points, given as closed intervals in ascending order.

`Intervals.covers` tests membership and stops at the first interval that begins above the code point.
-/
namespace TaggedText.Text

/-- a set of code points: closed intervals, ascending and apart from each other -/
abbrev Intervals := List (Nat × Nat)

def Intervals.covers : Intervals → Nat → Bool
  | [], _ => false
  | (lo, hi) :: rest, n => if n < lo then false else decide (n ≤ hi) || Intervals.covers rest n

/-- a covered code point lies in some interval of the list -/
theorem Intervals.exists_of_covers {s : Intervals} {n : Nat} (h : s.covers n = true) :
    ∃ i ∈ s, i.1 ≤ n ∧ n ≤ i.2 := by
  induction s with
  | nil => simp [covers] at h
  | cons i rest ih =>
    obtain ⟨lo, hi⟩ := i
    simp only [covers] at h
    split at h
    · simp at h
    · rename_i hlo
      rcases Bool.or_eq_true _ _ |>.mp h with h | h
      · exact ⟨(lo, hi), by simp, Nat.le_of_not_lt hlo, of_decide_eq_true h⟩
      · obtain ⟨j, hj, hb⟩ := ih h
        exact ⟨j, List.mem_cons_of_mem _ hj, hb⟩

end TaggedText.Text
