/-
Attributes: values under keys, in the order in which the keys came.

No key occurs twice. `Attributes.insert` gives a key that is there already a new value in its old place. Two lists
of attributes mean the same when they hold the same values under the same keys, in whatever order: `Attributes.Same`.
-/
import TaggedText.Text.Blank

namespace TaggedText

/-- values under distinct keys, in order -/
structure Attributes where
  entries : List (Text × Text)
  distinct : entries.Pairwise fun a b => a.1 ≠ b.1
deriving DecidableEq, Repr

namespace Attributes

def empty : Attributes :=
  ⟨[], .nil⟩

/-- the value under `key` in a list of entries -/
def lookup (key : Text) : List (Text × Text) → Option Text
  | [] => none
  | (k, v) :: rest => if k = key then some v else lookup key rest

def get? (a : Attributes) (key : Text) : Option Text :=
  lookup key a.entries

def contains (a : Attributes) (key : Text) : Bool :=
  (a.get? key).isSome

def replace (key value : Text) (entries : List (Text × Text)) : List (Text × Text) :=
  entries.map fun e => if e.1 = key then (e.1, value) else e

theorem lookup_eq_none_iff {key : Text} {entries : List (Text × Text)} :
    lookup key entries = none ↔ ∀ e ∈ entries, e.1 ≠ key := by
  induction entries with
  | nil => simp [lookup]
  | cons e rest ih =>
    obtain ⟨k, v⟩ := e
    by_cases h : k = key <;> simp [lookup, h, ih]

theorem replace_distinct {entries : List (Text × Text)} (key value : Text)
    (h : entries.Pairwise fun a b => a.1 ≠ b.1) : (replace key value entries).Pairwise fun a b => a.1 ≠ b.1 := by
  refine List.pairwise_map.2 (h.imp fun {a b} hab => ?_)
  by_cases ha : a.1 = key <;> by_cases hb : b.1 = key <;> simp_all

theorem append_distinct {entries : List (Text × Text)} {key : Text} (value : Text)
    (h : entries.Pairwise fun a b => a.1 ≠ b.1) (hkey : lookup key entries = none) :
    (entries ++ [(key, value)]).Pairwise fun a b => a.1 ≠ b.1 := by
  refine List.pairwise_append.2 ⟨h, List.pairwise_singleton _ _, fun a ha b hb => ?_⟩
  rw [List.mem_singleton.1 hb]
  exact lookup_eq_none_iff.1 hkey a ha

/-- puts `value` under `key`: in its old place if the key is there, at the end otherwise -/
def insert (a : Attributes) (key value : Text) : Attributes :=
  if h : a.get? key = none then ⟨a.entries ++ [(key, value)], append_distinct value a.distinct h⟩
  else ⟨replace key value a.entries, replace_distinct key value a.distinct⟩

/-- the attributes got by inserting the entries one after another -/
def ofList (entries : List (Text × Text)) : Attributes :=
  entries.foldl (fun a e => a.insert e.1 e.2) empty

/-- whether both hold the same values under the same keys -/
def Same (a b : Attributes) : Prop :=
  ∀ key, a.get? key = b.get? key

/-- decides whether both hold the same values under the same keys, by size and look-up -/
def same (a b : Attributes) : Bool :=
  a.entries.length == b.entries.length && a.entries.all fun e => b.get? e.1 == some e.2

end Attributes

end TaggedText
