import Mathlib.Data.List.Count
import Mathlib.Data.List.Sort

/-!
Counting occurrences in an association list, and removing repeats from a
sorted list. `tally` is the loop that increments a counter per key; the order
of its keys is an accident of the input and no statement here depends on it.
-/

namespace Mirage.Tally

variable {Key : Type} [DecidableEq Key]

/-- Increment the counter of a key, starting it at one. -/
def bump (counts : List (Key × Nat)) (key : Key) : List (Key × Nat) :=
  match counts with
  | [] => [(key, 1)]
  | (other, count) :: rest =>
      if other = key then (other, count + 1) :: rest else (other, count) :: bump rest key

def tally (keys : List Key) : List (Key × Nat) := keys.foldl bump []

/-- `counts` holds each key of `keys` once, with its number of occurrences. -/
structure Counts (counts : List (Key × Nat)) (keys : List Key) : Prop where
  unique : (counts.map Prod.fst).Nodup
  exact : ∀ key count, (key, count) ∈ counts ↔ count = keys.count key ∧ 0 < count

theorem mem_bump_keys (counts : List (Key × Nat)) (key other : Key) :
    other ∈ (bump counts key).map Prod.fst ↔ other = key ∨ other ∈ counts.map Prod.fst := by
  induction counts with
  | nil => simp [bump]
  | cons head rest ih =>
      obtain ⟨first, count⟩ := head
      by_cases same : first = key
      · subst first
        simp [bump]
      · simp only [bump, same, ↓reduceIte, List.map_cons, List.mem_cons, ih]
        tauto

theorem bump_unique {counts : List (Key × Nat)} (unique : (counts.map Prod.fst).Nodup)
    (key : Key) : ((bump counts key).map Prod.fst).Nodup := by
  induction counts with
  | nil => simp [bump]
  | cons head rest ih =>
      obtain ⟨first, count⟩ := head
      obtain ⟨fresh, tail⟩ := List.nodup_cons.mp unique
      by_cases same : first = key
      · subst first
        simpa [bump] using List.nodup_cons.mpr ⟨fresh, tail⟩
      · simp only [bump, same, ↓reduceIte, List.map_cons]
        refine List.nodup_cons.mpr ⟨fun member => ?_, ih tail⟩
        rcases (mem_bump_keys rest key first).mp member with equal | old
        · exact same equal
        · exact fresh old

theorem mem_bump {counts : List (Key × Nat)} (unique : (counts.map Prod.fst).Nodup)
    (key other : Key) (count : Nat) :
    (other, count) ∈ bump counts key ↔
      (other ≠ key ∧ (other, count) ∈ counts) ∨
        (other = key ∧ ((key ∉ counts.map Prod.fst ∧ count = 1) ∨
          ∃ before, (key, before) ∈ counts ∧ count = before + 1)) := by
  induction counts with
  | nil =>
      simp only [bump, List.mem_singleton, Prod.mk.injEq, List.not_mem_nil, List.map_nil]
      tauto
  | cons head rest ih =>
      obtain ⟨first, value⟩ := head
      obtain ⟨fresh, tail⟩ := List.nodup_cons.mp unique
      have absent : ∀ n, (first, n) ∉ rest := fun n member =>
        fresh (List.mem_map.mpr ⟨_, member, rfl⟩)
      by_cases same : first = key
      · subst first
        simp only [bump, ↓reduceIte, List.mem_cons, Prod.mk.injEq, List.map_cons, true_or,
          not_true_eq_false, false_and, false_or, true_and]
        constructor
        · rintro (⟨rfl, rfl⟩ | later)
          · exact Or.inr ⟨rfl, value, Or.inl rfl, rfl⟩
          · exact Or.inl ⟨fun equal => absent count (equal ▸ later), Or.inr later⟩
        · rintro (⟨different, ⟨rfl, rfl⟩ | later⟩ | ⟨rfl, before, old, rfl⟩)
          · exact absurd rfl different
          · exact Or.inr later
          · rcases old with rfl | later
            · exact Or.inl ⟨rfl, rfl⟩
            · exact absurd later (absent before)
      · simp only [bump, same, ↓reduceIte, List.mem_cons, Prod.mk.injEq, List.map_cons, ih tail]
        constructor
        · rintro (⟨rfl, rfl⟩ | ⟨different, later⟩ | ⟨rfl, ⟨missing, one⟩ | ⟨before, old, next⟩⟩)
          · exact Or.inl ⟨same, Or.inl ⟨rfl, rfl⟩⟩
          · exact Or.inl ⟨different, Or.inr later⟩
          · refine Or.inr ⟨rfl, Or.inl ⟨?_, one⟩⟩
            rintro (equal | later)
            · exact same equal.symm
            · exact missing later
          · exact Or.inr ⟨rfl, Or.inr ⟨before, Or.inr old, next⟩⟩
        · rintro (⟨different, ⟨rfl, rfl⟩ | later⟩ | ⟨rfl, ⟨missing, one⟩ | ⟨before, old, next⟩⟩)
          · exact Or.inl ⟨rfl, rfl⟩
          · exact Or.inr (Or.inl ⟨different, later⟩)
          · exact Or.inr (Or.inr ⟨rfl, Or.inl ⟨fun later => missing (Or.inr later), one⟩⟩)
          · rcases old with ⟨rfl, _⟩ | later
            · exact absurd rfl same
            · exact Or.inr (Or.inr ⟨rfl, Or.inr ⟨before, later, next⟩⟩)

theorem bump_counts {counts : List (Key × Nat)} {keys : List Key} (rep : Counts counts keys)
    (key : Key) : Counts (bump counts key) (keys ++ [key]) := by
  refine ⟨bump_unique rep.unique key, fun other count => ?_⟩
  rw [mem_bump rep.unique]
  have known : key ∉ counts.map Prod.fst ↔ keys.count key = 0 := by
    constructor
    · intro missing
      by_contra positive
      exact missing (List.mem_map.mpr
        ⟨_, (rep.exact key _).mpr ⟨rfl, Nat.pos_of_ne_zero positive⟩, rfl⟩)
    · intro zero member
      obtain ⟨⟨first, found⟩, inside, rfl⟩ := List.mem_map.mp member
      have facts := (rep.exact first found).mp inside
      simp only at zero
      omega
  by_cases same : other = key
  · subst other
    simp only [ne_eq, not_true_eq_false, false_and, true_and, false_or, known, rep.exact,
      List.count_append, List.count_singleton_self]
    constructor
    · rintro (⟨zero, rfl⟩ | ⟨before, ⟨rfl, _⟩, rfl⟩) <;> omega
    · rintro ⟨rfl, _⟩
      rcases Nat.eq_zero_or_pos (keys.count key) with zero | positive
      · exact Or.inl ⟨zero, by omega⟩
      · exact Or.inr ⟨_, ⟨rfl, positive⟩, rfl⟩
  · simp [same, rep.exact, List.count_append, Ne.symm same]

theorem foldl_bump_counts {counts : List (Key × Nat)} {seen : List Key} (rep : Counts counts seen)
    (keys : List Key) : Counts (keys.foldl bump counts) (seen ++ keys) := by
  induction keys generalizing counts seen with
  | nil => simpa using rep
  | cons key rest ih => simpa using ih (bump_counts rep key)

theorem tally_counts (keys : List Key) : Counts (tally keys) keys := by
  have start : Counts ([] : List (Key × Nat)) [] := ⟨by simp, by simp⟩
  simpa [tally] using foldl_bump_counts start keys

theorem mem_tally (keys : List Key) (key : Key) (count : Nat) :
    (key, count) ∈ tally keys ↔ count = keys.count key ∧ 0 < count :=
  (tally_counts keys).exact key count

/-- Drop every element that equals its left neighbour. -/
def dedup : List Key → List Key
  | [] => []
  | [value] => [value]
  | first :: second :: rest =>
      if first = second then dedup (second :: rest) else first :: dedup (second :: rest)

@[simp] theorem mem_dedup (values : List Key) (value : Key) :
    value ∈ dedup values ↔ value ∈ values := by
  fun_induction dedup values with
  | case1 => rfl
  | case2 => rfl
  | case3 second rest ih => simp [ih]
  | case4 first second rest different ih => simp [ih]

theorem dedup_ascending {values : List Nat} (sorted : values.Pairwise (· ≤ ·)) :
    (dedup values).Pairwise (· < ·) := by
  fun_induction dedup values with
  | case1 => exact List.Pairwise.nil
  | case2 value => exact List.pairwise_singleton _ _
  | case3 second rest ih => exact ih (List.pairwise_cons.mp sorted).2
  | case4 first second rest different ih =>
      obtain ⟨least, tail⟩ := List.pairwise_cons.mp sorted
      refine List.pairwise_cons.mpr ⟨fun value member => ?_, ih tail⟩
      rw [mem_dedup] at member
      have next : first < second :=
        Nat.lt_of_le_of_ne (least second List.mem_cons_self) different
      rcases List.mem_cons.mp member with rfl | later
      · exact next
      · exact Nat.lt_of_lt_of_le next ((List.pairwise_cons.mp tail).1 value later)

def sortDedup (values : List Nat) : List Nat := dedup (values.insertionSort (· ≤ ·))

@[simp] theorem mem_sortDedup (values : List Nat) (value : Nat) :
    value ∈ sortDedup values ↔ value ∈ values := by
  simp [sortDedup]

theorem count_sortDedup (values : List Nat) (value : Nat) :
    (sortDedup values).count value = if value ∈ values then 1 else 0 := by
  have ascending := dedup_ascending (List.pairwise_insertionSort (· ≤ ·) values)
  have unique : (sortDedup values).Nodup := ascending.imp Nat.ne_of_lt
  by_cases member : value ∈ values
  · rw [if_pos member]
    exact List.count_eq_one_of_mem unique (by simpa using member)
  · rw [if_neg member]
    exact List.count_eq_zero.mpr (by simpa using member)

end Mirage.Tally
