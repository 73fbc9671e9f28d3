import Mathlib.Data.List.Infix

/-!
The end of the first occurrence of a pattern. A part of the data that reaches this
end has the same first occurrence, and a part that does not has none.
-/

namespace Mirage.Occurrence

variable {Item : Type} [DecidableEq Item]

/-- How much of the data its first occurrence of the pattern ends. -/
def endOf (pattern : List Item) : List Item → Option Nat
  | [] => none
  | a :: rest =>
      if pattern.isPrefixOf (a :: rest) then some pattern.length
      else (endOf pattern rest).map (· + 1)

variable {pattern data more : List Item} {n : Nat}

theorem endOf_bounds (found : endOf pattern data = some n) :
    pattern.length ≤ n ∧ n ≤ data.length := by
  induction data generalizing n with
  | nil => cases found
  | cons a rest ih =>
      rw [endOf] at found
      split at found
      · rename_i here
        cases found
        exact ⟨Nat.le_refl _, (List.isPrefixOf_iff_prefix.mp here).length_le⟩
      · obtain ⟨m, later, rfl⟩ := Option.map_eq_some_iff.mp found
        obtain ⟨low, high⟩ := ih later
        rw [List.length_cons]
        omega

theorem endOf_append (found : endOf pattern data = some n) :
    endOf pattern (data ++ more) = some n := by
  induction data generalizing n with
  | nil => cases found
  | cons a rest ih =>
      rw [endOf] at found
      rw [List.cons_append, endOf]
      split at found
      · rename_i here
        have there : pattern <+: a :: (rest ++ more) :=
          (List.isPrefixOf_iff_prefix.mp here).trans (List.prefix_append _ more)
        rw [if_pos (List.isPrefixOf_iff_prefix.mpr there)]
        exact found
      · rename_i other
        obtain ⟨m, later, rfl⟩ := Option.map_eq_some_iff.mp found
        have bounds := endOf_bounds later
        have still : ¬ pattern.isPrefixOf (a :: (rest ++ more)) = true := by
          intro there
          refine other (List.isPrefixOf_iff_prefix.mpr ?_)
          refine List.prefix_of_prefix_length_le (List.isPrefixOf_iff_prefix.mp there)
            (List.prefix_append (a :: rest) more) ?_
          rw [List.length_cons]
          omega
        rw [if_neg still, ih later]
        rfl

theorem endOf_of_inside (some_ : pattern ≠ []) (found : endOf pattern (data ++ more) = some n)
    (inside : n ≤ data.length) : endOf pattern data = some n := by
  induction data generalizing n with
  | nil =>
      have low := (endOf_bounds found).1
      have positive := List.length_pos_iff.mpr some_
      rw [List.length_nil] at inside
      omega
  | cons a rest ih =>
      rw [List.cons_append, endOf] at found
      rw [endOf]
      split at found
      · rename_i here
        cases found
        have starts := List.prefix_of_prefix_length_le (List.isPrefixOf_iff_prefix.mp here)
          (List.prefix_append (a :: rest) more) inside
        rw [if_pos (List.isPrefixOf_iff_prefix.mpr starts)]
      · rename_i other
        obtain ⟨m, later, rfl⟩ := Option.map_eq_some_iff.mp found
        have still : ¬ pattern.isPrefixOf (a :: rest) = true := by
          intro here
          exact other (List.isPrefixOf_iff_prefix.mpr
            ((List.isPrefixOf_iff_prefix.mp here).trans (List.prefix_append _ more)))
        rw [List.length_cons] at inside
        rw [if_neg still, ih later (by omega)]
        rfl

/-- A part of the data has the first occurrence of the whole, or none. -/
theorem endOf_front (some_ : pattern ≠ []) (found : endOf pattern (data ++ more) = some n) :
    endOf pattern data = if n ≤ data.length then some n else none := by
  by_cases inside : n ≤ data.length
  · rw [if_pos inside]
    exact endOf_of_inside some_ found inside
  · rw [if_neg inside]
    cases here : endOf pattern data with
    | none => rfl
    | some m =>
        have same : endOf pattern (data ++ more) = some m := endOf_append here
        rw [found] at same
        cases same
        exact absurd (endOf_bounds here).2 inside

theorem endOf_front_none (missing : endOf pattern (data ++ more) = none) :
    endOf pattern data = none := by
  cases here : endOf pattern data with
  | none => rfl
  | some m =>
      rw [endOf_append here] at missing
      cases missing

theorem exists_of_endOf (found : endOf pattern data = some n) :
    ∃ front rest, data = front ++ (pattern ++ rest) := by
  induction data generalizing n with
  | nil => cases found
  | cons a rest ih =>
      rw [endOf] at found
      split at found
      · rename_i here
        obtain ⟨tail, same⟩ := List.isPrefixOf_iff_prefix.mp here
        exact ⟨[], tail, same.symm⟩
      · obtain ⟨m, later, -⟩ := Option.map_eq_some_iff.mp found
        obtain ⟨front, tail, rfl⟩ := ih later
        exact ⟨a :: front, tail, rfl⟩

theorem endOf_back_none {front : List Item} (missing : endOf pattern (front ++ data) = none) :
    endOf pattern data = none := by
  induction front with
  | nil => exact missing
  | cons a front ih =>
      rw [List.cons_append, endOf] at missing
      split at missing
      · cases missing
      · exact ih (Option.map_eq_none_iff.mp missing)

theorem endOf_free {front : List Item} {first : Item} {tail : List Item} (free : first ∉ front)
    (rest : List Item) :
    endOf (first :: tail) (front ++ rest) =
      (endOf (first :: tail) rest).map (front.length + ·) := by
  induction front with
  | nil => simp
  | cons a front ih =>
      have other : ¬ (first :: tail).isPrefixOf (a :: (front ++ rest)) = true := by
        intro here
        obtain ⟨same, -⟩ := List.cons_prefix_cons.mp (List.isPrefixOf_iff_prefix.mp here)
        exact free (same ▸ List.mem_cons_self)
      rw [List.cons_append, endOf, if_neg other, ih fun member => free (List.mem_cons_of_mem _ member),
        Option.map_map]
      congr 1
      funext m
      simp only [Function.comp_apply, List.length_cons]
      omega

theorem endOf_here {first : Item} {tail rest : List Item} :
    endOf (first :: tail) (first :: tail ++ rest) = some (first :: tail).length := by
  rw [List.cons_append, endOf, if_pos]
  exact List.isPrefixOf_iff_prefix.mpr (List.prefix_append (first :: tail) rest)

end Mirage.Occurrence
