import Mathlib.Data.List.Rotate

/-!
A cursor that goes round a list. It is counted in a word of its own, so it starts
again at its bound.
-/

namespace Mirage.Turns

variable {α : Type} {items : List α} {bound count cursor : Nat}

def turns (items : List α) (bound : Nat) : Nat → Nat → List α
  | 0, _ => []
  | count + 1, cursor =>
      (items[cursor % items.length]?).toList ++ turns items bound count ((cursor + 1) % bound)

theorem length_turns (some_ : items ≠ []) (bound count cursor : Nat) :
    (turns items bound count cursor).length = count := by
  induction count generalizing cursor with
  | zero => rfl
  | succ count ih =>
      have here : cursor % items.length < items.length :=
        Nat.mod_lt _ (List.length_pos_iff.mpr some_)
      rw [turns, List.length_append, ih, List.getElem?_eq_getElem here, Option.toList_some,
        List.length_singleton, Nat.add_comm]

/-- Where the cursor stays in its word, or the word is a number of whole rounds, the
turns go on from item to item. -/
theorem turns_eq (fits : cursor + count ≤ bound ∨ items.length ∣ bound) :
    turns items bound count cursor =
      (List.range count).flatMap fun turn =>
        (items[(cursor + turn) % items.length]?).toList := by
  induction count generalizing cursor with
  | zero => rfl
  | succ count ih =>
      rw [turns, List.range_succ_eq_map, List.flatMap_cons, Nat.add_zero, List.flatMap_map]
      congr 1
      obtain within | whole := fits
      · obtain last | more := Nat.eq_zero_or_pos count
        · rw [last]
          rfl
        · rw [Nat.mod_eq_of_lt (by omega), ih (.inl (by omega))]
          refine List.flatMap_congr fun turn _ => ?_
          rw [Nat.succ_eq_add_one, Nat.add_right_comm, Nat.add_assoc]
      · rw [ih (.inr whole)]
        refine List.flatMap_congr fun turn _ => ?_
        rw [Nat.add_mod, Nat.mod_mod_of_dvd _ whole, ← Nat.add_mod, Nat.succ_eq_add_one,
          Nat.add_right_comm, Nat.add_assoc]

theorem flatMap_range (items : List α) :
    (List.range items.length).flatMap (fun place => (items[place]?).toList) = items := by
  induction items with
  | nil => rfl
  | cons item rest ih =>
      rw [List.length_cons, List.range_succ_eq_map, List.flatMap_cons, List.flatMap_map]
      exact congrArg (item :: ·) ih

theorem turns_perm (fits : cursor + items.length ≤ bound ∨ items.length ∣ bound) :
    (turns items bound items.length cursor).Perm items := by
  have round : turns items bound items.length cursor = items.rotate cursor := by
    rw [turns_eq fits, ← flatMap_range (items.rotate cursor), List.length_rotate]
    refine List.flatMap_congr fun turn here => ?_
    rw [List.getElem?_rotate (List.mem_range.mp here), Nat.add_comm]
  rw [round]
  exact List.rotate_perm items cursor

end Mirage.Turns
