import Mathlib.Data.List.Basic

/-!
A buffer with checked slices, where what stands in the middle is replaced without
touching the rest, and data cut into pieces of one size. The last piece may be
shorter; parts of that shape are found again by the cut, except those that are empty.
-/

namespace Mirage.Buffer

variable {Item : Type} {size : Nat}

section Slices

/-- `buf[start..stop]`; out of bounds there is none. -/
def slice (buf : List Item) (start stop : Nat) : Option (List Item) :=
  if start ≤ stop ∧ stop ≤ buf.length then some ((buf.take stop).drop start) else none

/-- What is written over the bytes that stand at an offset. -/
def overwrite (buf : List Item) (start : Nat) (data : List Item) : List Item :=
  buf.take start ++ (data ++ buf.drop (start + data.length))

/-- `buf[start..start + data.len()]` replaced. -/
def overwriteSlice (buf : List Item) (start : Nat) (data : List Item) : Option (List Item) :=
  if start + data.length ≤ buf.length then some (overwrite buf start data) else none

theorem slice_middle (front middle back : List Item) :
    slice (front ++ middle ++ back) front.length (front.length + middle.length) =
      some middle := by
  have whole : front.length + middle.length = (front ++ middle).length :=
    List.length_append.symm
  have within : front.length ≤ (front ++ middle).length ∧
      (front ++ middle).length ≤ (front ++ middle ++ back).length := by
    simp only [List.length_append]
    omega
  rw [slice, whole, if_pos within, List.take_left, List.drop_left]

theorem overwrite_at {front old new rest : List Item} {pos : Nat} (reached : front.length = pos)
    (same : new.length = old.length) :
    overwrite (front ++ (old ++ rest)) pos new = front ++ (new ++ rest) := by
  subst pos
  rw [overwrite, List.take_left, same, ← List.drop_drop, List.drop_left, List.drop_left]

theorem overwrite_length {buf data : List Item} {pos : Nat}
    (inside : pos + data.length ≤ buf.length) :
    (overwrite buf pos data).length = buf.length := by
  simp [overwrite]
  omega

theorem overwriteSlice_middle (front back : List Item) {middle data : List Item}
    (same : data.length = middle.length) :
    overwriteSlice (front ++ middle ++ back) front.length data = some (front ++ data ++ back) := by
  have within : front.length + data.length ≤ (front ++ middle ++ back).length := by
    simp only [List.length_append]
    omega
  rw [overwriteSlice, if_pos within, List.append_assoc, overwrite_at rfl same, List.append_assoc]

end Slices

section Pieces

def pieces (size : Nat) (data : List Item) : List (List Item) :=
  if _some : data = [] ∨ size = 0 then [] else data.take size :: pieces size (data.drop size)
termination_by data.length
decreasing_by
  have long : 0 < data.length := List.length_pos_iff.mpr fun nothing => _some (Or.inl nothing)
  have positive : size ≠ 0 := fun zero => _some (Or.inr zero)
  rw [List.length_drop]
  omega

@[simp] theorem pieces_nil : pieces size ([] : List Item) = [] := by
  rw [pieces, dif_pos (Or.inl rfl)]

theorem pieces_cut {data : List Item} (some : data ≠ []) (positive : 0 < size) :
    pieces size data = data.take size :: pieces size (data.drop size) := by
  rw [pieces, dif_neg (not_or.mpr ⟨some, Nat.ne_of_gt positive⟩)]

theorem pieces_append {front : List Item} (full : front.length = size) (positive : 0 < size)
    (rest : List Item) : pieces size (front ++ rest) = front :: pieces size rest := by
  have some : front ++ rest ≠ [] := by
    apply List.append_ne_nil_of_left_ne_nil
    exact List.length_pos_iff.mp (full ▸ positive)
  rw [pieces_cut some positive, List.take_left' full, List.drop_left' full]

theorem pieces_single {data : List Item} (some : data ≠ []) (short : data.length ≤ size) :
    pieces size data = [data] := by
  have positive : 0 < size := Nat.lt_of_lt_of_le (List.length_pos_iff.mpr some) short
  rw [pieces_cut some positive, List.take_of_length_le short, List.drop_of_length_le short,
    pieces_nil]

theorem flatten_pieces (positive : 0 < size) (data : List Item) :
    (pieces size data).flatten = data := by
  induction data using pieces.induct size with
  | case1 data nothing =>
      obtain rfl | zero := nothing
      · rw [pieces_nil]
        rfl
      · omega
  | case2 data some ih =>
      rw [pieces, dif_neg some, List.flatten_cons, ih, List.take_append_drop]

theorem mem_pieces {data piece : List Item} (member : piece ∈ pieces size data) :
    piece ≠ [] ∧ piece.length ≤ size := by
  induction data using pieces.induct size with
  | case1 data nothing =>
      rw [pieces, dif_pos nothing] at member
      cases member
  | case2 data some ih =>
      rw [pieces, dif_neg some] at member
      rcases List.mem_cons.mp member with rfl | later
      · refine ⟨fun empty => ?_, List.length_take_le _ _⟩
        rw [List.take_eq_nil_iff] at empty
        exact some (empty.elim Or.inr Or.inl)
      · exact ih later

/-- Parts of one size, the last of which may be shorter. -/
inductive Regular (size : Nat) : List (List Item) → Prop where
  | nil : Regular size []
  | last {part : List Item} (short : part.length ≤ size) : Regular size [part]
  | cons {part : List Item} {parts : List (List Item)} (full : part.length = size)
      (rest : Regular size parts) : Regular size (part :: parts)

theorem regular_pieces (data : List Item) :
    Regular size (pieces size data) := by
  induction data using pieces.induct size with
  | case1 data nothing =>
      rw [pieces, dif_pos nothing]
      exact .nil
  | case2 data some ih =>
      rw [pieces, dif_neg some]
      rcases Nat.lt_or_ge data.length size with short | long
      · rw [List.drop_of_length_le (Nat.le_of_lt short), pieces_nil]
        exact .last (Nat.le_trans (List.length_take_le' _ _) (Nat.le_of_lt short))
      · exact .cons (List.length_take_of_le long) ih

theorem pieces_flatten {parts : List (List Item)} (regular : Regular size parts) :
    pieces size parts.flatten = parts.filter (fun part => !part.isEmpty) := by
  induction regular with
  | nil => rw [List.flatten_nil, pieces_nil, List.filter_nil]
  | @last part short =>
      rw [List.flatten_singleton]
      cases part with
      | nil => rw [pieces_nil]; rfl
      | cons item rest =>
          rw [pieces_single (List.cons_ne_nil _ _) short]
          rfl
  | @cons part parts full rest ih =>
      rw [List.flatten_cons]
      cases part with
      | nil => exact ih
      | cons item more =>
          have positive : 0 < size := full ▸ Nat.succ_pos _
          rw [pieces_append full positive, ih]
          rfl

theorem flatten_of_regular_zero {parts : List (List Item)} (regular : Regular 0 parts) :
    parts.flatten = [] := by
  induction regular with
  | nil => rfl
  | last short => rw [List.flatten_singleton, List.length_eq_zero_iff.mp (Nat.le_zero.mp short)]
  | cons full rest ih => rw [List.flatten_cons, ih, List.length_eq_zero_iff.mp full]; rfl

theorem Regular.map {short : Nat} {Other : Type} {change : List Item → List Other}
    (full : ∀ part, part.length = size → (change part).length = short)
    (within : ∀ part, part.length ≤ size → (change part).length ≤ short)
    {parts : List (List Item)} (regular : Regular size parts) :
    Regular short (parts.map change) := by
  induction regular with
  | nil => exact .nil
  | last less => exact .last (within _ less)
  | cons whole rest ih => exact .cons (full _ whole) ih

end Pieces

end Mirage.Buffer
