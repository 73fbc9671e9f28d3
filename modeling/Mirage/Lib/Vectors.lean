import Mathlib.Data.List.GetD
import Mathlib.Data.List.Induction
import Mirage.Lib.Word

/-!
Vectors behind their length, as wire formats nest them, and typed items made of
them. What a writer puts down is read back by offset or from the front.
-/

namespace Mirage.Vectors
open Word

section Numbers

theorem ofBe_lt (bytes : Bytes) : ofBe bytes < 256 ^ bytes.length := by
  induction bytes using List.reverseRecOn with
  | nil => simp [ofBe]
  | append_singleton front last ih =>
      have small := last.toNat_lt
      rw [ofBe_append_singleton, List.length_append, List.length_singleton, pow_succ]
      omega

theorem toBe_ofBe (bytes : Bytes) : toBe bytes.length (ofBe bytes) = bytes := by
  induction bytes using List.reverseRecOn with
  | nil => rfl
  | append_singleton front last ih =>
      have small := last.toNat_lt
      rw [ofBe_append_singleton, List.length_append, List.length_singleton, toBe]
      have high : (ofBe front * 256 + last.toNat) / 256 = ofBe front := by omega
      have low : UInt8.ofNat (ofBe front * 256 + last.toNat) = last := by
        apply UInt8.toNat_inj.mp
        rw [UInt8.toNat_ofNat']
        omega
      rw [high, low, ih]

theorem toBe_mod (width n : Nat) : toBe width (n % 256 ^ width) = toBe width n := by
  induction width generalizing n with
  | zero => rfl
  | succ width ih =>
      have high : n % 256 ^ (width + 1) / 256 = n / 256 % 256 ^ width := by
        rw [pow_succ, Nat.mul_comm, Nat.mod_mul_right_div_self]
      have low : UInt8.ofNat (n % 256 ^ (width + 1)) = UInt8.ofNat n := by
        apply UInt8.toNat_inj.mp
        rw [UInt8.toNat_ofNat', UInt8.toNat_ofNat', pow_succ, Nat.mul_comm]
        exact Nat.mod_mul_right_mod n 256 (256 ^ width)
      rw [toBe, toBe, high, low, ih]

end Numbers

section Pieces

variable {data front rest : Bytes} {pos : Nat}

theorem exists_cut {size : Nat} (within : size ≤ data.length) :
    ∃ front rest, data = front ++ rest ∧ front.length = size :=
  ⟨data.take size, data.drop size, (List.take_append_drop _ _).symm, by
    rw [List.length_take, Nat.min_eq_left within]⟩

def byteAt (data : Bytes) (pos : Nat) : UInt8 := data.getD pos 0

/-- The number of `width` bytes at an offset. -/
def beAt (width : Nat) (data : Bytes) (pos : Nat) : Nat := ofBe ((data.drop pos).take width)

theorem byteAt_skip (reached : front.length ≤ pos) :
    byteAt (front ++ data) pos = byteAt data (pos - front.length) := by
  rw [byteAt, byteAt, List.getD_append_right _ _ _ _ reached]

theorem beAt_skip {width : Nat} (reached : front.length ≤ pos) :
    beAt width (front ++ data) pos = beAt width data (pos - front.length) := by
  obtain ⟨more, rfl⟩ := Nat.exists_eq_add_of_le reached
  rw [beAt, beAt, Nat.add_sub_cancel_left, ← List.drop_drop, List.drop_left]

theorem beAt_here {number : Bytes} : beAt number.length (number ++ rest) 0 = ofBe number := by
  rw [beAt, List.drop_zero, List.take_left]

theorem beAt_lt (width : Nat) (data : Bytes) (pos : Nat) : beAt width data pos < 256 ^ width :=
  Nat.lt_of_lt_of_le (ofBe_lt _) (Nat.pow_le_pow_right (by decide) (List.length_take_le _ _))

theorem beAt_toBe {width n : Nat} (fits : n < 256 ^ width) :
    beAt width (toBe width n ++ rest) 0 = n := by
  have here := @beAt_here rest (toBe width n)
  rwa [toBe_length, ofBe_toBe fits] at here

theorem beAt_window {width stop start : Nat} (after : start ≤ pos) (before : pos + width ≤ stop) :
    beAt width ((data.take stop).drop start) (pos - start) = beAt width data pos := by
  obtain ⟨more, rfl⟩ := Nat.exists_eq_add_of_le after
  rw [beAt, beAt, Nat.add_sub_cancel_left, List.drop_drop, List.drop_take, List.take_take,
    Nat.min_eq_left (by omega)]

theorem beAt_front {width : Nat} (inside : pos + width ≤ data.length) :
    beAt width (data ++ rest) pos = beAt width data pos := by
  rw [beAt, beAt, List.drop_append_of_le_length (by omega),
    List.take_append_of_le_length (by rw [List.length_drop]; omega)]

theorem beAt_one (data : Bytes) (pos : Nat) : beAt 1 data pos = (byteAt data pos).toNat := by
  rw [beAt, byteAt, List.getD_eq_getElem?_getD, ← List.head?_drop]
  cases data.drop pos <;> simp [ofBe]

theorem window_here {body : Bytes} :
    ((front ++ (body ++ rest)).take (front.length + body.length)).drop front.length = body := by
  rw [List.drop_take, Nat.add_sub_cancel_left, List.drop_left, List.take_left]

theorem read_number {width n : Nat} (split : data = front ++ (toBe width n ++ rest))
    (size : front.length = pos) (fits : n < 256 ^ width) : beAt width data pos = n := by
  rw [split, beAt_skip (Nat.le_of_eq size), size, Nat.sub_self, beAt_toBe fits]

theorem read_byte {b : UInt8} (split : data = front ++ (b :: rest)) (size : front.length = pos) :
    byteAt data pos = b := by
  rw [split, byteAt_skip (Nat.le_of_eq size), size, Nat.sub_self]
  rfl

theorem exists_number {width : Nat} (within : width ≤ data.length) :
    ∃ rest, data = toBe width (beAt width data 0) ++ rest := by
  obtain ⟨number, rest, rfl, size⟩ := exists_cut within
  have here := @beAt_here rest number
  have back := toBe_ofBe number
  rw [size] at here back
  exact ⟨rest, by rw [here, back]⟩

theorem exists_byte (within : pos < data.length) :
    ∃ front rest, data = front ++ (byteAt data pos :: rest) ∧ front.length = pos := by
  refine ⟨data.take pos, data.drop (pos + 1), ?_, by rw [List.length_take]; omega⟩
  rw [byteAt, List.getD_eq_getElem _ _ within, ← List.drop_eq_getElem_cons within,
    List.take_append_drop]

theorem byteAt_front (within : pos < data.length) :
    byteAt (data ++ rest) pos = byteAt data pos := by
  rw [byteAt, byteAt, List.getD_append _ _ _ _ within]

end Pieces

section Vectors

variable {width : Nat} {body rest : Bytes}

def vector (width : Nat) (body : Bytes) : Bytes := toBe width body.length ++ body

@[simp] theorem vector_length (width : Nat) (body : Bytes) :
    (vector width body).length = width + body.length := by
  simp [vector]

def takeVector (width : Nat) (data : Bytes) : Option (Bytes × Bytes) :=
  let size := beAt width data 0
  if data.length < width + size then none
  else some ((data.drop width).take size, data.drop (width + size))

theorem takeVector_eq {data : Bytes} (taken : takeVector width data = some (body, rest)) :
    data = vector width body ++ rest := by
  simp only [takeVector] at taken
  split at taken
  · cases taken
  rename_i enough
  simp only [Option.some.injEq, Prod.mk.injEq] at taken
  obtain ⟨rfl, rfl⟩ := taken
  obtain ⟨number, more, rfl, rfl⟩ := @exists_cut data width (by omega)
  rw [beAt_here] at enough ⊢
  rw [List.drop_left, ← List.drop_drop, List.drop_left]
  have length : (more.take (ofBe number)).length = ofBe number := by
    rw [List.length_take]
    simp at enough
    omega
  rw [vector, length, toBe_ofBe, List.append_assoc, List.take_append_drop]

theorem exists_vector {data : Bytes} (whole : width + beAt width data 0 ≤ data.length) :
    ∃ body rest, data = vector width body ++ rest ∧ body.length = beAt width data 0 := by
  have taken : takeVector width data =
      some ((data.drop width).take (beAt width data 0), data.drop (width + beAt width data 0)) := by
    rw [takeVector]
    exact if_neg (by omega)
  refine ⟨_, _, takeVector_eq taken, ?_⟩
  rw [List.length_take, List.length_drop]
  omega

end Vectors

section Items

/-- A type of two bytes and its data. -/
def item (type : Nat) (data : Bytes) : Bytes := toBe 2 type ++ vector 2 data

@[simp] theorem item_length (type : Nat) (data : Bytes) :
    (item type data).length = 4 + data.length := by
  simp [item]
  omega

variable {front data rest : Bytes} {type : Nat}

theorem beAt_item_type (fits : type < 256 ^ 2) :
    beAt 2 (front ++ (item type data ++ rest)) front.length = type := by
  rw [beAt_skip (Nat.le_refl _), Nat.sub_self, item, List.append_assoc, beAt_toBe fits]

theorem beAt_item_length (fits : data.length < 256 ^ 2) :
    beAt 2 (front ++ (item type data ++ rest)) (front.length + 2) = data.length := by
  have size : 2 = (toBe 2 type).length := (toBe_length 2 type).symm
  rw [beAt_skip (Nat.le_add_right _ _), Nat.add_sub_cancel_left, item, List.append_assoc,
    beAt_skip (Nat.le_of_eq size.symm), ← size, Nat.sub_self, vector, List.append_assoc,
    beAt_toBe fits]

/-- Where an item's data stands. -/
theorem item_split : front ++ (item type data ++ rest) =
    (front ++ (toBe 2 type ++ toBe 2 data.length)) ++ (data ++ rest) := by
  simp [item, vector]

theorem beAt_item_data {width more : Nat} (inside : more + width ≤ data.length) :
    beAt width (item type data ++ rest) (4 + more) = beAt width data more := by
  have split := @item_split [] data rest type
  have size : (toBe 2 type ++ toBe 2 data.length).length = 4 := by simp
  rw [List.nil_append, List.nil_append] at split
  rw [split, beAt_skip (by omega), size, Nat.add_sub_cancel_left, beAt_front inside]

theorem exists_item {bytes : Bytes} (header : 4 ≤ bytes.length)
    (whole : 4 + beAt 2 bytes 2 ≤ bytes.length) :
    ∃ (data rest : Bytes), bytes = item (beAt 2 bytes 0) data ++ rest ∧
      data.length = beAt 2 bytes 2 ∧ beAt 2 bytes 0 < 256 ^ 2 := by
  obtain ⟨kind, more, rfl, two⟩ := @exists_cut bytes 2 (by omega)
  obtain ⟨number, more, rfl, width⟩ := @exists_cut more 2 (by simp [two] at header; omega)
  have type : beAt 2 (kind ++ (number ++ more)) 0 = ofBe kind := by
    have here := @beAt_here (number ++ more) kind
    rwa [two] at here
  have length : beAt 2 (kind ++ (number ++ more)) 2 = ofBe number := by
    have here := @beAt_here more number
    rw [width] at here
    rw [beAt_skip (Nat.le_of_eq two), two]
    exact here
  rw [length] at whole
  obtain ⟨data, rest, rfl, size⟩ := @exists_cut more (ofBe number)
    (by simp [two, width] at whole; omega)
  have small := ofBe_lt kind
  rw [type, length]
  refine ⟨data, rest, ?_, size, by rwa [two] at small⟩
  have first := toBe_ofBe kind
  have second := toBe_ofBe number
  rw [two] at first
  rw [width] at second
  simp [item, vector, size, first, second]

end Items

end Mirage.Vectors
