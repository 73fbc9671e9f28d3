import Mirage.Dns.Wire

/-!
Names as a writer puts them on the wire, and what the walkers of a message make
of them: each label behind its length, the root label at the end.
-/

namespace Mirage.Dns
open Word

section Names

def encodeLabel (label : Bytes) : Bytes := UInt8.ofNat label.length :: label

def encodeName (labels : List Bytes) : Bytes := labels.flatMap encodeLabel ++ [0]

def LabelFits (label : Bytes) : Prop := 0 < label.length ∧ label.length ≤ 63

instance (label : Bytes) : Decidable (LabelFits label) := inferInstanceAs (Decidable (_ ∧ _))

@[simp] theorem encodeName_nil : encodeName [] = [0] := rfl

@[simp] theorem encodeName_cons (label : Bytes) (rest : List Bytes) :
    encodeName (label :: rest) = encodeLabel label ++ encodeName rest := by
  simp [encodeName]

@[simp] theorem length_encodeLabel (label : Bytes) :
    (encodeLabel label).length = label.length + 1 := rfl

variable {data label : Bytes} {offset : Nat}

theorem pointer_iff (n : UInt8) : n &&& 0xC0 ≠ 0 ↔ 63 < n := by
  have all : ∀ n : Fin 256, UInt8.ofNat n &&& 0xC0 ≠ 0 ↔ 63 < UInt8.ofNat n := by
    decide +kernel
  have here := all ⟨n.toNat, n.toNat_lt⟩
  rwa [UInt8.ofNat_toNat] at here

theorem length_byte (fits : LabelFits label) :
    (UInt8.ofNat label.length).toNat = label.length ∧ UInt8.ofNat label.length ≠ 0 ∧
      ¬ 63 < UInt8.ofNat label.length := by
  obtain ⟨some_left, short⟩ := fits
  have same : (UInt8.ofNat label.length).toNat = label.length := by
    rw [UInt8.toNat_ofNat']
    omega
  refine ⟨same, ?_, ?_⟩
  · intro zero
    rw [zero] at same
    simp only [UInt8.toNat_zero] at same
    omega
  · rw [UInt8.lt_iff_toNat_lt, same, Nat.not_lt]
    exact short

theorem nameAt_root (stopped : (nameAt data offset).2 = .root) :
    (∃ tail, data.drop offset = encodeName (nameAt data offset).1 ++ tail) ∧
      ∀ label ∈ (nameAt data offset).1, LabelFits label := by
  induction offset using nameAt.induct data with
  | case1 offset bound n zero =>
      have here : nameAt data offset = ([], .root) := by
        rw [nameAt, dif_pos bound]
        exact if_pos zero
      rw [here]
      refine ⟨⟨data.drop (offset + 1), ?_⟩, fun _ missing => absurd missing List.not_mem_nil⟩
      rw [List.drop_eq_getElem_cons bound, show data[offset] = 0 from zero]
      rfl
  | case2 offset bound n nonzero pointer =>
      rw [nameAt, dif_pos bound] at stopped
      simp [nonzero, pointer, n] at stopped
  | case3 offset bound n nonzero pointer short =>
      rw [nameAt, dif_pos bound] at stopped
      simp [nonzero, pointer, short, n] at stopped
  | case4 offset bound n nonzero pointer short rest stop parsed ih =>
      have here : nameAt data offset =
          ((data.drop (offset + 1)).take n.toNat :: rest, stop) := by
        rw [nameAt, dif_pos bound]
        refine (if_neg nonzero).trans ((if_neg pointer).trans ((if_neg short).trans ?_))
        simp only [n] at parsed ⊢
        rw [parsed]
      rw [here] at stopped ⊢
      rw [parsed] at ih
      obtain ⟨⟨tail, written⟩, fits⟩ := ih stopped
      have size : ((data.drop (offset + 1)).take n.toNat).length = n.toNat := by
        rw [List.length_take, List.length_drop]
        omega
      have some_left : 0 < n.toNat :=
        Nat.pos_of_ne_zero fun zero => nonzero (UInt8.toNat_inj.mp zero)
      have small : n.toNat ≤ 63 := by
        have low := mt (pointer_iff n).mpr pointer
        rwa [UInt8.lt_iff_toNat_lt, Nat.not_lt] at low
      refine ⟨⟨tail, ?_⟩, List.forall_mem_cons.mpr ⟨?_, fits⟩⟩
      · have label := List.take_append_drop n.toNat (data.drop (offset + 1))
        rw [List.drop_drop, written] at label
        rw [encodeName_cons, encodeLabel, size, UInt8.ofNat_toNat, List.append_assoc,
          List.cons_append, label, List.drop_eq_getElem_cons bound]
      · rw [LabelFits, size]
        exact ⟨some_left, small⟩
  | case5 offset bound =>
      rw [nameAt, dif_neg bound] at stopped
      cases stopped

theorem nameAt_encodeName {labels : List Bytes} {tail : Bytes}
    (written : data.drop offset = encodeName labels ++ tail)
    (fits : ∀ label ∈ labels, LabelFits label) : nameAt data offset = (labels, .root) := by
  have bound : offset < data.length := by
    by_contra outside
    rw [List.drop_eq_nil_of_le (Nat.not_lt.mp outside)] at written
    simp [encodeName] at written
  induction labels generalizing offset with
  | nil =>
      rw [List.drop_eq_getElem_cons bound] at written
      have zero : data[offset] = 0 := (List.cons.inj written).1
      rw [nameAt, dif_pos bound]
      exact if_pos zero
  | cons label rest ih =>
      rw [List.forall_mem_cons] at fits
      obtain ⟨length, nonzero, small⟩ := length_byte fits.1
      rw [encodeName_cons, encodeLabel, List.append_assoc, List.cons_append,
        List.drop_eq_getElem_cons bound] at written
      obtain ⟨first, behind⟩ := List.cons.inj written
      have label_here : (data.drop (offset + 1)).take label.length = label := by
        rw [behind, List.take_left]
      have further : data.drop (offset + 1 + label.length) = encodeName rest ++ tail := by
        rw [← List.drop_drop, behind, List.drop_left]
      have room : offset + 1 + label.length < data.length := by
        by_contra outside
        rw [List.drop_eq_nil_of_le (Nat.not_lt.mp outside)] at further
        simp [encodeName] at further
      have pointer : ¬ UInt8.ofNat label.length &&& 0xC0 ≠ 0 := fun set => small ((pointer_iff _).mp set)
      rw [nameAt, dif_pos bound]
      simp only [first, length, if_neg nonzero, if_neg pointer, if_neg (Nat.lt_asymm room),
        ih further fits.2 room, label_here]

theorem nameEnd_root (stopped : (nameAt data offset).2 = .root) :
    nameEnd data offset = offset + (encodeName (nameAt data offset).1).length := by
  induction offset using nameAt.induct data with
  | case1 offset bound n zero =>
      rw [nameEnd, nameAt, dif_pos bound, dif_pos bound]
      simp [show data[offset] = 0 from zero]
  | case2 offset bound n nonzero pointer =>
      rw [nameAt, dif_pos bound] at stopped
      simp [nonzero, pointer, n] at stopped
  | case3 offset bound n nonzero pointer short =>
      rw [nameAt, dif_pos bound] at stopped
      simp [nonzero, pointer, short, n] at stopped
  | case4 offset bound n nonzero pointer short rest stop parsed ih =>
      have here : nameAt data offset =
          ((data.drop (offset + 1)).take n.toNat :: rest, stop) := by
        rw [nameAt, dif_pos bound]
        refine (if_neg nonzero).trans ((if_neg pointer).trans ((if_neg short).trans ?_))
        simp only [n] at parsed ⊢
        rw [parsed]
      rw [here] at stopped ⊢
      rw [parsed] at ih
      have size : ((data.drop (offset + 1)).take n.toNat).length = n.toNat := by
        rw [List.length_take, List.length_drop]
        omega
      have further : nameEnd data offset = nameEnd data (offset + 1 + n.toNat) := by
        rw [nameEnd, dif_pos bound]
        exact (if_neg nonzero).trans (if_neg pointer)
      rw [further, ih stopped, encodeName_cons, List.length_append, length_encodeLabel, size]
      change offset + 1 + n.toNat + (encodeName rest).length = _
      omega
  | case5 offset bound =>
      rw [nameAt, dif_neg bound] at stopped
      cases stopped

end Names

end Mirage.Dns
