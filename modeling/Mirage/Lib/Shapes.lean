import Mirage.Lib.Vectors

/-!
Shapes of bytes: what a format allows where, with every length inside counting
exactly what stands behind it.
-/

namespace Mirage.Shapes
open Word Vectors

inductive Shape where
  | any
  | fixed (size : Nat)
  | both (first second : Shape)
  | vector (width : Nat) (inner : Shape)
  | many (one : Shape)
  deriving DecidableEq

namespace Shape

def Holds : Shape → Bytes → Prop
  | any, _ => True
  | fixed size, data => data.length = size
  | both first second, data => ∃ x y, data = x ++ y ∧ first.Holds x ∧ second.Holds y
  | vector width inner, data =>
      ∃ body, data = Vectors.vector width body ∧ body.length < 256 ^ width ∧ inner.Holds body
  | many one, data => ∃ parts : List Bytes, data = parts.flatten ∧ ∀ part ∈ parts, one.Holds part

variable {data : Bytes} {first second inner one : Shape} {width : Nat}

theorem holds_both {x y : Bytes} (left : first.Holds x) (right : second.Holds y) :
    (both first second).Holds (x ++ y) := ⟨x, y, rfl, left, right⟩

theorem holds_vector (fits : data.length < 256 ^ width) (body : inner.Holds data) :
    (vector width inner).Holds (Vectors.vector width data) := ⟨data, rfl, fits, body⟩

theorem holds_nil : (many one).Holds [] := ⟨[], rfl, fun _ missing => (nomatch missing)⟩

theorem holds_cons {x : Bytes} (head : one.Holds x) (tail : (many one).Holds data) :
    (many one).Holds (x ++ data) := by
  obtain ⟨parts, rfl, all⟩ := tail
  exact ⟨x :: parts, rfl, List.forall_mem_cons.mpr ⟨head, all⟩⟩

theorem holds_one (head : one.Holds data) : (many one).Holds data :=
  ⟨[data], by simp, List.forall_mem_singleton.mpr head⟩

theorem holds_fixed {size count : Nat} (positive : data.length = count * size) :
    (many (fixed size)).Holds data := by
  induction count generalizing data with
  | zero =>
      rw [Nat.zero_mul] at positive
      rw [List.length_eq_zero_iff.mp positive]
      exact holds_nil
  | succ count ih =>
      obtain ⟨front, rest, rfl, whole⟩ := @exists_cut data size (by rw [positive, Nat.succ_mul]; omega)
      rw [List.length_append, Nat.succ_mul] at positive
      exact holds_cons whole (ih (by omega))

end Shape

end Mirage.Shapes
