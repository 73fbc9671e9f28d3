import Mathlib.Data.Nat.ModEq
import Mathlib.Tactic.Ring
import Mirage.Lib.Word

/-!
The ones' complement sum of the Internet checksum. A sum is taken over 16-bit
words in network order, an odd last byte being the high half of a word, and its
carries are folded back in. Modulo 65535 a byte counts 256 times itself to the
power of its place, so that bytes may be moved by even distances, and an odd
distance multiplies by 256.
-/

namespace Mirage.Checksum
open Word

section Fold

/-- Carries go around until 16 bits are left. -/
def fold (n : Nat) : Nat :=
  if n < 65536 then n else fold (n % 65536 + n / 65536)
termination_by n

variable {n m : Nat}

theorem fold_of_lt (small : n < 65536) : fold n = n := by
  rw [fold, if_pos small]

theorem fold_modEq (n : Nat) : fold n ≡ n [MOD 65535] := by
  induction n using fold.induct with
  | case1 n small => rw [fold_of_lt small]
  | case2 n large ih =>
      rw [fold, if_neg large]
      have split : n % 65536 + n / 65536 ≡ n [MOD 65535] := by
        unfold Nat.ModEq
        omega
      exact ih.trans split

theorem fold_lt (n : Nat) : fold n < 65536 := by
  induction n using fold.induct with
  | case1 n small => rwa [fold_of_lt small]
  | case2 n large ih =>
      rw [fold, if_neg large]
      exact ih

theorem fold_pos (pos : 0 < n) : 0 < fold n := by
  induction n using fold.induct with
  | case1 n small => rwa [fold_of_lt small]
  | case2 n large ih =>
      rw [fold, if_neg large]
      exact ih (by omega)

/-- The sum of valid data comes out as all ones. -/
theorem fold_eq_ones_iff : fold n = 0xFFFF ↔ 0 < n ∧ n ≡ 0 [MOD 65535] := by
  have same := fold_modEq n
  have small := fold_lt n
  constructor
  · intro ones
    rw [ones] at same
    refine ⟨?_, same.symm.trans (by decide)⟩
    by_contra zero
    rw [Nat.eq_zero_of_not_pos zero, fold_of_lt (by decide)] at ones
    cases ones
  · rintro ⟨pos, zero⟩
    have some_left := fold_pos pos
    have gone : fold n % 65535 = 0 := same.trans zero
    omega

end Fold

section Words

def wordSum : Bytes → Nat
  | [] => 0
  | [high] => high.toNat * 256
  | high :: low :: rest => fromBe16 high low + wordSum rest

/-- Data that carries its checksum, summed up to all ones. -/
def Valid (data : Bytes) : Prop := fold (wordSum data) = 0xFFFF

instance (data : Bytes) : Decidable (Valid data) := inferInstanceAs (Decidable (_ = _))

variable {data before after : Bytes}

theorem valid_iff : Valid data ↔ 0 < wordSum data ∧ wordSum data ≡ 0 [MOD 65535] :=
  fold_eq_ones_iff

theorem wordSum_cons (b : UInt8) (rest : Bytes) :
    wordSum (b :: rest) ≡ 256 * b.toNat + 256 * wordSum rest [MOD 65535] := by
  induction rest using wordSum.induct generalizing b with
  | case1 => simp [wordSum, Nat.mul_comm, Nat.ModEq.refl]
  | case2 low =>
      simp only [wordSum, fromBe16]
      unfold Nat.ModEq
      omega
  | case3 low next rest ih =>
      simp only [wordSum, fromBe16] at ih ⊢
      have step := ih next
      unfold Nat.ModEq at step ⊢
      omega

theorem wordSum_append (before after : Bytes) :
    wordSum (before ++ after) ≡ wordSum before + 256 ^ before.length * wordSum after
      [MOD 65535] := by
  induction before with
  | nil => simp [wordSum, Nat.ModEq.refl]
  | cons b rest ih =>
      calc wordSum (b :: (rest ++ after))
          ≡ 256 * b.toNat + 256 * wordSum (rest ++ after) [MOD 65535] := wordSum_cons b _
        _ ≡ 256 * b.toNat + 256 * (wordSum rest + 256 ^ rest.length * wordSum after)
            [MOD 65535] := (ih.mul_left 256).add_left _
        _ = 256 * b.toNat + 256 * wordSum rest + 256 ^ (rest.length + 1) * wordSum after := by ring
        _ ≡ wordSum (b :: rest) + 256 ^ (rest.length + 1) * wordSum after [MOD 65535] :=
            (wordSum_cons b rest).symm.add_right _

theorem pow_even {n : Nat} (even : n % 2 = 0) : 256 ^ n ≡ 1 [MOD 65535] := by
  obtain ⟨half, rfl⟩ := Nat.dvd_of_mod_eq_zero even
  rw [Nat.pow_mul]
  have square : 256 ^ 2 ≡ 1 [MOD 65535] := by decide
  simpa using square.pow half

theorem pow_odd {n : Nat} (odd : n % 2 = 1) : 256 ^ n ≡ 256 [MOD 65535] := by
  have even : (n - 1) % 2 = 0 := by omega
  rw [← Nat.sub_add_cancel (by omega : 1 ≤ n), Nat.pow_succ]
  simpa using (pow_even even).mul_right 256

theorem wordSum_append_even (even : before.length % 2 = 0) :
    wordSum (before ++ after) = wordSum before + wordSum after := by
  induction before using wordSum.induct with
  | case1 => simp [wordSum]
  | case2 high => simp at even
  | case3 high low rest ih =>
      have fewer : rest.length % 2 = 0 := by
        simp only [List.length_cons] at even
        omega
      rw [List.cons_append, List.cons_append, wordSum, wordSum, ih fewer, Nat.add_assoc]

theorem wordSum_pos {b : UInt8} (member : b ∈ data) (nonzero : b ≠ 0) : 0 < wordSum data := by
  have some_bits : 0 < b.toNat := by
    rcases Nat.eq_zero_or_pos b.toNat with zero | pos
    · exact absurd (UInt8.toNat_inj.mp zero) nonzero
    · exact pos
  induction data using wordSum.induct with
  | case1 => cases member
  | case2 high =>
      rw [wordSum, ← List.mem_singleton.mp member]
      omega
  | case3 high low rest ih =>
      rw [wordSum, fromBe16]
      rcases List.mem_cons.mp member with rfl | member
      · omega
      · rcases List.mem_cons.mp member with rfl | member
        · omega
        · exact Nat.lt_of_lt_of_le (ih member) (Nat.le_add_left _ _)

end Words

section Update

/-- The halves of a 16-bit word change places: a word as a little-endian
machine loads it. -/
def swap (n : Nat) : Nat := n % 256 * 256 + n / 256

/-- The update of RFC 1624 for one word of the data. -/
def replace (sum old new : Nat) : Nat :=
  0xFFFF - fold ((0xFFFF - sum) + (0xFFFF - old) + new)

variable {sum old new n : Nat}

theorem swap_lt (small : n < 65536) : swap n < 65536 := by
  unfold swap
  omega

theorem swap_modEq (n : Nat) : swap n ≡ 256 * n [MOD 65535] := by
  unfold swap Nat.ModEq
  omega

theorem replace_lt : replace sum old new < 65536 := by
  unfold replace
  omega

/-- The new checksum makes up for the change of the word. -/
theorem replace_modEq (sumFits : sum < 65536) (oldFits : old < 65536) :
    replace sum old new + new ≡ sum + old [MOD 65535] := by
  have same := fold_modEq ((0xFFFF - sum) + (0xFFFF - old) + new)
  have small := fold_lt ((0xFFFF - sum) + (0xFFFF - old) + new)
  unfold replace
  unfold Nat.ModEq at same ⊢
  omega

end Update

end Mirage.Checksum
