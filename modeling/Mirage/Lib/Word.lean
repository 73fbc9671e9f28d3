import Mathlib.Algebra.Group.Nat.Defs
import Mathlib.Data.Nat.Basic

/-!
Unsigned machine words as natural numbers, with the arithmetic of the source
written out: what wraps, what saturates, and numbers and text in bytes.
-/

namespace Mirage.Word

abbrev Bytes := List UInt8

def maxU64 : Nat := 2 ^ 64 - 1

def maxU32 : Nat := 2 ^ 32 - 1

def saturatingAdd (a b : Nat) : Nat := min (a + b) maxU64

def saturatingAddU32 (a b : Nat) : Nat := min (a + b) maxU32

def wrappingMul (a b : Nat) : Nat := a * b % 2 ^ 64

/-- `(n as u16).to_be_bytes()`. -/
def be16 (n : Nat) : Bytes := [UInt8.ofNat (n / 256), UInt8.ofNat n]

def fromBe16 (high low : UInt8) : Nat := high.toNat * 256 + low.toNat

/-- `to_be_bytes` of a word of `width` bytes. -/
def toBe : Nat → Nat → Bytes
  | 0, _ => []
  | width + 1, n => toBe width (n / 256) ++ [UInt8.ofNat n]

/-- `from_be_bytes`. -/
def ofBe (bytes : Bytes) : Nat := bytes.foldl (fun n b => n * 256 + b.toNat) 0

/-- `str::as_bytes` and `String::from_utf8`. -/
def utf8 (s : String) : Bytes := s.toUTF8.data.toList

def fromUtf8 (bytes : Bytes) : Option String := String.fromUTF8? ⟨⟨bytes⟩⟩

@[simp] theorem fromUtf8_utf8 (s : String) : fromUtf8 (utf8 s) = some s := by
  have valid : ByteArray.IsValidUTF8 ⟨⟨utf8 s⟩⟩ := s.isValidUTF8
  rw [fromUtf8, String.fromUTF8?, dif_pos valid]
  rfl

@[simp] theorem be16_length (n : Nat) : (be16 n).length = 2 := rfl

theorem fromBe16_be16 {n : Nat} (fits : n < 2 ^ 16) :
    fromBe16 (UInt8.ofNat (n / 256)) (UInt8.ofNat n) = n := by
  simp only [fromBe16, UInt8.toNat_ofNat']
  omega

theorem ofBe_be16 {n : Nat} (fits : n < 2 ^ 16) : ofBe (be16 n) = n := by
  simpa [ofBe, be16, fromBe16] using fromBe16_be16 fits

@[simp] theorem toBe_length (width n : Nat) : (toBe width n).length = width := by
  induction width generalizing n with
  | zero => rfl
  | succ width ih => simp [toBe, ih]

@[simp] theorem ofBe_append_singleton (bytes : Bytes) (b : UInt8) :
    ofBe (bytes ++ [b]) = ofBe bytes * 256 + b.toNat := by
  simp [ofBe]

theorem ofBe_toBe {width n : Nat} (fits : n < 256 ^ width) : ofBe (toBe width n) = n := by
  induction width generalizing n with
  | zero =>
      have : n = 0 := by simpa using fits
      simp [toBe, ofBe, this]
  | succ width ih =>
      have high : n / 256 < 256 ^ width := by
        rw [Nat.pow_succ] at fits
        omega
      rw [toBe, ofBe_append_singleton, ih high, UInt8.toNat_ofNat']
      omega

theorem eq_of_digits {base width a b : Nat} (small : a < base ^ width) (smallToo : b < base ^ width)
    (digits : ∀ i < width, a / base ^ i % base = b / base ^ i % base) : a = b := by
  have lower : ∀ i ≤ width, a % base ^ i = b % base ^ i := by
    intro i
    induction i with
    | zero => simp [Nat.mod_one]
    | succ i ih =>
        intro within
        rw [Nat.mod_pow_succ, Nat.mod_pow_succ, ih (by omega), digits i within]
  have whole := lower width le_rfl
  rwa [Nat.mod_eq_of_lt small, Nat.mod_eq_of_lt smallToo] at whole

end Mirage.Word
