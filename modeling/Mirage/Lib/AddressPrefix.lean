import Mathlib.Data.List.Infix
import Mathlib.Data.Nat.Bitwise

/-!
Address prefixes of a fixed width, as in CIDR notation. A prefix keeps the
address it was written with; the block it denotes runs from the network
address to the broadcast address. Membership by that range is the same as
agreeing with the address on its leading bits, which is what a bit trie tests.
-/

namespace Mirage.AddressPrefix

structure Net (width : Nat) where
  addr : BitVec width
  prefixLen : Nat
  valid : prefixLen ≤ width
  deriving DecidableEq

variable {width : Nat}

namespace Net

def hostBits (net : Net width) : Nat := width - net.prefixLen

def network (net : Net width) : BitVec width :=
  net.addr >>> net.hostBits <<< net.hostBits

def broadcast (net : Net width) : BitVec width :=
  net.network ||| BitVec.ofNat width (2 ^ net.hostBits - 1)

/-- Range test, as address libraries write it. -/
def contains (net : Net width) (ip : BitVec width) : Bool :=
  decide (net.network ≤ ip) && decide (ip ≤ net.broadcast)

end Net

/-- The bits of an address from the most significant one down. -/
def bits (ip : BitVec width) : List Bool := (List.range width).map ip.getMsbD

theorem network_toNat (net : Net width) :
    net.network.toNat = net.addr.toNat / 2 ^ net.hostBits * 2 ^ net.hostBits := by
  have fits : net.addr.toNat / 2 ^ net.hostBits * 2 ^ net.hostBits < 2 ^ width :=
    Nat.lt_of_le_of_lt (Nat.div_mul_le_self _ _) net.addr.isLt
  simp [Net.network, Nat.shiftLeft_eq, Nat.shiftRight_eq_div_pow, Nat.mod_eq_of_lt fits]

theorem broadcast_toNat (net : Net width) :
    net.broadcast.toNat = net.network.toNat + (2 ^ net.hostBits - 1) := by
  have small : 2 ^ net.hostBits - 1 < 2 ^ width :=
    Nat.lt_of_lt_of_le (Nat.sub_lt (Nat.two_pow_pos _) Nat.one_pos)
      (Nat.pow_le_pow_right (by omega) (Nat.sub_le _ _))
  have below : 2 ^ net.hostBits - 1 < 2 ^ net.hostBits :=
    Nat.sub_lt (Nat.two_pow_pos _) Nat.one_pos
  rw [Net.broadcast, BitVec.toNat_or, BitVec.toNat_ofNat, Nat.mod_eq_of_lt small, network_toNat,
    Nat.mul_comm, ← Nat.two_pow_add_eq_or_of_lt below]

theorem contains_iff_div (net : Net width) (ip : BitVec width) :
    net.contains ip = true ↔
      ip.toNat / 2 ^ net.hostBits = net.addr.toNat / 2 ^ net.hostBits := by
  have block := Nat.two_pow_pos net.hostBits
  simp only [Net.contains, Bool.and_eq_true, decide_eq_true_eq, BitVec.le_def,
    broadcast_toNat, network_toNat]
  rw [Nat.div_eq_iff block]
  omega

theorem network_div (net : Net width) :
    net.network.toNat / 2 ^ net.hostBits = net.addr.toNat / 2 ^ net.hostBits := by
  rw [network_toNat, Nat.mul_div_cancel _ (Nat.two_pow_pos _)]

/-- The leading bits the trie walks along for a prefix. -/
def path (net : Net width) : List Bool := (bits net.network).take net.prefixLen

theorem take_bits_prefix {ip other : BitVec width} {count : Nat} (short : count ≤ width) :
    (bits ip).take count <+: bits other ↔
      ∀ i < count, ip.getMsbD i = other.getMsbD i := by
  rw [List.prefix_iff_eq_take]
  simp only [List.length_take, bits, List.length_map, List.length_range, Nat.min_eq_left short]
  constructor
  · intro same i inside
    have at_i := congrArg (·[i]?) same
    have inWidth : i < width := Nat.lt_of_lt_of_le inside short
    simpa [List.getElem?_take, inside, List.getElem?_range inWidth] using at_i
  · intro same
    apply List.ext_getElem?
    intro i
    by_cases inside : i < count
    · have inWidth : i < width := Nat.lt_of_lt_of_le inside short
      simp [inside, List.getElem?_range inWidth, same i inside]
    · rw [List.getElem?_take, List.getElem?_take, if_neg inside, if_neg inside]

theorem leading_bits_iff_div {left right : BitVec width} {count : Nat} (short : count ≤ width) :
    (∀ i < count, left.getMsbD i = right.getMsbD i) ↔
      left.toNat / 2 ^ (width - count) = right.toNat / 2 ^ (width - count) := by
  constructor
  · intro same
    apply Nat.eq_of_testBit_eq
    intro j
    simp only [Nat.testBit_div_two_pow]
    by_cases inside : j + (width - count) < width
    · have at_bit := same (width - 1 - (j + (width - count))) (by omega)
      have first : width - 1 - (j + (width - count)) < width := by omega
      have index : width - 1 - (width - 1 - (j + (width - count))) = j + (width - count) := by omega
      simpa [BitVec.getMsbD, BitVec.getLsbD, first, index] using at_bit
    · have big : 2 ^ width ≤ 2 ^ (j + (width - count)) :=
        Nat.pow_le_pow_right (by omega) (by omega)
      rw [Nat.testBit_eq_false_of_lt (Nat.lt_of_lt_of_le left.isLt big),
        Nat.testBit_eq_false_of_lt (Nat.lt_of_lt_of_le right.isLt big)]
  · intro same i inside
    have at_bit := congrArg (Nat.testBit · (count - 1 - i)) same
    have first : i < width := by omega
    have index : count - 1 - i + (width - count) = width - 1 - i := by omega
    simp only [Nat.testBit_div_two_pow, index] at at_bit
    simpa [BitVec.getMsbD, BitVec.getLsbD, first] using at_bit

theorem path_prefix_iff (net : Net width) (ip : BitVec width) :
    path net <+: bits ip ↔ net.contains ip = true := by
  have shift : width - net.prefixLen = net.hostBits := rfl
  rw [path, take_bits_prefix net.valid, leading_bits_iff_div net.valid, shift, network_div,
    contains_iff_div]
  exact eq_comm

/-- Two blocks overlap when one holds the network address of the other. -/
def overlaps (left right : Net width) : Bool :=
  left.contains right.network || right.contains left.network

theorem div_coarser {a b fine coarse : Nat} (finer : fine ≤ coarse)
    (same : a / 2 ^ fine = b / 2 ^ fine) : a / 2 ^ coarse = b / 2 ^ coarse := by
  obtain ⟨extra, rfl⟩ := Nat.exists_eq_add_of_le finer
  rw [Nat.pow_add, ← Nat.div_div_eq_div_mul, ← Nat.div_div_eq_div_mul, same]

theorem overlaps_of_common {left right : Net width} {ip : BitVec width}
    (inLeft : left.contains ip = true) (inRight : right.contains ip = true) :
    overlaps left right = true := by
  simp only [overlaps, Bool.or_eq_true, contains_iff_div] at *
  rcases Nat.le_total right.hostBits left.hostBits with narrow | narrow
  · have moved := (network_div right).trans inRight.symm
    exact Or.inl ((div_coarser narrow moved).trans inLeft)
  · have moved := (network_div left).trans inLeft.symm
    exact Or.inr ((div_coarser narrow moved).trans inRight)

end Mirage.AddressPrefix
