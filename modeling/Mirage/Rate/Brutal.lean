import Mathlib.Algebra.Order.Field.Rat
import Mathlib.Tactic.NormNum
import Mirage.Lib.Rounding

/-!
The rate that `decide_brutal_rate` of proxy/brutal.rs sets after each sampling
window, over exact rationals. Rates are in bytes a second; the differences that
the code takes in `i64` are taken in the integers.
-/

namespace Mirage.Rate.Brutal
open Rounding

def u64Cap : Nat := 18446744073709551615
def u32Cap : Nat := 4294967295
def mssBytes : ℚ := 1440

structure Window where
  rttMs : Nat
  baseRttMs : Nat
  cwndPkts : Nat
  deltaRetrans : Int
  deltaSegs : Int

namespace Window

def lossRate (self : Window) : ℚ :=
  if self.deltaSegs > 0 then self.deltaRetrans / self.deltaSegs else 0

/-- Above one and a half times the base round trip, or more than one segment in
a hundred sent again. -/
def congested (self : Window) : Bool :=
  decide (self.rttMs > truncate u32Cap (self.baseRttMs * (3 / 2))) ||
    decide (self.lossRate > 1 / 100)

def estimatedBdp (self : Window) : Nat :=
  truncate u64Cap (self.cwndPkts * mssBytes / (self.rttMs / 1000))

end Window

def decideBrutalRate (window : Window) (baseRate currentRate : Nat) : Option Nat :=
  if window.rttMs = 0 then none
  else
    let dynamicRate :=
      if window.congested then max window.estimatedBdp (baseRate / 10)
      else truncate u64Cap (currentRate * (11 / 10))
    let dynamicRate := min dynamicRate baseRate
    if ((dynamicRate : Int) - currentRate).natAbs > currentRate / 20 then some dynamicRate
    else none

def nextRate (baseRate currentRate : Nat) (window : Window) : Nat :=
  (decideBrutalRate window baseRate currentRate).getD currentRate

def rateAfter (baseRate currentRate : Nat) (windows : List Window) : Nat :=
  windows.foldl (nextRate baseRate) currentRate

def Window.Healthy (self : Window) : Prop := self.rttMs ≠ 0 ∧ self.congested = false

def Window.Congested (self : Window) : Prop := self.rttMs ≠ 0 ∧ self.congested = true

/-- The bandwidth-delay value of a window within the range of the rate. -/
def Window.target (self : Window) (baseRate : Nat) : Nat :=
  min (max self.estimatedBdp (baseRate / 10)) baseRate

section Steps
variable {base rate : Nat} {window : Window}

theorem settle_eq (goal rate : Nat) :
    (if ((goal : Int) - rate).natAbs > rate / 20 then some goal else none).getD rate =
      if ((goal : Int) - rate).natAbs > rate / 20 then goal else rate := by
  split <;> rfl

theorem nextRate_congested (congested : window.Congested) :
    nextRate base rate window =
      if ((window.target base : Int) - rate).natAbs > rate / 20 then window.target base
      else rate := by
  rw [nextRate, decideBrutalRate, if_neg congested.1]
  simp only [congested.2, if_true]
  exact settle_eq _ _

theorem grown_eq (rate : Nat) :
    truncate u64Cap ((rate : ℚ) * (11 / 10)) = min (rate + rate / 10) u64Cap := by
  have scaled : (rate : ℚ) * (11 / 10) = ((11 * rate : Nat) : ℚ) / (10 : Nat) := by
    push_cast
    ring
  rw [scaled, truncate_div]
  congr 1
  omega

theorem nextRate_healthy (healthy : window.Healthy) (typed : base ≤ u64Cap) :
    nextRate base rate window =
      if ((min (rate + rate / 10) base : Nat) - (rate : Int)).natAbs > rate / 20 then
        min (rate + rate / 10) base
      else rate := by
  rw [nextRate, decideBrutalRate, if_neg healthy.1]
  have cut : min (min (rate + rate / 10) u64Cap) base = min (rate + rate / 10) base := by
    omega
  simp only [healthy.2, Bool.false_eq_true, if_false, grown_eq, cut]
  exact settle_eq _ _

theorem nextRate_bounds (typed : base ≤ u64Cap) (least : base / 10 ≤ rate) (most : rate ≤ base)
    (window : Window) :
    base / 10 ≤ nextRate base rate window ∧ nextRate base rate window ≤ base := by
  by_cases sampled : window.rttMs = 0
  · rw [nextRate, decideBrutalRate, if_pos sampled]
    exact ⟨least, most⟩
  · cases crowded : window.congested with
    | true =>
        have target : base / 10 ≤ window.target base ∧ window.target base ≤ base := by
          unfold Window.target
          omega
        rw [nextRate_congested ⟨sampled, crowded⟩]
        split
        · exact target
        · exact ⟨least, most⟩
    | false =>
        rw [nextRate_healthy ⟨sampled, crowded⟩ typed]
        split
        · omega
        · exact ⟨least, most⟩

/-- A healthy window lets the rate grow by a tenth unless it is near its end. -/
theorem healthy_grows (healthy : window.Healthy) (typed : base ≤ u64Cap) (enough : 10 ≤ rate)
    (most : rate ≤ base) :
    rate ≤ nextRate base rate window ∧
      (19 * base ≤ 20 * nextRate base rate window ∨
        rate + rate / 10 ≤ nextRate base rate window) := by
  rw [nextRate_healthy healthy typed]
  split
  · omega
  · omega

end Steps

section Runs
variable {base rate : Nat} {windows : List Window}

theorem rateAfter_bounds (typed : base ≤ u64Cap) (least : base / 10 ≤ rate) (most : rate ≤ base)
    (windows : List Window) :
    base / 10 ≤ rateAfter base rate windows ∧ rateAfter base rate windows ≤ base := by
  induction windows generalizing rate with
  | nil => exact ⟨least, most⟩
  | cons window rest ih =>
      obtain ⟨above, below⟩ := nextRate_bounds typed least most window
      exact ih above below

/-- Over healthy windows the rate does not fall; it grows by one at least and
the part above nine by a tenth, until it is near its end. -/
theorem rateAfter_healthy (typed : base ≤ u64Cap) (enough : 10 ≤ rate) (most : rate ≤ base)
    (healthy : ∀ window ∈ windows, window.Healthy) :
    rate ≤ rateAfter base rate windows ∧
      (19 * base ≤ 20 * rateAfter base rate windows ∨
        rate + windows.length ≤ rateAfter base rate windows ∧
          11 ^ windows.length * (rate - 9) ≤
            10 ^ windows.length * (rateAfter base rate windows - 9)) := by
  induction windows generalizing rate with
  | nil => exact ⟨le_rfl, .inr ⟨le_rfl, le_rfl⟩⟩
  | cons window rest ih =>
      obtain ⟨first, others⟩ := List.forall_mem_cons.mp healthy
      obtain ⟨up, end_⟩ := healthy_grows first typed enough most
      have below : nextRate base rate window ≤ base := by
        rw [nextRate_healthy first typed]
        split <;> omega
      obtain ⟨onward, later⟩ := ih (enough.trans up) below others
      change rate ≤ rateAfter base (nextRate base rate window) rest ∧
        (19 * base ≤ 20 * rateAfter base (nextRate base rate window) rest ∨
          rate + (rest.length + 1) ≤ rateAfter base (nextRate base rate window) rest ∧
            11 ^ (rest.length + 1) * (rate - 9) ≤
              10 ^ (rest.length + 1) * (rateAfter base (nextRate base rate window) rest - 9))
      generalize rateAfter base (nextRate base rate window) rest = final at onward later ⊢
      generalize nextRate base rate window = next at *
      refine ⟨up.trans onward, ?_⟩
      obtain near | grown := end_
      · exact .inl (near.trans (Nat.mul_le_mul_left 20 onward))
      · obtain near | ⟨longer, higher⟩ := later
        · exact .inl near
        · refine .inr ⟨by omega, ?_⟩
          have tenth : 11 * (rate - 9) ≤ 10 * (next - 9) := by omega
          calc 11 ^ (rest.length + 1) * (rate - 9)
              = 11 ^ rest.length * (11 * (rate - 9)) := by ring
            _ ≤ 11 ^ rest.length * (10 * (next - 9)) := Nat.mul_le_mul_left _ tenth
            _ = 10 * (11 ^ rest.length * (next - 9)) := by ring
            _ ≤ 10 * (10 ^ rest.length * (final - 9)) := Nat.mul_le_mul_left _ higher
            _ = 10 ^ (rest.length + 1) * (final - 9) := by ring

theorem rateAfter_append (base rate : Nat) (first second : List Window) :
    rateAfter base rate (first ++ second) = rateAfter base (rateAfter base rate first) second :=
  List.foldl_append

/-- Thirty windows make the part above nine at least 17.4 times as large. -/
theorem scaled_growth {count first final : Nat} (thirty : 30 ≤ count)
    (grown : 11 ^ count * first ≤ 10 ^ count * final) : 174 * first ≤ 10 * final := by
  obtain ⟨more, rfl⟩ := Nat.exists_eq_add_of_le thirty
  have powers : 174 * 10 ^ (30 + more) ≤ 10 * 11 ^ (30 + more) := by
    rw [Nat.pow_add, Nat.pow_add, ← Nat.mul_assoc, ← Nat.mul_assoc]
    exact Nat.mul_le_mul (by norm_num) (Nat.pow_le_pow_left (by norm_num) more)
  apply Nat.le_of_mul_le_mul_left _ (Nat.pow_pos (n := 30 + more) (by norm_num : 0 < 10))
  calc 10 ^ (30 + more) * (174 * first) = 174 * 10 ^ (30 + more) * first := by ring
    _ ≤ 10 * 11 ^ (30 + more) * first := Nat.mul_le_mul_right _ powers
    _ = 10 * (11 ^ (30 + more) * first) := by ring
    _ ≤ 10 * (10 ^ (30 + more) * final) := Nat.mul_le_mul_left _ grown
    _ = 10 ^ (30 + more) * (10 * final) := by ring

/-- Ten windows bring the rate to twenty or near its end, thirty more to there
from any rate of twenty. -/
theorem recovered (typed : base ≤ u64Cap) (large : 100 ≤ base) (least : base / 10 ≤ rate)
    (most : rate ≤ base) (many : 40 ≤ windows.length)
    (healthy : ∀ window ∈ windows, window.Healthy) :
    19 * base ≤ 20 * rateAfter base rate windows := by
  have enough : 10 ≤ rate := by omega
  have split : windows = windows.take 10 ++ windows.drop 10 := (List.take_append_drop _ _).symm
  rw [split, rateAfter_append]
  obtain ⟨up, early⟩ := rateAfter_healthy typed enough most
    fun window member => healthy window (List.mem_of_mem_take member)
  have bounds := rateAfter_bounds typed least most (windows.take 10)
  have ten : (windows.take 10).length = 10 := by
    rw [List.length_take]
    omega
  rw [ten] at early
  generalize rateAfter base rate (windows.take 10) = middle at *
  obtain ⟨onward, late⟩ := rateAfter_healthy typed (enough.trans up) bounds.2
    fun window member => healthy window (List.mem_of_mem_drop member)
  have thirty : 30 ≤ (windows.drop 10).length := by
    rw [List.length_drop]
    omega
  obtain near | ⟨twenty, _⟩ := early
  · exact near.trans (Nat.mul_le_mul_left 20 onward)
  · obtain near | ⟨_, grown⟩ := late
    · exact near
    · have higher := scaled_growth thirty grown
      omega

theorem rateAfter_congested {window : Window} (congested : window.Congested) (base rate : Nat)
    (count : Nat) :
    rateAfter base rate (List.replicate (count + 1) window) = nextRate base rate window := by
  have still : nextRate base (nextRate base rate window) window = nextRate base rate window := by
    rw [nextRate_congested congested, nextRate_congested congested]
    split
    · split <;> rfl
    · rfl
  induction count generalizing rate with
  | zero => rfl
  | succ count ih =>
      rw [List.replicate_succ]
      change rateAfter base (nextRate base rate window) (List.replicate (count + 1) window) = _
      rw [ih (nextRate base rate window) (by rw [still, still]), still]

end Runs

/-- The rate stays in its range over any windows; forty healthy ones bring it to
95 % of `base` and it stays there over more of them; and windows that all show
the same congestion change it only in the first, to the measured value, unless
the two are within a twentieth of the rate. -/
theorem rate_trajectory (base : UInt64) (large : 100 ≤ base.toNat) :
    (∀ windows, base.toNat / 10 ≤ rateAfter base.toNat base.toNat windows ∧
      rateAfter base.toNat base.toNat windows ≤ base.toNat) ∧
    (∀ rate, base.toNat / 10 ≤ rate → rate ≤ base.toNat → ∀ windows : List Window,
      40 ≤ windows.length → (∀ window ∈ windows, window.Healthy) →
      95 * base.toNat ≤ 100 * rateAfter base.toNat rate windows) ∧
    ∀ rate, base.toNat / 10 ≤ rate → rate ≤ base.toNat → ∀ window : Window, window.Congested →
      (∀ count, rateAfter base.toNat rate (List.replicate (count + 1) window) =
        nextRate base.toNat rate window) ∧
      (nextRate base.toNat rate window = window.target base.toNat ∨
        nextRate base.toNat rate window = rate ∧
          100 * ((window.target base.toNat : Int) - rate).natAbs ≤ 5 * rate) := by
  have typed : base.toNat ≤ u64Cap := Nat.le_of_lt_succ base.toNat_lt
  refine ⟨?range, ?recovery, ?congestion⟩
  case range => exact rateAfter_bounds typed (Nat.div_le_self _ _) le_rfl
  case recovery =>
    intro rate least most windows many healthy
    have near := recovered typed large least most many healthy
    omega
  case congestion =>
    intro rate _ _ window congested
    refine ⟨rateAfter_congested congested base.toNat rate, ?_⟩
    rw [nextRate_congested congested]
    split
    · exact .inl rfl
    · exact .inr ⟨rfl, by omega⟩

/-- Full speed, and a window that measures a twentieth less. -/
def nearlyFull : UInt64 := 1515789

def slowWindow : Window := ⟨100, 50, 100, 0, 1000⟩

/-- The rate stays and is more than 5 % above the measured value. -/
theorem nearlyFull_stays :
    slowWindow.Congested ∧
      rateAfter nearlyFull.toNat nearlyFull.toNat [slowWindow] = nearlyFull.toNat ∧
      5 * slowWindow.target nearlyFull.toNat <
        100 * (nearlyFull.toNat - slowWindow.target nearlyFull.toNat) := by
  unfold Window.Congested
  decide +kernel

/-- A window that measures about half of full speed, and one without congestion. -/
def halfWindow : Window := ⟨100, 50, 50, 0, 1000⟩

def calmWindow : Window := ⟨50, 50, 100, 0, 1000⟩

theorem rate_trajectory_slow :
    let base := nearlyFull.toNat
    halfWindow.Congested ∧ calmWindow.Healthy ∧
      base / 10 ≤ rateAfter base base [halfWindow, calmWindow] ∧
      95 * base ≤ 100 * rateAfter base (base / 10) (List.replicate 40 calmWindow) ∧
      (nextRate base base halfWindow = halfWindow.target base ∨
        nextRate base base halfWindow = base ∧
          100 * ((halfWindow.target base : Int) - base).natAbs ≤ 5 * base) := by
  intro base
  have congested : halfWindow.Congested := by
    unfold Window.Congested
    decide +kernel
  have healthy : calmWindow.Healthy := by
    unfold Window.Healthy
    decide +kernel
  obtain ⟨range, recovery, congestion⟩ := rate_trajectory nearlyFull (by decide)
  refine ⟨congested, healthy, (range _).1, ?_, (congestion _ (Nat.div_le_self _ _) le_rfl _
    congested).2⟩
  exact recovery _ le_rfl (Nat.div_le_self _ _) _ (by simp) fun window member =>
    (List.eq_of_mem_replicate member).symm ▸ healthy

end Mirage.Rate.Brutal
