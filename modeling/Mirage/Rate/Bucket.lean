import Mathlib.Algebra.BigOperators.Group.List.Basic
import Mathlib.Algebra.Order.Field.Rat
import Mathlib.Data.Rat.Cast.Order
import Mathlib.Logic.Function.Basic
import Mirage.Lib.Meter

/-!
Token buckets, in exact arithmetic. `consume` draws what there is and sleeps for
the rest, so calls that overlap on one bucket hold drawn tokens that no byte has
used yet. `try_consume` and `try_consume_two` take all or nothing.
-/

namespace Mirage.Rate
open Function Trace Meter

structure TokenBucket where
  rate : ℚ
  burst : ℚ
  rate_pos : 0 < rate
  burst_nonneg : 0 ≤ burst

/-- What the bucket's mutex guards. -/
@[ext] structure BucketState (bucket : TokenBucket) where
  tokens : ℚ
  last : ℚ
  tokens_nonneg : 0 ≤ tokens
  tokens_le : tokens ≤ bucket.burst

def TokenBucket.new (rateBytesPerSec : Nat) : TokenBucket where
  rate := max (rateBytesPerSec : ℚ) 1
  burst := max (max (rateBytesPerSec : ℚ) 1 * (1 / 2)) 65536
  rate_pos := lt_max_of_lt_right one_pos
  burst_nonneg := le_max_of_le_right (by norm_num)

namespace BucketState
variable {bucket : TokenBucket}

def full (bucket : TokenBucket) (now : ℚ) : BucketState bucket :=
  { tokens := bucket.burst, last := now, tokens_nonneg := bucket.burst_nonneg, tokens_le := le_rfl }

/-- The lines every call starts with. A clock that went back adds nothing. -/
def refill (s : BucketState bucket) (now : ℚ) : BucketState bucket where
  tokens := min (s.tokens + max (now - s.last) 0 * bucket.rate) bucket.burst
  last := now
  tokens_nonneg := le_min
    (add_nonneg s.tokens_nonneg (mul_nonneg (le_max_right _ _) bucket.rate_pos.le))
    bucket.burst_nonneg
  tokens_le := min_le_right _ _

def spend (s : BucketState bucket) (need : ℚ) (nonneg : 0 ≤ need) (enough : need ≤ s.tokens) :
    BucketState bucket :=
  { tokens := s.tokens - need, last := s.last, tokens_nonneg := sub_nonneg.mpr enough
    tokens_le := (sub_le_self _ nonneg).trans s.tokens_le }

def drain (s : BucketState bucket) : BucketState bucket :=
  { tokens := 0, last := s.last, tokens_nonneg := le_rfl, tokens_le := bucket.burst_nonneg }

/-- One pass of the loop in `consume`: done, or what is still needed. -/
def round (s : BucketState bucket) (need : ℚ) (nonneg : 0 ≤ need) (now : ℚ) :
    Option { deficit : ℚ // 0 < deficit ∧ deficit ≤ need } × BucketState bucket :=
  let s := s.refill now
  if enough : need ≤ s.tokens then (none, s.spend need nonneg enough)
  else
    (some ⟨need - s.tokens, sub_pos.mpr (not_le.mp enough), sub_le_self _ s.tokens_nonneg⟩, s.drain)

def tryConsume (s : BucketState bucket) (n : Nat) (now : ℚ) : Bool × BucketState bucket :=
  let s := s.refill now
  if enough : (n : ℚ) ≤ s.tokens then (true, s.spend n n.cast_nonneg enough)
  else (false, s)

/-- The last case of `try_consume_two`, with both buckets there. -/
def tryConsumeBoth {other : TokenBucket} (s1 : BucketState bucket) (s2 : BucketState other)
    (n : Nat) (now : ℚ) : Bool × BucketState bucket × BucketState other :=
  let s1 := s1.refill now
  let s2 := s2.refill now
  if enough : (n : ℚ) ≤ s1.tokens ∧ (n : ℚ) ≤ s2.tokens then
    (true, s1.spend n n.cast_nonneg enough.1, s2.spend n n.cast_nonneg enough.2)
  else (false, s1, s2)

/-- The tokens a call at this time would find. -/
def level (s : BucketState bucket) (now : ℚ) : ℚ := (s.refill now).tokens

theorem level_le (s : BucketState bucket) (now : ℚ) : s.level now ≤ bucket.burst :=
  (s.refill now).tokens_le

theorem level_last (s : BucketState bucket) : s.level s.last = s.tokens := by
  simp only [level, refill, sub_self, max_self, zero_mul, add_zero]
  exact min_eq_left s.tokens_le

theorem level_fills (s : BucketState bucket) {early late : ℚ} (ordered : early ≤ late) :
    s.level late ≤ s.level early + bucket.rate * (late - early) := by
  have elapsed : max (late - s.last) 0 ≤ max (early - s.last) 0 + (late - early) := by
    apply max_le
    · linarith [le_max_left (early - s.last) 0]
    · linarith [le_max_right (early - s.last) 0]
  have flowed := mul_le_mul_of_nonneg_right elapsed bucket.rate_pos.le
  have gained : 0 ≤ bucket.rate * (late - early) :=
    mul_nonneg bucket.rate_pos.le (sub_nonneg.mpr ordered)
  simp only [level, refill]
  rcases le_total (s.tokens + max (early - s.last) 0 * bucket.rate) bucket.burst with below | above
  · rw [min_eq_left below]
    exact (min_le_left _ _).trans (by linarith)
  · rw [min_eq_right above]
    exact (min_le_right _ _).trans (by linarith)

@[simp] theorem level_refill_self (s : BucketState bucket) (now : ℚ) :
    (s.refill now).level now = s.level now :=
  level_last _

/-- Bringing a bucket up to date changes nothing that a later call can see. -/
theorem level_refill (s : BucketState bucket) {now later : ℚ} (passed : s.last ≤ now)
    (ordered : now ≤ later) : (s.refill now).level later = s.level later := by
  simp only [level, refill]
  rw [max_eq_left (sub_nonneg.mpr ordered), max_eq_left (sub_nonneg.mpr passed),
    max_eq_left (sub_nonneg.mpr (passed.trans ordered))]
  have gained : 0 ≤ (later - now) * bucket.rate :=
    mul_nonneg (sub_nonneg.mpr ordered) bucket.rate_pos.le
  rcases le_total (s.tokens + (now - s.last) * bucket.rate) bucket.burst with below | above
  · rw [min_eq_left below]
    congr 1
    ring
  · rw [min_eq_right above, min_eq_right (by linarith), min_eq_right (by linarith)]

theorem level_spend {s : BucketState bucket} {need : ℚ} (nonneg : 0 ≤ need)
    (enough : need ≤ s.tokens) : (s.spend need nonneg enough).level s.last = s.tokens - need :=
  level_last (s.spend need nonneg enough)

theorem level_drain (s : BucketState bucket) : s.drain.level s.last = 0 := level_last s.drain

/-- A pass spends what it found, on the whole need or on a part of it. -/
theorem round_cases (s : BucketState bucket) {need : ℚ} (nonneg : 0 ≤ need) (now : ℚ) :
    ((s.round need nonneg now).1 = none ∧
        (s.round need nonneg now).2.level now = s.level now - need) ∨
      ∃ deficit, (s.round need nonneg now).1 = some deficit ∧
        deficit.1 = need - s.level now ∧ (s.round need nonneg now).2.level now = 0 := by
  unfold round
  by_cases enough : need ≤ (s.refill now).tokens
  · rw [dif_pos enough]
    exact .inl ⟨rfl, level_spend nonneg enough⟩
  · rw [dif_neg enough]
    exact .inr ⟨_, rfl, rfl, level_drain (s.refill now)⟩

theorem tryConsume_cases (s : BucketState bucket) (n : Nat) (now : ℚ) :
    (s.tryConsume n now).1 = true ∧ (s.tryConsume n now).2.level now = s.level now - n ∨
      s.tryConsume n now = (false, s.refill now) := by
  unfold tryConsume
  by_cases enough : (n : ℚ) ≤ (s.refill now).tokens
  · rw [dif_pos enough]
    exact .inl ⟨rfl, level_spend n.cast_nonneg enough⟩
  · rw [dif_neg enough]
    exact .inr rfl

theorem tryConsumeBoth_cases {other : TokenBucket} (s1 : BucketState bucket)
    (s2 : BucketState other) (n : Nat) (now : ℚ) :
    (s1.tryConsumeBoth s2 n now).1 = true ∧
        (s1.tryConsumeBoth s2 n now).2.1.level now = s1.level now - n ∧
        (s1.tryConsumeBoth s2 n now).2.2.level now = s2.level now - n ∨
      s1.tryConsumeBoth s2 n now = (false, s1.refill now, s2.refill now) := by
  unfold tryConsumeBoth
  by_cases enough : (n : ℚ) ≤ (s1.refill now).tokens ∧ (n : ℚ) ≤ (s2.refill now).tokens
  · rw [dif_pos enough]
    exact .inl ⟨rfl, level_spend n.cast_nonneg enough.1, level_spend n.cast_nonneg enough.2⟩
  · rw [dif_neg enough]
    exact .inr rfl

@[simp] theorem round_last (s : BucketState bucket) {need : ℚ} (nonneg : 0 ≤ need) (now : ℚ) :
    (s.round need nonneg now).2.last = now := by
  unfold round
  dsimp only
  split <;> rfl

@[simp] theorem tryConsume_last (s : BucketState bucket) (n : Nat) (now : ℚ) :
    (s.tryConsume n now).2.last = now := by
  unfold tryConsume
  dsimp only
  split <;> rfl

@[simp] theorem tryConsumeBoth_last {other : TokenBucket} (s1 : BucketState bucket)
    (s2 : BucketState other) (n : Nat) (now : ℚ) :
    (s1.tryConsumeBoth s2 n now).2.1.last = now ∧ (s1.tryConsumeBoth s2 n now).2.2.last = now := by
  unfold tryConsumeBoth
  dsimp only
  split <;> exact ⟨rfl, rfl⟩

/-- `n` bytes from both buckets, or nothing that any later call could notice. -/
def BothOrNeither {other : TokenBucket} (s1 : BucketState bucket) (s2 : BucketState other)
    (n : Nat) (now : ℚ) : Prop :=
  let (pass, s1', s2') := s1.tryConsumeBoth s2 n now
  pass = true ∧ s1'.level now = s1.level now - n ∧ s2'.level now = s2.level now - n ∨
    pass = false ∧ ∀ later, now ≤ later →
      s1'.level later = s1.level later ∧ s2'.level later = s2.level later

theorem bothOrNeither {other : TokenBucket} (s1 : BucketState bucket) (s2 : BucketState other)
    (n : Nat) {now : ℚ} (passed1 : s1.last ≤ now) (passed2 : s2.last ≤ now) :
    s1.BothOrNeither s2 n now := by
  unfold BothOrNeither
  rcases tryConsumeBoth_cases s1 s2 n now with taken | refused
  · exact .inl taken
  · rw [refused]
    exact .inr ⟨rfl, fun later ordered =>
      ⟨level_refill s1 passed1 ordered, level_refill s2 passed2 ordered⟩⟩

end BucketState

end Mirage.Rate
