import Mirage.Auth.Replay

/-!
The rollback branch of `check_and_insert` under a clock that may step either
way. Every stored bucket lies within the retained range of the mark, so at a
clear each stored timestamp is later than the one presented: what is dropped
has not expired. Whether it is still acceptable depends on how far it lies
ahead of the clock, not on how far the mark does.
-/

namespace Mirage.Auth
open Trace Word

section Runs
variable (crypto : TokenCrypto) (tolerance : UInt64)

def Clears (past : ServerRun) (attempt : Attempt) : Prop :=
  attempt.gated crypto tolerance = true ∧
    (serverAfter crypto tolerance past (attempt.scope crypto)).rollsBack
      (attempt.ts crypto) (retainBuckets tolerance.toNat) = true

/-- A token accepted earlier under the attempt's credential is still stored. -/
def Stored (past : ServerRun) (attempt first : Attempt) : Prop :=
  (∃ before after, past = before ++ first :: after ∧ accepts crypto tolerance before first = true) ∧
    first.scope crypto = attempt.scope crypto ∧
    first.token ∈ (serverAfter crypto tolerance past (attempt.scope crypto)).cache
      (first.ts crypto / replayBucketSecs)

/-- The token was accepted earlier, into this bucket of this credential. -/
def Origin (past : ServerRun) (scope : Scope) (bucket : Nat) (token : Token) : Prop :=
  ∃ first before after, past = before ++ first :: after ∧
    accepts crypto tolerance before first = true ∧ first.scope crypto = scope ∧
    first.token = token ∧ first.ts crypto / replayBucketSecs = bucket

/-- Every token a clear drops is outside the tolerance of the clock. -/
def ClearsSafely (attempts : ServerRun) : Prop :=
  ∀ past attempt rest, attempts = past ++ attempt :: rest → Clears crypto tolerance past attempt →
    ∀ first, Stored crypto tolerance past attempt first →
      tsWithinTolerance (first.ts crypto) attempt.now.toNat tolerance.toNat = false

/-- At every clear even the oldest stored timestamp is ahead of the window. -/
def FarAhead (attempts : ServerRun) : Prop :=
  ∀ past attempt rest, attempts = past ++ attempt :: rest → Clears crypto tolerance past attempt →
    ∀ first, Stored crypto tolerance past attempt first →
      attempt.now.toNat + tolerance.toNat < first.ts crypto

end Runs

structure Trimmed (retain : Nat) (caches : ReplayCaches) : Prop where
  near : ∀ scope bucket, (caches scope).cache bucket ≠ [] → (caches scope).hwm - bucket ≤ retain
  bounded : ∀ scope, (caches scope).hwm * replayBucketSecs ≤ maxU64

namespace TokenReplayCache
variable {self : TokenReplayCache} {ts retainBuckets : Nat} {token : Token}

theorem unsaturated_of_rollsBack (bounded : self.hwm * replayBucketSecs ≤ maxU64)
    (back : self.rollsBack ts retainBuckets = true) :
    ts / replayBucketSecs + retainBuckets < self.hwm := by
  have small : self.hwm ≤ maxU64 := Nat.le_trans (Nat.le_mul_of_pos_right _ (by decide)) bounded
  rw [rollsBack, decide_eq_true_iff, saturatingAdd] at back
  omega

theorem turn_bounded (bounded : self.hwm * replayBucketSecs ≤ maxU64) (fits : ts ≤ maxU64) :
    (self.turn ts retainBuckets).hwm * replayBucketSecs ≤ maxU64 := by
  have floor := Nat.div_mul_le_self ts replayBucketSecs
  rw [turn_hwm]
  split
  · omega
  · rw [Nat.max_def]
    split <;> omega

/-- The mark is at most the retained range ahead of the bucket just touched. -/
theorem turn_near (self : TokenReplayCache) (ts retainBuckets : Nat) :
    (self.turn ts retainBuckets).hwm - ts / replayBucketSecs ≤ retainBuckets := by
  rw [turn_hwm]
  cases back : self.rollsBack ts retainBuckets with
  | true => simp
  | false =>
      rw [rollsBack, decide_eq_false_iff_not, saturatingAdd] at back
      rw [if_neg (by simp)]
      omega

theorem checkAndInsert_near {bucket : Nat}
    (stored : (self.checkAndInsert ts token retainBuckets).2.cache bucket ≠ []) :
    (self.checkAndInsert ts token retainBuckets).2.hwm - bucket ≤ retainBuckets := by
  rw [checkAndInsert_hwm]
  by_cases own : bucket = ts / replayBucketSecs
  · subst own
    exact turn_near self ts retainBuckets
  · by_contra far
    exact stored (checkAndInsert_drops own (Nat.not_le.mp far))

end TokenReplayCache

section Steps
variable {crypto : TokenCrypto} {tolerance : UInt64}

theorem trimmed_step (caches : ReplayCaches) (attempt : Attempt)
    (trimmed : Trimmed (retainBuckets tolerance.toNat) caches) :
    Trimmed (retainBuckets tolerance.toNat)
      (verifySessionToken crypto tolerance caches attempt).2 := by
  cases gate : attempt.gated crypto tolerance with
  | false => rwa [verify_of_not_gated gate]
  | true =>
      rw [verify_of_gated gate]
      constructor
      · intro scope bucket stored
        by_cases same : scope = attempt.scope crypto
        · subst same
          dsimp only at stored ⊢
          rw [Function.update_self] at stored ⊢
          exact TokenReplayCache.checkAndInsert_near stored
        · dsimp only at stored ⊢
          rw [Function.update_of_ne same] at stored ⊢
          exact trimmed.near scope bucket stored
      · intro scope
        by_cases same : scope = attempt.scope crypto
        · subst same
          simpa using TokenReplayCache.turn_bounded
            (trimmed.bounded (attempt.scope crypto)) (ts_le attempt)
        · simpa [Function.update_of_ne same] using trimmed.bounded scope

theorem trimmed_after (past : ServerRun) :
    Trimmed (retainBuckets tolerance.toNat) (serverAfter crypto tolerance past) := by
  have empty : Trimmed (retainBuckets tolerance.toNat) ReplayCaches.empty := by
    constructor <;> simp [ReplayCaches.empty, TokenReplayCache.new]
  exact run_invariant (Trimmed (retainBuckets tolerance.toNat)) trimmed_step empty past

theorem dropped_later {past : ServerRun} {attempt first : Attempt}
    (clears : Clears crypto tolerance past attempt)
    (stored : Stored crypto tolerance past attempt first) :
    attempt.ts crypto < first.ts crypto := by
  have trimmed := @trimmed_after crypto tolerance past
  have behind := TokenReplayCache.unsaturated_of_rollsBack
    (trimmed.bounded (attempt.scope crypto)) clears.2
  have near := trimmed.near (attempt.scope crypto) _ (List.ne_nil_of_mem stored.2.2)
  have buckets : attempt.ts crypto / replayBucketSecs < first.ts crypto / replayBucketSecs := by
    omega
  exact Nat.lt_of_div_lt_div buckets

theorem dropped_outside_iff {past : ServerRun} {attempt first : Attempt}
    (clears : Clears crypto tolerance past attempt)
    (stored : Stored crypto tolerance past attempt first) :
    tsWithinTolerance (first.ts crypto) attempt.now.toNat tolerance.toNat = false ↔
      attempt.now.toNat + tolerance.toNat < first.ts crypto := by
  have later := dropped_later clears stored
  have inWindow := (tsWithinTolerance_iff (ts_le attempt) (now_le attempt)).mp
    (Bool.and_eq_true_iff.mp clears.1).2
  rw [← Bool.not_eq_true, tsWithinTolerance_iff (ts_le first) (now_le attempt)]
  omega

theorem Origin.later {past : ServerRun} {scope : Scope} {bucket : Nat} {token : Token}
    (origin : Origin crypto tolerance past scope bucket token) (last : Attempt) :
    Origin crypto tolerance (past ++ [last]) scope bucket token := by
  obtain ⟨first, before, after, split, rest⟩ := origin
  exact ⟨first, before, after ++ [last], by simp [split], rest⟩

theorem origin_of_mem (past : ServerRun) {scope : Scope} {bucket : Nat} {token : Token}
    (member : token ∈ (serverAfter crypto tolerance past scope).cache bucket) :
    Origin crypto tolerance past scope bucket token := by
  induction past using List.reverseRecOn with
  | nil => simp [serverAfter, ReplayCaches.empty, TokenReplayCache.new] at member
  | append_singleton past last ih =>
      rw [serverAfter, run_append, run_cons, run_nil] at member
      cases gate : last.gated crypto tolerance with
      | false =>
          rw [verify_of_not_gated gate] at member
          exact (ih member).later last
      | true =>
          rw [verify_of_gated gate] at member
          dsimp only at member
          by_cases same : scope = last.scope crypto
          · subst same
            rw [Function.update_self] at member
            rcases TokenReplayCache.mem_checkAndInsert member with old | ⟨fresh, rfl, rfl⟩
            · exact (ih old).later last
            · refine ⟨last, past, [], rfl, ?_, rfl, rfl, rfl⟩
              rw [accepts, answer, verify_of_gated gate]
              exact fresh
          · rw [Function.update_of_ne same] at member
            exact (ih member).later last

theorem stored_of_mem (past : ServerRun) (attempt : Attempt) {bucket : Nat} {token : Token}
    (member : token ∈ (serverAfter crypto tolerance past (attempt.scope crypto)).cache bucket) :
    ∃ first, Stored crypto tolerance past attempt first ∧ first.token = token ∧
      first.ts crypto / replayBucketSecs = bucket := by
  obtain ⟨first, before, after, split, accepted, scope, rfl, rfl⟩ := origin_of_mem past member
  exact ⟨first, ⟨⟨before, after, split, accepted⟩, scope, member⟩, rfl, rfl⟩

theorem clearsSafely_iff_farAhead (attempts : ServerRun) :
    ClearsSafely crypto tolerance attempts ↔ FarAhead crypto tolerance attempts := by
  constructor
  · intro safe past attempt rest split clears first stored
    exact (dropped_outside_iff clears stored).mp (safe past attempt rest split clears first stored)
  · intro ahead past attempt rest split clears first stored
    exact (dropped_outside_iff clears stored).mpr (ahead past attempt rest split clears first stored)

/-- Without tolerance the clock is the presented timestamp, and a clear needs a
mark beyond the retained range. -/
theorem farAhead_of_tolerance
    (fits : tolerance.toNat = 0 ∨ maxU64 / replayBucketSecs ≤ retainBuckets tolerance.toNat)
    (attempts : ServerRun) : FarAhead crypto tolerance attempts := by
  intro past attempt rest _ clears first stored
  rcases fits with exact_ | wide
  · have later := dropped_later clears stored
    have inWindow := (tsWithinTolerance_iff (ts_le attempt) (now_le attempt)).mp
      (Bool.and_eq_true_iff.mp clears.1).2
    omega
  · have bounded := (@trimmed_after crypto tolerance past).bounded
      (attempt.scope crypto)
    have behind := TokenReplayCache.unsaturated_of_rollsBack bounded clears.2
    have top := (Nat.le_div_iff_mul_le (by decide)).mpr bounded
    have beyond := Nat.lt_of_le_of_lt (Nat.le_add_left _ _) behind
    omega

end Steps

section Backwards
variable (crypto : TokenCrypto) (tolerance : UInt64)

def early : Attempt := presented crypto 10 10

def distant : Attempt :=
  presented crypto (UInt64.ofNat ((retainBuckets tolerance.toNat + 1) * replayBucketSecs))
    (BitVec.ofNat 64 ((retainBuckets tolerance.toNat + 1) * replayBucketSecs))

/-- After the clock has stepped back, a slow client's token from the first
bucket. -/
def slow : Attempt := presented crypto 10 9

variable {tolerance}

theorem early_gated (tolerance : UInt64) : (early crypto).gated crypto tolerance = true :=
  presented_gated crypto (by simp)

theorem slow_gated (positive : 0 < tolerance.toNat) :
    (slow crypto).gated crypto tolerance = true := by
  apply presented_gated
  simp only [UInt64.reduceToNat, BitVec.reduceToNat]
  omega

theorem distant_bound
    (narrow : retainBuckets tolerance.toNat < maxU64 / replayBucketSecs) :
    (retainBuckets tolerance.toNat + 1) * replayBucketSecs < 2 ^ 64 := by
  simp only [maxU64, replayBucketSecs] at narrow ⊢
  omega

theorem distant_ts (narrow : retainBuckets tolerance.toNat < maxU64 / replayBucketSecs) :
    (distant crypto tolerance).ts crypto =
      (retainBuckets tolerance.toNat + 1) * replayBucketSecs := by
  rw [distant, presented_ts, BitVec.toNat_ofNat, Nat.mod_eq_of_lt (distant_bound narrow)]

theorem distant_gated (narrow : retainBuckets tolerance.toNat < maxU64 / replayBucketSecs) :
    (distant crypto tolerance).gated crypto tolerance = true := by
  apply presented_gated
  have fits := distant_bound narrow
  rw [BitVec.toNat_ofNat, UInt64.toNat_ofNat', Nat.mod_eq_of_lt fits]
  omega

theorem early_accepted (tolerance : UInt64) :
    accepts crypto tolerance [] (early crypto) = true := by
  rw [accepts, answer, verify_of_gated (early_gated crypto tolerance)]
  apply TokenReplayCache.insert_empty
  simp [TokenReplayCache.turn, TokenReplayCache.rollsBack, TokenReplayCache.retain,
    ReplayCaches.empty, TokenReplayCache.new]

theorem distant_mark (narrow : retainBuckets tolerance.toNat < maxU64 / replayBucketSecs) :
    let caches := serverAfter crypto tolerance [early crypto, distant crypto tolerance]
    (caches (crypto.scope "")).hwm = retainBuckets tolerance.toNat + 1 ∧
      (early crypto).token ∈ (caches (crypto.scope "")).cache 1 := by
  intro caches
  have ts := distant_ts crypto narrow
  have tsEarly : (early crypto).ts crypto = 10 := presented_ts crypto 10 10
  obtain ⟨calm, mark, state⟩ := serverAfter_pair crypto (early_gated crypto tolerance)
    (distant_gated crypto narrow) rfl rfl
    (by rw [ts, tsEarly]; simp only [replayBucketSecs]; omega)
  have bucket : (distant crypto tolerance).ts crypto / replayBucketSecs =
      retainBuckets tolerance.toNat + 1 := by
    rw [ts, Nat.mul_div_cancel _ (by decide)]
  rw [bucket] at mark
  rw [show caches (crypto.scope "") = _ from state]
  constructor
  · rw [TokenReplayCache.checkAndInsert_hwm, mark]
  · apply TokenReplayCache.insert_keeps
    rw [TokenReplayCache.retained calm]
    · have accepted := early_accepted crypto tolerance
      rw [accepts, answer, verify_of_gated (early_gated crypto tolerance)] at accepted
      have stored : (early crypto).token ∈
          (TokenReplayCache.new.checkAndInsert ((early crypto).ts crypto) (early crypto).token
            (retainBuckets tolerance.toNat)).2.cache
            ((early crypto).ts crypto / replayBucketSecs) :=
        TokenReplayCache.insert_accepted accepted
      rwa [show (early crypto).ts crypto / replayBucketSecs = 1 by rw [tsEarly]; rfl] at stored
    · rw [TokenReplayCache.turn_hwm, calm] at mark
      rw [show max _ _ = _ from mark]
      omega

/-- The slow client's token clears the cache and drops the early token, which
the clock would still admit. -/
theorem slow_clears (positive : 0 < tolerance.toNat)
    (narrow : retainBuckets tolerance.toNat < maxU64 / replayBucketSecs) :
    ¬ ClearsSafely crypto tolerance [early crypto, distant crypto tolerance, slow crypto] := by
  intro safe
  obtain ⟨mark, stored⟩ := distant_mark crypto narrow
  have tsEarly : (early crypto).ts crypto = 10 := presented_ts crypto 10 10
  have tsSlow : (slow crypto).ts crypto = 9 := presented_ts crypto 10 9
  have clears : Clears crypto tolerance [early crypto, distant crypto tolerance] (slow crypto) := by
    refine ⟨slow_gated crypto positive, ?_⟩
    rw [show (slow crypto).scope crypto = crypto.scope "" from rfl, TokenReplayCache.rollsBack,
      mark, tsSlow, decide_eq_true_iff, saturatingAdd]
    simp only [replayBucketSecs]
    omega
  have dropped : Stored crypto tolerance [early crypto, distant crypto tolerance] (slow crypto)
      (early crypto) :=
    ⟨⟨[], [distant crypto tolerance], rfl, early_accepted crypto tolerance⟩, rfl,
      by rw [tsEarly]; exact stored⟩
  have outside := safe [early crypto, distant crypto tolerance] (slow crypto) [] rfl clears
    (early crypto) dropped
  have now : (slow crypto).now.toNat = 10 := rfl
  rw [← Bool.not_eq_true, tsWithinTolerance_iff (ts_le _) (now_le _), tsEarly, now] at outside
  omega

end Backwards

/-- A run clears safely exactly when at each clear all that is stored lies
ahead of the window, and every run does only for a tolerance of zero or one so
large that nothing is ever cleared. What is stored was accepted earlier. -/
theorem clears_safely_iff (crypto : TokenCrypto) (tolerance : UInt64) :
    (∀ past attempt bucket token,
      token ∈ (serverAfter crypto tolerance past (attempt.scope crypto)).cache bucket →
      ∃ first, Stored crypto tolerance past attempt first ∧ first.token = token ∧
        first.ts crypto / replayBucketSecs = bucket) ∧
    (∀ attempts, ClearsSafely crypto tolerance attempts ↔ FarAhead crypto tolerance attempts) ∧
    ((∀ attempts, ClearsSafely crypto tolerance attempts) ↔
      tolerance.toNat = 0 ∨ maxU64 / replayBucketSecs ≤ retainBuckets tolerance.toNat) := by
  refine ⟨fun past attempt bucket token => stored_of_mem past attempt,
    clearsSafely_iff_farAhead, fun safe => ?_, fun fits attempts => ?_⟩
  · by_contra wide
    exact slow_clears crypto (by omega) (by omega) (safe _)
  · exact (clearsSafely_iff_farAhead attempts).mpr (farAhead_of_tolerance fits attempts)

/-- With 60 seconds: timestamps 10 and 150 are stored when the clock steps back
to 10 and a token of timestamp 9 arrives. -/
theorem rollback_drops_current_token : ¬ ClearsSafely plainCrypto 60
    [early plainCrypto, distant plainCrypto 60, slow plainCrypto] :=
  slow_clears plainCrypto (by decide) (by decide)

end Mirage.Auth
