import Mirage.Auth.HelloAuth

/-!
Replay protection under a clock that never goes back. The seen-set may forget
a bucket only after every timestamp in it has left the tolerance window;
`Covers` states that for the number of buckets kept. It holds as long as
doubling the tolerance does not wrap, or wraps to a number so large that no
bucket is ever dropped.
-/

namespace Mirage.Auth
open Trace Word

abbrev ServerRun := List Attempt

section Runs
variable (crypto : TokenCrypto) (tolerance : UInt64)

def serverAfter (attempts : ServerRun) : ReplayCaches :=
  run (verifySessionToken crypto tolerance) ReplayCaches.empty attempts

def accepts (past : ServerRun) (attempt : Attempt) : Bool :=
  answer (verifySessionToken crypto tolerance) ReplayCaches.empty past attempt

def Monotone (attempts : ServerRun) : Prop :=
  attempts.Pairwise fun a b => a.now.toNat ≤ b.now.toNat

/-- No token has a valid tag under two passwords of the run. -/
def OneCredential (attempts : ServerRun) : Prop :=
  ∀ a ∈ attempts, ∀ b ∈ attempts, a.token = b.token →
    tagValid crypto a.password a.token a.bind = true →
    tagValid crypto b.password b.token b.bind = true → a.password = b.password

/-- A token that verified once is refused ever after. -/
def NoReplay : Prop :=
  ∀ (past between later : ServerRun) (first second : Attempt),
    Monotone (past ++ first :: between ++ second :: later) →
    OneCredential crypto (past ++ first :: between ++ second :: later) →
    first.token = second.token → accepts crypto tolerance past first = true →
    accepts crypto tolerance (past ++ first :: between) second = false

/-- A token that verified stays in its bucket while its timestamp is within
the tolerance of the server clock. -/
def KeepsWindow : Prop :=
  ∀ (past between : ServerRun) (first : Attempt),
    Monotone (past ++ first :: between) → accepts crypto tolerance past first = true →
    ∀ now, (∀ attempt ∈ past ++ first :: between, attempt.now.toNat ≤ now) →
      now ≤ first.ts crypto + tolerance.toNat →
      first.token ∈ (serverAfter crypto tolerance (past ++ first :: between)
        (first.scope crypto)).cache (first.ts crypto / replayBucketSecs)

end Runs

/-- A bucket that falls out of the retained range lies behind the window of
every clock that admitted the mark. -/
def Covers (tol retain : Nat) : Prop :=
  ∀ ts now hwm : Nat, hwm * replayBucketSecs ≤ now + tol → hwm * replayBucketSecs ≤ maxU64 →
    ts / replayBucketSecs + retain < hwm → ts + tol < now

theorem covers_retainBuckets {tol : Nat}
    (fits : tol < 2 ^ 63 ∨ 2 ^ 64 - 13 ≤ tol ∧ tol < 2 ^ 64) : Covers tol (retainBuckets tol) := by
  intro ts now hwm ahead bounded dropped
  simp only [retainBuckets, wrappingMul, replayBucketSecs, maxU64] at *
  omega

/-- No high-water mark is ahead of the window of the clock. -/
structure Marked (tol now : Nat) (caches : ReplayCaches) : Prop where
  window : ∀ scope, (caches scope).hwm * replayBucketSecs ≤ now + tol
  bounded : ∀ scope, (caches scope).hwm * replayBucketSecs ≤ maxU64

/-- The token has expired or is still stored. -/
structure Guards (tol : Nat) (scope : Scope) (ts : Nat) (token : Token) (now : Nat)
    (caches : ReplayCaches) : Prop extends Marked tol now caches where
  held : ts + tol < now ∨ token ∈ (caches scope).cache (ts / replayBucketSecs)

theorem Marked.weaken {tol early late : Nat} {caches : ReplayCaches} (passed : early ≤ late)
    (marked : Marked tol early caches) : Marked tol late caches :=
  ⟨fun scope => Nat.le_trans (marked.window scope) (Nat.add_le_add_right passed tol),
    marked.bounded⟩

theorem Guards.weaken {tol ts early late : Nat} {scope : Scope} {token : Token}
    {caches : ReplayCaches} (passed : early ≤ late)
    (guards : Guards tol scope ts token early caches) :
    Guards tol scope ts token late caches :=
  ⟨guards.toMarked.weaken passed,
    guards.held.imp_left fun expired => Nat.lt_of_lt_of_le expired passed⟩

theorem empty_marked (tol now : Nat) : Marked tol now ReplayCaches.empty := by
  constructor <;> simp [ReplayCaches.empty, TokenReplayCache.new]

section Steps
variable {crypto : TokenCrypto} {tolerance : UInt64}

/-- A gated attempt cannot look like a rollback while the clock is monotone. -/
theorem not_rollsBack {tol retain ts now : Nat} {self : TokenReplayCache}
    (covers : Covers tol retain) (window : self.hwm * replayBucketSecs ≤ now + tol)
    (bounded : self.hwm * replayBucketSecs ≤ maxU64) (recent : now ≤ ts + tol) :
    self.rollsBack ts retain = false := by
  rw [TokenReplayCache.rollsBack, decide_eq_false_iff_not]
  intro behind
  have unsaturated : ts / replayBucketSecs + retain < self.hwm := by
    have small : self.hwm ≤ maxU64 :=
      Nat.le_trans (Nat.le_mul_of_pos_right _ (by decide)) bounded
    rw [saturatingAdd] at behind
    omega
  have expired := covers ts now self.hwm window bounded unsaturated
  omega

/-- The new mark of the attempt's own cache, and why it is within bounds. -/
theorem turn_of_gated (covers : Covers tolerance.toNat (retainBuckets tolerance.toNat))
    {caches : ReplayCaches} {attempt : Attempt}
    (gate : attempt.gated crypto tolerance = true)
    (marked : Marked tolerance.toNat attempt.now.toNat caches) :
    let self := caches (attempt.scope crypto)
    let retain := retainBuckets tolerance.toNat
    self.rollsBack (attempt.ts crypto) retain = false ∧
      (self.turn (attempt.ts crypto) retain).hwm =
        max self.hwm (attempt.ts crypto / replayBucketSecs) ∧
      max self.hwm (attempt.ts crypto / replayBucketSecs) * replayBucketSecs ≤
        attempt.now.toNat + tolerance.toNat ∧
      max self.hwm (attempt.ts crypto / replayBucketSecs) * replayBucketSecs ≤ maxU64 := by
  intro self retain
  have inWindow := (tsWithinTolerance_iff (ts_le attempt) (now_le attempt)).mp
    (Bool.and_eq_true_iff.mp gate).2
  have oldWindow := marked.window (attempt.scope crypto)
  have oldBounded := marked.bounded (attempt.scope crypto)
  have calm := not_rollsBack covers oldWindow oldBounded inWindow.1
  have floor := Nat.div_mul_le_self (attempt.ts crypto) replayBucketSecs
  have fits := @ts_le crypto attempt
  refine ⟨calm, ?_, ?_, ?_⟩
  · rw [TokenReplayCache.turn_hwm, calm]
    simp
  · rw [Nat.max_def]
    split <;> omega
  · rw [Nat.max_def]
    split <;> omega

theorem marked_step (covers : Covers tolerance.toNat (retainBuckets tolerance.toNat))
    (caches : ReplayCaches) (attempt : Attempt)
    (marked : Marked tolerance.toNat attempt.now.toNat caches) :
    Marked tolerance.toNat attempt.now.toNat
      (verifySessionToken crypto tolerance caches attempt).2 := by
  cases gate : attempt.gated crypto tolerance with
  | false => rwa [verify_of_not_gated gate]
  | true =>
      obtain ⟨_, mark, window, bounded⟩ := turn_of_gated covers gate marked
      rw [verify_of_gated gate]
      constructor <;> intro other <;> by_cases same : other = attempt.scope crypto
      · subst same
        simpa [mark] using window
      · simpa [Function.update_of_ne same] using marked.window other
      · subst same
        simpa [mark] using bounded
      · simpa [Function.update_of_ne same] using marked.bounded other

theorem guards_step {scope : Scope} {ts : Nat} {token : Token}
    (covers : Covers tolerance.toNat (retainBuckets tolerance.toNat))
    (caches : ReplayCaches) (attempt : Attempt)
    (guards : Guards tolerance.toNat scope ts token attempt.now.toNat caches) :
    Guards tolerance.toNat scope ts token attempt.now.toNat
      (verifySessionToken crypto tolerance caches attempt).2 := by
  refine ⟨marked_step covers caches attempt guards.toMarked, ?_⟩
  cases gate : attempt.gated crypto tolerance with
  | false =>
      rw [verify_of_not_gated gate]
      exact guards.held
  | true =>
      obtain ⟨calm, _, window, bounded⟩ := turn_of_gated covers gate guards.toMarked
      rw [verify_of_gated gate]
      rcases guards.held with expired | stored
      · exact Or.inl expired
      · by_cases same : scope = attempt.scope crypto
        · subst same
          by_cases near : max (caches (attempt.scope crypto)).hwm
              (attempt.ts crypto / replayBucketSecs) - ts / replayBucketSecs ≤
              retainBuckets tolerance.toNat
          · refine Or.inr ?_
            dsimp only
            rw [Function.update_self]
            apply TokenReplayCache.insert_keeps
            rwa [TokenReplayCache.retained calm near]
          · -- The bucket is dropped, so the mark proves it expired.
            exact Or.inl (covers ts _ _ window bounded (by omega))
        · exact Or.inr (by simpa [Function.update_of_ne same] using stored)

theorem gated_of_accepted {caches : ReplayCaches} {attempt : Attempt}
    (accepted : (verifySessionToken crypto tolerance caches attempt).1 = true) :
    attempt.gated crypto tolerance = true := by
  cases gate : attempt.gated crypto tolerance with
  | true => rfl
  | false =>
      rw [verify_of_not_gated gate] at accepted
      cases accepted

theorem guards_of_accepted {caches : ReplayCaches} {attempt : Attempt}
    (covers : Covers tolerance.toNat (retainBuckets tolerance.toNat))
    (marked : Marked tolerance.toNat attempt.now.toNat caches)
    (accepted : (verifySessionToken crypto tolerance caches attempt).1 = true) :
    Guards tolerance.toNat (attempt.scope crypto) (attempt.ts crypto) attempt.token
      attempt.now.toNat (verifySessionToken crypto tolerance caches attempt).2 := by
  refine ⟨marked_step covers caches attempt marked, Or.inr ?_⟩
  have gate := gated_of_accepted accepted
  rw [verify_of_gated gate] at accepted ⊢
  dsimp only
  rw [Function.update_self]
  exact TokenReplayCache.insert_accepted accepted

theorem guards_after {past between : ServerRun} {first : Attempt}
    (covers : Covers tolerance.toNat (retainBuckets tolerance.toNat))
    (ordered : Monotone (past ++ first :: between))
    (accepted : accepts crypto tolerance past first = true) {now : Nat}
    (passed : ∀ attempt ∈ past ++ first :: between, attempt.now.toNat ≤ now) :
    Guards tolerance.toNat (first.scope crypto) (first.ts crypto) first.token now
      (serverAfter crypto tolerance (past ++ first :: between)) := by
  obtain ⟨sortedPast, sortedRest, across⟩ := List.pairwise_append.mp ordered
  obtain ⟨laterThanFirst, sortedBetween⟩ := List.pairwise_cons.mp sortedRest
  have marked : Marked tolerance.toNat first.now.toNat (serverAfter crypto tolerance past) :=
    run_clocked (Marked tolerance.toNat) (fun attempt => attempt.now.toNat) Marked.weaken
      (marked_step covers) (empty_marked _ 0) past sortedPast (fun _ _ => Nat.zero_le _)
      (Nat.zero_le _) fun attempt member => across attempt member first List.mem_cons_self
  have stored := guards_of_accepted covers marked accepted
  rw [serverAfter, run_append, run_cons]
  exact run_clocked (Guards tolerance.toNat (first.scope crypto) (first.ts crypto) first.token)
    (fun attempt => attempt.now.toNat) Guards.weaken (guards_step covers) stored between sortedBetween laterThanFirst
    (passed first (by simp)) fun attempt member => passed attempt (by simp [member])

theorem noReplay_of_covers (covers : Covers tolerance.toNat (retainBuckets tolerance.toNat)) :
    NoReplay crypto tolerance := by
  intro past between later first second ordered credential same accepted
  cases again : accepts crypto tolerance (past ++ first :: between) second with
  | false => rfl
  | true =>
      have gateFirst := gated_of_accepted accepted
      have gateSecond := gated_of_accepted again
      have password : first.password = second.password :=
        credential first (by simp) second (by simp) same
          (Bool.and_eq_true_iff.mp gateFirst).1 (Bool.and_eq_true_iff.mp gateSecond).1
      have sameTs : first.ts crypto = second.ts crypto := by
        rw [Attempt.ts, Attempt.ts, same, password]
      have sameScope : first.scope crypto = second.scope crypto := by
        rw [Attempt.scope, Attempt.scope, password]
      have split : Monotone ((past ++ first :: between) ++ second :: later) := by
        simpa using ordered
      obtain ⟨sorted, _, across⟩ := List.pairwise_append.mp split
      have guards := guards_after covers sorted accepted fun attempt member =>
        across attempt member second List.mem_cons_self
      have inWindow := (tsWithinTolerance_iff (ts_le second) (now_le second)).mp
        (Bool.and_eq_true_iff.mp gateSecond).2
      obtain ⟨calm, mark, _, _⟩ := turn_of_gated covers gateSecond guards.toMarked
      have held := guards.held
      rw [sameTs, sameScope, same] at held
      rcases held with expired | stored
      · exact absurd inWindow.1 (Nat.not_le.mpr expired)
      · have refused := TokenReplayCache.checkAndInsert_present calm stored
        rw [accepts, answer, verify_of_gated gateSecond] at again
        exact absurd again (Bool.eq_false_iff.mp refused)

theorem keepsWindow_of_covers
    (covers : Covers tolerance.toNat (retainBuckets tolerance.toNat)) :
    KeepsWindow crypto tolerance := by
  intro past between first ordered accepted now passed recent
  exact (guards_after covers ordered accepted passed).held.resolve_left
    (Nat.not_lt.mpr recent)

end Steps

section Wrapped
variable (crypto : TokenCrypto) (tolerance : UInt64)

def presented (now : UInt64) (ts : BitVec 64) : Attempt where
  now := now
  password := ""
  token := makeSessionToken crypto "" [] 0 ts
  bind := []

def overtaking : Attempt :=
  presented crypto tolerance
    (BitVec.ofNat 64 ((retainBuckets tolerance.toNat + 1) * replayBucketSecs))

variable {tolerance}

theorem presented_gated {now : UInt64} {ts : BitVec 64}
    (inWindow : now.toNat ≤ ts.toNat + tolerance.toNat ∧
      ts.toNat ≤ now.toNat + tolerance.toNat) :
    (presented crypto now ts).gated crypto tolerance = true := by
  have fits := (tsWithinTolerance_iff (Nat.le_sub_one_of_lt ts.isLt)
    (Nat.le_sub_one_of_lt now.toNat_lt)).mpr inWindow
  simpa [presented, Attempt.gated, Attempt.ts] using fits

theorem wrapped_bounds (wraps : 2 ^ 63 ≤ tolerance.toNat) (short : tolerance.toNat < 2 ^ 64 - 13) :
    (retainBuckets tolerance.toNat + 1) * replayBucketSecs < 2 ^ 64 := by
  simp only [retainBuckets, wrappingMul, replayBucketSecs]
  omega

theorem presented_ts (now : UInt64) (ts : BitVec 64) :
    (presented crypto now ts).ts crypto = ts.toNat := by
  simp [presented, Attempt.ts]

theorem first_gated (tolerance : UInt64) :
    (presented crypto tolerance 0).gated crypto tolerance = true :=
  presented_gated crypto (by simp)

theorem overtaking_ts (wraps : 2 ^ 63 ≤ tolerance.toNat)
    (short : tolerance.toNat < 2 ^ 64 - 13) :
    (overtaking crypto tolerance).ts crypto =
      (retainBuckets tolerance.toNat + 1) * replayBucketSecs := by
  rw [overtaking, presented_ts, BitVec.toNat_ofNat,
    Nat.mod_eq_of_lt (wrapped_bounds wraps short)]

theorem overtaking_gated (wraps : 2 ^ 63 ≤ tolerance.toNat)
    (short : tolerance.toNat < 2 ^ 64 - 13) :
    (overtaking crypto tolerance).gated crypto tolerance = true := by
  have fits := wrapped_bounds wraps short
  apply presented_gated
  rw [BitVec.toNat_ofNat, Nat.mod_eq_of_lt fits]
  omega

theorem first_accepted (tolerance : UInt64) :
    accepts crypto tolerance [] (presented crypto tolerance 0) = true := by
  rw [accepts, answer, verify_of_gated (first_gated crypto tolerance)]
  apply TokenReplayCache.insert_empty
  simp [TokenReplayCache.turn, TokenReplayCache.rollsBack, TokenReplayCache.retain,
    ReplayCaches.empty, TokenReplayCache.new]

theorem serverAfter_pair {first next : Attempt} {scope : Scope}
    (gateFirst : first.gated crypto tolerance = true)
    (gateNext : next.gated crypto tolerance = true)
    (scopeFirst : first.scope crypto = scope) (scopeNext : next.scope crypto = scope)
    (rising : first.ts crypto ≤ next.ts crypto) :
    let retain := retainBuckets tolerance.toNat
    let self := (TokenReplayCache.new.checkAndInsert (first.ts crypto) first.token retain).2
    self.rollsBack (next.ts crypto) retain = false ∧
      (self.turn (next.ts crypto) retain).hwm = next.ts crypto / replayBucketSecs ∧
      serverAfter crypto tolerance [first, next] scope =
        (self.checkAndInsert (next.ts crypto) next.token retain).2 := by
  intro retain self
  have mark : self.hwm = first.ts crypto / replayBucketSecs := by
    simp [self, TokenReplayCache.turn_hwm, TokenReplayCache.rollsBack, TokenReplayCache.new]
  have buckets : first.ts crypto / replayBucketSecs ≤ next.ts crypto / replayBucketSecs :=
    Nat.div_le_div_right rising
  have small : next.ts crypto / replayBucketSecs ≤ maxU64 :=
    Nat.le_trans (Nat.div_le_self _ _) (ts_le next)
  have calm : self.rollsBack (next.ts crypto) retain = false := by
    rw [TokenReplayCache.rollsBack, mark, decide_eq_false_iff_not, saturatingAdd]
    omega
  refine ⟨calm, ?_, ?_⟩
  · rw [TokenReplayCache.turn_hwm, calm, mark]
    exact Nat.max_eq_right buckets
  · simp only [serverAfter, run_cons, run_nil]
    rw [verify_of_gated gateNext, scopeNext, verify_of_gated gateFirst, scopeFirst]
    simp [self, retain, ReplayCaches.empty]

/-- Bucket zero is forgotten although its timestamp is within the tolerance. -/
theorem overtaken (wraps : 2 ^ 63 ≤ tolerance.toNat) (short : tolerance.toNat < 2 ^ 64 - 13) :
    let caches := serverAfter crypto tolerance
      [presented crypto tolerance 0, overtaking crypto tolerance]
    (caches (crypto.scope "")).hwm = retainBuckets tolerance.toNat + 1 ∧
      (caches (crypto.scope "")).cache 0 = [] := by
  intro caches
  obtain ⟨_, mark, state⟩ := serverAfter_pair crypto (first_gated crypto tolerance)
    (overtaking_gated crypto wraps short) rfl rfl
    (by simp [presented_ts])
  have bucket : (overtaking crypto tolerance).ts crypto / replayBucketSecs =
      retainBuckets tolerance.toNat + 1 := by
    rw [overtaking_ts crypto wraps short, Nat.mul_div_cancel _ (by decide)]
  rw [bucket] at mark
  rw [show caches (crypto.scope "") = _ from state]
  constructor
  · rw [TokenReplayCache.checkAndInsert_hwm, mark]
  · apply TokenReplayCache.checkAndInsert_drops
    · omega
    · rw [mark]
      omega

theorem firstBucket : (0 : BitVec 64).toNat / replayBucketSecs = 0 := rfl

theorem replayed (wraps : 2 ^ 63 ≤ tolerance.toNat) (short : tolerance.toNat < 2 ^ 64 - 13) :
    accepts crypto tolerance [presented crypto tolerance 0, overtaking crypto tolerance]
      (presented crypto tolerance 0) = true := by
  obtain ⟨mark, _⟩ := overtaken crypto wraps short
  have scope : (presented crypto tolerance 0).scope crypto = crypto.scope "" := rfl
  rw [accepts, answer, verify_of_gated (first_gated crypto tolerance), scope]
  apply TokenReplayCache.checkAndInsert_of_rollsBack
  rw [serverAfter] at mark
  rw [TokenReplayCache.rollsBack, mark, presented_ts, firstBucket, decide_eq_true_iff,
    saturatingAdd]
  omega

theorem not_noReplay_of_wrapped (wraps : 2 ^ 63 ≤ tolerance.toNat)
    (short : tolerance.toNat < 2 ^ 64 - 13) : ¬ NoReplay crypto tolerance := by
  intro safe
  have refused := safe [] [overtaking crypto tolerance] [] (presented crypto tolerance 0)
    (presented crypto tolerance 0) (by simp [Monotone, overtaking, presented])
    (by simp [OneCredential, overtaking, presented]) rfl (first_accepted crypto tolerance)
  rw [List.nil_append, replayed crypto wraps short] at refused
  cases refused

theorem not_keepsWindow_of_wrapped (wraps : 2 ^ 63 ≤ tolerance.toNat)
    (short : tolerance.toNat < 2 ^ 64 - 13) : ¬ KeepsWindow crypto tolerance := by
  intro keeps
  have stored := keeps [] [overtaking crypto tolerance] (presented crypto tolerance 0)
    (by simp [Monotone, overtaking, presented]) (first_accepted crypto tolerance)
    tolerance.toNat (by simp [overtaking, presented]) (by simp)
  have scope : (presented crypto tolerance 0).scope crypto = crypto.scope "" := rfl
  rw [presented_ts, firstBucket, scope, List.nil_append,
    (overtaken crypto wraps short).2] at stored
  cases stored

end Wrapped

/-- Replay protection holds exactly for the tolerances whose double either does
not wrap, or wraps so high that no bucket is ever dropped. -/
theorem replay_protected_iff (crypto : TokenCrypto) (tolerance : UInt64) :
    (NoReplay crypto tolerance ↔
      tolerance.toNat < 2 ^ 63 ∨ 2 ^ 64 - 13 ≤ tolerance.toNat) ∧
    (KeepsWindow crypto tolerance ↔
      tolerance.toNat < 2 ^ 63 ∨ 2 ^ 64 - 13 ≤ tolerance.toNat) := by
  have covers : tolerance.toNat < 2 ^ 63 ∨ 2 ^ 64 - 13 ≤ tolerance.toNat →
      Covers tolerance.toNat (retainBuckets tolerance.toNat) := fun fits =>
    covers_retainBuckets (fits.imp_right fun large => ⟨large, tolerance.toNat_lt⟩)
  constructor
  · refine ⟨fun safe => ?_, fun fits => noReplay_of_covers (covers fits)⟩
    by_contra wrapped
    exact not_noReplay_of_wrapped crypto (by omega) (by omega) safe
  · refine ⟨fun keeps => ?_, fun fits => keepsWindow_of_covers (covers fits)⟩
    by_contra wrapped
    exact not_keepsWindow_of_wrapped crypto (by omega) (by omega) keeps

/-- With a tolerance of `2 ^ 63` seconds only two buckets are kept. -/
theorem tolerance_two_pow_63_replays : ¬ NoReplay plainCrypto 0x8000000000000000 :=
  not_noReplay_of_wrapped plainCrypto (by decide) (by decide)

end Mirage.Auth
