import Mirage.Quota.Ledger
import Mirage.Udp.Uplinks

/-!
What one charge does to a session's meter: it takes the bytes once from each bucket and
from the quota, or brings the buckets up to date, which no later call can tell.
-/

namespace Mirage.Udp.Uplinks
open Rate Quota

section Buckets
variable {now later : ℚ} {b1 b2 : Option Bucket} {n : Nat}

def Bucket.Before (now : ℚ) (bucket : Bucket) : Prop := bucket.2.last ≤ now

theorem refill_again {bucket : TokenBucket} (s : BucketState bucket) :
    (s.refill now).refill now = s.refill now := by
  apply BucketState.ext
  · exact BucketState.level_refill_self s now
  · rfl

/-- A call sees nothing of a bucket but what it brings up to date. -/
theorem tryConsumeTwo_refill :
    tryConsumeTwo (b1.map (Bucket.refill now)) (b2.map (Bucket.refill now)) n now =
      tryConsumeTwo b1 b2 n now := by
  cases b1 with
  | none =>
      cases b2 with
      | none => rfl
      | some b =>
          simp only [tryConsumeTwo, Option.map_none, Option.map_some, Bucket.refill,
            BucketState.tryConsume, refill_again]
  | some a =>
      cases b2 with
      | none =>
          simp only [tryConsumeTwo, Option.map_none, Option.map_some, Bucket.refill,
            BucketState.tryConsume, refill_again]
      | some b =>
          simp only [tryConsumeTwo, Option.map_some, Bucket.refill, BucketState.tryConsumeBoth,
            refill_again]

/-- The tokens that a bucket lost at one time. -/
def lost (now : ℚ) : Option Bucket → Option Bucket → ℚ
  | some before, some after => before.2.level now - after.2.level now
  | _, _ => 0

end Buckets

namespace Meter
variable {meter other : Meter} {now later : ℚ} {n : Nat}

def refill (now : ℚ) (meter : Meter) : Meter :=
  { meter with device := meter.device.map (Bucket.refill now), up := meter.up.map (Bucket.refill now) }

/-- The buckets were last used before. -/
structure Before (now : ℚ) (meter : Meter) : Prop where
  device : ∀ bucket ∈ meter.device, bucket.Before now
  up : ∀ bucket ∈ meter.up, bucket.Before now

theorem Before.mono (before : meter.Before now) (ordered : now ≤ later) : meter.Before later where
  device bucket member := le_trans (before.device bucket member) ordered
  up bucket member := le_trans (before.up bucket member) ordered

theorem tryConsume_refill : (meter.refill now).tryConsume n now = meter.tryConsume n now := by
  simp only [tryConsume, refill, tryConsumeTwo_refill]

/-- The bytes on the user's counter. -/
def used (meter : Meter) : UInt64 := (meter.userLimit.map (·.periodUsed)).getD 0

/-- Neither the password nor the user is withdrawn, and the quota is not used up. -/
def counts (meter : Meter) : Bool := !meter.credRevoked && meter.userLimit.any (·.counts)

theorem recordBytes_used (meter : Meter) (n : Nat) :
    (meter.recordBytes n).2.used - meter.used = if meter.counts then UInt64.ofNat n else 0 := by
  obtain ⟨device, up, limit, revoked⟩ := meter
  cases revoked with
  | true => exact UInt64.sub_self _
  | false =>
      cases limit with
      | none => exact UInt64.sub_self _
      | some handle =>
          change _ = if handle.counts then UInt64.ofNat n else 0
          cases exhausted : handle.isExhausted with
          | true =>
              have stops : shouldStop ⟨device, up, some handle, false⟩ = true := exhausted
              have shut : handle.counts = false := by simp [UserLimitHandle.counts, exhausted]
              rw [recordBytes, if_pos stops, shut]
              exact UInt64.sub_self _
          | false =>
              have stays : ¬ shouldStop ⟨device, up, some handle, false⟩ = true := by
                simp [shouldStop, exhausted]
              rw [recordBytes, if_neg stays]
              change (handle.recordBytes (UInt64.ofNat n)).2.periodUsed - handle.periodUsed = _
              rw [handle.recordBytes_used]
              split
              · rw [UInt64.add_comm, UInt64.add_sub_cancel]
              · exact UInt64.sub_self _

/-- No call from now on can tell the two apart. -/
def Alike (now : ℚ) (meter other : Meter) : Prop :=
  ∀ later, now ≤ later → meter.refill later = other.refill later

theorem alike_iff : meter.Alike now other ↔
    (∀ later, now ≤ later →
      meter.device.map (Bucket.refill later) = other.device.map (Bucket.refill later)) ∧
    (∀ later, now ≤ later → meter.up.map (Bucket.refill later) = other.up.map (Bucket.refill later)) ∧
    meter.userLimit = other.userLimit ∧ meter.credRevoked = other.credRevoked := by
  simp only [Alike, refill, Meter.mk.injEq]
  constructor
  · intro alike
    exact ⟨fun later ordered => (alike later ordered).1, fun later ordered => (alike later ordered).2.1,
      (alike now le_rfl).2.2⟩
  · rintro ⟨device, up, rest⟩ later ordered
    exact ⟨device later ordered, up later ordered, rest⟩

theorem Alike.tryConsume (alike : meter.Alike now other) :
    meter.tryConsume n now = other.tryConsume n now := by
  rw [← tryConsume_refill, alike now le_rfl, tryConsume_refill]

theorem Alike.shouldStop (alike : meter.Alike now other) : meter.shouldStop = other.shouldStop := by
  obtain ⟨_, _, limits, marks⟩ := alike_iff.mp alike
  rw [Meter.shouldStop, Meter.shouldStop, limits, marks]

end Meter

section Charge
variable {session other : Session} {n : Nat}

/-- Tokens of the two buckets, and bytes of the quota. -/
structure Amount where
  device : ℚ
  up : ℚ
  quota : UInt64
  deriving DecidableEq

def Amount.nothing : Amount := ⟨0, 0, 0⟩

/-- What one step took. -/
def taken (before after : Session) : Amount where
  device := lost before.now before.meter.device after.meter.device
  up := lost before.now before.meter.up after.meter.up
  quota := after.meter.used - before.meter.used

/-- What one charge takes: there may be no bucket, and no quota that is still open. -/
def Meter.takes (meter : Meter) (n : Nat) : Amount where
  device := if meter.device.isSome then n else 0
  up := if meter.up.isSome then n else 0
  quota := if meter.counts then UInt64.ofNat n else 0

def Session.passes (session : Session) (n : Nat) : Bool := (session.meter.tryConsume n session.now).1

/-- Two sessions whose meters no later call can tell apart. -/
structure Level (session other : Session) : Prop where
  now : session.now = other.now
  running : session.running = other.running
  before : session.meter.Before session.now
  before' : other.meter.Before session.now
  alike : session.meter.Alike session.now other.meter

theorem Level.tryConsume (level : Level session other) :
    session.meter.tryConsume n session.now = other.meter.tryConsume n other.now := by
  rw [← level.now]
  exact level.alike.tryConsume

theorem Level.passes (level : Level session other) : session.passes n = other.passes n :=
  congrArg Prod.fst level.tryConsume

theorem Level.takes (level : Level session other) : session.meter.takes n = other.meter.takes n := by
  obtain ⟨device, up, limits, marks⟩ := Meter.alike_iff.mp level.alike
  have first := congrArg Option.isSome (device _ le_rfl)
  have second := congrArg Option.isSome (up _ le_rfl)
  rw [Option.isSome_map, Option.isSome_map] at first second
  rw [Meter.takes, Meter.takes, Meter.counts, Meter.counts, first, second, limits, marks]

/-- The session would let the bytes through, and they would cost something. -/
structure Charges (session : Session) (n : Nat) : Prop where
  running : session.running = true
  passes : session.passes n = true
  something : session.meter.takes n ≠ .nothing

end Charge

end Mirage.Udp.Uplinks
