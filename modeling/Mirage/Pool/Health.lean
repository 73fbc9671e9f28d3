import Mathlib.Algebra.Group.Nat.Defs
import Mathlib.Data.List.Basic
import Mathlib.Data.List.Sort

/-!
The health of a node in proxy/pool.rs: what probes and relayed connections say
of it, one event at a time. Three failed probes in a row take a node out, three
failed targets put it last for a while.
-/

namespace Mirage.Pool.Health

/-- In nanoseconds, as every instant here. -/
def seconds (count : Nat) : Nat := count * 1000000000

def deadAfterFailures : UInt32 := 3
def recoverAfterSuccesses : UInt32 := 2
def penalizeAfterFailures : UInt32 := 3
def penaltyClearSuccesses : UInt32 := 2
def penaltyDuration : Nat := seconds 300
def slowTriggerCount : UInt32 := 3
def probeTriggerCooldown : Nat := seconds 60
def slowFloorDuration : Nat := seconds 300

def u32Max : UInt32 := 0xffffffff
def u64Max : Nat := 2 ^ 64 - 1

structure SlowFloor where
  rtt : Nat
  baseline : Nat
  expires : Nat
  deriving DecidableEq

structure PoolStats where
  latencySamples : List Nat
  consecutiveFailures : UInt32
  consecutiveSuccesses : UInt32
  dead : Bool
  lastSampleTime : Option Nat
  lastFailureTime : Option Nat
  realFailures : UInt32
  realSuccesses : UInt32
  penalizedUntil : Option Nat
  recentFailTargets : List String
  slowCount : UInt32
  recentSlowTargets : List String
  lastProbeTrigger : Option Nat
  probeBaseline : Option Nat
  slowFloor : Option SlowFloor
  deriving DecidableEq

/-- `ttfb_ms > max(baseline * 4, baseline + 1500)`, saturating. -/
def isSlowTtfb (ttfbMs : Nat) (baselineMs : Option Nat) : Option Bool :=
  baselineMs.map fun baseline =>
    let threshold := max (min (baseline * 4) u64Max) (min (baseline + 1500) u64Max)
    decide (threshold < ttfbMs)

/-- `VecDeque::pop_front` once the queue is at its limit, then `push_back`. -/
def pushBounded {Item : Type} (limit : Nat) (queue : List Item) (item : Item) : List Item :=
  (if limit ≤ queue.length then queue.tail else queue) ++ [item]

namespace PoolStats

def new : PoolStats :=
  { latencySamples := []
    consecutiveFailures := 0
    consecutiveSuccesses := 0
    dead := false
    lastSampleTime := none
    lastFailureTime := none
    realFailures := 0
    realSuccesses := 0
    penalizedUntil := none
    recentFailTargets := []
    slowCount := 0
    recentSlowTargets := []
    lastProbeTrigger := none
    probeBaseline := none
    slowFloor := none }

def recordLatency (stats : PoolStats) (ms now : Nat) : PoolStats :=
  let successes :=
    if stats.consecutiveSuccesses = u32Max then u32Max else stats.consecutiveSuccesses + 1
  { stats with
    latencySamples := pushBounded 10 stats.latencySamples ms
    lastSampleTime := some now
    consecutiveFailures := 0
    lastFailureTime := none
    consecutiveSuccesses := successes
    dead := stats.dead && !decide (recoverAfterSuccesses ≤ successes) }

def recordFailure (stats : PoolStats) (now : Nat) : PoolStats :=
  let failures := stats.consecutiveFailures + 1
  { stats with
    consecutiveFailures := failures
    lastFailureTime := some now
    consecutiveSuccesses := 0
    dead := stats.dead || decide (deadAfterFailures ≤ failures) }

def isPenalizedAt (stats : PoolStats) (now : Nat) : Bool :=
  match stats.penalizedUntil with
  | some expires => decide (now < expires)
  | none => false

/-- A penalty that has run out leaves nothing behind. -/
def expire (stats : PoolStats) (now : Nat) : PoolStats :=
  if stats.penalizedUntil.isSome && !stats.isPenalizedAt now then
    { stats with
      realFailures := 0
      recentFailTargets := []
      realSuccesses := 0
      penalizedUntil := none }
  else stats

/-- `true` when the node has just been penalised. -/
def recordRealFailureAt (stats : PoolStats) (target : String) (now : Nat) : Bool × PoolStats :=
  let stats := { stats.expire now with realSuccesses := 0 }
  if target ∈ stats.recentFailTargets then (false, stats)
  else
    let failures := stats.realFailures + 1
    let counted :=
      { stats with
        recentFailTargets := pushBounded 3 stats.recentFailTargets target
        realFailures := failures }
    if penalizeAfterFailures ≤ failures then
      (!stats.isPenalizedAt now, { counted with penalizedUntil := some (now + penaltyDuration) })
    else (false, counted)

def recordRealSuccessAt (stats : PoolStats) (now : Nat) : PoolStats :=
  let stats := { stats with realFailures := 0, recentFailTargets := [] }
  if stats.isPenalizedAt now then
    let successes := stats.realSuccesses + 1
    if penaltyClearSuccesses ≤ successes then
      { stats with penalizedUntil := none, realSuccesses := 0 }
    else { stats with realSuccesses := successes }
  else { stats with penalizedUntil := none, realSuccesses := 0 }

def medianLatencyMs (stats : PoolStats) : Option Nat :=
  let sorted := stats.latencySamples.mergeSort
  sorted[sorted.length / 2]?

/-- `true` when a probe is to be made. -/
def recordRealSlowAt (stats : PoolStats) (target : String) (now : Nat) : Bool × PoolStats :=
  if target ∈ stats.recentSlowTargets then (false, stats)
  else
    let stats :=
      { stats with
        recentSlowTargets :=
          pushBounded slowTriggerCount.toNat stats.recentSlowTargets target
        slowCount := stats.slowCount + 1 }
    let cooledDown :=
      match stats.lastProbeTrigger with
      | some last => decide (last + probeTriggerCooldown ≤ now)
      | none => true
    if decide (slowTriggerCount ≤ stats.slowCount) && cooledDown then
      (true, { stats with
        lastProbeTrigger := some now
        probeBaseline := stats.medianLatencyMs
        slowCount := 0
        recentSlowTargets := [] })
    else (false, stats)

def recordRealFast (stats : PoolStats) : PoolStats :=
  { stats with slowCount := 0, recentSlowTargets := [] }

def confirmSlowAt (stats : PoolStats) (rtt baseline now : Nat) : PoolStats :=
  { stats.recordLatency rtt now with
    slowFloor := some ⟨rtt, baseline, now + slowFloorDuration⟩ }

/-- `true` when the floor in force is lifted early. -/
def maybeClearSlowFloorAt (stats : PoolStats) (rtt now : Nat) : Bool × PoolStats :=
  match stats.slowFloor with
  | some floor =>
      if now < floor.expires then
        if isSlowTtfb rtt (some floor.baseline) = some false then
          (true, { stats with slowFloor := none })
        else (false, stats)
      else (false, { stats with slowFloor := none })
  | none => (false, stats)

def onNetworkChange (stats : PoolStats) : PoolStats :=
  { stats with
    consecutiveFailures := 0
    lastFailureTime := none
    consecutiveSuccesses :=
      if stats.dead then recoverAfterSuccesses - 1 else stats.consecutiveSuccesses
    realFailures := 0
    realSuccesses := 0
    penalizedUntil := none
    recentFailTargets := []
    slowCount := 0
    recentSlowTargets := []
    probeBaseline := none
    slowFloor := none }

end PoolStats

inductive Event where
  | latency (ms : Nat)
  | failure
  | realFailure (target : String)
  | realSuccess
  | networkChange
  | realSlow (target : String)
  | realFast
  | confirmSlow (rtt baseline : Nat)
  | clearSlowFloor (rtt : Nat)

structure Timed where
  time : Nat
  event : Event

def PoolStats.step (stats : PoolStats) (timed : Timed) : PoolStats :=
  match timed.event with
  | .latency ms => stats.recordLatency ms timed.time
  | .failure => stats.recordFailure timed.time
  | .realFailure target => (stats.recordRealFailureAt target timed.time).2
  | .realSuccess => stats.recordRealSuccessAt timed.time
  | .networkChange => stats.onNetworkChange
  | .realSlow target => (stats.recordRealSlowAt target timed.time).2
  | .realFast => stats.recordRealFast
  | .confirmSlow rtt baseline => stats.confirmSlowAt rtt baseline timed.time
  | .clearSlowFloor rtt => (stats.maybeClearSlowFloorAt rtt timed.time).2

def run (history : List Timed) : PoolStats := history.foldl PoolStats.step .new

theorem run_append (history : List Timed) (timed : Timed) :
    run (history ++ [timed]) = (run history).step timed := by
  rw [run, List.foldl_append]
  rfl

/-! What the history says. -/

inductive Signal where
  | success
  | failure
  | change
  deriving DecidableEq

def Event.signal : Event → Option Signal
  | .latency _ | .confirmSlow _ _ => some .success
  | .failure => some .failure
  | .networkChange => some .change
  | _ => none

inductive Relay where
  | failure (target : String)
  | success
  | change
  deriving DecidableEq

def Event.relay : Event → Option Relay
  | .realFailure target => some (.failure target)
  | .realSuccess => some .success
  | .networkChange => some .change
  | _ => none

def signals (history : List Timed) : List Signal :=
  history.filterMap fun timed => timed.event.signal

def relays (history : List Timed) : List Relay :=
  history.filterMap fun timed => timed.event.relay

/-- Two successes in a row, or one right after a network change. -/
def Recovers (signals : List Signal) : Prop :=
  [.success, .success] <:+: signals ∨ [.change, .success] <:+: signals

/-- Three failures in a row with no recovery after them. -/
def Dead (signals : List Signal) : Prop :=
  ∃ before after, signals = before ++ [.failure, .failure, .failure] ++ after ∧ ¬Recovers after

/-- A network change, or two successes with no failure between them. -/
def Lifted (relays : List Relay) : Prop :=
  .change ∈ relays ∨ [.success, .success] <:+: relays

/-- `target` is the third of three targets to fail since the last success or
network change; the other two are still tracked. -/
def ThirdTarget (relays : List Relay) (tracked : List String) (target : String) : Prop :=
  ∃ before since first second, relays = before ++ since ∧
    (∀ relay ∈ since, ∃ other, relay = .failure other) ∧
      .failure first ∈ since ∧ .failure second ∈ since ∧
        first ∈ tracked ∧ second ∈ tracked ∧ [first, second, target].Nodup

def Trips (stats : PoolStats) (target : String) (now : Nat) : Prop :=
  target ∉ (stats.expire now).recentFailTargets ∧
    penalizeAfterFailures ≤ (stats.expire now).realFailures + 1

/-- A failure has tripped the penalty less than its duration ago, and it has not
been lifted since. -/
def Penalised (history : List Timed) (now : Nat) : Prop :=
  ∃ before time target after, history = before ++ ⟨time, .realFailure target⟩ :: after ∧
    Trips (run before) target time ∧ now < time + penaltyDuration ∧ ¬Lifted (relays after)

end Mirage.Pool.Health
