import Mathlib.Algebra.Order.Field.Rat
import Mathlib.Tactic.Linarith
import Mathlib.Tactic.NormNum
import Mathlib.Tactic.Positivity
import Mirage.Lib.Trace
import Mirage.Lib.Rounding
import Mirage.Quic.AckStats

/-!
The erasure congestion controller of quic_cc.rs over exact rationals. A sample
is taken of what was acked and lost in about one round trip; the calls of one
acknowledgement share their time, and those after the call that closed a sample
take it back and close it again with their bytes. Of the inner controller only
the window is seen.
-/

namespace Mirage.Quic
open Trace Rounding

def minSamples : Nat := 20
def ewmaAlpha : ℚ := 1 / 4
def leak : ℚ := 3 / 1000
def margin : ℚ := 1 / 20
def floorCap : ℚ := 7 / 10
def minInterval : Nat := 20000000
def minIntervalPackets : Nat := 10
def congestKnee : ℚ := 1 / 10
def gapSafeChunks : ℚ := 6400
def initialRtt : Nat := 100000000
def u32Cap : Nat := 4294967295
def u64Cap : Nat := 18446744073709551615

/-- The cast of a float to `u64`. -/
def asU64 (x : ℚ) : Nat := truncate u64Cap x

def gapSafeCap (mtu : Nat) (p : ℚ) : Nat := max (asU64 (gapSafeChunks * mtu / p)) (mtu * 8)

/-- What a sample changes, and what a snapshot keeps from before it. -/
structure Estimate where
  pEwma : ℚ
  floor : ℚ
  recentExcess : ℚ
  samples : Nat

structure FinalizedSnapshot where
  time : Nat
  prev : Estimate
  acked : Nat
  lost : Nat

structure ErasureController extends Estimate where
  ackedAcc : Nat
  lostAcc : Nat
  intervalStart : Nat
  lastRtt : Nat
  mtu : Nat
  lastFinalized : Option FinalizedSnapshot

namespace Estimate

/-- The step of an average towards `x`. -/
def ewma (before x : ℚ) : ℚ := (1 - ewmaAlpha) * before + ewmaAlpha * x

def applySample (self : Estimate) (acked lost : Nat) : Estimate :=
  let total := acked + lost
  if total = 0 then self
  else if acked = 0 then
    -- nothing came through: the floor and the count of samples stay
    { self with
      pEwma := if self.samples = 0 then 1 else ewma self.pEwma 1
      recentExcess := ewma self.recentExcess congestKnee }
  else
    let p : ℚ := lost / total
    let pEwma := if self.samples = 0 then p else ewma self.pEwma p
    let floor := if pEwma < self.floor then pEwma else min (self.floor + leak) pEwma
    { pEwma, floor
      recentExcess := ewma self.recentExcess (max (pEwma - floor) 0)
      samples := min (self.samples + 1) u32Cap }

def calibrated (self : Estimate) : Bool := decide (self.samples ≥ minSamples)

end Estimate

namespace ErasureController

def withInner (now currentMtu : Nat) : ErasureController where
  pEwma := 0
  floor := 1
  recentExcess := 0
  samples := 0
  ackedAcc := 0
  lostAcc := 0
  intervalStart := now
  lastRtt := initialRtt
  mtu := max currentMtu 1200
  lastFinalized := none

/-- Later bytes of the time of `snap` go into its sample. -/
def reopen (self : ErasureController) (snap : FinalizedSnapshot) : ErasureController :=
  if self.ackedAcc > 0 ∨ self.lostAcc > 0 then
    let acked := snap.acked + self.ackedAcc
    let lost := snap.lost + self.lostAcc
    { self with
      toEstimate := snap.prev.applySample acked lost
      ackedAcc := 0
      lostAcc := 0
      lastFinalized := some { snap with acked, lost } }
  else self

/-- A sample of what is there, once it is long enough and large enough. -/
def closeInterval (self : ErasureController) (now : Nat) : ErasureController :=
  let interval := max self.lastRtt minInterval
  if now - self.intervalStart < interval then self
  else if self.ackedAcc + self.lostAcc < minIntervalPackets * self.mtu then self
  else
    { self with
      toEstimate := self.toEstimate.applySample self.ackedAcc self.lostAcc
      ackedAcc := 0
      lostAcc := 0
      intervalStart := now
      lastFinalized := some ⟨now, self.toEstimate, self.ackedAcc, self.lostAcc⟩ }

def maybeFinalize (self : ErasureController) (now : Nat) : ErasureController :=
  match self.lastFinalized with
  | some snap => if snap.time = now then self.reopen snap else self.closeInterval now
  | none => self.closeInterval now

def recordAck (self : ErasureController) (now bytes currentRtt : Nat) : ErasureController :=
  { self with lastRtt := currentRtt, ackedAcc := self.ackedAcc + bytes }.maybeFinalize now

/-- The excess over the floor that decides on a loss, with what is not yet in a
sample when that is large enough. -/
def liveExcess (self : ErasureController) : ℚ :=
  let excess := self.pEwma - self.floor
  let liveTotal := self.ackedAcc + self.lostAcc
  if liveTotal ≥ minIntervalPackets * self.mtu then
    let liveP : ℚ := self.lostAcc / liveTotal
    let liveEwma := if self.samples = 0 then liveP else Estimate.ewma self.pEwma liveP
    max excess (liveEwma - self.floor)
  else excess

/-- The end of a loss event: the snapshot goes, and the answer is whether the
inner controller is told. -/
def endLoss (self : ErasureController) (persistent : Bool) : Bool × ErasureController :=
  let self := { self with
    lastFinalized := none
    recentExcess := if persistent then max self.recentExcess congestKnee else self.recentExcess }
  (persistent || !self.calibrated || decide (self.liveExcess > margin), self)

def onCongestionEvent (self : ErasureController) (now : Nat) (persistent : Bool)
    (lostBytes : Nat) : Bool × ErasureController :=
  ({ self with lostAcc := self.lostAcc + lostBytes }.maybeFinalize now).endLoss persistent

def onMtuUpdate (self : ErasureController) (newMtu : Nat) : ErasureController :=
  { self with mtu := max newMtu 1200 }

/-- The factor on the inner window. -/
def inflation (self : Estimate) : ℚ :=
  let f := min self.floor floorCap
  let fullInflation := 1 / (1 - f)
  let damp := max (1 - min (self.recentExcess / congestKnee) 1) 0
  1 + (fullInflation - 1) * damp

/-- The window, from the `u64` that the inner controller gives. -/
def window (self : ErasureController) (inner : UInt64) : Nat :=
  let w := if self.calibrated then asU64 (inner.toNat * inflation self.toEstimate)
    else inner.toNat
  if self.samples > 0 ∧ self.pEwma > 1 / 50 then min w (gapSafeCap self.mtu self.pEwma) else w

end ErasureController

inductive Call where
  | ack (now bytes currentRtt : Nat)
  | congestion (now : Nat) (persistent : Bool) (lostBytes : Nat)
  | mtuUpdate (newMtu : Nat)
  deriving DecidableEq

def Call.time : Call → Option Nat
  | .ack now _ _ => some now
  | .congestion now _ _ => some now
  | .mtuUpdate _ => none

/-- The calls of one acknowledgement: they share their time and round trip, and
one loss event ends them if anything was lost. -/
structure AckBatch where
  time : Nat
  rtt : Nat
  acks : List Nat
  lost : Option (Bool × Nat)
  filled : acks ≠ [] ∨ lost ≠ none

def AckBatch.calls (batch : AckBatch) : List Call :=
  batch.acks.map (Call.ack batch.time · batch.rtt) ++
    batch.lost.toList.map fun loss => Call.congestion batch.time loss.1 loss.2

namespace ErasureController

def step (self : ErasureController) : Call → Option Bool × ErasureController
  | .ack now bytes currentRtt => (none, self.recordAck now bytes currentRtt)
  | .congestion now persistent lostBytes =>
      let answered := self.onCongestionEvent now persistent lostBytes
      (some answered.1, answered.2)
  | .mtuUpdate newMtu => (none, self.onMtuUpdate newMtu)

def oneSample (self : ErasureController) (batch : AckBatch) : ErasureController :=
  let summed := { self with
    lastRtt := if batch.acks = [] then self.lastRtt else batch.rtt
    ackedAcc := self.ackedAcc + batch.acks.sum
    lostAcc := self.lostAcc + batch.lost.elim 0 Prod.snd }.maybeFinalize batch.time
  match batch.lost with
  | none => summed
  | some (persistent, _) => (summed.endLoss persistent).2

/-- The gap cap applies. -/
def GapCapped (self : ErasureController) : Prop := self.samples > 0 ∧ self.pEwma > 1 / 50

def Ready (self : ErasureController) (now : Nat) : Prop :=
  max self.lastRtt minInterval ≤ now - self.intervalStart ∧
    minIntervalPackets * self.mtu ≤ self.ackedAcc + self.lostAcc

def credit (self : ErasureController) (acked lost : Nat) : ErasureController :=
  { self with ackedAcc := self.ackedAcc + acked, lostAcc := self.lostAcc + lost }

/-- No sample was closed at `now`. -/
def Fresh (self : ErasureController) (now : Nat) : Prop :=
  ∀ snap, self.lastFinalized = some snap → snap.time ≠ now

def closed (self : ErasureController) (now : Nat) : ErasureController :=
  { self with
    toEstimate := self.toEstimate.applySample self.ackedAcc self.lostAcc
    ackedAcc := 0
    lostAcc := 0
    intervalStart := now
    lastFinalized := some ⟨now, self.toEstimate, self.ackedAcc, self.lostAcc⟩ }

/-- The sample of `snap` is taken back and closed with what came since. -/
def reopened (self : ErasureController) (snap : FinalizedSnapshot) : ErasureController :=
  { self with
    toEstimate := snap.prev.applySample (snap.acked + self.ackedAcc) (snap.lost + self.lostAcc)
    ackedAcc := 0
    lostAcc := 0
    lastFinalized :=
      some { snap with acked := snap.acked + self.ackedAcc, lost := snap.lost + self.lostAcc } }

section Batches
variable {self : ErasureController} {now rtt acked lost : Nat}

theorem credit_credit (self : ErasureController) (acked lost moreAcked moreLost : Nat) :
    (self.credit acked lost).credit moreAcked moreLost =
      self.credit (acked + moreAcked) (lost + moreLost) := by
  simp only [credit, Nat.add_assoc]

theorem maybeFinalize_fresh (fresh : self.Fresh now) :
    self.maybeFinalize now = self.closeInterval now := by
  unfold maybeFinalize
  cases found : self.lastFinalized with
  | none => rfl
  | some snap => exact if_neg (fresh snap found)

theorem closeInterval_early (early : ¬ self.Ready now) : self.closeInterval now = self := by
  unfold closeInterval
  dsimp only
  split
  · rfl
  · split
    · rfl
    · exact (early ⟨by omega, by omega⟩).elim

theorem closeInterval_ready (ready : self.Ready now) :
    self.closeInterval now = self.closed now := by
  unfold closeInterval
  dsimp only
  rw [if_neg (by have := ready.1; omega), if_neg (by have := ready.2; omega)]
  rfl

theorem maybeFinalize_cases (self : ErasureController) (now : Nat) :
    self.maybeFinalize now = self ∨
      (∃ snap, self.lastFinalized = some snap ∧ snap.time = now ∧
        self.maybeFinalize now = self.reopened snap) ∨
      self.maybeFinalize now = self.closed now := by
  by_cases fresh : self.Fresh now
  · rw [maybeFinalize_fresh fresh]
    by_cases ready : self.Ready now
    · exact .inr (.inr (closeInterval_ready ready))
    · exact .inl (closeInterval_early ready)
  · obtain ⟨snap, found, same⟩ : ∃ snap, self.lastFinalized = some snap ∧ snap.time = now := by
      simpa [Fresh] using fresh
    have again : self.maybeFinalize now = self.reopen snap := by
      rw [maybeFinalize, found]
      exact if_pos same
    rw [again, reopen]
    split
    · exact .inr (.inl ⟨snap, found, same, rfl⟩)
    · exact .inl rfl

/-- More bytes of the time of a sample give what they all would have given at
once: whatever closed the sample is taken back. -/
theorem maybeFinalize_credit (fresh : self.Fresh now) (acked lost moreAcked moreLost : Nat) :
    (((self.credit acked lost).maybeFinalize now).credit moreAcked moreLost).maybeFinalize now =
      (self.credit (acked + moreAcked) (lost + moreLost)).maybeFinalize now := by
  have first : (self.credit acked lost).Fresh now := fresh
  have whole : (self.credit (acked + moreAcked) (lost + moreLost)).Fresh now := fresh
  rw [maybeFinalize_fresh first, maybeFinalize_fresh whole]
  by_cases ready : (self.credit acked lost).Ready now
  · have larger : (self.credit (acked + moreAcked) (lost + moreLost)).Ready now := by
      refine ⟨ready.1, ready.2.trans ?_⟩
      simp only [credit]
      omega
    rw [closeInterval_ready ready, closeInterval_ready larger, maybeFinalize]
    simp only [closed, credit, Nat.zero_add, if_true, reopen]
    by_cases more : moreAcked > 0 ∨ moreLost > 0
    · rw [if_pos more]
      simp only [Nat.add_assoc]
    · have none_ : moreAcked = 0 ∧ moreLost = 0 := by omega
      rw [if_neg more, none_.1, none_.2]
      rfl
  · rw [closeInterval_early ready, credit_credit]
    exact maybeFinalize_fresh whole

theorem lastRtt_maybeFinalize (self : ErasureController) (now : Nat) :
    (self.maybeFinalize now).lastRtt = self.lastRtt := by
  obtain kept | ⟨_, _, _, kept⟩ | kept := maybeFinalize_cases self now <;> rw [kept] <;> rfl

theorem foldl_acks (fresh : self.Fresh now) (same : self.lastRtt = rtt) (acks : List Nat)
    (acked : Nat) :
    run step ((self.credit acked 0).maybeFinalize now) (acks.map (Call.ack now · rtt)) =
      (self.credit (acked + acks.sum) 0).maybeFinalize now := by
  induction acks generalizing acked with
  | nil => rfl
  | cons bytes rest ih =>
      have kept : ((self.credit acked 0).maybeFinalize now).lastRtt = rtt :=
        (lastRtt_maybeFinalize _ _).trans same
      have added : ((self.credit acked 0).maybeFinalize now).recordAck now bytes rtt =
          (self.credit (acked + bytes) 0).maybeFinalize now := by
        rw [← maybeFinalize_credit fresh acked 0 bytes 0]
        unfold recordAck
        rw [← kept]
        rfl
      rw [List.map_cons, run_cons, step, added, ih, List.sum_cons, Nat.add_assoc]

/-- The calls of a batch in any order of its acks are one sample of its sums. -/
theorem run_calls {batch : AckBatch} (fresh : self.Fresh batch.time) :
    run step self batch.calls = self.oneSample batch := by
  obtain ⟨time, rtt, acks, lost, filled⟩ := batch
  unfold AckBatch.calls oneSample
  rw [run_append]
  cases acks with
  | nil =>
      cases lost with
      | none => exact (filled.elim (fun no => no rfl) fun no => no rfl).elim
      | some loss => rfl
  | cons first rest =>
      let ready : ErasureController := { self with lastRtt := rtt }
      have freshly : ready.Fresh time := fresh
      have acked : run step self ((first :: rest).map (Call.ack time · rtt)) =
          (ready.credit (first + rest.sum) 0).maybeFinalize time :=
        foldl_acks freshly rfl rest first
      rw [acked]
      cases lost with
      | none => rfl
      | some loss =>
          have together := maybeFinalize_credit freshly (first + rest.sum) 0 0 loss.2
          rw [Nat.add_zero, Nat.zero_add] at together
          exact congrArg (fun state => (endLoss state loss.1).2) together

/-- Every snapshot is of one of `times`. -/
def SnapshotOf (self : ErasureController) (times : List (Option Nat)) : Prop :=
  ∀ snap, self.lastFinalized = some snap → some snap.time ∈ times

theorem SnapshotOf.maybeFinalize {times : List (Option Nat)} (within : self.SnapshotOf times)
    (now : Nat) : (self.maybeFinalize now).SnapshotOf (times ++ [some now]) := by
  intro snap found
  obtain kept | ⟨before, had, same, kept⟩ | kept := maybeFinalize_cases self now
  · rw [kept] at found
    exact List.mem_append_left _ (within snap found)
  · rw [kept] at found
    cases found
    exact List.mem_append_right _ (List.mem_singleton.mpr (congrArg some same))
  · rw [kept] at found
    cases found
    exact List.mem_append_right _ (List.mem_singleton_self _)

theorem SnapshotOf.step {times : List (Option Nat)} (within : self.SnapshotOf times)
    (call : Call) : (self.step call).2.SnapshotOf (times ++ [call.time]) := by
  cases call with
  | ack now bytes currentRtt =>
      have before : SnapshotOf { self with
        lastRtt := currentRtt, ackedAcc := self.ackedAcc + bytes } times := within
      exact before.maybeFinalize now
  | congestion now persistent lostBytes => exact fun snap found => nomatch found
  | mtuUpdate newMtu => exact fun snap found => List.mem_append_left _ (within snap found)

theorem snapshotOf_run (start mtu : Nat) (past : List Call) :
    (run step (withInner start mtu) past).SnapshotOf (past.map Call.time) := by
  apply run_history fun past (state : ErasureController) =>
    state.SnapshotOf (past.map Call.time)
  · exact fun snap found => nomatch found
  · intro past state call within
    rw [List.map_append]
    exact within.step call

theorem fresh_run {start mtu time : Nat} {past : List Call}
    (others : ∀ call ∈ past, call.time ≠ some time) :
    (run step (withInner start mtu) past).Fresh time := by
  intro snap found same
  obtain ⟨call, member, timed⟩ := List.mem_map.mp (snapshotOf_run start mtu past snap found)
  exact others call member (timed.trans (congrArg some same))

theorem time_calls {batch : AckBatch} {call : Call} (member : call ∈ batch.calls) :
    call.time = some batch.time := by
  unfold AckBatch.calls at member
  cases List.mem_append.mp member with
  | inl acked =>
      obtain ⟨bytes, _, rfl⟩ := List.mem_map.mp acked
      rfl
  | inr lost =>
      obtain ⟨loss, _, rfl⟩ := List.mem_map.mp lost
      rfl

/-- A run of batches of different times takes one sample of each. -/
theorem run_batches (start mtu : Nat) {batches : List AckBatch}
    (different : (batches.map AckBatch.time).Nodup) :
    run step (withInner start mtu) (batches.flatMap AckBatch.calls) =
      batches.foldl oneSample (withInner start mtu) := by
  induction batches using List.reverseRecOn with
  | nil => rfl
  | append_singleton past batch ih =>
      rw [List.map_append, List.nodup_append] at different
      obtain ⟨before, _, apart⟩ := different
      have others : ∀ call ∈ past.flatMap AckBatch.calls, call.time ≠ some batch.time := by
        intro call member same
        obtain ⟨earlier, inside, called⟩ := List.mem_flatMap.mp member
        rw [time_calls called] at same
        exact apart _ (List.mem_map_of_mem inside) _ (List.mem_singleton_self _)
          (Option.some.inj same)
      rw [List.flatMap_append, run_append, List.flatMap_singleton, run_calls (fresh_run others),
        ih before, List.foldl_append]
      rfl

theorem oneSample_perm {batch other : AckBatch} (time : other.time = batch.time)
    (rtt : other.rtt = batch.rtt) (lost : other.lost = batch.lost)
    (acks : other.acks.Perm batch.acks) : self.oneSample other = self.oneSample batch := by
  unfold oneSample
  have empty : (other.acks = []) = (batch.acks = []) :=
    propext ⟨fun none => (none ▸ acks).symm.eq_nil, fun none => (none ▸ acks).eq_nil⟩
  rw [acks.sum_eq, time, rtt, lost]
  simp only [empty]

end Batches
end ErasureController

namespace Estimate

structure Sound (estimate : Estimate) : Prop where
  excess : 0 ≤ estimate.recentExcess
  floor : 0 ≤ estimate.floor
  nonneg : 0 ≤ estimate.pEwma
  atMostOne : estimate.pEwma ≤ 1
  below : 0 < estimate.samples → estimate.floor ≤ estimate.pEwma

theorem ewma_nonneg {before x : ℚ} (first : 0 ≤ before) (second : 0 ≤ x) : 0 ≤ ewma before x := by
  unfold ewma ewmaAlpha
  linarith

theorem ewma_le_one {before x : ℚ} (first : before ≤ 1) (second : x ≤ 1) :
    ewma before x ≤ 1 := by
  unfold ewma ewmaAlpha
  linarith

theorem le_ewma_one {before : ℚ} (atMost : before ≤ 1) : before ≤ ewma before 1 := by
  unfold ewma ewmaAlpha
  linarith

theorem share_bounds (acked lost : Nat) :
    (0 : ℚ) ≤ lost / (acked + lost : Nat) ∧ (lost : ℚ) / (acked + lost : Nat) ≤ 1 := by
  have part : (lost : ℚ) ≤ (acked + lost : Nat) := Nat.cast_le.mpr (Nat.le_add_left _ _)
  exact ⟨div_nonneg (Nat.cast_nonneg _) (Nat.cast_nonneg _),
    div_le_one_of_le₀ part (Nat.cast_nonneg _)⟩

theorem Sound.applySample {self : Estimate} (sound : self.Sound) (acked lost : Nat) :
    (self.applySample acked lost).Sound := by
  unfold Estimate.applySample
  dsimp only
  split
  · exact sound
  · split
    · refine ⟨ewma_nonneg sound.excess (by unfold congestKnee; norm_num), sound.floor, ?_, ?_, ?_⟩
      · dsimp only
        split
        · exact zero_le_one
        · exact ewma_nonneg sound.nonneg zero_le_one
      · dsimp only
        split
        · exact le_rfl
        · exact ewma_le_one sound.atMostOne le_rfl
      · intro sampled
        dsimp only at sampled ⊢
        rw [if_neg sampled.ne']
        exact (sound.below sampled).trans (le_ewma_one sound.atMostOne)
    · obtain ⟨shareNonneg, shareAtMost⟩ := share_bounds acked lost
      set p : ℚ := (lost : ℚ) / (acked + lost : Nat)
      set pEwma := if self.samples = 0 then p else ewma self.pEwma p with averaged
      have nonneg : 0 ≤ pEwma := by
        rw [averaged]
        split
        · exact shareNonneg
        · exact ewma_nonneg sound.nonneg shareNonneg
      have atMostOne : pEwma ≤ 1 := by
        rw [averaged]
        split
        · exact shareAtMost
        · exact ewma_le_one sound.atMostOne shareAtMost
      have leaked : 0 ≤ self.floor + leak := add_nonneg sound.floor (by unfold leak; norm_num)
      set floor := if pEwma < self.floor then pEwma else min (self.floor + leak) pEwma with held
      have floorBounds : 0 ≤ floor ∧ floor ≤ pEwma := by
        rw [held]
        split
        · exact ⟨nonneg, le_rfl⟩
        · exact ⟨le_min leaked nonneg, min_le_right _ _⟩
      exact ⟨ewma_nonneg sound.excess (le_max_right _ _), floorBounds.1, nonneg, atMostOne,
        fun _ => floorBounds.2⟩

theorem inflation_bounds {self : Estimate} (sound : self.Sound) :
    1 ≤ ErasureController.inflation self ∧
      ErasureController.inflation self ≤ 1 / (1 - floorCap) := by
  unfold ErasureController.inflation
  dsimp only
  set f := min self.floor floorCap
  have nonneg : 0 ≤ f := le_min sound.floor (by unfold floorCap; norm_num)
  have atMost : f ≤ floorCap := min_le_right _ _
  have room : 0 < 1 - floorCap := by unfold floorCap; norm_num
  have full : 1 / (1 - f) ≤ 1 / (1 - floorCap) :=
    one_div_le_one_div_of_le room (sub_le_sub_left atMost 1)
  have least : 1 ≤ 1 / (1 - f) :=
    (one_le_div (room.trans_le (sub_le_sub_left atMost 1))).mpr (sub_le_self 1 nonneg)
  set damp := max (1 - min (self.recentExcess / congestKnee) 1) 0
  have dampNonneg : 0 ≤ damp := le_max_right _ _
  have pressure : 0 ≤ min (self.recentExcess / congestKnee) 1 :=
    le_min (div_nonneg sound.excess (by unfold congestKnee; norm_num)) zero_le_one
  have dampAtMost : damp ≤ 1 := max_le (sub_le_self 1 pressure) zero_le_one
  have gain : 0 ≤ (1 / (1 - f) - 1) * damp := mul_nonneg (sub_nonneg.mpr least) dampNonneg
  have gained : (1 / (1 - f) - 1) * damp ≤ 1 / (1 - f) - 1 :=
    mul_le_of_le_one_right (sub_nonneg.mpr least) dampAtMost
  exact ⟨le_add_of_nonneg_right gain, by linarith⟩

end Estimate

namespace ErasureController
variable {self : ErasureController}

/-- The estimate is sound, also that which a snapshot goes back to. -/
structure Sound (controller : ErasureController) : Prop where
  current : controller.toEstimate.Sound
  before : ∀ snap, controller.lastFinalized = some snap → snap.prev.Sound

theorem sound_withInner (now mtu : Nat) : (withInner now mtu).Sound :=
  ⟨⟨le_rfl, zero_le_one, le_rfl, zero_le_one, fun sampled => (lt_irrefl 0 sampled).elim⟩,
    fun _ found => nomatch found⟩

theorem Sound.maybeFinalize (sound : self.Sound) (now : Nat) : (self.maybeFinalize now).Sound := by
  obtain kept | ⟨snap, found, _, kept⟩ | kept := maybeFinalize_cases self now
  · rwa [kept]
  · rw [kept]
    refine ⟨(sound.before snap found).applySample _ _, ?_⟩
    intro after same
    cases same
    exact sound.before snap found
  · rw [kept]
    refine ⟨sound.current.applySample _ _, ?_⟩
    intro after same
    cases same
    exact sound.current

theorem Sound.endLoss (sound : self.Sound) (persistent : Bool) :
    (self.endLoss persistent).2.Sound := by
  obtain ⟨excess, floor, nonneg, atMostOne, below⟩ := sound.current
  refine ⟨⟨?_, floor, nonneg, atMostOne, below⟩, fun _ found => nomatch found⟩
  change 0 ≤ if persistent then max self.recentExcess congestKnee else self.recentExcess
  split
  · exact le_max_of_le_left excess
  · exact excess

theorem Sound.step (sound : self.Sound) (call : Call) : (self.step call).2.Sound := by
  cases call with
  | ack now bytes currentRtt =>
      have before : Sound { self with
        lastRtt := currentRtt, ackedAcc := self.ackedAcc + bytes } := ⟨sound.current, sound.before⟩
      exact before.maybeFinalize now
  | congestion now persistent lostBytes =>
      have before : Sound { self with lostAcc := self.lostAcc + lostBytes } :=
        ⟨sound.current, sound.before⟩
      exact (before.maybeFinalize now).endLoss persistent
  | mtuUpdate newMtu => exact ⟨sound.current, sound.before⟩

theorem sound_run (start mtu : Nat) (calls : List Call) :
    (run step (withInner start mtu) calls).Sound :=
  run_invariant Sound (fun _ call sound => sound.step call) (sound_withInner start mtu) calls

def inflated (self : ErasureController) (inner : UInt64) : Nat :=
  if self.calibrated then asU64 (inner.toNat * inflation self.toEstimate) else inner.toNat

theorem window_eq (self : ErasureController) (inner : UInt64) :
    self.window inner = if self.samples > 0 ∧ self.pEwma > 1 / 50 then
      min (self.inflated inner) (gapSafeCap self.mtu self.pEwma) else self.inflated inner := rfl

theorem inflated_bounds (sound : self.Sound) (inner : UInt64) :
    inner.toNat ≤ self.inflated inner ∧
      (self.inflated inner : ℚ) ≤ inner.toNat / (1 - floorCap) := by
  obtain ⟨least, most⟩ := Estimate.inflation_bounds sound.current
  have nonneg : (0 : ℚ) ≤ inner.toNat := Nat.cast_nonneg _
  have small : inner.toNat ≤ u64Cap := Nat.le_of_lt_succ inner.toNat_lt
  have capped : inner.toNat * inflation self.toEstimate ≤ inner.toNat / (1 - floorCap) := by
    rw [div_eq_mul_one_div]
    exact mul_le_mul_of_nonneg_left most nonneg
  have grown : (inner.toNat : ℚ) ≤ inner.toNat * inflation self.toEstimate :=
    le_mul_of_one_le_right nonneg least
  unfold inflated
  split
  · exact ⟨le_truncate grown small, (truncate_le (nonneg.trans grown)).trans capped⟩
  · exact ⟨le_rfl, grown.trans capped⟩

/-- What holds of the estimate once a sample counts, and of the excess always. -/
def InBounds (self : ErasureController) : Prop :=
  0 ≤ self.recentExcess ∧
    (0 < self.samples → 0 ≤ self.floor ∧ self.floor ≤ self.pEwma ∧ self.pEwma ≤ 1)

/-- The window is no less than the inner one unless the gap cap applies, no more
than the floor's cap allows, and under the gap cap where that applies. -/
def WindowInBounds (self : ErasureController) (inner : UInt64) : Prop :=
  (¬ self.GapCapped → inner.toNat ≤ self.window inner) ∧
    (self.window inner : ℚ) ≤ inner.toNat / (1 - floorCap) ∧
    (self.samples > 0 → self.pEwma > 1 / 50 →
      self.window inner ≤ gapSafeCap self.mtu self.pEwma)

theorem Sound.inBounds (sound : self.Sound) : self.InBounds :=
  ⟨sound.current.excess, fun sampled =>
    ⟨sound.current.floor, sound.current.below sampled, sound.current.atMostOne⟩⟩

theorem Sound.windowInBounds (sound : self.Sound) (inner : UInt64) :
    self.WindowInBounds inner := by
  obtain ⟨least, most⟩ := inflated_bounds sound inner
  unfold WindowInBounds
  rw [window_eq]
  refine ⟨?_, ?_, ?_⟩
  · intro uncapped
    exact least.trans_eq (if_neg uncapped).symm
  · split
    · exact (Nat.cast_le.mpr (Nat.min_le_left _ _)).trans most
    · exact most
  · intro sampled lossy
    rw [if_pos ⟨sampled, lossy⟩]
    exact Nat.min_le_right _ _

/-- A batch is one sample of its sums, in whatever order its acks come, and so
is each batch of a run; the estimate and the window stay in their bounds in every
run; and the totals are those of the last whole seconds. -/
theorem bookkeeping_faithful :
    (∀ start mtu past (batch : AckBatch), (∀ call ∈ past, call.time ≠ some batch.time) →
      run step (withInner start mtu) (past ++ batch.calls) =
          (run step (withInner start mtu) past).oneSample batch ∧
        ∀ other : AckBatch, other.time = batch.time → other.rtt = batch.rtt →
          other.lost = batch.lost → other.acks.Perm batch.acks →
          run step (withInner start mtu) (past ++ other.calls) =
            run step (withInner start mtu) (past ++ batch.calls)) ∧
    (∀ start mtu (batches : List AckBatch), (batches.map AckBatch.time).Nodup →
      run step (withInner start mtu) (batches.flatMap AckBatch.calls) =
        batches.foldl oneSample (withInner start mtu)) ∧
    (∀ start mtu calls, (run step (withInner start mtu) calls).InBounds ∧
      ∀ inner, (run step (withInner start mtu) calls).WindowInBounds inner) ∧
    ∀ start now (entries : List AckStats.Entry),
      (entries.map AckStats.Entry.time).Pairwise (· ≤ ·) →
      (∀ entry ∈ entries, entry.time ≤ now) →
      ((AckStats.new start).noteAll entries).totals now =
        (AckStats.bytesOf true start now entries, AckStats.bytesOf false start now entries) := by
  refine ⟨?batch, fun start mtu batches => run_batches start mtu, ?bounds, ?totals⟩
  case batch =>
    intro start mtu past batch others
    have one : ∀ other : AckBatch, other.time = batch.time →
        run step (withInner start mtu) (past ++ other.calls) =
          (run step (withInner start mtu) past).oneSample other := by
      intro other same
      rw [run_append]
      exact run_calls (fresh_run (same ▸ others))
    refine ⟨one batch rfl, ?_⟩
    intro other time rtt lost acks
    rw [one other time, one batch rfl]
    exact oneSample_perm time rtt lost acks
  case bounds =>
    intro start mtu calls
    exact ⟨(sound_run start mtu calls).inBounds, (sound_run start mtu calls).windowInBounds⟩
  case totals =>
    intro start now entries ordered within
    exact AckStats.totals_noteAll ordered within

/-- All of the first bytes are lost: the loss rate is one and no sample counts. -/
def blackout : AckBatch := ⟨100000000, 0, [], some (false, 12000), by decide⟩

/-- After `blackout` the window is not under the gap cap. -/
theorem blackout_uncapped :
    let state := run step (withInner 0 1200) blackout.calls
    state.pEwma > 1 / 50 ∧ gapSafeCap state.mtu state.pEwma < state.window 10000000 := by
  decide +kernel

end ErasureController
end Mirage.Quic
