import Mathlib.Data.List.ReduceOption
import Mirage.Lib.Wheel

/-!
The acked and lost bytes of the last seconds, kept by `AckStats` of quic_cc.rs in
one slot a second on a ring of `ACK_SLOTS`. A slot is empty where the source's
second is `u64::MAX`. Times are in nanoseconds.
-/

namespace Mirage.Quic
open Function Wheel

def nanosPerSecond : Nat := 1000000000
def ackSlots : Nat := 5

instance : NeZero ackSlots := ⟨by decide⟩

structure AckStats where
  start : Nat
  last : Nat
  slots : Fin ackSlots → Option (Nat × Nat × Nat)

namespace AckStats

def new (start : Nat) : AckStats := { start, last := start, slots := fun _ => none }

/-- The second of `now`; a time before the start counts as the start. -/
def sec (start now : Nat) : Nat := (now - start) / nanosPerSecond

/-- The slot for `sec`, cleared if another second has it. -/
def cleared (sec : Nat) : Option (Nat × Nat × Nat) → Nat × Nat × Nat
  | some slot => if slot.1 ≠ sec then (sec, 0, 0) else slot
  | none => (sec, 0, 0)

/-- `change` is what the caller writes through the reference to the slot. -/
def slot (self : AckStats) (now : Nat) (change : Nat × Nat × Nat → Nat × Nat × Nat) : AckStats :=
  let second := sec self.start now
  let index := Fin.ofNat ackSlots second
  { self with
    last := max self.last now
    slots := update self.slots index (some (change (cleared second (self.slots index)))) }

def onAck (self : AckStats) (now bytes : Nat) : AckStats :=
  self.slot now fun slot => (slot.1, slot.2.1 + bytes, slot.2.2)

def onLost (self : AckStats) (now bytes : Nat) : AckStats :=
  self.slot now fun slot => (slot.1, slot.2.1, slot.2.2 + bytes)

def totals (self : AckStats) (now : Nat) : Nat × Nat :=
  let second := sec self.start now
  ((List.ofFn self.slots).reduceOption.filter fun slot =>
      decide (slot.1 + ackSlots > second)).foldl
    (fun sum slot => (sum.1 + slot.2.1, sum.2 + slot.2.2)) (0, 0)

/-- A call of `on_ack` or `on_lost`. -/
structure Entry where
  time : Nat
  acked : Bool
  bytes : Nat

def note (self : AckStats) (entry : Entry) : AckStats :=
  if entry.acked then self.onAck entry.time entry.bytes else self.onLost entry.time entry.bytes

def noteAll (self : AckStats) (entries : List Entry) : AckStats := entries.foldl note self

namespace Entry

def amount (entry : Entry) : Nat × Nat :=
  if entry.acked then (entry.bytes, 0) else (0, entry.bytes)

/-- The second of the call is among the last `ACK_SLOTS` whole seconds at `now`. -/
def Recent (start now : Nat) (entry : Entry) : Prop :=
  sec start now < sec start entry.time + ackSlots

instance (start now : Nat) (entry : Entry) : Decidable (entry.Recent start now) :=
  inferInstanceAs (Decidable (_ < _))

end Entry

/-- The bytes acked, or lost, in the last `ACK_SLOTS` whole seconds. -/
def bytesOf (acked : Bool) (start now : Nat) (entries : List Entry) : Nat :=
  ((entries.filter fun entry =>
    decide (entry.acked = acked) && decide (entry.Recent start now)).map Entry.bytes).sum

variable {self : AckStats} {entry : Entry} {entries : List Entry} {start now : Nat}

theorem sec_mono {first second : Nat} (ordered : first ≤ second) :
    sec start first ≤ sec start second :=
  Nat.div_le_div_right (Nat.sub_le_sub_right ordered start)

theorem cleared_eq (slots : Fin ackSlots → Option (Nat × Nat × Nat)) (second : Nat) :
    cleared second (slots (Fin.ofNat ackSlots second)) = (second, kept slots second) := by
  unfold cleared kept
  cases found : slots (Fin.ofNat ackSlots second) with
  | none => rw [place, found]; rfl
  | some slot =>
      rw [place, found]
      dsimp only
      by_cases same : slot.1 = second
      · rw [if_neg (not_not_intro same), if_pos same, ← same]
      · rw [if_pos same, if_neg same]
        rfl

theorem slots_note : (self.note entry).slots =
    record self.slots (sec self.start entry.time) entry.amount := by
  unfold note Entry.amount
  split
  · rw [onAck, slot, record, cleared_eq]
    rfl
  · rw [onLost, slot, record, cleared_eq]
    rfl

theorem start_note : (self.note entry).start = self.start := by
  unfold note
  split <;> rfl

theorem slots_noteAll : (self.noteAll entries).slots =
    recordAll self.slots
      (entries.map fun entry => (sec self.start entry.time, entry.amount)) ∧
      (self.noteAll entries).start = self.start := by
  induction entries generalizing self with
  | nil => exact ⟨rfl, rfl⟩
  | cons entry rest ih =>
      obtain ⟨slots, begun⟩ := @ih (self.note entry)
      rw [start_note, slots_note] at slots
      exact ⟨slots, begun.trans start_note⟩

theorem foldl_totals (slots : List (Nat × Nat × Nat)) (sum : Nat × Nat) :
    slots.foldl (fun sum slot => (sum.1 + slot.2.1, sum.2 + slot.2.2)) sum =
      sum + (slots.map Prod.snd).sum := by
  induction slots generalizing sum with
  | nil => exact (add_zero sum).symm
  | cons slot rest ih =>
      rw [List.foldl_cons, ih, List.map_cons, List.sum_cons, ← add_assoc]
      rfl

theorem sum_filter (entries : List (Option (Nat × Nat × Nat))) (second : Nat) :
    ((entries.reduceOption.filter fun slot => decide (slot.1 + ackSlots > second)).map
      Prod.snd).sum = (entries.map (counted ackSlots second)).sum := by
  induction entries with
  | nil => rfl
  | cons entry rest ih =>
      rw [List.map_cons, List.sum_cons, ← ih]
      cases entry with
      | none => exact (zero_add _).symm
      | some slot =>
          rw [List.reduceOption_cons_of_some, List.filter_cons]
          unfold counted recent
          by_cases fresh : second < slot.1 + ackSlots
          · rw [if_pos (decide_eq_true fresh), List.map_cons, List.sum_cons, Option.elim_some,
              if_pos fresh]
          · rw [if_neg (by rwa [decide_eq_true_eq]), Option.elim_some, if_neg fresh, zero_add]

theorem totals_eq : self.totals now = total self.slots (sec self.start now) := by
  rw [totals, foldl_totals, sum_filter, List.map_ofFn, List.sum_ofFn, total]
  exact zero_add _

theorem sum_recent (entries : List Entry) :
    ((entries.map fun entry => (sec start entry.time, entry.amount)).map fun entry =>
      recent ackSlots (sec start now) entry.1 entry.2).sum =
        (bytesOf true start now entries, bytesOf false start now entries) := by
  induction entries with
  | nil => rfl
  | cons entry rest ih =>
      rw [List.map_cons, List.map_cons, List.sum_cons, ih]
      unfold bytesOf recent
      obtain ⟨time, acked, bytes⟩ := entry
      by_cases fresh : sec start now < sec start time + ackSlots
      · cases acked <;> simp [Entry.Recent, Entry.amount, fresh]
      · cases acked <;> simp [Entry.Recent, fresh]

/-- For calls in the order of their times, `totals` at a time not before any of
them is what they recorded in the last `ACK_SLOTS` whole seconds. -/
theorem totals_noteAll (ordered : (entries.map Entry.time).Pairwise (· ≤ ·))
    (within : ∀ entry ∈ entries, entry.time ≤ now) :
    ((new start).noteAll entries).totals now =
      (bytesOf true start now entries, bytesOf false start now entries) := by
  obtain ⟨slots, begun⟩ := @slots_noteAll (new start) entries
  have sorted : ((entries.map fun entry => (sec start entry.time, entry.amount)).map
      Prod.fst).Pairwise (· ≤ ·) := by
    rw [List.map_map]
    exact List.pairwise_map.mpr ((List.pairwise_map.mp ordered).imp sec_mono)
  have before : ∀ entry ∈ entries.map (fun entry => (sec start entry.time, entry.amount)),
      entry.1 ≤ sec start now := by
    intro entry member
    obtain ⟨call, inside, rfl⟩ := List.mem_map.mp member
    exact sec_mono (within call inside)
  rw [totals_eq, slots, begun, ← sum_recent]
  exact total_empty_recordAll sorted before

end AckStats
end Mirage.Quic
