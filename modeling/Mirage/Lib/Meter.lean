import Mathlib.Algebra.Order.Field.Basic
import Mathlib.Tactic.Linarith
import Mathlib.Tactic.Ring
import Mirage.Lib.Trace

/-!
A machine whose events carry a time and pay for what they give out from a level
that fills at most at a fixed rate. What a run gives out in a stretch of time is
then at most the level at its start and what flows in meanwhile.
-/

namespace Mirage.Meter
open Trace

variable {State Event K : Type} [Field K] [LinearOrder K] [IsStrictOrderedRing K]

structure Metered (step : State → Event → Option State) (time : Event → K)
    (spent : State → K) (level : State → K → K) (rate : K) : Prop where
  pays : ∀ {state event next}, step state event = some next →
    spent next + level next (time event) ≤ spent state + level state (time event)
  fills : ∀ state {early late}, early ≤ late →
    level state late ≤ level state early + rate * (late - early)

/-- The bound over a stretch from `opens` on. The induction moves the start to
the first event, so the level there is what the rest has to go on. -/
theorem Metered.window {step : State → Event → Option State} {time : Event → K}
    {spent : State → K} {level : State → K → K} {rate : K}
    (metered : Metered step time spent level rate) {start final : State} {events : List Event}
    (followed : follow step start events = some final)
    (sorted : events.Pairwise fun a b => time a ≤ time b) {opens length : K}
    (nonneg : 0 ≤ length)
    (inside : ∀ event ∈ events, opens ≤ time event ∧ time event ≤ opens + length) :
    spent final + level final (opens + length) ≤
      spent start + level start opens + rate * length := by
  induction events generalizing start opens length with
  | nil =>
      cases followed
      have filled := metered.fills final (le_add_of_nonneg_right (a := opens) nonneg)
      rw [add_sub_cancel_left] at filled
      linarith
  | cons event rest ih =>
      obtain ⟨next, stepped, tail⟩ := Option.bind_eq_some_iff.mp followed
      obtain ⟨later, ordered⟩ := List.pairwise_cons.mp sorted
      obtain ⟨after, before⟩ := inside event List.mem_cons_self
      have paid := metered.pays stepped
      have filled := metered.fills start after
      have remaining : time event + (opens + length - time event) = opens + length :=
        add_sub_cancel _ _
      have onward := ih tail ordered (sub_nonneg.mpr before) (fun other member =>
        ⟨later other member, remaining.symm ▸ (inside other (List.mem_cons_of_mem _ member)).2⟩)
      rw [remaining] at onward
      calc spent final + level final (opens + length)
          ≤ spent next + level next (time event) + rate * (opens + length - time event) := onward
        _ ≤ spent start + level start (time event) + rate * (opens + length - time event) := by
            linarith
        _ ≤ spent start + (level start opens + rate * (time event - opens)) +
              rate * (opens + length - time event) := by linarith
        _ = spent start + level start opens + rate * length := by ring

end Mirage.Meter
