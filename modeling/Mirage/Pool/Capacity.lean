import Mathlib.Tactic.Common
import Mirage.Lib.Trace
import Mirage.Pool.Warm

/-!
The size of the warm pool. The builder `claims` room for one connection,
from the check that clears it to the start of the task. The counter is exact in
every state. The bound rests on what the builder adds up, an idle length read
before the counter: a task that pushes and gives its unit back between the two
reads is in neither.
-/

namespace Mirage.Pool
open Notify Trace

def Task.running : Task → Bool
  | ended => false
  | _ => true

/-- The task has pushed its tunnel and still holds its unit. -/
def Task.pushed : Task → Bool
  | stored | announced => true
  | _ => false

/-- The builder has room for one more connection in hand. -/
def Builder.claims : Builder → Nat
  | cleared _ | backoff | ready | reserved => 1
  | _ => 0

namespace WarmPool

def connecting (pool : WarmPool) : Nat := pool.tasks.countP (· = .connecting)

def running (pool : WarmPool) : Nat := pool.tasks.countP Task.running

def pushed (pool : WarmPool) : Nat := pool.tasks.countP Task.pushed

/-- The builder's own unit in the counter. -/
def reservation (pool : WarmPool) : Nat := if pool.builder = .reserved then 1 else 0

/-- Idle tunnels and connection attempts, with the one the builder has reserved. -/
def occupancy (pool : WarmPool) : Nat := pool.queue + pool.connecting + pool.reservation

def Counted (pool : WarmPool) : Prop := pool.inFlight = pool.running + pool.reservation

def Bounded (poolSize : Nat) (pool : WarmPool) : Prop :=
  pool.queue + pool.connecting + pool.builder.claims ≤ poolSize

/-- When the builder's check passes, the idle length it has read and the tasks
that have pushed and still count make up for the whole queue. -/
def Current (poolSize : Nat) (pool : WarmPool) : Event → Prop
  | .build _ _ =>
      match pool.builder with
      | .idleRead target idle =>
          idle + pool.inFlight < target → idle + pool.inFlight < poolSize →
            pool.queue ≤ idle + pool.pushed
      | _ => True
  | _ => True

section Counts
variable {pool : WarmPool}

theorem connecting_pushed_le (pool : WarmPool) : pool.connecting + pool.pushed ≤ pool.running := by
  unfold connecting pushed running
  induction pool.tasks with
  | nil => exact Nat.le_refl 0
  | cons task rest ih =>
      simp only [List.countP_cons]
      cases task <;> simp only [Task.running, Task.pushed, reduceCtorEq, decide_true,
        decide_false, Bool.false_eq_true, reduceIte] <;> omega

theorem running_set {id : Nat} {place : Task} (here : pool.tasks[id]? = some place) (new : Task) :
    (pool.tasks.set id new).countP Task.running + place.running.toNat =
      pool.running + new.running.toNat :=
  countP_set Task.running here new

theorem connecting_set {id : Nat} {place : Task} (here : pool.tasks[id]? = some place)
    (new : Task) :
    (pool.tasks.set id new).countP (· = .connecting) + (decide (place = .connecting)).toNat =
      pool.connecting + (decide (new = .connecting)).toNat :=
  countP_set (· = .connecting) here new

end Counts

section Steps
variable {poolSize : Nat} {pool next : WarmPool}

/-- Callers take tunnels and touch nothing else that the builder counts. -/
structure TakesOnly (pool next : WarmPool) : Prop where
  queue : next.queue ≤ pool.queue
  tasks : next.tasks = pool.tasks
  inFlight : next.inFlight = pool.inFlight
  builder : next.builder = pool.builder

theorem pop_takes {id : Nat} {usable : Bool} (stepped : pool.pop id usable = some next) :
    TakesOnly pool next := by
  obtain ⟨woken, here, ⟨empty, rfl⟩ | ⟨tunnels, place, left, rfl⟩⟩ := pop_cases stepped
  · exact ⟨Nat.le_refl _, rfl, rfl, rfl⟩
  · exact ⟨Nat.sub_le _ _, rfl, rfl, rfl⟩

theorem poll_takes {id : Nat} (stepped : pool.poll id = some next) : TakesOnly pool next := by
  obtain ⟨here, ⟨stored, rfl⟩ | ⟨none, rfl⟩⟩ := poll_cases stepped <;>
    exact ⟨Nat.le_refl _, rfl, rfl, rfl⟩

theorem resume_takes {id : Nat} (stepped : pool.resume id = some next) : TakesOnly pool next := by
  unfold resume at stepped
  split at stepped
  · cases stepped
    exact ⟨Nat.le_refl _, rfl, rfl, rfl⟩
  · cases stepped

theorem cancel_takes {id : Nat} {heir : Option Nat} (stepped : pool.cancel id heir = some next) :
    TakesOnly pool next := by
  rcases cancel_cases stepped with
    ⟨place, here, which, rfl⟩ | ⟨here, ⟨other, registered, rfl⟩ | ⟨nobody, rfl⟩⟩ <;>
    exact ⟨Nat.le_refl _, rfl, rfl, rfl⟩

theorem TakesOnly.counted (takes : TakesOnly pool next) (counted : pool.Counted) :
    next.Counted := by
  unfold Counted running reservation at *
  rw [takes.tasks, takes.inFlight, takes.builder]
  exact counted

theorem TakesOnly.bounded (takes : TakesOnly pool next) (bounded : pool.Bounded poolSize) :
    next.Bounded poolSize := by
  unfold Bounded connecting at *
  rw [takes.tasks, takes.builder]
  have fewer := takes.queue
  omega

/-- The builder loop moves on with the room it has, or claims room after its
check, or takes its unit, or gives it to a task or back. -/
theorem build_cases {shutdown : Bool} {failures : Nat}
    (stepped : pool.build poolSize shutdown failures = some next) :
    (∃ place, pool.builder ≠ .reserved ∧ place ≠ .reserved ∧
        next = { pool with builder := place } ∧
        (place.claims ≤ pool.builder.claims ∨
          place.claims = 1 ∧ ∃ target idle, pool.builder = .idleRead target idle ∧
            idle + pool.inFlight < target ∧ idle + pool.inFlight < poolSize)) ∨
      pool.builder = .ready ∧
        next = { pool with inFlight := pool.inFlight + 1, builder := .reserved } ∨
      pool.builder = .reserved ∧
        (next = { pool with inFlight := pool.inFlight - 1, builder := .stopped } ∨
          next = { pool with tasks := pool.tasks ++ [.connecting], builder := .top }) := by
  unfold build at stepped
  cases here : pool.builder with
  | top =>
      rw [here] at stepped
      cases stepped
      refine .inl ⟨_, by simp, ?_, rfl, .inl ?_⟩ <;> cases shutdown <;> simp [Builder.claims]
  | targetRead target =>
      rw [here] at stepped
      cases stepped
      exact .inl ⟨_, by simp, by simp, rfl, .inl (Nat.le_refl 0)⟩
  | idleRead target idle =>
      rw [here] at stepped
      dsimp only at stepped
      split at stepped
      · cases stepped
        exact .inl ⟨_, by simp, by simp, rfl, .inl (Nat.le_refl 0)⟩
      · rename_i room
        obtain ⟨below, within⟩ := not_or.mp room
        cases stepped
        refine .inl ⟨_, by simp, by simp, rfl, .inr ⟨rfl, target, idle, rfl, ?_, ?_⟩⟩
        · exact Nat.lt_of_not_le below
        · exact Nat.lt_of_not_le within
  | waiting =>
      rw [here] at stepped
      cases stepped
      refine .inl ⟨_, by simp, ?_, rfl, .inl ?_⟩ <;> cases shutdown <;> simp [Builder.claims]
  | cleared inFlight =>
      rw [here] at stepped
      cases stepped
      refine .inl ⟨_, by simp, ?_, rfl, .inl ?_⟩
      · split
        · simp
        · split <;> simp
      · split
        · exact Nat.le_refl 1
        · split <;> simp [Builder.claims]
  | backoff =>
      rw [here] at stepped
      cases stepped
      refine .inl ⟨_, by simp, ?_, rfl, .inl ?_⟩ <;> cases shutdown <;> simp [Builder.claims]
  | ready =>
      rw [here] at stepped
      cases stepped
      exact .inr (.inl ⟨rfl, rfl⟩)
  | reserved =>
      rw [here] at stepped
      dsimp only at stepped
      split at stepped
      · cases stepped
        exact .inr (.inr ⟨rfl, .inl rfl⟩)
      · cases stepped
        exact .inr (.inr ⟨rfl, .inr rfl⟩)
  | stopped =>
      rw [here] at stepped
      cases stepped

theorem build_counted {shutdown : Bool} {failures : Nat} (counted : pool.Counted)
    (stepped : pool.build poolSize shutdown failures = some next) : next.Counted := by
  unfold Counted running reservation at *
  rcases build_cases stepped with
    ⟨place, before, after, rfl, -⟩ | ⟨here, rfl⟩ | ⟨here, rfl | rfl⟩
  · rw [if_neg before] at counted
    rw [if_neg after]
    exact counted
  · rw [here, if_neg (by decide)] at counted
    rw [if_pos rfl, counted]
  · rw [here, if_pos rfl] at counted
    change pool.inFlight - 1 = pool.tasks.countP Task.running
    omega
  · rw [here, if_pos rfl] at counted
    change pool.inFlight = (pool.tasks ++ [Task.connecting]).countP Task.running
    rw [countP_append_one, counted]
    rfl

theorem build_bounded {shutdown : Bool} {failures : Nat} (counted : pool.Counted)
    (bounded : pool.Bounded poolSize) (current : pool.Current poolSize (.build shutdown failures))
    (stepped : pool.build poolSize shutdown failures = some next) : next.Bounded poolSize := by
  unfold Bounded connecting at *
  rcases build_cases stepped with
    ⟨place, before, after, rfl, keeps | ⟨claims, target, idle, here, below, within⟩⟩ |
      ⟨here, rfl⟩ | ⟨here, rfl | rfl⟩
  · dsimp only
    omega
  · -- the check counts every tunnel and every attempt, so there is room for one more
    simp only [Current, here] at current
    have seen := current below within
    have parts := connecting_pushed_le pool
    unfold Counted reservation at counted
    rw [if_neg before] at counted
    unfold connecting at parts
    dsimp only
    omega
  · rw [here] at bounded
    exact bounded
  · rw [here] at bounded
    exact Nat.le_of_succ_le bounded
  · rw [here] at bounded
    rw [countP_append_one]
    exact bounded

theorem connect_counted {id : Nat} {ok : Bool} (counted : pool.Counted)
    (stepped : pool.connect id ok = some next) : next.Counted := by
  unfold connect at stepped
  split at stepped
  · rename_i here
    split at stepped
    · cases stepped
      have same := Nat.succ.inj (running_set here .stored)
      simpa only [Counted, running, reservation, same] using counted
    · cases stepped
      have same := Nat.succ.inj (running_set here .failed)
      simpa only [Counted, running, reservation, same] using counted
  · cases stepped

theorem connect_bounded {id : Nat} {ok : Bool} (bounded : pool.Bounded poolSize)
    (stepped : pool.connect id ok = some next) : next.Bounded poolSize := by
  unfold connect at stepped
  split at stepped
  · rename_i here
    split at stepped
    · -- the attempt becomes an idle tunnel
      cases stepped
      have moved : _ = pool.connecting := connecting_set here .stored
      simp only [Bounded, connecting, decide_true, Bool.toNat_true] at bounded moved ⊢
      omega
    · cases stepped
      have moved : _ = pool.connecting := connecting_set here .failed
      simp only [Bounded, connecting, decide_true, Bool.toNat_true] at bounded moved ⊢
      omega
  · cases stepped

theorem announce_counted {id : Nat} {heir : Option Nat} (counted : pool.Counted)
    (stepped : pool.announce id heir = some next) : next.Counted := by
  obtain ⟨here, which⟩ := announce_cases stepped
  have same := Nat.succ.inj (running_set here .announced)
  rcases which with ⟨other, registered, rfl⟩ | ⟨nobody, rfl⟩ <;>
    simpa only [Counted, running, reservation, same] using counted

theorem announce_bounded {id : Nat} {heir : Option Nat} (bounded : pool.Bounded poolSize)
    (stepped : pool.announce id heir = some next) : next.Bounded poolSize := by
  obtain ⟨here, which⟩ := announce_cases stepped
  have same : (pool.tasks.set id .announced).countP (· = .connecting) = pool.connecting :=
    connecting_set here .announced
  rcases which with ⟨other, registered, rfl⟩ | ⟨nobody, rfl⟩ <;>
    simpa only [Bounded, connecting, same] using bounded

/-- The unit a task gives back is its own, so the counter does not run below 0. -/
theorem finish_counted {id : Nat} (counted : pool.Counted) (stepped : pool.finish id = some next) :
    next.Counted ∧ 0 < pool.inFlight := by
  unfold finish at stepped
  split at stepped
  · rename_i which
    cases stepped
    have fewer : (pool.tasks.set id .ended).countP Task.running + 1 = pool.running := by
      rcases which with here | here <;> exact running_set here .ended
    simp only [Counted, running, reservation] at counted fewer ⊢
    omega
  · cases stepped

theorem finish_bounded {id : Nat} (bounded : pool.Bounded poolSize)
    (stepped : pool.finish id = some next) : next.Bounded poolSize := by
  unfold finish at stepped
  split at stepped
  · rename_i which
    cases stepped
    have same : (pool.tasks.set id .ended).countP (· = .connecting) = pool.connecting := by
      rcases which with here | here <;> exact connecting_set here .ended
    simpa only [Bounded, connecting, same] using bounded
  · cases stepped

theorem step_counted {event : Event} (counted : pool.Counted)
    (stepped : step poolSize pool event = some next) : next.Counted := by
  cases event with
  | call =>
      cases stepped
      exact counted
  | pop id usable => exact (pop_takes stepped).counted counted
  | poll id => exact (poll_takes stepped).counted counted
  | resume id => exact (resume_takes stepped).counted counted
  | cancel id heir => exact (cancel_takes stepped).counted counted
  | build shutdown failures => exact build_counted counted stepped
  | connect id ok => exact connect_counted counted stepped
  | announce id heir => exact announce_counted counted stepped
  | finish id => exact (finish_counted counted stepped).1
  | retarget target =>
      cases stepped
      exact counted
  | discard count =>
      cases stepped
      exact counted

theorem step_bounded {event : Event} (counted : pool.Counted) (bounded : pool.Bounded poolSize)
    (current : pool.Current poolSize event) (stepped : step poolSize pool event = some next) :
    next.Bounded poolSize := by
  cases event with
  | call =>
      cases stepped
      exact bounded
  | pop id usable => exact (pop_takes stepped).bounded bounded
  | poll id => exact (poll_takes stepped).bounded bounded
  | resume id => exact (resume_takes stepped).bounded bounded
  | cancel id heir => exact (cancel_takes stepped).bounded bounded
  | build shutdown failures => exact build_bounded counted bounded current stepped
  | connect id ok => exact connect_bounded bounded stepped
  | announce id heir => exact announce_bounded bounded stepped
  | finish id => exact finish_bounded bounded stepped
  | retarget target =>
      cases stepped
      exact bounded
  | discard count =>
      cases stepped
      unfold Bounded connecting at *
      dsimp only
      omega

end Steps

instance (poolSize : Nat) (pool : WarmPool) (event : Event) :
    Decidable (pool.Current poolSize event) := by
  unfold Current
  split
  · split <;> infer_instance
  · infer_instance

theorem new_counted (poolSize : Nat) : (new poolSize).Counted := rfl

theorem new_bounded (poolSize : Nat) : (new poolSize).Bounded poolSize := Nat.zero_le _

theorem occupancy_le {poolSize : Nat} {pool : WarmPool} (bounded : pool.Bounded poolSize) :
    pool.occupancy ≤ poolSize := by
  have claims : pool.reservation ≤ pool.builder.claims := by
    unfold reservation
    split
    · rename_i here
      rw [here]
      exact Nat.le_refl 1
    · exact Nat.zero_le _
  unfold Bounded at bounded
  unfold occupancy
  omega

end WarmPool

open WarmPool

/-- The counter always equals the running tasks and the builder's own unit, and
unless the builder's check passes on an idle length that misses a tunnel, idle
tunnels and attempts stay within the size of the pool. -/
theorem pool_within_capacity (poolSize : Nat) (events : List Event) (final : WarmPool)
    (followed : follow (step poolSize) (new poolSize) events = some final) :
    final.inFlight = final.running + final.reservation ∧
      (Throughout (step poolSize) (Current poolSize) (new poolSize) events →
        final.occupancy ≤ poolSize) := by
  constructor
  · exact follow_keeps Counted step_counted (new_counted poolSize) followed
  · intro current
    have kept : final.Counted ∧ final.Bounded poolSize := by
      apply follow_invariant (fun pool => pool.Counted ∧ pool.Bounded poolSize) ?_
        ⟨new_counted poolSize, new_bounded poolSize⟩ followed current
      intro pool event next held allowed stepped
      exact ⟨step_counted held.1 stepped, step_bounded held.1 held.2 allowed stepped⟩
    exact occupancy_le kept.2

/-- A pool of one: a task fills it, a caller takes the tunnel and the builder
starts the next task. -/
def refill : List Event :=
  List.replicate 6 (.build false 0) ++
    [.connect 0 true, .announce 0 none, .finish 0, .call, .pop 0 true] ++
    List.replicate 6 (.build false 0)

theorem pool_within_capacity_refill :
    let final : WarmPool := ⟨0, true, [.gone], 1, 1, [.ended, .connecting], .top⟩
    final.inFlight = final.running + final.reservation ∧ final.occupancy ≤ 1 :=
  have followed : follow (step 1) (new 1) refill =
      some ⟨0, true, [.gone], 1, 1, [.ended, .connecting], .top⟩ := by decide
  have kept := pool_within_capacity 1 refill _ followed
  ⟨kept.1, kept.2 (by decide)⟩

/-- A pool of one: the builder reads an idle length of 0, then the task pushes,
announces and gives its unit back, and the builder reads a counter of 0. -/
def betweenReads : List Event :=
  List.replicate 6 (.build false 0) ++ List.replicate 2 (.build false 0) ++
    [.connect 0 true, .announce 0 none, .finish 0] ++ List.replicate 4 (.build false 0)

theorem pool_outgrows_its_size :
    follow (step 1) (new 1) betweenReads =
        some ⟨1, true, [], 1, 1, [.ended, .connecting], .top⟩ ∧
      1 < (⟨1, true, [], 1, 1, [.ended, .connecting], .top⟩ : WarmPool).occupancy := by
  decide

end Mirage.Pool
