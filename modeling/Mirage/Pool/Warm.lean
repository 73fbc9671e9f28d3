import Mathlib.Data.List.Basic
import Mirage.Lib.Notify

/-!
The warm pool of proxy/pool.rs: callers of `get`, the builder loop, its
connection tasks, and the manager and network watcher that discard tunnels,
cut into the steps between which other threads can act. Of the queue only the
length is kept; whether a tunnel taken from it is still good is up to the event.
A `get` keeps its pool alive, so none runs after the shutdown in `drop`.
-/

namespace Mirage.Pool
open Notify

/-- Where a call of `get` is. `looking` is the loop with a fresh handle, ahead
of its pop; `woken` says that a wake-up brought the caller there. `missed` has
found the queue empty and not polled its handle yet. -/
inductive Caller where
  | looking (woken : Bool)
  | missed
  | parked
  | notified
  | gone
  deriving DecidableEq

/-- Where a connection task is. `stored` has pushed its tunnel. -/
inductive Task where
  | connecting
  | stored
  | announced
  | failed
  | ended
  deriving DecidableEq

/-- Where the builder loop is, with what it has read in this round. -/
inductive Builder where
  | top
  | targetRead (target : Nat)
  | idleRead (target idle : Nat)
  | waiting
  | cleared (inFlight : Nat)
  | backoff
  | ready
  | reserved
  | stopped
  deriving DecidableEq

structure WarmPool where
  queue : Nat
  permit : Bool
  callers : List Caller
  target : Nat
  inFlight : Nat
  tasks : List Task
  builder : Builder
  deriving DecidableEq

def minTargetFloor : Nat := 10

namespace WarmPool

def new (poolSize : Nat) : WarmPool :=
  ⟨0, false, [], min minTargetFloor poolSize, 0, [], .top⟩

section Get

/-- The pop under the queue lock. A tunnel that is too old or stale is closed
and the loop goes on. -/
def pop (pool : WarmPool) (id : Nat) (usable : Bool) : Option WarmPool :=
  match pool.callers[id]? with
  | some (.looking woken) =>
      if pool.queue = 0 then some { pool with callers := pool.callers.set id .missed }
      else some { pool with
        queue := pool.queue - 1
        callers := pool.callers.set id (if usable then .gone else .looking woken) }
  | _ => none

/-- The first poll of `notified.await`. -/
def poll (pool : WarmPool) (id : Nat) : Option WarmPool :=
  if pool.callers[id]? = some .missed then
    let polled := firstPoll .parked (.looking true) pool.permit
    some { pool with permit := polled.1, callers := pool.callers.set id polled.2 }
  else none

def resume (pool : WarmPool) (id : Nat) : Option WarmPool :=
  if pool.callers[id]? = some .notified then
    some { pool with callers := pool.callers.set id (.looking true) }
  else none

/-- The timeout of `get`, or its caller, drops the future at an await. A wake-up
that was not taken up yet is passed on. -/
def cancel (pool : WarmPool) (id : Nat) (heir : Option Nat) : Option WarmPool :=
  match pool.callers[id]? with
  | some (.looking _) | some .parked => some { pool with callers := pool.callers.set id .gone }
  | some .notified =>
      (notifyOne .parked .notified pool.permit (pool.callers.set id .gone) heir).map
        fun next => { pool with permit := next.1, callers := next.2 }
  | _ => none

end Get

section Build

/-- One read or write of the builder loop. `shutdown` is what it reads of the
flag or hears while it waits, and `failures` the failures in a row it reads. -/
def build (poolSize : Nat) (pool : WarmPool) (shutdown : Bool) (failures : Nat) :
    Option WarmPool :=
  match pool.builder with
  | .top => some { pool with builder := if shutdown then .stopped else .targetRead pool.target }
  | .targetRead target => some { pool with builder := .idleRead target pool.queue }
  | .idleRead target idle =>
      if target ≤ idle + pool.inFlight ∨ poolSize ≤ idle + pool.inFlight then
        some { pool with builder := .waiting }
      else some { pool with builder := .cleared pool.inFlight }
  | .waiting => some { pool with builder := if shutdown then .stopped else .top }
  | .cleared inFlight =>
      some { pool with
        builder := if failures = 0 then .ready else if 0 < inFlight then .waiting else .backoff }
  | .backoff => some { pool with builder := if shutdown then .stopped else .ready }
  | .ready => some { pool with inFlight := pool.inFlight + 1, builder := .reserved }
  | .reserved =>
      if shutdown then some { pool with inFlight := pool.inFlight - 1, builder := .stopped }
      else some { pool with tasks := pool.tasks ++ [.connecting], builder := .top }
  | .stopped => none

/-- The connection is made and its tunnel pushed, or it fails. -/
def connect (pool : WarmPool) (id : Nat) (ok : Bool) : Option WarmPool :=
  if pool.tasks[id]? = some .connecting then
    if ok then some { pool with queue := pool.queue + 1, tasks := pool.tasks.set id .stored }
    else some { pool with tasks := pool.tasks.set id .failed }
  else none

def announce (pool : WarmPool) (id : Nat) (heir : Option Nat) : Option WarmPool :=
  if pool.tasks[id]? = some .stored then
    (notifyOne .parked .notified pool.permit pool.callers heir).map fun next =>
      { pool with permit := next.1, callers := next.2, tasks := pool.tasks.set id .announced }
  else none

/-- `in_flight.fetch_sub(1)` at the end of a task. -/
def finish (pool : WarmPool) (id : Nat) : Option WarmPool :=
  if pool.tasks[id]? = some .announced ∨ pool.tasks[id]? = some .failed then
    some { pool with inFlight := pool.inFlight - 1, tasks := pool.tasks.set id .ended }
  else none

end Build

section Cases
variable {pool next : WarmPool}

theorem pop_cases {id : Nat} {usable : Bool} (stepped : pool.pop id usable = some next) :
    ∃ woken, pool.callers[id]? = some (.looking woken) ∧
      (pool.queue = 0 ∧ next = { pool with callers := pool.callers.set id .missed } ∨
        0 < pool.queue ∧ ∃ place, (place = .gone ∨ place = .looking woken) ∧ next = { pool with
          queue := pool.queue - 1, callers := pool.callers.set id place }) := by
  unfold pop at stepped
  split at stepped
  · rename_i woken here
    split at stepped
    · rename_i empty
      cases stepped
      exact ⟨woken, here, .inl ⟨empty, rfl⟩⟩
    · rename_i tunnels
      cases stepped
      refine ⟨woken, here, .inr ⟨Nat.pos_of_ne_zero tunnels, _, ?_, rfl⟩⟩
      cases usable
      · exact .inr rfl
      · exact .inl rfl
  · cases stepped

theorem poll_cases {id : Nat} (stepped : pool.poll id = some next) :
    pool.callers[id]? = some .missed ∧
      (pool.permit = true ∧
          next = { pool with permit := false, callers := pool.callers.set id (.looking true) } ∨
        pool.permit = false ∧ next = { pool with callers := pool.callers.set id .parked }) := by
  unfold poll at stepped
  split at stepped
  · rename_i here
    cases stepped
    refine ⟨here, ?_⟩
    cases stored : pool.permit with
    | true => exact .inl ⟨rfl, by simp [firstPoll]⟩
    | false => exact .inr ⟨rfl, by simp [firstPoll]⟩
  · cases stepped

theorem cancel_cases {id : Nat} {heir : Option Nat} (stepped : pool.cancel id heir = some next) :
    (∃ place, pool.callers[id]? = some place ∧ (place = .parked ∨ ∃ woken, place = .looking woken) ∧
        next = { pool with callers := pool.callers.set id .gone }) ∨
      pool.callers[id]? = some .notified ∧
        ((∃ other, (pool.callers.set id .gone)[other]? = some .parked ∧
            next = { pool with callers := (pool.callers.set id .gone).set other .notified }) ∨
          .parked ∉ pool.callers.set id .gone ∧
            next = { pool with permit := true, callers := pool.callers.set id .gone }) := by
  unfold cancel at stepped
  split at stepped
  · rename_i woken here
    cases stepped
    exact .inl ⟨_, here, .inr ⟨woken, rfl⟩, rfl⟩
  · rename_i here
    cases stepped
    exact .inl ⟨_, here, .inl rfl, rfl⟩
  · rename_i here
    obtain ⟨result, passed, rfl⟩ := Option.map_eq_some_iff.mp stepped
    rcases notifyOne_cases passed with ⟨other, registered, rfl⟩ | ⟨nobody, rfl⟩
    · exact .inr ⟨here, .inl ⟨other, registered, rfl⟩⟩
    · exact .inr ⟨here, .inr ⟨nobody, rfl⟩⟩
  · cases stepped

theorem announce_cases {id : Nat} {heir : Option Nat}
    (stepped : pool.announce id heir = some next) :
    pool.tasks[id]? = some .stored ∧
      ((∃ other, pool.callers[other]? = some .parked ∧ next = { pool with
          callers := pool.callers.set other .notified, tasks := pool.tasks.set id .announced }) ∨
        .parked ∉ pool.callers ∧
          next = { pool with permit := true, tasks := pool.tasks.set id .announced }) := by
  unfold announce at stepped
  split at stepped
  · rename_i here
    refine ⟨here, ?_⟩
    obtain ⟨result, notified, rfl⟩ := Option.map_eq_some_iff.mp stepped
    rcases notifyOne_cases notified with ⟨other, registered, rfl⟩ | ⟨nobody, rfl⟩
    · exact .inl ⟨other, registered, rfl⟩
    · exact .inr ⟨nobody, rfl⟩
  · cases stepped

theorem build_frame {poolSize failures : Nat} {shutdown : Bool}
    (stepped : pool.build poolSize shutdown failures = some next) :
    next.queue = pool.queue ∧ next.permit = pool.permit ∧ next.callers = pool.callers ∧
      (next.tasks = pool.tasks ∨ next.tasks = pool.tasks ++ [.connecting]) := by
  unfold build at stepped
  split at stepped
  case h_3 =>
    split at stepped <;> cases stepped <;> exact ⟨rfl, rfl, rfl, .inl rfl⟩
  case h_8 =>
    split at stepped
    · cases stepped
      exact ⟨rfl, rfl, rfl, .inl rfl⟩
    · cases stepped
      exact ⟨rfl, rfl, rfl, .inr rfl⟩
  all_goals
    cases stepped
    try exact ⟨rfl, rfl, rfl, .inl rfl⟩

end Cases

end WarmPool

inductive Event where
  | call
  | pop (id : Nat) (usable : Bool)
  | poll (id : Nat)
  | resume (id : Nat)
  | cancel (id : Nat) (heir : Option Nat)
  | build (shutdown : Bool) (failures : Nat)
  | connect (id : Nat) (ok : Bool)
  | announce (id : Nat) (heir : Option Nat)
  | finish (id : Nat)
  | retarget (target : Nat)
  | discard (count : Nat)
  deriving DecidableEq

def step (poolSize : Nat) (pool : WarmPool) : Event → Option WarmPool
  | .call => some { pool with callers := pool.callers ++ [.looking false] }
  | .pop id usable => pool.pop id usable
  | .poll id => pool.poll id
  | .resume id => pool.resume id
  | .cancel id heir => pool.cancel id heir
  | .build shutdown failures => pool.build poolSize shutdown failures
  | .connect id ok => pool.connect id ok
  | .announce id heir => pool.announce id heir
  | .finish id => pool.finish id
  | .retarget target => some { pool with target := target }
  | .discard count => some { pool with queue := pool.queue - count }

end Mirage.Pool
