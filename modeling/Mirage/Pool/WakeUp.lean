import Mathlib.Tactic.Common
import Mirage.Lib.Trace
import Mirage.Pool.Warm

/-!
Wake-ups of the warm pool against tunnels in its queue. `carried` are the
wake-ups that callers have got and not yet used to look at the queue, `coming`
those that are stored or still to be announced. The pool is `Supplied` when the
tunnels do not outnumber the wake-ups, or the wake-ups to come are enough for
all who wait; every step keeps this except for the loss of a wake-up.
-/

namespace Mirage.Pool
open Notify Trace

def Caller.waits : Caller → Bool
  | missed | parked => true
  | _ => false

/-- The caller has a wake-up and has not looked at the queue since. -/
def Caller.carries : Caller → Bool
  | notified | looking true => true
  | _ => false

namespace WarmPool

def waiting (pool : WarmPool) : Nat := pool.callers.countP Caller.waits

def carried (pool : WarmPool) : Nat := pool.callers.countP Caller.carries

def coming (pool : WarmPool) : Nat := pool.permit.toNat + pool.tasks.countP (· = .stored)

/-- A caller is parked although there is a tunnel, and no wake-up is stored, on
the way to a caller or about to be sent. -/
def Stranded (pool : WarmPool) : Prop :=
  .parked ∈ pool.callers ∧ 0 < pool.queue ∧ pool.permit = false ∧ .stored ∉ pool.tasks ∧
    ∀ caller ∈ pool.callers, caller.carries = false

instance (pool : WarmPool) : Decidable pool.Stranded := inferInstanceAs (Decidable (_ ∧ _))

def Supplied (pool : WarmPool) : Prop :=
  pool.queue ≤ pool.carried + pool.coming ∨ pool.waiting ≤ pool.coming

/-- A wake-up is lost when `notify_one` finds a permit stored, and when a caller
who has taken one up is dropped before its pop. It must not be needed. -/
def Affords (pool : WarmPool) : Event → Prop
  | .announce _ _ => pool.permit = true → .parked ∉ pool.callers →
      pool.queue < pool.carried + pool.coming ∨ pool.waiting < pool.coming
  | .cancel id _ =>
      pool.callers[id]? = some (.looking true) ∨
          pool.callers[id]? = some .notified ∧ pool.permit = true ∧ .parked ∉ pool.callers →
        pool.queue < pool.carried + pool.coming ∨ pool.waiting ≤ pool.coming
  | _ => True

theorem not_stranded {pool : WarmPool} (supplied : pool.Supplied) : ¬ pool.Stranded := by
  rintro ⟨parked, tunnels, noPermit, noTask, noCaller⟩
  have waits : 0 < pool.waiting := List.countP_pos_iff.mpr ⟨_, parked, rfl⟩
  have nothing : pool.carried = 0 := List.countP_eq_zero.mpr fun caller inside => by
    simp [noCaller caller inside]
  have never : pool.tasks.countP (· = .stored) = 0 := by
    rw [List.countP_eq_zero]
    intro task inside same
    exact noTask (of_decide_eq_true same ▸ inside)
  rcases supplied with few | enough
  · rw [nothing, coming, noPermit, never] at few
    exact absurd few (Nat.not_le_of_lt tunnels)
  · rw [coming, noPermit, never] at enough
    exact absurd enough (Nat.not_le_of_lt waits)

section Steps
variable {pool next : WarmPool}

theorem waiting_set {id : Nat} {place : Caller} (here : pool.callers[id]? = some place)
    (new : Caller) :
    (pool.callers.set id new).countP Caller.waits + place.waits.toNat =
      pool.waiting + new.waits.toNat :=
  countP_set Caller.waits here new

theorem carried_set {id : Nat} {place : Caller} (here : pool.callers[id]? = some place)
    (new : Caller) :
    (pool.callers.set id new).countP Caller.carries + place.carries.toNat =
      pool.carried + new.carries.toNat :=
  countP_set Caller.carries here new

theorem pop_supplied {id : Nat} {usable : Bool} (supplied : pool.Supplied)
    (stepped : pool.pop id usable = some next) : next.Supplied := by
  obtain ⟨woken, here, ⟨empty, rfl⟩ | ⟨tunnels, place, left, rfl⟩⟩ := pop_cases stepped
  · exact .inl (by simp [empty])
  · -- a caller who leaves with a tunnel takes at most its own wake-up along
    have waits := waiting_set here place
    have carries := carried_set here place
    have noWait : place.waits = false := by rcases left with rfl | rfl <;> rfl
    have own : (Caller.looking woken).carries.toNat ≤ 1 := Bool.toNat_le _
    rw [noWait] at waits
    simp only [Caller.waits, Bool.toNat_false] at waits
    simp only [Supplied, waiting, carried, coming] at supplied waits carries ⊢
    omega

theorem poll_supplied {id : Nat} (supplied : pool.Supplied)
    (stepped : pool.poll id = some next) : next.Supplied := by
  obtain ⟨here, ⟨stored, rfl⟩ | ⟨none, rfl⟩⟩ := poll_cases stepped
  · have waits := waiting_set here (.looking true)
    have carries := carried_set here (.looking true)
    simp only [Supplied, waiting, carried, coming, stored, Caller.waits, Caller.carries,
      Bool.toNat_true, Bool.toNat_false] at supplied waits carries ⊢
    omega
  · have waits := waiting_set here .parked
    have carries := carried_set here .parked
    simp only [Supplied, waiting, carried, coming, Caller.waits, Caller.carries,
      Bool.toNat_true, Bool.toNat_false] at supplied waits carries ⊢
    omega

theorem resume_supplied {id : Nat} (supplied : pool.Supplied)
    (stepped : pool.resume id = some next) : next.Supplied := by
  unfold resume at stepped
  split at stepped
  · rename_i here
    cases stepped
    have waits := waiting_set here (.looking true)
    have carries := carried_set here (.looking true)
    simp only [Supplied, waiting, carried, coming, Caller.waits, Caller.carries,
      Bool.toNat_true, Bool.toNat_false] at supplied waits carries ⊢
    omega
  · cases stepped

theorem parked_mem_set {id : Nat} {place new : Caller} (here : pool.callers[id]? = some place)
    (before : place ≠ .parked) (after : new ≠ .parked) :
    .parked ∈ pool.callers.set id new ↔ .parked ∈ pool.callers := by
  constructor
  · intro member
    rcases List.mem_or_eq_of_mem_set member with was | same
    · exact was
    · exact absurd same.symm after
  · intro member
    obtain ⟨other, found⟩ := List.mem_iff_getElem?.mp member
    have different : id ≠ other := by
      rintro rfl
      exact before (Option.some.inj (here.symm.trans found))
    rw [← List.getElem?_set_ne different] at found
    exact List.mem_of_getElem? found

theorem cancel_supplied_iff {id : Nat} {heir : Option Nat} (supplied : pool.Supplied)
    (stepped : pool.cancel id heir = some next) :
    next.Supplied ↔ pool.Affords (.cancel id heir) := by
  rcases cancel_cases stepped with ⟨place, here, which, rfl⟩ | ⟨here, passed⟩
  · have waits := waiting_set here .gone
    have carries := carried_set here .gone
    rcases which with rfl | ⟨woken, rfl⟩
    · simp only [Affords, here, Option.some.injEq, reduceCtorEq, false_and, or_false,
        false_imp_iff, iff_true]
      simp only [Supplied, waiting, carried, coming, Caller.waits, Caller.carries,
        Bool.toNat_true, Bool.toNat_false] at supplied waits carries ⊢
      omega
    · cases woken with
      | false =>
          simp only [Affords, here, Option.some.injEq, reduceCtorEq, Caller.looking.injEq,
            Bool.false_eq_true, false_and, or_false, false_imp_iff, iff_true]
          simp only [Supplied, waiting, carried, coming, Caller.waits, Caller.carries,
            Bool.toNat_false] at supplied waits carries ⊢
          omega
      | true =>
          simp only [Affords, here, true_or, forall_const]
          simp only [Supplied, waiting, carried, coming, Caller.waits, Caller.carries,
            Bool.toNat_true, Bool.toNat_false] at supplied waits carries ⊢
          omega
  · have waits := waiting_set here .gone
    have carries := carried_set here .gone
    have parked : Caller.parked ∈ pool.callers.set id .gone ↔ .parked ∈ pool.callers :=
      parked_mem_set here (by decide) (by decide)
    rcases passed with ⟨other, registered, rfl⟩ | ⟨nobody, rfl⟩
    · -- the wake-up goes to another caller
      have waits' := countP_set Caller.waits registered .notified
      have carries' := countP_set Caller.carries registered .notified
      have exists_ := parked.mp (List.mem_of_getElem? registered)
      simp only [Affords, here, Option.some.injEq, reduceCtorEq, exists_, not_true_eq_false,
        and_false, or_false, false_imp_iff, iff_true]
      simp only [Supplied, waiting, carried, coming, Caller.waits, Caller.carries,
        Bool.toNat_true, Bool.toNat_false] at supplied waits carries waits' carries' ⊢
      omega
    · -- it is stored, unless there is one already
      have absent : Caller.parked ∉ pool.callers := fun member => nobody (parked.mpr member)
      simp only [Affords, here, Option.some.injEq, reduceCtorEq, absent, not_false_eq_true,
        and_true, true_and, false_or]
      simp only [Supplied, waiting, carried, coming, Caller.waits, Caller.carries,
        Bool.toNat_true, Bool.toNat_false] at supplied waits carries ⊢
      cases stored : pool.permit <;>
        simp only [stored, Bool.toNat_true, Bool.toNat_false, Bool.false_eq_true, false_imp_iff,
          iff_true, forall_const] at supplied ⊢ <;> omega

theorem announce_supplied_iff {id : Nat} {heir : Option Nat} (supplied : pool.Supplied)
    (stepped : pool.announce id heir = some next) :
    next.Supplied ↔ pool.Affords (.announce id heir) := by
  obtain ⟨here, ⟨other, registered, rfl⟩ | ⟨nobody, rfl⟩⟩ := announce_cases stepped
  · have waits := waiting_set registered .notified
    have carries := carried_set registered .notified
    have tasks := countP_set (· = .stored) here Task.announced
    have exists_ : Caller.parked ∈ pool.callers := List.mem_of_getElem? registered
    simp only [Affords, exists_, not_true_eq_false, false_imp_iff, imp_true_iff, iff_true]
    simp only [Supplied, waiting, carried, coming, Caller.waits, Caller.carries,
      Bool.toNat_true, Bool.toNat_false, decide_true, reduceCtorEq, decide_false]
      at supplied waits carries tasks ⊢
    omega
  · have tasks := countP_set (· = .stored) here Task.announced
    simp only [Affords, nobody, not_false_eq_true, forall_const]
    simp only [Supplied, waiting, carried, coming, Bool.toNat_true, Bool.toNat_false,
      decide_true, reduceCtorEq, decide_false] at supplied tasks ⊢
    cases stored : pool.permit <;>
      simp only [stored, Bool.toNat_true, Bool.toNat_false, Bool.false_eq_true, false_imp_iff,
        iff_true, forall_const] at supplied ⊢ <;> omega

theorem connect_supplied {id : Nat} {ok : Bool} (supplied : pool.Supplied)
    (stepped : pool.connect id ok = some next) : next.Supplied := by
  unfold connect at stepped
  split at stepped
  · rename_i here
    split at stepped
    · cases stepped
      have tasks := countP_set (· = .stored) here Task.stored
      simp only [Supplied, waiting, carried, coming, Bool.toNat_true, Bool.toNat_false,
        decide_true, reduceCtorEq, decide_false] at supplied tasks ⊢
      omega
    · cases stepped
      have tasks := countP_set (· = .stored) here Task.failed
      simp only [Supplied, waiting, carried, coming, Bool.toNat_false, reduceCtorEq,
        decide_false] at supplied tasks ⊢
      omega
  · cases stepped

theorem finish_supplied {id : Nat} (supplied : pool.Supplied)
    (stepped : pool.finish id = some next) : next.Supplied := by
  unfold finish at stepped
  split at stepped
  · rename_i which
    cases stepped
    have tasks : (pool.tasks.set id .ended).countP (· = .stored) =
        pool.tasks.countP (· = .stored) := by
      rcases which with here | here <;> exact countP_set (· = .stored) here Task.ended
    simpa only [Supplied, waiting, carried, coming, tasks] using supplied
  · cases stepped

theorem build_supplied {poolSize failures : Nat} {shutdown : Bool} (supplied : pool.Supplied)
    (stepped : pool.build poolSize shutdown failures = some next) : next.Supplied := by
  obtain ⟨queue, permit, callers, tasks⟩ := build_frame stepped
  have stored : next.tasks.countP (· = .stored) = pool.tasks.countP (· = .stored) := by
    rcases tasks with same | more
    · rw [same]
    · rw [more, countP_append_one]
      rfl
  simpa only [Supplied, waiting, carried, coming, queue, permit, callers, stored] using supplied

/-- A step from a supplied pool leaves one exactly if it loses no wake-up that
is needed. -/
theorem step_supplied_iff {poolSize : Nat} {event : Event} (supplied : pool.Supplied)
    (stepped : step poolSize pool event = some next) : next.Supplied ↔ pool.Affords event := by
  cases event with
  | call =>
      cases stepped
      refine iff_of_true ?_ trivial
      simpa only [Supplied, waiting, carried, coming, countP_append_one, Caller.waits,
        Caller.carries, Bool.toNat_false, Nat.add_zero] using supplied
  | pop id usable => exact iff_of_true (pop_supplied supplied stepped) trivial
  | poll id => exact iff_of_true (poll_supplied supplied stepped) trivial
  | resume id => exact iff_of_true (resume_supplied supplied stepped) trivial
  | cancel id heir => exact cancel_supplied_iff supplied stepped
  | build shutdown failures => exact iff_of_true (build_supplied supplied stepped) trivial
  | connect id ok => exact iff_of_true (connect_supplied supplied stepped) trivial
  | announce id heir => exact announce_supplied_iff supplied stepped
  | finish id => exact iff_of_true (finish_supplied supplied stepped) trivial
  | retarget target =>
      cases stepped
      exact iff_of_true supplied trivial
  | discard count =>
      cases stepped
      refine iff_of_true ?_ trivial
      simp only [Supplied, waiting, carried, coming] at supplied ⊢
      omega

end Steps

instance (pool : WarmPool) (event : Event) : Decidable (pool.Affords event) := by
  unfold Affords
  split <;> infer_instance

end WarmPool

open WarmPool

theorem new_supplied (poolSize : Nat) : (new poolSize).Supplied := .inl (Nat.zero_le _)

/-- A run loses no wake-up that is needed exactly if it stays supplied. -/
theorem affords_iff_supplied {poolSize : Nat} {events : List Event} {final : WarmPool}
    (followed : follow (step poolSize) (new poolSize) events = some final) :
    Throughout (step poolSize) Affords (new poolSize) events ↔
      ∀ past pool, past <+: events → follow (step poolSize) (new poolSize) past = some pool →
        pool.Supplied :=
  throughout_iff (fun supplied stepped => step_supplied_iff supplied stepped)
    (new_supplied poolSize) followed

/-- Unless a wake-up is lost that is needed, no caller is left parked beside a
tunnel. -/
theorem no_lost_wakeup (poolSize : Nat) (events : List Event) (final : WarmPool)
    (followed : follow (step poolSize) (new poolSize) events = some final)
    (affords : Throughout (step poolSize) Affords (new poolSize) events) : ¬ final.Stranded := by
  have supplied := (affords_iff_supplied followed).mp affords
  exact not_stranded (supplied events final List.prefix_rfl followed)

def spawnTask : List Event := List.replicate 6 (.build false 0)

/-- Two callers find the queue empty and park, and the tunnels of two tasks
reach them. -/
def handover : List Event :=
  spawnTask ++ spawnTask ++
    [.call, .call, .pop 0 true, .poll 0, .pop 1 true, .poll 1,
      .connect 0 true, .connect 1 true, .announce 0 (some 0), .announce 1 (some 1),
      .resume 0, .resume 1, .pop 0 true, .pop 1 true]

theorem no_lost_wakeup_handover :
    let final : WarmPool := ⟨0, false, [.gone, .gone], 2, 2, [.announced, .announced], .top⟩
    follow (step 2) (new 2) handover = some final ∧ ¬ final.Stranded :=
  have followed : follow (step 2) (new 2) handover =
      some ⟨0, false, [.gone, .gone], 2, 2, [.announced, .announced], .top⟩ := by decide
  ⟨followed, no_lost_wakeup 2 handover _ followed (by decide)⟩

/-- Two callers find the queue empty, and two tunnels are announced before either
has polled its handle. The second announcement finds the permit of the first, so
that only one caller gets a wake-up; the other parks beside the second tunnel. -/
def mergedPermits : List Event :=
  spawnTask ++ spawnTask ++
    [.call, .call, .pop 0 true, .pop 1 true,
      .connect 0 true, .announce 0 none, .connect 1 true, .announce 1 none,
      .poll 0, .poll 1, .pop 0 true, .finish 0, .finish 1]

theorem merged_permits_strand_caller :
    follow (step 2) (new 2) mergedPermits =
        some ⟨1, false, [.gone, .parked], 2, 0, [.ended, .ended], .top⟩ ∧
      (⟨1, false, [.gone, .parked], 2, 0, [.ended, .ended], .top⟩ : WarmPool).Stranded := by
  decide

end Mirage.Pool
