import Mathlib.Algebra.Order.Group.Nat
import Mirage.Lib.Trace
import Mirage.Relay.Bidirectional

/-!
`idle_timeout`, `idle_timeout_drain` and `PeerDone::set` of proxy/mod.rs on one
idle clock. An event is one step of the waiting task between two accesses to
what it shares, a touch, a part of `set`, the inner future becoming ready, or
time that passes. Times are in nanoseconds from the creation of the clock. A
task that can run does so, a `set` is done with, and a sleep ends, before time
goes on.
-/

namespace Mirage.Relay.IdleTimeout
open Trace
open Bidirectional (millis)

def millisecond : Nat := 1000000

/-- The limits of a call; without `drain` it is one of `idle_timeout`. -/
structure Timeout where
  idle : Nat
  drain : Option Nat

def idleTimeout (idle : Nat) : Timeout := ⟨idle, none⟩

def idleTimeoutDrain (idle drain : Nat) : Timeout := ⟨idle, some drain⟩

def Timeout.limit (self : Timeout) (peerDone : Bool) : Nat :=
  match self.drain with
  | some drain => if peerDone then min drain self.idle else self.idle
  | none => self.idle

/-- Where the task is. `notified` is whether the registered waiter was woken;
`selecting` keeps what the flag said and when the sleep ends. -/
inductive Place where
  | outside
  | top
  | registered (notified : Bool)
  | checked (peerDone notified : Bool)
  | lastPoll
  | selecting (peerDone : Bool) (deadline : Nat) (notified : Bool)
  | returned (time : Nat) (ready : Bool)
  deriving DecidableEq

/-- `setting` is a `set` between its store and its wake-up; `touches` is only
remembered. -/
structure World where
  now : Nat
  lastActiveMs : Nat
  ready : Bool
  done : Bool
  setting : Bool
  place : Place
  touches : List Nat

inductive Event where
  | call
  | poll
  | touch
  | complete
  | store
  | notifyWaiters
  | wait (nanos : Nat)
  deriving DecidableEq

namespace World

/-- The clock counts its own creation as a touch. -/
def start : World := ⟨0, 0, false, false, false, .outside, [0]⟩

def elapsedSinceActive (self : World) : Nat :=
  (millis self.now - self.lastActiveMs) * millisecond

def touch (self : World) : World :=
  { self with
    lastActiveMs := max self.lastActiveMs (millis self.now)
    touches := self.touches ++ [self.now] }

/-- `notify_waiters` leaves nothing for those who register later. -/
def wake (self : World) : World :=
  { self with
    setting := false
    place := match self.place with
      | .registered _ => .registered true
      | .checked peerDone _ => .checked peerDone true
      | .selecting peerDone deadline _ => .selecting peerDone deadline true
      | place => place }

def poll (timeout : Timeout) (self : World) : Option World :=
  match self.place with
  | .outside => none
  | .top =>
      some { self with
        place := if timeout.drain.isSome then .registered false else .checked false false }
  | .registered notified => some { self with place := .checked self.done notified }
  | .checked peerDone notified =>
      let limit := timeout.limit peerDone
      if self.elapsedSinceActive < limit then
        some { self with
          place := .selecting peerDone (self.now + (limit - self.elapsedSinceActive)) notified }
      else some { self with place := .lastPoll }
  | .lastPoll => some { self with place := .returned self.now self.ready }
  | .selecting peerDone deadline notified =>
      if self.ready then some { self with place := .returned self.now true }
      else if deadline ≤ self.now then some { self with place := .top }
      else if timeout.drain.isSome && !peerDone && notified then some { self with place := .top }
      else none
  | .returned _ _ => none

/-- Time does not go past the end of the sleep. -/
def sleepsTo (self : World) (time : Nat) : Bool :=
  match self.place with
  | .selecting _ deadline _ => decide (time ≤ deadline)
  | _ => true

/-- The task is in a call. -/
def waiting (self : World) : Bool :=
  match self.place with
  | .outside | .returned _ _ => false
  | _ => true

def step (timeout : Timeout) (self : World) : Event → Option World
  | .call => if self.waiting then none else some { self with place := .top, ready := false }
  | .poll => self.poll timeout
  | .touch => some self.touch
  | .complete => some { self with ready := true }
  | .store => some { self with done := true, setting := true }
  | .notifyWaiters => if self.setting then some self.wake else none
  | .wait nanos =>
      if (self.poll timeout).isNone ∧ self.setting = false ∧
          self.sleepsTo (self.now + nanos) = true then
        some { self with now := self.now + nanos }
      else none

/-- Nothing before the present moment touched the clock within the limit. -/
def Silent (timeout : Timeout) (self : World) : Prop :=
  ∀ time ∈ self.touches, time < self.now →
    timeout.limit self.done ≤ (millis self.now - millis time) * millisecond

/-- The latest touch is what the clock holds. -/
structure Clocked (world : World) : Prop where
  past : ∀ time ∈ world.touches, time ≤ world.now ∧ millis time ≤ world.lastActiveMs
  last : ∃ time ∈ world.touches, millis time = world.lastActiveMs

/-- What holds of the task where it is: what it saw of the flag is true, a `set`
that it missed has woken it, it sleeps no longer than the limit after the last
touch, and it takes its last poll only in silence. -/
def Placed (timeout : Timeout) (self : World) : Prop :=
  match self.place with
  | .registered _ => timeout.drain.isSome = true
  | .checked peerDone notified =>
      (peerDone = true → self.done = true) ∧
        (timeout.drain.isSome = true → self.done = true → self.setting = false →
          peerDone = true ∨ notified = true)
  | .lastPoll => self.Silent timeout
  | .selecting peerDone deadline notified =>
      (peerDone = true → self.done = true) ∧
        (timeout.drain.isSome = true → self.done = true → self.setting = false →
          peerDone = true ∨ notified = true) ∧
        self.now ≤ deadline ∧
        deadline < (self.lastActiveMs + 1) * millisecond + timeout.limit peerDone ∧
        0 < timeout.limit peerDone
  | _ => True

structure Sound (timeout : Timeout) (world : World) : Prop where
  clocked : world.Clocked
  placed : world.Placed timeout

variable {timeout : Timeout} {world next : World} {event : Event}

theorem millis_mono {first second : Nat} (ordered : first ≤ second) :
    millis first ≤ millis second := Nat.div_le_div_right ordered

theorem millis_le (time : Nat) : millis time * millisecond ≤ time :=
  Nat.div_mul_le_self time millisecond

theorem lt_millis_succ (time : Nat) : time < (millis time + 1) * millisecond :=
  Nat.lt_mul_of_div_lt (Nat.lt_succ_self _) (by decide)

theorem sound_start (timeout : Timeout) : Sound timeout start :=
  ⟨⟨by simp [start, millis], ⟨0, List.mem_singleton_self 0, rfl⟩⟩, trivial⟩

theorem Silent.store (silent : world.Silent timeout) :
    Silent timeout { world with done := true, setting := true } := by
  intro time member before
  refine le_trans ?_ (silent time member before)
  unfold Timeout.limit
  cases timeout.drain with
  | none => exact le_rfl
  | some drain =>
      dsimp only
      rw [if_pos rfl]
      split
      · exact le_rfl
      · exact Nat.min_le_right _ _

/-- What the clock read without a touch in the limit means for every touch. -/
theorem Clocked.silent (clocked : world.Clocked) {peerDone : Bool}
    (seen : peerDone = true → world.done = true)
    (over_ : timeout.limit peerDone ≤ world.elapsedSinceActive) : world.Silent timeout := by
  intro time member _
  have least : timeout.limit world.done ≤ timeout.limit peerDone := by
    unfold Timeout.limit
    cases timeout.drain with
    | none => exact le_rfl
    | some drain =>
        cases peerDone with
        | true => rw [seen rfl]
        | false =>
            cases world.done with
            | true => exact Nat.min_le_right _ _
            | false => exact le_rfl
  refine least.trans (over_.trans ?_)
  exact Nat.mul_le_mul_right _ (Nat.sub_le_sub_left (clocked.past time member).2 _)

/-- The end of a sleep that begins now is less than a millisecond after the
limit, counted from the latest touch. -/
theorem Clocked.deadline (clocked : world.Clocked) {limit : Nat}
    (within : world.elapsedSinceActive < limit) :
    world.now + (limit - world.elapsedSinceActive) <
      (world.lastActiveMs + 1) * millisecond + limit := by
  obtain ⟨time, member, same⟩ := clocked.last
  have ordered : world.lastActiveMs ≤ millis world.now :=
    same ▸ millis_mono (clocked.past time member).1
  have soon := lt_millis_succ world.now
  unfold elapsedSinceActive at *
  have split : millis world.now * millisecond =
      world.lastActiveMs * millisecond +
        (millis world.now - world.lastActiveMs) * millisecond := by
    rw [← Nat.add_mul, Nat.add_sub_cancel' ordered]
  rw [Nat.add_mul] at soon ⊢
  omega

theorem Sound.touch (sound : Sound timeout world) : Sound timeout world.touch := by
  obtain ⟨⟨past, last⟩, placed⟩ := sound
  refine ⟨⟨?_, ?_⟩, ?_⟩
  · intro time member
    cases List.mem_append.mp member with
    | inl old => exact ⟨(past time old).1, (past time old).2.trans (Nat.le_max_left _ _)⟩
    | inr new =>
        rw [List.mem_singleton.mp new]
        exact ⟨le_rfl, Nat.le_max_right _ _⟩
  · change ∃ time ∈ world.touches ++ [world.now],
      millis time = max world.lastActiveMs (millis world.now)
    obtain ⟨time, member, same⟩ := last
    rcases Nat.le_total world.lastActiveMs (millis world.now) with later | earlier
    · exact ⟨world.now, List.mem_append_right _ (List.mem_singleton_self _),
        (Nat.max_eq_right later).symm⟩
    · exact ⟨time, List.mem_append_left _ member, same.trans (Nat.max_eq_left earlier).symm⟩
  · unfold Placed World.touch at *
    dsimp only
    cases here : world.place with
    | lastPoll =>
        rw [here] at placed
        intro time member before
        cases List.mem_append.mp member with
        | inl old => exact placed time old before
        | inr new => exact absurd (List.mem_singleton.mp new ▸ before) (Nat.lt_irrefl _)
    | selecting peerDone deadline notified =>
        rw [here] at placed
        obtain ⟨seen, woken, ahead, bound, positive⟩ := placed
        refine ⟨seen, woken, ahead, bound.trans_le ?_, positive⟩
        apply Nat.add_le_add_right
        exact Nat.mul_le_mul_right _ (Nat.add_le_add_right (Nat.le_max_left _ _) 1)
    | outside => trivial
    | top => trivial
    | returned time ready => trivial
    | registered notified => rwa [here] at placed
    | checked peerDone notified => rwa [here] at placed

theorem Sound.wake (sound : Sound timeout world) : Sound timeout world.wake := by
  obtain ⟨clocked, placed⟩ := sound
  refine ⟨⟨clocked.past, clocked.last⟩, ?_⟩
  unfold Placed World.wake at *
  dsimp only
  cases here : world.place with
  | lastPoll => rwa [here] at placed
  | selecting peerDone deadline notified =>
      rw [here] at placed
      obtain ⟨seen, _, ahead, bound, positive⟩ := placed
      exact ⟨seen, fun _ _ _ => .inr rfl, ahead, bound, positive⟩
  | checked peerDone notified =>
      rw [here] at placed
      exact ⟨placed.1, fun _ _ _ => .inr rfl⟩
  | registered notified => rwa [here] at placed
  | outside => trivial
  | top => trivial
  | returned time ready => trivial

theorem Sound.store (sound : Sound timeout world) :
    Sound timeout { world with done := true, setting := true } := by
  obtain ⟨clocked, placed⟩ := sound
  refine ⟨⟨clocked.past, clocked.last⟩, ?_⟩
  unfold Placed at *
  dsimp only
  cases here : world.place with
  | lastPoll =>
      rw [here] at placed
      exact Silent.store placed
  | selecting peerDone deadline notified =>
      rw [here] at placed
      obtain ⟨_, _, ahead, bound, positive⟩ := placed
      exact ⟨fun _ => rfl, fun _ _ unset => Bool.noConfusion unset, ahead, bound, positive⟩
  | checked peerDone notified => exact ⟨fun _ => rfl, fun _ _ unset => Bool.noConfusion unset⟩
  | registered notified => rwa [here] at placed
  | outside => trivial
  | top => trivial
  | returned time ready => trivial

theorem Sound.poll (sound : Sound timeout world) (polled : world.poll timeout = some next) :
    Sound timeout next := by
  obtain ⟨clocked, placed⟩ := sound
  have kept : ∀ place, Placed timeout { world with place } →
      Sound timeout { world with place } :=
    fun place held => ⟨⟨clocked.past, clocked.last⟩, held⟩
  unfold World.poll at polled
  unfold Placed at placed
  cases here : world.place with
  | outside =>
      rw [here] at polled
      cases polled
  | returned time ready =>
      rw [here] at polled
      cases polled
  | top =>
      rw [here] at polled
      cases polled
      apply kept
      by_cases drains : timeout.drain.isSome = true
      · rw [if_pos drains]
        exact drains
      · rw [if_neg drains]
        exact ⟨fun no => Bool.noConfusion no, fun isSome => absurd isSome drains⟩
  | registered notified =>
      rw [here] at polled
      cases polled
      apply kept
      exact ⟨id, fun _ done _ => .inl done⟩
  | lastPoll =>
      rw [here] at polled
      cases polled
      exact kept _ trivial
  | checked peerDone notified =>
      rw [here] at polled placed
      dsimp only at polled
      obtain ⟨seen, woken⟩ := placed
      split at polled
      · next within =>
          cases polled
          apply kept
          exact ⟨seen, woken, Nat.le_add_right _ _, clocked.deadline within,
            Nat.zero_lt_of_lt within⟩
      -- The limit has been reached since the last byte, so that silence is known before the last
      -- poll.
      · next over_ =>
          cases polled
          apply kept
          exact clocked.silent seen (Nat.le_of_not_lt over_)
  | selecting peerDone deadline notified =>
      rw [here] at polled
      dsimp only at polled
      split at polled
      · cases polled
        exact kept _ trivial
      · split at polled
        · cases polled
          exact kept _ trivial
        · split at polled
          · cases polled
            exact kept _ trivial
          · cases polled

/-- Where the task can be when it has no step to take. -/
theorem asleep (still : world.poll timeout = none) :
    world.waiting = false ∧ (∀ peerDone deadline notified,
        world.place ≠ .selecting peerDone deadline notified) ∨
      ∃ peerDone deadline notified, world.place = .selecting peerDone deadline notified ∧
        world.ready = false ∧ world.now < deadline ∧
        (timeout.drain.isSome && !peerDone && notified) = false := by
  unfold World.poll at still
  cases here : world.place with
  | outside => exact .inl ⟨by rw [waiting, here], fun _ _ _ => nofun⟩
  | returned time ready => exact .inl ⟨by rw [waiting, here], fun _ _ _ => nofun⟩
  | top => rw [here] at still; cases still
  | registered notified => rw [here] at still; cases still
  | lastPoll => rw [here] at still; cases still
  | checked peerDone notified =>
      rw [here] at still
      dsimp only at still
      split at still <;> cases still
  | selecting peerDone deadline notified =>
      rw [here] at still
      dsimp only at still
      split at still
      · cases still
      · next pending =>
          split at still
          · cases still
          · next ahead =>
              split at still
              · cases still
              · next unwoken =>
                  exact .inr ⟨peerDone, deadline, notified, rfl, Bool.eq_false_iff.mpr pending,
                    Nat.lt_of_not_le ahead, Bool.eq_false_iff.mpr unwoken⟩

theorem wait_cases {nanos : Nat} (waited : world.step timeout (.wait nanos) = some next) :
    world.poll timeout = none ∧ world.setting = false ∧
      world.sleepsTo (world.now + nanos) = true ∧
      next = { world with now := world.now + nanos } := by
  rw [step] at waited
  split at waited
  · next allowed =>
      cases waited
      exact ⟨Option.isNone_iff_eq_none.mp allowed.1, allowed.2.1, allowed.2.2, rfl⟩
  · cases waited

theorem Sound.wait (sound : Sound timeout world) {nanos : Nat}
    (waited : world.step timeout (.wait nanos) = some next) : Sound timeout next := by
  obtain ⟨still, _, inside, rfl⟩ := wait_cases waited
  obtain ⟨⟨past, last⟩, placed⟩ := sound
  refine ⟨⟨fun time member => ⟨(past time member).1.trans (Nat.le_add_right _ _),
    (past time member).2⟩, last⟩, ?_⟩
  obtain ⟨idle, apart⟩ | ⟨peerDone, deadline, notified, here, _, _, _⟩ := asleep still
  · unfold Placed waiting at *
    dsimp only
    cases there : world.place with
    | outside => trivial
    | returned time ready => trivial
    | top => rw [there] at idle; cases idle
    | registered notified => rw [there] at idle; cases idle
    | lastPoll => rw [there] at idle; cases idle
    | checked peerDone notified => rw [there] at idle; cases idle
    | selecting peerDone deadline notified => exact absurd there (apart _ _ _)
  · unfold Placed sleepsTo at *
    dsimp only
    rw [here] at placed inside ⊢
    obtain ⟨seen, woken, _, bound, positive⟩ := placed
    exact ⟨seen, woken, of_decide_eq_true inside, bound, positive⟩

theorem Sound.step (sound : Sound timeout world) (stepped : world.step timeout event = some next) :
    Sound timeout next := by
  cases event with
  | poll => exact sound.poll stepped
  | wait nanos => exact sound.wait stepped
  | call =>
      rw [World.step] at stepped
      split at stepped
      · cases stepped
      · cases stepped
        exact ⟨⟨sound.clocked.past, sound.clocked.last⟩, trivial⟩
  | touch =>
      cases stepped
      exact sound.touch
  | complete =>
      cases stepped
      exact ⟨⟨sound.clocked.past, sound.clocked.last⟩, sound.placed⟩
  | store =>
      cases stepped
      exact sound.store
  | notifyWaiters =>
      rw [World.step] at stepped
      split at stepped
      · cases stepped
        exact sound.wake
      · cases stepped

/-- While the task waits, no millisecond goes by in which the limit is reached:
whatever moment lies in one that is over, a touch lies within the limit before
it. -/
theorem Sound.in_time (sound : Sound timeout world) {nanos : Nat}
    (waited : world.step timeout (.wait nanos) = some next) (inside : world.waiting = true) :
    world.ready = false ∧ ∀ time, millis time < millis next.now →
      ∃ touched ∈ world.touches,
        (millis time - millis touched) * millisecond < timeout.limit world.done := by
  obtain ⟨still, unset, within, rfl⟩ := wait_cases waited
  obtain ⟨idle, _⟩ | ⟨peerDone, deadline, notified, here, pending, _, unwoken⟩ := asleep still
  · rw [idle] at inside
    cases inside
  refine ⟨pending, ?_⟩
  intro time over_
  obtain ⟨touched, member, same⟩ := sound.clocked.last
  have placed := sound.placed
  unfold Placed sleepsTo at *
  rw [here] at placed within
  obtain ⟨seen, woken, _, bound, positive⟩ := placed
  -- the flag as the task saw it is the flag as it is, or it would have been woken
  have current : timeout.limit world.done = timeout.limit peerDone := by
    cases kind : timeout.drain with
    | none => simp only [Timeout.limit, kind]
    | some drain =>
        have isSome : timeout.drain.isSome = true := by rw [kind]; rfl
        cases saw : peerDone with
        | true => rw [seen saw]
        | false =>
            cases set_ : world.done with
            | false => rfl
            | true =>
                rw [isSome, saw] at unwoken
                have missed := woken isSome set_ unset
                rw [saw] at missed
                rw [missed.resolve_left Bool.false_ne_true] at unwoken
                cases unwoken
  refine ⟨touched, member, ?_⟩
  rw [same, current]
  have end_ : (millis time + 1) * millisecond ≤ deadline :=
    (Nat.mul_le_mul_right _ over_).trans ((millis_le _).trans (of_decide_eq_true within))
  rcases Nat.le_total (millis time) world.lastActiveMs with before | after
  · rw [Nat.sub_eq_zero_of_le before, Nat.zero_mul]
    exact positive
  · have split : (millis time + 1) * millisecond =
        (millis time - world.lastActiveMs) * millisecond +
          (world.lastActiveMs + 1) * millisecond := by
      rw [← Nat.add_mul]
      congr 1
      omega
    omega

/-- How a call ends: with the future's answer if it is ready then, and else only
in silence. -/
theorem Sound.returns (sound : Sound timeout world)
    (stepped : world.step timeout event = some next) (inside : world.waiting = true)
    {time : Nat} {ready : Bool} (ended : next.place = .returned time ready) :
    time = world.now ∧ ready = world.ready ∧ (ready = false → world.Silent timeout) := by
  have open_ : world.place ≠ .returned time ready := by
    intro here
    rw [waiting, here] at inside
    cases inside
  cases event with
  | call =>
      rw [World.step, if_pos inside] at stepped
      cases stepped
  | touch => cases stepped; exact absurd ended open_
  | complete => cases stepped; exact absurd ended open_
  | store => cases stepped; exact absurd ended open_
  | wait nanos =>
      obtain ⟨_, _, _, rfl⟩ := wait_cases stepped
      exact absurd ended open_
  | notifyWaiters =>
      rw [World.step] at stepped
      split at stepped
      · cases stepped
        unfold World.wake at ended
        dsimp only at ended
        split at ended
        · cases ended
        · cases ended
        · cases ended
        · exact absurd ended open_
      · cases stepped
  | poll =>
      have placed := sound.placed
      change world.poll timeout = some next at stepped
      unfold World.poll at stepped
      unfold Placed at placed
      cases here : world.place with
      | outside => rw [here] at stepped; cases stepped
      | returned time ready => rw [here] at stepped; cases stepped
      | top =>
          rw [here] at stepped
          cases stepped
          dsimp only at ended
          split at ended <;> cases ended
      | registered notified =>
          rw [here] at stepped
          cases stepped
          cases ended
      | checked peerDone notified =>
          rw [here] at stepped
          dsimp only at stepped
          split at stepped <;> cases stepped <;> cases ended
      -- The deadline has passed, and the future was polled once more.
      | lastPoll =>
          rw [here] at stepped placed
          cases stepped
          cases ended
          exact ⟨rfl, rfl, fun _ => placed⟩
      | selecting peerDone deadline notified =>
          rw [here] at stepped
          dsimp only at stepped
          split at stepped
          · next now =>
              cases stepped
              cases ended
              exact ⟨rfl, now.symm, fun no => Bool.noConfusion no⟩
          · split at stepped
            · cases stepped
              cases ended
            · split at stepped
              · cases stepped
                cases ended
              · cases stepped

/-- At most `most` steps of the task bring it to where it sleeps or is done. -/
def Settles (timeout : Timeout) (world : World) (most : Nat) : Prop :=
  ∃ count ≤ most, ∃ next, follow (step timeout) world (List.replicate count .poll) = some next ∧
    next.poll timeout = none

theorem Settles.still (still : world.poll timeout = none) (most : Nat) :
    Settles timeout world most := ⟨0, Nat.zero_le _, world, rfl, still⟩

theorem Settles.poll {most : Nat} (polled : world.poll timeout = some next)
    (settles : Settles timeout next most) : Settles timeout world (most + 1) := by
  obtain ⟨count, few, final, followed, still⟩ := settles
  refine ⟨count + 1, Nat.succ_le_succ few, final, ?_, still⟩
  rw [List.replicate_succ, follow]
  change (world.poll timeout).bind _ = _
  rw [polled]
  exact followed

theorem Settles.mono {few most : Nat} (settles : Settles timeout world few) (le : few ≤ most) :
    Settles timeout world most := by
  obtain ⟨count, short, rest⟩ := settles
  exact ⟨count, short.trans le, rest⟩

theorem settles_returned {time : Nat} {ready : Bool} (here : world.place = .returned time ready) :
    Settles timeout world 0 := Settles.still (by rw [World.poll, here]) 0

theorem settles_lastPoll (here : world.place = .lastPoll) : Settles timeout world 1 :=
  Settles.poll (by rw [World.poll, here]) (settles_returned rfl)

theorem settles_asleep {peerDone : Bool} {deadline : Nat}
    (here : world.place = .selecting peerDone deadline false) (ahead : world.now < deadline) :
    Settles timeout world 1 := by
  cases ready : world.ready with
  | true =>
      refine Settles.poll (by rw [World.poll, here]; exact if_pos ready) (settles_returned rfl)
  | false =>
      apply Settles.still
      rw [World.poll, here]
      dsimp only
      rw [ready, if_neg Bool.false_ne_true, if_neg (Nat.not_le_of_lt ahead), Bool.and_false]
      rfl

theorem settles_checked {peerDone : Bool} (here : world.place = .checked peerDone false) :
    Settles timeout world 2 := by
  by_cases within : world.elapsedSinceActive < timeout.limit peerDone
  · refine Settles.poll (by rw [World.poll, here]; exact if_pos within) (settles_asleep rfl ?_)
    exact Nat.lt_add_of_pos_right (Nat.sub_pos_of_lt within)
  · exact Settles.poll (by rw [World.poll, here]; exact if_neg within) (settles_lastPoll rfl)

theorem settles_top (here : world.place = .top) : Settles timeout world 4 := by
  refine Settles.poll (by rw [World.poll, here]) ?_
  by_cases drains : timeout.drain.isSome = true
  · rw [if_pos drains]
    exact Settles.poll (by rw [World.poll]) (settles_checked rfl)
  · rw [if_neg drains]
    exact (settles_checked rfl).mono (by decide)

theorem settles_selecting {peerDone notified : Bool} {deadline : Nat}
    (here : world.place = .selecting peerDone deadline notified) : Settles timeout world 5 := by
  cases polled : world.poll timeout with
  | none => exact Settles.still polled 5
  | some next =>
      refine Settles.poll polled ?_
      rw [World.poll, here] at polled
      dsimp only at polled
      split at polled
      · cases polled
        exact (settles_returned rfl).mono (by decide)
      · split at polled
        · cases polled
          exact settles_top rfl
        · split at polled
          · cases polled
            exact settles_top rfl
          · cases polled

/-- From wherever it is, the task sleeps or has returned after a few steps. -/
theorem settles (timeout : Timeout) (world : World) : Settles timeout world 7 := by
  have fromChecked : ∀ (world : World) peerDone notified,
      world.place = .checked peerDone notified → Settles timeout world 6 := by
    intro world peerDone notified here
    by_cases within : world.elapsedSinceActive < timeout.limit peerDone
    · exact Settles.poll (by rw [World.poll, here]; exact if_pos within) (settles_selecting rfl)
    · exact (Settles.poll (by rw [World.poll, here]; exact if_neg within)
        (settles_lastPoll rfl)).mono (by decide)
  cases here : world.place with
  | outside => exact Settles.still (by rw [World.poll, here]) 7
  | returned time ready => exact (settles_returned here).mono (by decide)
  | lastPoll => exact (settles_lastPoll here).mono (by decide)
  | top => exact (settles_top here).mono (by decide)
  | selecting peerDone deadline notified => exact (settles_selecting here).mono (by decide)
  | checked peerDone notified => exact (fromChecked world _ _ here).mono (by decide)
  | registered notified =>
      exact Settles.poll (by rw [World.poll, here]) (fromChecked _ _ _ rfl)

/-- After any events: a call that ends does so with the future's answer if it is
ready, and else only when nothing touched the clock within the limit; while it
waits, time goes by only when the future is not ready and the limit was not
reached in a millisecond that is over; and it never runs on without sleeping. -/
structure Exact (timeout : Timeout) (world : World) : Prop where
  ends : ∀ event next time ready, world.step timeout event = some next → world.waiting = true →
    next.place = .returned time ready →
    time = world.now ∧ ready = world.ready ∧ (ready = false → world.Silent timeout)
  inTime : ∀ nanos next, world.step timeout (.wait nanos) = some next → world.waiting = true →
    world.ready = false ∧ ∀ time, millis time < millis next.now →
      ∃ touched ∈ world.touches,
        (millis time - millis touched) * millisecond < timeout.limit world.done
  settles : ∃ count ≤ 7, ∃ next,
    follow (step timeout) world (List.replicate count .poll) = some next ∧
      next.poll timeout = none

theorem Sound.exact (sound : Sound timeout world) : Exact timeout world where
  ends _ _ _ _ stepped inside ended := sound.returns stepped inside ended
  inTime _ _ waited inside := sound.in_time waited inside
  settles := World.settles timeout world

theorem sound_follow {events : List Event}
    (followed : follow (step timeout) start events = some world) : Sound timeout world :=
  follow_keeps (Sound timeout) Sound.step (sound_start timeout) followed

end World

/-- Both timers are exact after any touches, parts of `set`, completions and
steps of the task, in any order. -/
theorem timers_exact :
    (∀ idle events world, follow (World.step (idleTimeout idle)) World.start events = some world →
      world.Exact (idleTimeout idle)) ∧
    ∀ idle drain events world,
      follow (World.step (idleTimeoutDrain idle drain)) World.start events = some world →
      world.Exact (idleTimeoutDrain idle drain) := by
  constructor
  · intro idle events world followed
    exact (World.sound_follow followed).exact
  · intro idle drain events world followed
    exact (World.sound_follow followed).exact

end Mirage.Relay.IdleTimeout
