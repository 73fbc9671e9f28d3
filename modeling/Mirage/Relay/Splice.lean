import Mathlib.Data.List.Nodup
import Mathlib.Logic.Function.Basic
import Mirage.Lib.Calls
import Mirage.Lib.Word

/-!
`splice_relay` of proxy/splice.rs and the pool of pipes that all relays share. A
step is what one direction does between two awaits. `splice` appends what it
takes to the pipe, gives away what stands first in it, and returns the number of
bytes; how many is up to the event. A pipe is known by its number. The clock is
in whole seconds. `sent`, `delivered` and `moves` are only remembered.
-/

namespace Mirage.Relay.Splice
open Word Calls

def pipeSize : Nat := 256 * 1024

def idleTimeout : Nat := 15 * 60

def poolCapacity : Nat := 64

inductive Dir where
  | up
  | down
  deriving DecidableEq

/-- Where `splice_one_way` is, with its pipe and what it counts in it. -/
inductive Phase where
  | created
  | reading (pipe : Nat)
  | writing (pipe inPipe : Nat)
  | finished
  | dropped

structure Flow where
  sent : Bytes
  closed : Bool
  unread : Bytes
  delivered : Bytes
  shut : Bool
  total : Nat
  phase : Phase

inductive Outcome where
  | moved (up down : Nat)
  | failed
  | timedOut (now : Nat)
  | cancelled

/-- `touched` is the tracker of activity, which the first poll makes. -/
structure Connection where
  flow : Dir → Flow
  touched : Option Nat
  moves : List Nat
  outcome : Option Outcome

/-- What all relays share: the pool, the pipes of the kernel, the clock and
the counters of the monitor. -/
structure Shared where
  pool : List Nat
  made : Nat
  contents : Nat → Bytes
  now : Nat
  counted : Dir → Nat

inductive Action where
  | send (dir : Dir) (bytes : Bytes)
  | close (dir : Dir)
  | wait (seconds : Nat)
  | poll
  | acquire (dir : Dir) (granted : Bool)
  | read (dir : Dir) (n : Nat)
  | write (dir : Dir) (m : Nat)
  | fail (dir : Dir)
  | watch
  | cancel

namespace Flow

def start : Flow := ⟨[], false, [], [], false, 0, .created⟩

def arrive (flow : Flow) (bytes : Bytes) : Flow :=
  { flow with
    sent := flow.sent ++ bytes
    unread := flow.unread ++ bytes }

def close (flow : Flow) : Flow := { flow with closed := true }

def enter (flow : Flow) (phase : Phase) : Flow := { flow with phase := phase }

def finish (flow : Flow) : Flow :=
  { flow with
    shut := true
    phase := .finished }

/-- `n` bytes go into the pipe. -/
def take (flow : Flow) (pipe n : Nat) : Flow :=
  { flow with
    unread := flow.unread.drop n
    phase := .writing pipe n }

/-- Bytes come out of the pipe, where the loop counts `inPipe`. -/
def give (flow : Flow) (pipe inPipe : Nat) (bytes : Bytes) : Flow :=
  { flow with
    delivered := flow.delivered ++ bytes
    total := flow.total + bytes.length
    phase := if inPipe = bytes.length then .reading pipe
      else .writing pipe (inPipe - bytes.length) }

def drop (flow : Flow) : Flow :=
  match flow.phase with
  | .finished => flow
  | _ => { flow with phase := .dropped }

end Flow

namespace Connection

def start : Connection := ⟨fun _ => .start, none, [], none⟩

def set (self : Connection) (dir : Dir) (flow : Flow) : Connection :=
  { self with flow := Function.update self.flow dir flow }

def finish (self : Connection) (outcome : Outcome) : Connection :=
  { self with
    flow := fun dir => (self.flow dir).drop
    outcome := some outcome }

/-- `try_join!` returns once both directions have. -/
def join (self : Connection) : Connection :=
  match (self.flow .up).phase, (self.flow .down).phase with
  | .finished, .finished =>
      { self with outcome := some (.moved (self.flow .up).total (self.flow .down).total) }
  | _, _ => self

def touch (self : Connection) (now : Nat) : Connection :=
  { self with
    touched := some now
    moves := now :: self.moves }

end Connection

namespace Shared

def start : Shared := ⟨[], 0, fun _ => [], 0, fun _ => 0⟩

/-- `release_pipe` -/
def release (shared : Shared) (pipe : Nat) : Shared :=
  if shared.pool.length < poolCapacity then { shared with pool := shared.pool ++ [pipe] }
  else shared

def fill (shared : Shared) (pipe : Nat) (bytes : Bytes) : Shared :=
  { shared with contents := Function.update shared.contents pipe bytes }

def count (shared : Shared) (dir : Dir) (n : Nat) : Shared :=
  { shared with counted := Function.update shared.counted dir (shared.counted dir + n) }

end Shared

/-- `acquire_pipe`; `granted` says whether the kernel has a pipe to give. -/
def acquire (shared : Shared) (granted : Bool) : Option (Nat × Shared) :=
  match shared.pool with
  | pipe :: rest => some (pipe, { shared with pool := rest })
  | [] =>
      if granted then
        some (shared.made, { shared.fill shared.made [] with made := shared.made + 1 })
      else none

def act (shared : Shared) (self : Connection) : Action → Option (Shared × Connection)
  | .acquire dir granted =>
      match (self.flow dir).phase with
      | .created =>
          match acquire shared granted with
          | some (pipe, shared) =>
              some (shared, self.set dir ((self.flow dir).enter (.reading pipe)))
          | none => some (shared, self.finish .failed)
      | _ => none
  | .read dir n =>
      let flow := self.flow dir
      match flow.phase with
      | .reading pipe =>
          if n = 0 then
            if flow.unread = [] ∧ flow.closed then
              some (shared.release pipe, (self.set dir flow.finish).join)
            else none
          else if n ≤ flow.unread.length ∧ n ≤ pipeSize then
            some (shared.fill pipe (shared.contents pipe ++ flow.unread.take n),
              (self.set dir (flow.take pipe n)).touch shared.now)
          else none
      | _ => none
  | .write dir m =>
      let flow := self.flow dir
      match flow.phase with
      | .writing pipe inPipe =>
          if m = 0 then some (shared, self.finish .failed)
          else if m ≤ inPipe ∧ m ≤ (shared.contents pipe).length then
            some ((shared.fill pipe ((shared.contents pipe).drop m)).count dir m,
              (self.set dir (flow.give pipe inPipe ((shared.contents pipe).take m))).touch
                shared.now)
          else none
      | _ => none
  | .fail dir =>
      match (self.flow dir).phase with
      | .reading _ | .writing _ _ => some (shared, self.finish .failed)
      | _ => none
  | .watch =>
      if self.touched.any fun at_ => idleTimeout < shared.now - at_ then
        some (shared, self.finish (.timedOut shared.now))
      else none
  | _ => none

/-- Peers may send and close at any time, and whoever waits for a relay may drop
it at any time. -/
def advance (shared : Shared) (self : Connection) : Action → Option (Shared × Connection)
  | .send dir bytes =>
      if (self.flow dir).closed then none
      else some (shared, self.set dir ((self.flow dir).arrive bytes))
  | .close dir => some (shared, self.set dir (self.flow dir).close)
  | .wait seconds => some ({ shared with now := shared.now + seconds }, self)
  | .poll =>
      if self.outcome.isNone ∧ self.touched.isNone then
        some (shared, { self with touched := some shared.now })
      else none
  | .cancel =>
      if self.outcome.isNone then some (shared, self.finish .cancelled) else none
  | action =>
      if self.outcome.isNone ∧ self.touched.isSome then act shared self action else none

/-- What any number of relays can come to. -/
abbrev Reached (state : System Shared Connection) : Prop :=
  Reachable (fun _ : Unit => Connection.start) advance Shared.start state

section Steps

inductive Effect (shared : Shared) (self : Connection) : Shared → Connection → Prop where
  | sent (dir : Dir) (bytes : Bytes) (goes : (self.flow dir).closed = false) :
      Effect shared self shared (self.set dir ((self.flow dir).arrive bytes))
  | closed (dir : Dir) :
      Effect shared self shared (self.set dir (self.flow dir).close)
  | waited (seconds : Nat) : Effect shared self { shared with now := shared.now + seconds } self
  | polled (fresh : self.touched = none) (going : self.outcome = none) :
      Effect shared self shared { self with touched := some shared.now }
  | acquired {dir : Dir} {pipe : Nat} {rest : List Nat} (pooled : shared.pool = pipe :: rest)
      (phase : (self.flow dir).phase = .created) (going : self.outcome = none) :
      Effect shared self { shared with pool := rest }
        (self.set dir ((self.flow dir).enter (.reading pipe)))
  | made {dir : Dir} (pooled : shared.pool = []) (phase : (self.flow dir).phase = .created)
      (going : self.outcome = none) :
      Effect shared self { shared.fill shared.made [] with made := shared.made + 1 }
        (self.set dir ((self.flow dir).enter (.reading shared.made)))
  | ended {dir : Dir} {pipe : Nat} (phase : (self.flow dir).phase = .reading pipe)
      (drained : (self.flow dir).unread = []) (closed : (self.flow dir).closed = true)
      (going : self.outcome = none) :
      Effect shared self (shared.release pipe)
        (self.set dir (self.flow dir).finish).join
  | filled {dir : Dir} {pipe n : Nat} (phase : (self.flow dir).phase = .reading pipe)
      (some_ : 0 < n) (there : n ≤ (self.flow dir).unread.length) (going : self.outcome = none) :
      Effect shared self
        (shared.fill pipe (shared.contents pipe ++ (self.flow dir).unread.take n))
        ((self.set dir ((self.flow dir).take pipe n)).touch shared.now)
  | emptied {dir : Dir} {pipe inPipe m : Nat}
      (phase : (self.flow dir).phase = .writing pipe inPipe) (some_ : 0 < m) (most : m ≤ inPipe)
      (there : m ≤ (shared.contents pipe).length) (going : self.outcome = none) :
      Effect shared self
        ((shared.fill pipe ((shared.contents pipe).drop m)).count dir m)
        ((self.set dir ((self.flow dir).give pipe inPipe ((shared.contents pipe).take m))).touch
          shared.now)
  | broken (outcome : Outcome) (bad : ∀ up down, outcome ≠ .moved up down)
      (late : ∀ now, outcome = .timedOut now → ∃ at_, self.touched = some at_ ∧
        at_ + idleTimeout < now)
      (going : self.outcome = none) : Effect shared self shared (self.finish outcome)

variable {shared shared' : Shared} {self self' : Connection} {action : Action}

theorem act_effect (going : self.outcome = none)
    (acted : act shared self action = some (shared', self')) :
    Effect shared self shared' self' := by
  cases action with
  | acquire dir granted =>
      simp only [act] at acted
      split at acted
      · rename_i phase
        cases pooled : shared.pool with
        | cons pipe rest =>
            simp only [acquire, pooled] at acted
            cases acted
            exact .acquired pooled phase going
        | nil =>
            cases granted with
            | true =>
                simp only [acquire, pooled] at acted
                cases acted
                exact .made pooled phase going
            | false =>
                simp only [acquire, pooled] at acted
                cases acted
                exact .broken .failed nofun nofun going
      · cases acted
  | read dir n =>
      simp only [act] at acted
      split at acted
      · rename_i pipe phase
        split at acted
        · split at acted
          · rename_i drained
            cases acted
            exact .ended phase drained.1 drained.2 going
          · cases acted
        · rename_i some_
          split at acted
          · rename_i within
            cases acted
            exact .filled phase (Nat.pos_of_ne_zero some_) within.1 going
          · cases acted
      · cases acted
  | write dir m =>
      simp only [act] at acted
      split at acted
      · rename_i pipe inPipe phase
        split at acted
        · cases acted
          exact .broken .failed nofun nofun going
        · rename_i some_
          split at acted
          · rename_i within
            cases acted
            exact .emptied phase (Nat.pos_of_ne_zero some_) within.1 within.2 going
          · cases acted
      · cases acted
  | fail dir =>
      simp only [act] at acted
      split at acted
      · cases acted
        exact .broken .failed nofun nofun going
      · cases acted
        exact .broken .failed nofun nofun going
      · cases acted
  | watch =>
      simp only [act] at acted
      split at acted
      · rename_i idle
        cases known : self.touched with
        | none =>
            rw [known] at idle
            cases idle
        | some at_ =>
            rw [known] at idle
            have long : idleTimeout < shared.now - at_ := of_decide_eq_true idle
            cases acted
            refine .broken _ nofun ?_ going
            intro now same
            cases same
            exact ⟨at_, known, by omega⟩
      · cases acted
  | _ => cases acted

theorem advance_effect (advanced : advance shared self action = some (shared', self')) :
    Effect shared self shared' self' := by
  cases action with
  | send dir bytes =>
      simp only [advance] at advanced
      split at advanced
      · cases advanced
      · rename_i open_
        cases advanced
        exact .sent dir bytes (Bool.eq_false_iff.mpr open_)
  | close dir =>
      cases advanced
      exact .closed dir
  | wait seconds =>
      cases advanced
      exact .waited seconds
  | poll =>
      simp only [advance] at advanced
      split at advanced
      · rename_i fresh
        cases advanced
        exact .polled (Option.isNone_iff_eq_none.mp fresh.2) (Option.isNone_iff_eq_none.mp fresh.1)
      · cases advanced
  | cancel =>
      simp only [advance] at advanced
      split at advanced
      · rename_i going
        cases advanced
        exact .broken .cancelled nofun nofun (Option.isNone_iff_eq_none.mp going)
      · cases advanced
  | acquire | read | write | fail | watch =>
      simp only [advance] at advanced
      split at advanced
      · rename_i running
        exact act_effect (Option.isNone_iff_eq_none.mp running.1) advanced
      · cases advanced

end Steps

section Holders

def Phase.pipe : Phase → Option Nat
  | .reading pipe | .writing pipe _ => some pipe
  | _ => none

def Flow.holds (pipe : Nat) (flow : Flow) : Nat := if flow.phase.pipe = some pipe then 1 else 0

def Connection.holds (pipe : Nat) (self : Connection) : Nat :=
  (self.flow .up).holds pipe + (self.flow .down).holds pipe

variable {shared shared' : Shared} {self self' : Connection} {flow : Flow} {dir : Dir}
  {pipe other : Nat}

@[simp] theorem flow_join (dir : Dir) : self.join.flow dir = self.flow dir := by
  unfold Connection.join
  split
  · rfl
  · rfl

@[simp] theorem flow_touch (now : Nat) : (self.touch now).flow = self.flow := rfl

@[simp] theorem flow_set_self : (self.set dir flow).flow dir = flow := by
  simp only [Connection.set, Function.update_self]

theorem flow_set_ne {other : Dir} (apart : other ≠ dir) :
    (self.set dir flow).flow other = self.flow other := by
  simp only [Connection.set, Function.update_of_ne apart]

theorem Flow.holds_of_pipe (same : flow.phase.pipe = some pipe) : flow.holds pipe = 1 := if_pos same

theorem Flow.holds_of_none (none_ : flow.phase.pipe = none) : flow.holds pipe = 0 := by
  rw [Flow.holds, none_]
  exact if_neg nofun

theorem Flow.holds_reading (phase : flow.phase = .reading other) :
    flow.holds pipe = if other = pipe then 1 else 0 := by
  simp only [Flow.holds, phase, Phase.pipe, Option.some.injEq]

theorem Flow.pipe_give (inPipe : Nat) (bytes : Bytes) :
    (flow.give pipe inPipe bytes).phase.pipe = some pipe := by
  simp only [Flow.give]
  split
  · rfl
  · rfl

theorem Flow.pipe_drop : flow.drop.phase.pipe = none := by
  unfold Flow.drop
  split
  · rename_i finished
    rw [finished]
    rfl
  · rfl

theorem holds_set (self : Connection) (dir : Dir) (flow : Flow) (pipe : Nat) :
    (self.set dir flow).holds pipe + (self.flow dir).holds pipe =
      self.holds pipe + flow.holds pipe := by
  have back : ∀ other, other ≠ dir → (self.set dir flow).flow other = self.flow other :=
    fun other apart => flow_set_ne apart
  have here : (self.set dir flow).flow dir = flow := flow_set_self
  unfold Connection.holds
  cases dir with
  | up =>
      rw [here, back .down nofun]
      omega
  | down =>
      rw [here, back .up nofun]
      omega

theorem holds_set_same (same : flow.phase.pipe = (self.flow dir).phase.pipe) :
    (self.set dir flow).holds pipe = self.holds pipe := by
  have moved := holds_set self dir flow pipe
  have equal : flow.holds pipe = (self.flow dir).holds pipe := by
    rw [Flow.holds, Flow.holds, same]
  omega

theorem holds_finish (outcome : Outcome) : (self.finish outcome).holds pipe = 0 := by
  have none_ : ∀ dir, ((self.finish outcome).flow dir).holds pipe = 0 := fun dir =>
    Flow.holds_of_none Flow.pipe_drop
  rw [Connection.holds, none_, none_]

theorem holds_join : self.join.holds pipe = self.holds pipe := by
  rw [Connection.holds, flow_join, flow_join, Connection.holds]

theorem holds_touch (now : Nat) : (self.touch now).holds pipe = self.holds pipe := rfl

theorem holds_le (dir : Dir) : (self.flow dir).holds pipe ≤ self.holds pipe := by
  cases dir with
  | up => exact Nat.le_add_right _ _
  | down => exact Nat.le_add_left _ _

theorem count_release : (shared.release pipe).pool.count other ≤
    shared.pool.count other + if pipe = other then 1 else 0 := by
  unfold Shared.release
  split
  · rw [List.count_append, List.count_singleton]
    simp only [beq_iff_eq, le_refl]
  · exact Nat.le_add_right _ _

/-- No step makes a second holder: a pipe that is new is the next one, and any
other one was in the pool or with this connection before. -/
theorem Effect.holds (effect : Effect shared self shared' self') (pipe : Nat) :
    shared'.pool.count pipe + self'.holds pipe ≤ shared.pool.count pipe + self.holds pipe +
      if shared.made ≤ pipe ∧ pipe < shared'.made then 1 else 0 := by
  cases effect with
  | sent dir bytes goes =>
      have same : ((self.flow dir).arrive bytes).phase.pipe = (self.flow dir).phase.pipe := rfl
      rw [holds_set_same same]
      exact Nat.le_add_right _ _
  | closed dir =>
      have same : (self.flow dir).close.phase.pipe = (self.flow dir).phase.pipe := rfl
      rw [holds_set_same same]
      exact Nat.le_add_right _ _
  | waited seconds => exact Nat.le_add_right _ _
  | polled fresh going => exact Nat.le_add_right _ _
  | @acquired dir taken rest pooled phase going =>
      have moved := holds_set self dir ((self.flow dir).enter (.reading taken)) pipe
      have before : (self.flow dir).holds pipe = 0 := Flow.holds_of_none (by rw [phase]; rfl)
      have after : ((self.flow dir).enter (.reading taken)).holds pipe =
        if taken = pipe then 1 else 0 := Flow.holds_reading rfl
      have counted := @List.count_cons _ _ pipe taken rest
      rw [pooled]
      dsimp only
      simp only [beq_iff_eq] at counted
      omega
  -- A new pipe has the next number, which nobody holds.
  | @made dir pooled phase going =>
      have moved := holds_set self dir ((self.flow dir).enter (.reading shared.made)) pipe
      have before : (self.flow dir).holds pipe = 0 := Flow.holds_of_none (by rw [phase]; rfl)
      have after : ((self.flow dir).enter (.reading shared.made)).holds pipe =
        if shared.made = pipe then 1 else 0 := Flow.holds_reading rfl
      have same : (shared.fill shared.made []).pool = shared.pool := rfl
      dsimp only
      rw [same]
      by_cases next : shared.made = pipe
      · rw [if_pos next] at after
        rw [if_pos (by omega)]
        omega
      · rw [if_neg next] at after
        omega
  | @ended dir taken phase drained closed going =>
      have moved := holds_set self dir (self.flow dir).finish pipe
      have before : (self.flow dir).holds pipe = if taken = pipe then 1 else 0 :=
        Flow.holds_reading phase
      have after : (self.flow dir).finish.holds pipe = 0 := Flow.holds_of_none rfl
      have released := @count_release shared taken pipe
      rw [holds_join]
      omega
  | @filled dir taken n phase some_ there going =>
      have same : ((self.flow dir).take taken n).phase.pipe = (self.flow dir).phase.pipe := by
        rw [phase]
        rfl
      rw [holds_touch, holds_set_same same]
      exact Nat.le_add_right _ _
  | @emptied dir taken inPipe m phase some_ most there going =>
      have same : ((self.flow dir).give taken inPipe ((shared.contents taken).take m)).phase.pipe =
          (self.flow dir).phase.pipe := by
        rw [Flow.pipe_give, phase]
        rfl
      rw [holds_touch, holds_set_same same]
      exact Nat.le_add_right _ _
  | broken outcome bad late going =>
      rw [holds_finish]
      omega

end Holders

section Flows

/-- What may be on the way in the pipe of a direction. -/
def Inside (contents : Nat → Bytes) : Phase → Bytes → Prop
  | .reading pipe, inside => inside = [] ∧ contents pipe = []
  | .writing pipe inPipe, inside => inside = contents pipe ∧ inside.length = inPipe ∧ 0 < inPipe
  | .dropped, _ => True
  | .created, inside | .finished, inside => inside = []

/-- Nothing is lost, doubled or out of order; the end is told once all is
delivered. -/
structure Flow.Sound (contents : Nat → Bytes) (flow : Flow) : Prop where
  way : ∃ inside, Inside contents flow.phase inside ∧
    flow.sent = flow.delivered ++ (inside ++ flow.unread)
  total : flow.total = flow.delivered.length
  shut : flow.shut = true ↔ flow.phase = .finished
  over_ : flow.phase = .finished → flow.closed = true ∧ flow.unread = []

variable {contents contents' : Nat → Bytes} {flow : Flow} {pipe inPipe n : Nat}

namespace Flow.Sound

theorem congr (sound : flow.Sound contents)
    (same : ∀ pipe, flow.phase.pipe = some pipe → contents' pipe = contents pipe) :
    flow.Sound contents' := by
  refine ⟨?_, sound.total, sound.shut, sound.over_⟩
  obtain ⟨inside, there, whole⟩ := sound.way
  refine ⟨inside, ?_, whole⟩
  cases phase : flow.phase with
  | created | finished | dropped =>
      rw [phase] at there
      exact there
  | reading pipe | writing pipe inPipe =>
      rw [phase] at there same
      rw [Inside, same pipe rfl]
      exact there

theorem start : Flow.start.Sound contents :=
  ⟨⟨[], rfl, rfl⟩, rfl, ⟨nofun, nofun⟩, nofun⟩

theorem arrive (sound : flow.Sound contents) (goes : flow.closed = false) (bytes : Bytes) :
    (flow.arrive bytes).Sound contents := by
  obtain ⟨inside, there, whole⟩ := sound.way
  refine ⟨⟨inside, there, ?_⟩, sound.total, sound.shut, ?_⟩
  · simp only [Flow.arrive, whole, List.append_assoc]
  · intro over_
    have closed := (sound.over_ over_).1
    rw [goes] at closed
    cases closed

theorem close (sound : flow.Sound contents) : flow.close.Sound contents :=
  ⟨sound.way, sound.total, sound.shut, fun over_ => ⟨rfl, (sound.over_ over_).2⟩⟩

theorem enter (sound : flow.Sound contents) (phase : flow.phase = .created)
    (empty : contents pipe = []) : (flow.enter (.reading pipe)).Sound contents := by
  obtain ⟨inside, there, whole⟩ := sound.way
  rw [phase] at there
  refine ⟨⟨inside, ⟨there, empty⟩, whole⟩, sound.total, ?_, nofun⟩
  have shut := sound.shut
  rw [phase] at shut
  exact ⟨fun told => (nomatch shut.mp told), nofun⟩

theorem finish (sound : flow.Sound contents) (phase : flow.phase = .reading pipe)
    (drained : flow.unread = []) (closed : flow.closed = true) : flow.finish.Sound contents := by
  obtain ⟨inside, there, whole⟩ := sound.way
  rw [phase] at there
  exact ⟨⟨inside, there.1, whole⟩, sound.total, ⟨fun _ => rfl, fun _ => rfl⟩,
    fun _ => ⟨closed, drained⟩⟩

theorem take (sound : flow.Sound contents) (phase : flow.phase = .reading pipe) (some_ : 0 < n)
    (there : n ≤ flow.unread.length)
    (filled : contents' pipe = contents pipe ++ flow.unread.take n) :
    (flow.take pipe n).Sound contents' := by
  obtain ⟨inside, ⟨rfl, empty⟩, whole⟩ := phase ▸ sound.way
  rw [empty, List.nil_append] at filled
  have shut := sound.shut
  rw [phase] at shut
  refine ⟨⟨flow.unread.take n, ⟨filled.symm, List.length_take_of_le there, some_⟩, ?_⟩,
    sound.total, ⟨fun told => (nomatch shut.mp told), nofun⟩, nofun⟩
  calc flow.sent = flow.delivered ++ flow.unread := whole
    _ = flow.delivered ++ (flow.unread.take n ++ flow.unread.drop n) := by
        rw [List.take_append_drop]

theorem give (sound : flow.Sound contents) (phase : flow.phase = .writing pipe inPipe)
    (most : n ≤ inPipe) (emptied : contents' pipe = (contents pipe).drop n) :
    (flow.give pipe inPipe ((contents pipe).take n)).Sound contents' := by
  obtain ⟨inside, ⟨rfl, length, -⟩, whole⟩ := phase ▸ sound.way
  have size : ((contents pipe).take n).length = n := List.length_take_of_le (by omega)
  have left : (contents' pipe).length = inPipe - n := by rw [emptied, List.length_drop, length]
  have shut := sound.shut
  rw [phase] at shut
  have unfinished : (flow.give pipe inPipe ((contents pipe).take n)).phase ≠ .finished := by
    intro same
    have pipe_ := @Flow.pipe_give flow pipe inPipe ((contents pipe).take n)
    rw [same] at pipe_
    cases pipe_
  refine ⟨⟨contents' pipe, ?_, ?_⟩, ?_, ?_, fun over_ => absurd over_ unfinished⟩
  · simp only [Flow.give, size]
    split
    · have none_ : contents' pipe = [] := List.eq_nil_of_length_eq_zero (by omega)
      exact ⟨none_, none_⟩
    · exact ⟨rfl, left, by omega⟩
  · simp only [Flow.give, emptied, List.append_assoc]
    rw [← List.append_assoc (List.take n _), List.take_append_drop]
    exact whole
  · simp only [Flow.give, List.length_append, sound.total]
  · exact ⟨fun told => (nomatch shut.mp told), fun over_ => absurd over_ unfinished⟩

theorem drop (sound : flow.Sound contents) : flow.drop.Sound contents' := by
  obtain ⟨inside, there, whole⟩ := sound.way
  unfold Flow.drop
  split
  · rename_i over_
    rw [over_] at there
    exact ⟨⟨inside, over_ ▸ there, whole⟩, sound.total, sound.shut, sound.over_⟩
  · rename_i going
    refine ⟨⟨inside, trivial, whole⟩, sound.total, ?_, nofun⟩
    exact ⟨fun told => absurd (sound.shut.mp told) going, nofun⟩

theorem delivered_isPrefix (sound : flow.Sound contents) : flow.delivered <+: flow.sent := by
  obtain ⟨inside, -, whole⟩ := sound.way
  exact ⟨inside ++ flow.unread, whole.symm⟩

theorem all_delivered (sound : flow.Sound contents) (shut : flow.shut = true) :
    flow.closed = true ∧ flow.delivered = flow.sent := by
  have over_ := sound.shut.mp shut
  obtain ⟨closed, drained⟩ := sound.over_ over_
  obtain ⟨inside, there, whole⟩ := sound.way
  rw [over_] at there
  cases there
  rw [whole, drained, List.append_nil, List.append_nil]
  exact ⟨closed, rfl⟩

end Flow.Sound

end Flows

section Connections

/-- What the tracker and the outcome of a connection stand for. -/
structure Connection.Told (now : Nat) (conn : Connection) : Prop where
  touched : ∀ at_, conn.touched = some at_ → at_ ≤ now
  moves : ∀ time ∈ conn.moves, ∃ at_, conn.touched = some at_ ∧ time ≤ at_
  moved : ∀ up down, conn.outcome = some (.moved up down) ↔
    (conn.flow .up).phase = .finished ∧ (conn.flow .down).phase = .finished ∧
      up = (conn.flow .up).total ∧ down = (conn.flow .down).total
  idle : ∀ cut, conn.outcome = some (.timedOut cut) →
    ∃ since, conn.touched = some since ∧ since + idleTimeout < cut
  free : conn.outcome ≠ none → ∀ dir, (conn.flow dir).phase.pipe = none

variable {shared shared' : Shared} {self self' : Connection} {flow : Flow} {dir : Dir}
  {pipe : Nat}

theorem other_free (apart : self.holds pipe ≤ 1) (here : (self.flow dir).phase.pipe = some pipe)
    {other : Dir} (differs : other ≠ dir) : (self.flow other).phase.pipe ≠ some pipe := by
  intro there
  have first := Flow.holds_of_pipe here
  have second := Flow.holds_of_pipe there
  unfold Connection.holds at apart
  cases dir with
  | up =>
      cases other with
      | up => exact differs rfl
      | down => omega
  | down =>
      cases other with
      | up => omega
      | down => exact differs rfl

theorem holds_pos (here : (self.flow dir).phase.pipe = some pipe) : 0 < self.holds pipe :=
  Nat.lt_of_lt_of_le (Flow.holds_of_pipe here ▸ Nat.one_pos) (holds_le dir)

theorem flows_set {contents : Nat → Bytes} (mine : flow.Sound contents)
    (others : ∀ other, other ≠ dir → (self.flow other).Sound contents) (other : Dir) :
    ((self.set dir flow).flow other).Sound contents := by
  by_cases same : other = dir
  · rw [same, flow_set_self]
    exact mine
  · rw [flow_set_ne same]
    exact others other same

/-- A step writes to the pipe it holds or has just made, and to no other one. -/
theorem Effect.contents (effect : Effect shared self shared' self') (free : self.holds pipe = 0)
    (known : pipe < shared.made) : shared'.contents pipe = shared.contents pipe := by
  cases effect with
  | sent | closed | waited | polled | acquired | broken => rfl
  | made => exact Function.update_of_ne known.ne _ _
  | ended =>
      unfold Shared.release
      split
      · rfl
      · rfl
  | filled phase | emptied phase =>
      have held := holds_pos (congrArg Phase.pipe phase)
      refine Function.update_of_ne ?_ _ _
      rintro rfl
      exact held.ne' free

theorem Effect.flows (effect : Effect shared self shared' self')
    (apart : ∀ pipe, self.holds pipe ≤ if pipe < shared.made then 1 else 0)
    (clean : ∀ pipe ∈ shared.pool, shared.contents pipe = [])
    (sound : ∀ dir, (self.flow dir).Sound shared.contents) (dir : Dir) :
    (self'.flow dir).Sound shared'.contents := by
  have held : ∀ {pipe dir}, (self.flow dir).phase.pipe = some pipe →
      self.holds pipe ≤ 1 ∧ pipe < shared.made := by
    intro pipe dir here
    have most := apart pipe
    have some_ := holds_pos here
    split at most
    · exact ⟨most, by assumption⟩
    · omega
  -- What is written to a pipe changes nothing for the other direction, which has another pipe.
  have written : ∀ {pipe here bytes}, (self.flow here).phase.pipe = some pipe →
      ∀ other, other ≠ here →
        (self.flow other).Sound (Function.update shared.contents pipe bytes) := by
    intro pipe here bytes phase other differs
    refine (sound other).congr fun theirs same => Function.update_of_ne ?_ _ _
    rintro rfl
    exact other_free (held phase).1 phase differs same
  cases effect with
  | sent here bytes goes =>
      exact flows_set ((sound here).arrive goes bytes) (fun o _ => sound o) dir
  | closed here => exact flows_set (sound here).close (fun o _ => sound o) dir
  | waited | polled => exact sound dir
  | @acquired here pipe rest pooled phase going =>
      have empty := clean pipe (pooled ▸ List.mem_cons_self)
      exact flows_set ((sound here).enter phase empty) (fun o _ => sound o) dir
  | @made here pooled phase going =>
      have fresh : ∀ other, (self.flow other).Sound (shared.fill shared.made []).contents := by
        intro other
        refine (sound other).congr fun theirs same => Function.update_of_ne ?_ _ _
        exact (held same).2.ne
      refine flows_set ((fresh here).enter phase ?_) (fun o _ => fresh o) dir
      exact Function.update_self _ _ _
  | @ended here pipe phase drained closed going =>
      have kept : (shared.release pipe).contents = shared.contents := by
        unfold Shared.release
        split
        · rfl
        · rfl
      rw [flow_join, kept]
      exact flows_set ((sound here).finish phase drained closed) (fun o _ => sound o) dir
  | @filled here pipe n phase some_ there going =>
      refine flows_set ((sound here).take phase some_ there ?_)
        (written (congrArg Phase.pipe phase)) dir
      exact Function.update_self _ _ _
  | @emptied here pipe inPipe m phase some_ most there going =>
      refine flows_set ((sound here).give phase most ?_) (written (congrArg Phase.pipe phase)) dir
      exact Function.update_self _ _ _
  | broken => exact (sound dir).drop

theorem Told.set {now : Nat} (told : self.Told now) (dir : Dir)
    (same : flow.phase = (self.flow dir).phase) (total : flow.total = (self.flow dir).total) :
    (self.set dir flow).Told now := by
  have phases : ∀ other, ((self.set dir flow).flow other).phase = (self.flow other).phase ∧
      ((self.set dir flow).flow other).total = (self.flow other).total := by
    intro other
    by_cases here : other = dir
    · rw [here, flow_set_self]
      exact ⟨same, total⟩
    · rw [flow_set_ne here]
      exact ⟨rfl, rfl⟩
  refine ⟨told.touched, told.moves, ?_, told.idle, ?_⟩
  · intro up down
    rw [(phases .up).1, (phases .down).1, (phases .up).2, (phases .down).2]
    exact told.moved up down
  · intro over_ other
    rw [(phases other).1]
    exact told.free over_ other

/-- While a connection goes on, a direction may go on to another phase. -/
theorem Told.go {now : Nat} (told : self.Told now) (going : self.outcome = none) (dir : Dir)
    (unfinished : flow.phase ≠ .finished) : (self.set dir flow).Told now := by
  refine ⟨told.touched, told.moves, ?_, told.idle, fun over_ => absurd going over_⟩
  intro up down
  constructor
  · intro done
    exact absurd (going.symm.trans done) nofun
  · rintro ⟨first, second, -, -⟩
    cases dir with
    | up =>
        rw [flow_set_self] at first
        exact absurd first unfinished
    | down =>
        rw [flow_set_self] at second
        exact absurd second unfinished

theorem Told.touch {now : Nat} (told : self.Told now) (going : self.outcome = none) :
    (self.touch now).Told now := by
  refine ⟨?_, ?_, told.moved, ?_, fun over_ => absurd going over_⟩
  · intro at_ same
    cases same
    exact Nat.le_refl _
  · intro time moved
    refine ⟨now, rfl, ?_⟩
    rcases List.mem_cons.mp moved with rfl | earlier
    · exact Nat.le_refl _
    · obtain ⟨at_, known, before⟩ := told.moves time earlier
      exact before.trans (told.touched at_ known)
  · intro cut over_
    exact absurd (going.symm.trans over_) nofun

theorem Told.finish {now : Nat} (told : self.Told now) {outcome : Outcome}
    (bad : ∀ up down, outcome ≠ .moved up down)
    (late : ∀ cut, outcome = .timedOut cut → ∃ at_, self.touched = some at_ ∧
      at_ + idleTimeout < cut)
    (going : self.outcome = none) : (self.finish outcome).Told now := by
  have phases : ∀ dir, (self.flow dir).drop.phase = .finished →
      (self.flow dir).phase = .finished := by
    intro dir
    unfold Flow.drop
    split
    · exact id
    · exact nofun
  refine ⟨told.touched, told.moves, ?_, ?_, fun _ dir => Flow.pipe_drop⟩
  · intro up down
    constructor
    · intro done
      exact absurd (Option.some.inj done) (bad up down)
    · rintro ⟨first, second, -, -⟩
      have done := (told.moved _ _).mpr
        ⟨phases .up first, phases .down second, rfl, rfl⟩
      exact absurd (going.symm.trans done) nofun
  · intro cut over_
    exact late cut (Option.some.inj over_)

theorem Told.join {now : Nat} (told : self.Told now) (going : self.outcome = none) :
    ((self.set dir (self.flow dir).finish).join).Told now := by
  generalize step : self.set dir (self.flow dir).finish = next
  have kept : next.touched = self.touched ∧ next.moves = self.moves ∧ next.outcome = none := by
    subst step
    exact ⟨rfl, rfl, going⟩
  unfold Connection.join
  split
  · rename_i first second
    refine ⟨?_, ?_, ?_, nofun, ?_⟩
    · exact fun at_ known => told.touched at_ (kept.1 ▸ known)
    · intro time moved
      exact kept.1 ▸ told.moves time (kept.2.1 ▸ moved)
    · intro up down
      constructor
      · intro done
        cases done
        exact ⟨first, second, rfl, rfl⟩
      · rintro ⟨-, -, rfl, rfl⟩
        rfl
    · intro _ other
      cases other with
      | up => rw [first]; rfl
      | down => rw [second]; rfl
  · rename_i apart
    refine ⟨?_, ?_, ?_, ?_, ?_⟩
    · exact fun at_ known => told.touched at_ (kept.1 ▸ known)
    · intro time moved
      exact kept.1 ▸ told.moves time (kept.2.1 ▸ moved)
    · intro up down
      constructor
      · intro done
        exact absurd (kept.2.2.symm.trans done) nofun
      · rintro ⟨first, second, -, -⟩
        exact absurd second (fun second => apart first second)
    · intro cut over_
      exact absurd (kept.2.2.symm.trans over_) nofun
    · exact fun over_ => absurd kept.2.2 over_

theorem Effect.told (effect : Effect shared self shared' self') (told : self.Told shared.now) :
    self'.Told shared'.now := by
  cases effect with
  | sent dir bytes goes => exact Told.set told dir rfl rfl
  | closed dir => exact Told.set told dir rfl rfl
  | waited seconds =>
      refine ⟨?_, told.moves, told.moved, told.idle, told.free⟩
      exact fun at_ known => (told.touched at_ known).trans (Nat.le_add_right _ _)
  | polled fresh going =>
      refine ⟨?_, ?_, told.moved, ?_, told.free⟩
      · intro at_ same
        cases same
        exact Nat.le_refl _
      · intro time moved
        obtain ⟨at_, known, -⟩ := told.moves time moved
        exact absurd (fresh.symm.trans known) nofun
      · intro cut over_
        exact absurd (going.symm.trans over_) nofun
  | acquired pooled phase going => exact Told.go told going _ nofun
  | made pooled phase going => exact Told.go told going _ nofun
  | ended phase drained closed going =>
      have now_ : ∀ pipe, (shared.release pipe).now = shared.now := by
        intro pipe
        unfold Shared.release
        split
        · rfl
        · rfl
      rw [now_]
      exact Told.join told going
  | filled phase some_ there going => exact Told.touch (Told.go told going _ nofun) going
  | @emptied dir pipe inPipe m phase some_ most there going =>
      refine Told.touch (Told.go told going _ ?_) going
      intro over_
      have pipe_ := @Flow.pipe_give (self.flow dir) pipe inPipe ((shared.contents pipe).take m)
      rw [over_] at pipe_
      cases pipe_
  | broken outcome bad late going => exact Told.finish told bad late going

end Connections

section Pool

/-- Every pipe is in the pool or with one direction, and those in the pool are
empty. -/
structure Sound (state : System Shared Connection) : Prop where
  capped : state.shared.pool.length ≤ poolCapacity
  apart : ∀ pipe, state.shared.pool.count pipe + total (Connection.holds pipe) state.calls ≤
    if pipe < state.shared.made then 1 else 0
  clean : ∀ pipe ∈ state.shared.pool, state.shared.contents pipe = []
  flows : ∀ self ∈ state.calls, ∀ dir, (self.flow dir).Sound state.shared.contents
  told : ∀ self ∈ state.calls, self.Told state.shared.now

variable {shared shared' : Shared} {self self' : Connection} {state next : System Shared Connection}

theorem mem_release {pipe other : Nat} (member : other ∈ (shared.release pipe).pool) :
    other ∈ shared.pool ∨ other = pipe := by
  unfold Shared.release at member
  split at member
  · exact (List.mem_append.mp member).imp_right List.mem_singleton.mp
  · exact Or.inl member

theorem Effect.made_le (effect : Effect shared self shared' self') :
    shared.made ≤ shared'.made ∧ shared.now ≤ shared'.now := by
  cases effect with
  | waited seconds => exact ⟨Nat.le_refl _, Nat.le_add_right _ _⟩
  | made => exact ⟨Nat.le_succ _, Nat.le_refl _⟩
  | ended =>
      unfold Shared.release
      split
      · exact ⟨Nat.le_refl _, Nat.le_refl _⟩
      · exact ⟨Nat.le_refl _, Nat.le_refl _⟩
  | _ => exact ⟨Nat.le_refl _, Nat.le_refl _⟩

theorem Effect.capped (effect : Effect shared self shared' self')
    (capped : shared.pool.length ≤ poolCapacity) : shared'.pool.length ≤ poolCapacity := by
  cases effect with
  | acquired pooled phase going =>
      rw [pooled] at capped
      exact Nat.le_of_succ_le capped
  | ended =>
      unfold Shared.release
      split
      · rename_i room
        simp only [List.length_append, List.length_singleton]
        omega
      · exact capped
  | _ => exact capped

theorem Effect.clean (effect : Effect shared self shared' self')
    (apart : ∀ pipe, shared.pool.count pipe + self.holds pipe ≤
      if pipe < shared.made then 1 else 0)
    (clean : ∀ pipe ∈ shared.pool, shared.contents pipe = [])
    (sound : ∀ dir, (self.flow dir).Sound shared.contents) :
    ∀ pipe ∈ shared'.pool, shared'.contents pipe = [] := by
  have pooled : ∀ pipe ∈ shared.pool, shared'.contents pipe = [] := by
    intro pipe member
    have some_ := List.count_pos_iff.mpr member
    have most := apart pipe
    split at most
    · rename_i known
      rw [effect.contents (by omega) known]
      exact clean pipe member
    · omega
  intro pipe member
  cases effect with
  | acquired found phase going =>
      exact pooled pipe (found ▸ List.mem_cons_of_mem _ member)
  | @ended dir taken phase drained closed going =>
      rcases mem_release member with old | rfl
      · exact pooled pipe old
      · obtain ⟨inside, there, -⟩ := (sound dir).way
        rw [phase] at there
        unfold Shared.release
        split
        · exact there.2
        · exact there.2
  | _ => exact pooled pipe member

theorem Sound.step {turn : Turn Unit Action} (sound : Sound state)
    (stepped : step (fun _ => Connection.start) advance state turn = some next) : Sound next := by
  obtain ⟨request, -, rfl⟩ | ⟨before, self, after, action, shared', self', stood, -, advanced,
    rfl⟩ := step_cases stepped
  · refine ⟨sound.capped, ?_, sound.clean, ?_, ?_⟩
    · intro pipe
      have none_ : Connection.start.holds pipe = 0 := rfl
      rw [total_append, total_cons, none_, total_nil]
      exact sound.apart pipe
    · intro self member
      rcases List.mem_append.mp member with old | new
      · exact sound.flows self old
      · cases List.mem_singleton.mp new
        exact fun dir => .start
    · intro self member
      rcases List.mem_append.mp member with old | new
      · exact sound.told self old
      · cases List.mem_singleton.mp new
        refine ⟨nofun, nofun, fun up down => ⟨?_, ?_⟩, ?_, fun over_ => absurd rfl over_⟩
        · intro done
          cases done
        · rintro ⟨first, -, -, -⟩
          cases first
        · intro cut over_
          cases over_
  · have effect := advance_effect advanced
    have here : self ∈ state.calls := stood ▸ List.mem_append_right _ List.mem_cons_self
    have apart := sound.apart
    simp only [stood, total_append, total_cons] at apart
    -- A pipe is in the pool or held by one connection, and by that one once.
    have mine : ∀ pipe, state.shared.pool.count pipe + self.holds pipe ≤
        if pipe < state.shared.made then 1 else 0 := fun pipe => by have := apart pipe; omega
    have others : ∀ other ∈ before ++ after, other ∈ state.calls ∧
        ∀ pipe, self.holds pipe + other.holds pipe ≤
          if pipe < state.shared.made then 1 else 0 := by
      intro other member
      have weighed : ∀ pipe, other.holds pipe ≤ total (Connection.holds pipe) before +
          total (Connection.holds pipe) after := fun pipe =>
        total_append before after ▸ weight_le_total member
      refine ⟨?_, fun pipe => ?_⟩
      · rw [stood]
        rcases List.mem_append.mp member with front | back
        · exact List.mem_append_left _ front
        · exact List.mem_append_right _ (List.mem_cons_of_mem _ back)
      · have := apart pipe
        have := weighed pipe
        omega
    have members : ∀ other ∈ before ++ self' :: after,
        other = self' ∨ other ∈ before ++ after := by
      intro other member
      simp only [List.mem_append, List.mem_cons] at member ⊢
      tauto
    refine ⟨effect.capped sound.capped, ?_, effect.clean mine sound.clean (sound.flows self here),
      ?_, ?_⟩
    · intro pipe
      have moved := effect.holds pipe
      have known := apart pipe
      have grown := effect.made_le.1
      simp only [total_append, total_cons]
      split at known <;> split <;> split at moved <;> omega
    · intro other member dir
      rcases members other member with rfl | elsewhere
      · refine effect.flows (fun pipe => ?_) sound.clean (sound.flows self here) dir
        have := mine pipe
        omega
      -- A pipe that another connection holds is not the one that moved.
      · obtain ⟨old, shares⟩ := others other elsewhere
        refine (sound.flows other old dir).congr fun pipe same => ?_
        have held := holds_pos same
        have most := shares pipe
        split at most
        · rename_i known
          exact effect.contents (by omega) known
        · omega
    · intro other member
      rcases members other member with rfl | elsewhere
      · exact effect.told (sound.told self here)
      · have old := sound.told other (others other elsewhere).1
        refine ⟨?_, old.moves, old.moved, old.idle, old.free⟩
        exact fun at_ known => (old.touched at_ known).trans effect.made_le.2

theorem sound_of_reached (reached : Reached state) : Sound state := by
  obtain ⟨turns, followed⟩ := reached
  refine Trace.follow_keeps Sound (fun sound stepped => sound.step stepped) ?_ followed
  exact ⟨Nat.zero_le _, fun _ => Nat.zero_le _, nofun, nofun, nofun⟩

theorem counted_balanced (dir : Dir) : Balanced advance (fun shared => shared.counted dir)
    (fun self => (self.flow dir).total) := by
  intro shared self action shared' self' _ advanced
  have set_ : ∀ here flow, flow.total = (self.flow here).total →
      shared.counted dir + (self.flow dir).total =
        shared.counted dir + ((self.set here flow).flow dir).total := by
    intro here flow same
    by_cases equal : dir = here
    · rw [equal, flow_set_self, same]
    · rw [flow_set_ne equal]
  cases advance_effect advanced with
  | sent here bytes goes => exact set_ _ _ rfl
  | closed here => exact set_ _ _ rfl
  | waited | polled => rfl
  | acquired pooled phase going => exact set_ _ _ rfl
  | made pooled phase going => exact set_ _ _ rfl
  | @ended here pipe phase drained closed going =>
      have kept : (shared.release pipe).counted = shared.counted := by
        unfold Shared.release
        split
        · rfl
        · rfl
      dsimp only
      rw [kept, flow_join]
      exact set_ _ _ rfl
  | filled phase some_ there going => exact set_ _ (Flow.take _ _ _) rfl
  | @emptied here pipe inPipe m phase some_ most there going =>
      have size : ((shared.contents pipe).take m).length = m := List.length_take_of_le there
      dsimp only
      rw [flow_touch]
      by_cases equal : dir = here
      · subst here
        simp only [Shared.count, Function.update_self, flow_set_self, Flow.give, size, Shared.fill]
        omega
      · simp only [Shared.count, Function.update_of_ne equal, flow_set_ne equal, Shared.fill]
  | broken outcome bad late going =>
      have kept : ((self.finish outcome).flow dir).total = (self.flow dir).total := by
        simp only [Connection.finish, Flow.drop]
        split
        · rfl
        · rfl
      dsimp only
      rw [kept]

theorem counted_of_reached (reached : Reached state) (dir : Dir) : state.shared.counted dir =
    total (fun self => (self.flow dir).delivered.length) state.calls := by
  have sound := sound_of_reached reached
  obtain ⟨turns, followed⟩ := reached
  have none_ : Accounts (fun shared => shared.counted dir)
      (fun self : Connection => (self.flow dir).total) ⟨Shared.start, []⟩ := rfl
  have accounts := Trace.follow_keeps _ (fun accounts stepped =>
    (counted_balanced dir).step (fun _ => rfl) accounts stepped) none_ followed
  refine accounts.trans (total_congr fun self member => ?_)
  exact (sound.flows self member dir).total

theorem Sound.held (sound : Sound state) (pipe : Nat) :
    total (Connection.holds pipe) state.calls ≤ if pipe ∈ state.shared.pool then 0 else 1 := by
  have most := sound.apart pipe
  split
  · rename_i pooled
    have some_ := List.count_pos_iff.mpr pooled
    split at most <;> omega
  · split at most <;> omega

/-- Whatever the relays do, a pipe has one user at most and is empty while it is
pooled. So each direction delivers what was sent into it and ends only once that
is all, a relay reports what it has delivered, and is cut only after a quarter
of an hour, from its first poll on, in which no byte has moved. -/
theorem relays_kept_apart (state : System Shared Connection) (reached : Reached state) :
    state.shared.pool.length ≤ poolCapacity ∧ state.shared.pool.Nodup ∧
      (∀ pipe ∈ state.shared.pool, state.shared.contents pipe = []) ∧
      (∀ pipe, total (Connection.holds pipe) state.calls ≤
        if pipe ∈ state.shared.pool then 0 else 1) ∧
      (∀ self ∈ state.calls,
        (∀ dir, (self.flow dir).delivered <+: (self.flow dir).sent ∧
          ((self.flow dir).shut = true →
            (self.flow dir).closed = true ∧ (self.flow dir).delivered = (self.flow dir).sent)) ∧
        (∀ up down, self.outcome = some (.moved up down) ↔
          (self.flow .up).shut = true ∧ (self.flow .down).shut = true ∧
            up = (self.flow .up).delivered.length ∧ down = (self.flow .down).delivered.length) ∧
        (∀ cut, self.outcome = some (.timedOut cut) →
          (∃ since, self.touched = some since ∧ since + idleTimeout < cut) ∧
            ∀ time ∈ self.moves, time + idleTimeout < cut) ∧
        (self.outcome.isSome → ∀ pipe, self.holds pipe = 0)) ∧
      ∀ dir, state.shared.counted dir =
        total (fun self => (self.flow dir).delivered.length) state.calls := by
  have sound := sound_of_reached reached
  refine ⟨sound.capped, ?_, sound.clean, sound.held, ?_, counted_of_reached reached⟩
  · apply List.nodup_iff_count_le_one.mpr
    intro pipe
    have most := sound.apart pipe
    split at most <;> omega
  · intro self member
    have told := sound.told self member
    have flow := sound.flows self member
    refine ⟨fun dir => ⟨(flow dir).delivered_isPrefix, (flow dir).all_delivered⟩, ?_, ?_, ?_⟩
    · intro up down
      rw [told.moved up down, (flow .up).shut, (flow .down).shut, (flow .up).total,
        (flow .down).total]
    · intro cut over_
      obtain ⟨since, touched, late⟩ := told.idle cut over_
      refine ⟨⟨since, touched, late⟩, fun time moved => ?_⟩
      obtain ⟨at_, touched', before⟩ := told.moves time moved
      cases touched.symm.trans touched'
      omega
    · intro over_ pipe
      have free := told.free (Option.isSome_iff_ne_none.mp over_)
      rw [Connection.holds, Flow.holds_of_none (free .up), Flow.holds_of_none (free .down)]

/-- The second relay works with the pipe of the first one. -/
def twoInTurn : List (Turn Unit Action) :=
  [.enter (), .enter (), .go 0 .poll, .go 0 (.acquire .up true), .go 0 (.send .up [1, 2]),
    .go 0 (.read .up 2), .go 0 (.write .up 1), .go 0 (.write .up 1), .go 0 (.close .up),
    .go 0 (.read .up 0), .go 1 .poll, .go 1 (.acquire .down false), .go 1 (.send .down [3]),
    .go 1 (.read .down 1)]

theorem relays_kept_apart_in_turn : ∃ state : System Shared Connection,
    state.shared.pool.Nodup ∧ (state.calls[1]?.map (Connection.holds 0)) = some 1 ∧
      state.shared.counted .up = 2 := by
  obtain ⟨state, followed, held, counted⟩ : ∃ state : System Shared Connection,
      Trace.follow (step (fun _ => Connection.start) advance) ⟨Shared.start, []⟩ twoInTurn =
        some state ∧ (state.calls[1]?.map (Connection.holds 0)) = some 1 ∧
          state.shared.counted .up = 2 := ⟨_, rfl, rfl, rfl⟩
  exact ⟨state, (relays_kept_apart state ⟨twoInTurn, followed⟩).2.1, held, counted⟩

end Pool

section Users

variable {state : System Shared Connection} {pipe : Nat}

/-- A direction of the relay works with the pipe. -/
abbrev Connection.Uses (self : Connection) (dir : Dir) (pipe : Nat) : Prop :=
  (self.flow dir).phase.pipe = some pipe

/-- However relays are interleaved, what the pool holds is empty and in nobody's
hands, no two directions of any relays work with one pipe, every direction
delivers what came from its own source, and what is delivered is counted. -/
theorem relays_never_mix (state : System Shared Connection) (reached : Reached state) :
    (∀ pipe ∈ state.shared.pool, state.shared.contents pipe = [] ∧
      ∀ self ∈ state.calls, ∀ dir, ¬ self.Uses dir pipe) ∧
    (∀ (i j : Nat) (first second : Connection) dir dir' pipe, state.calls[i]? = some first →
      state.calls[j]? = some second → first.Uses dir pipe → second.Uses dir' pipe →
        i = j ∧ dir = dir') ∧
    state.shared.pool.length ≤ poolCapacity ∧
    (∀ self ∈ state.calls, ∀ dir, (self.flow dir).delivered <+: (self.flow dir).sent ∧
      ((self.flow dir).shut = true →
        (self.flow dir).closed = true ∧ (self.flow dir).delivered = (self.flow dir).sent)) ∧
    ∀ dir, state.shared.counted dir =
      total (fun self => (self.flow dir).delivered.length) state.calls := by
  have sound := sound_of_reached reached
  refine ⟨?_, ?_, sound.capped, ?_, counted_of_reached reached⟩
  · intro pipe pooled
    refine ⟨sound.clean pipe pooled, fun self member dir uses => ?_⟩
    have held := sound.held pipe
    rw [if_pos pooled] at held
    have mine : self.holds pipe ≤ total (Connection.holds pipe) state.calls :=
      weight_le_total member
    have some_ := holds_pos uses
    omega
  · intro i j first second dir dir' pipe here there uses uses'
    have held : total (Connection.holds pipe) state.calls ≤ 1 :=
      (sound.held pipe).trans (by split <;> omega)
    have same : i = j := by
      by_contra apart
      have both : first.holds pipe + second.holds pipe ≤
          total (Connection.holds pipe) state.calls := weight_add_le_total apart here there
      have first_ := holds_pos uses
      have second_ := holds_pos uses'
      omega
    refine ⟨same, ?_⟩
    subst same
    cases here.symm.trans there
    by_contra apart
    have mine : first.holds pipe ≤ total (Connection.holds pipe) state.calls :=
      weight_le_total (List.mem_of_getElem? here)
    exact other_free (mine.trans held) uses (Ne.symm apart) uses'
  · intro self member dir
    have flow := sound.flows self member dir
    exact ⟨flow.delivered_isPrefix, flow.all_delivered⟩

/-- The pipe that the second relay works with is not in the pool. -/
theorem relays_never_mix_in_turn : ∃ state : System Shared Connection,
    0 ∉ state.shared.pool ∧ (state.calls[1]?.map (Connection.holds 0)) = some 1 ∧
      state.shared.counted .up = 2 := by
  obtain ⟨state, second, followed, there, uses, held, counted⟩ :
      ∃ (state : System Shared Connection) (second : Connection),
        Trace.follow (step (fun _ => Connection.start) advance) ⟨Shared.start, []⟩ twoInTurn =
          some state ∧ state.calls[1]? = some second ∧ second.Uses .down 0 ∧
            (state.calls[1]?.map (Connection.holds 0)) = some 1 ∧
              state.shared.counted .up = 2 := ⟨_, _, rfl, rfl, rfl, rfl, rfl⟩
  have apart := relays_never_mix state ⟨twoInTurn, followed⟩
  refine ⟨state, fun pooled => ?_, held, counted⟩
  exact (apart.1 0 pooled).2 second (List.mem_of_getElem? there) .down uses

end Users

end Mirage.Relay.Splice
