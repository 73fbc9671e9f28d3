import Mathlib.Logic.Function.Basic
import Mirage.Lib.Trace
import Mirage.Lib.Word

/-!
`copy_bidirectional_with_drain` of proxy/mod.rs. Each direction copies in turn:
it reads a chunk, writes all of it, and ends with the shutdown of the other
side. Times are in nanoseconds from the start of the relay; the idle clock holds
whole milliseconds. `sent`, `lastMoved`, `since` and `finishedAt` are only
remembered, no step looks at them.
-/

namespace Mirage.Relay.Bidirectional
open Word

inductive Dir where
  | a2b
  | b2a
  deriving DecidableEq

def Dir.other : Dir → Dir
  | a2b => b2a
  | b2a => a2b

def millis (nanos : Nat) : Nat := nanos / 1000000

section Copy

/-- `writing` keeps the size of the chunk and what is left of it. -/
inductive Phase where
  | reading
  | writing (size : Nat) (rest : Bytes)
  | flushing
  | shutting
  | finished
  deriving DecidableEq

/-- `copy_one_direction` between its two ends. -/
structure Flow where
  sent : Bytes
  closed : Bool
  unread : Bytes
  delivered : Bytes
  phase : Phase
  progress : Nat
  shut : Bool
  lastMoved : Nat

inductive Io where
  | read (n : Nat)
  | accept (n : Nat)
  | eof
  | flush
  | shutdown

def bufferSize : Nat := 16384

namespace Flow

def start : Flow := ⟨[], false, [], [], .reading, 0, false, 0⟩

/-- How much of its chunk the peer has taken, as long as some is left. -/
def partly (flow : Flow) : Nat :=
  match flow.phase with
  | .writing size rest => size - rest.length
  | _ => 0

def left (flow : Flow) : Bytes :=
  match flow.phase with
  | .writing _ rest => rest
  | _ => []

def act (now : Nat) (flow : Flow) : Io → Option Flow
  | .read n =>
      if flow.phase = .reading ∧ 0 < n ∧ n ≤ bufferSize ∧ n ≤ flow.unread.length then
        some { flow with
          phase := .writing n (flow.unread.take n)
          unread := flow.unread.drop n }
      else none
  | .accept n =>
      match flow.phase with
      | .writing size rest =>
          if 0 < n ∧ n ≤ rest.length then
            let taken := { flow with delivered := flow.delivered ++ rest.take n, lastMoved := now }
            if n = rest.length then
              some { taken with phase := .reading, progress := flow.progress + size }
            else some { taken with phase := .writing size (rest.drop n) }
          else none
      | _ => none
  | .eof =>
      if flow.phase = .reading ∧ flow.unread = [] ∧ flow.closed then
        some { flow with phase := .flushing }
      else none
  | .flush => if flow.phase = .flushing then some { flow with phase := .shutting } else none
  | .shutdown =>
      if flow.phase = .shutting then some { flow with phase := .finished, shut := true }
      else none

end Flow

end Copy

section Relay

/-- `drain_wait`: the progress it saw last, how long it has seen no other, and
when its present sleep began; then when it saw that progress first, and when the
other direction finished. -/
inductive Mode where
  | both
  | draining (survivor : Dir) (last stalled sleepFrom since finishedAt : Nat)

inductive Ending where
  | idle
  | stalled
  | completed
  deriving DecidableEq

inductive Outcome where
  | ok (a2b b2a : Nat) (ending : Ending)
  | err
  deriving DecidableEq

/-- `expired` is the direction that is polled once more before it gives up. -/
structure Copier where
  flows : Dir → Flow
  now : Nat
  lastActiveMs : Nat
  mode : Mode
  expired : Option Dir
  outcome : Option Outcome

/-- `send` and `close` are what the end of a direction does. -/
inductive Event where
  | send (dir : Dir) (bytes : Bytes)
  | close (dir : Dir)
  | wait (nanos : Nat)
  | io (dir : Dir) (io : Io)
  | fail (dir : Dir)
  | expire (dir : Dir)
  | giveUp
  | tick

namespace Copier

def start : Copier := ⟨fun _ => .start, 0, 0, .both, none, none⟩

/-- `IdleClock::elapsed_since_active`. -/
def elapsed (copier : Copier) : Nat := (millis copier.now - copier.lastActiveMs) * 1000000

/-- How often the drain watch looks. -/
def check (drain : Nat) : Nat := max (min 100000000 (drain / 10)) 1000000

def setFlow (copier : Copier) (dir : Dir) (flow : Flow) : Copier :=
  { copier with flows := Function.update copier.flows dir flow }

def endOk (copier : Copier) (ending : Ending) : Copier :=
  { copier with
    outcome := some (.ok (copier.flows .a2b).progress (copier.flows .b2a).progress ending) }

def Polls (copier : Copier) (dir : Dir) : Prop :=
  (copier.flows dir).phase ≠ .finished ∧ (copier.expired = none ∨ copier.expired = some dir)

instance (copier : Copier) (dir : Dir) : Decidable (copier.Polls dir) :=
  inferInstanceAs (Decidable (_ ∧ _))

def finish (copier : Copier) (dir : Dir) : Copier :=
  match copier.mode with
  | .both =>
      { copier with
        expired := none
        mode := .draining dir.other (copier.flows dir.other).progress 0 copier.now copier.now
          copier.now }
  | .draining .. => { copier with expired := none }.endOk .completed

/-- `touch` goes with every whole chunk. -/
def acted (copier : Copier) (dir : Dir) (flow : Flow) : Copier :=
  let moved := { copier.setFlow dir flow with
    lastActiveMs :=
      if flow.progress = (copier.flows dir).progress then copier.lastActiveMs
      else max copier.lastActiveMs (millis copier.now) }
  if flow.phase = .finished then moved.finish dir else moved

/-- The drain watch wakes up. -/
def look (drain : Nat) (copier : Copier) : Option Copier :=
  match copier.mode with
  | .draining survivor last stalled sleepFrom since finishedAt =>
      if sleepFrom + check drain ≤ copier.now then
        let progress := (copier.flows survivor).progress
        if progress ≠ last then
          some { copier with
            mode := .draining survivor progress 0 copier.now copier.now finishedAt }
        else if drain ≤ stalled + check drain then some (copier.endOk .stalled)
        else
          some { copier with
            mode := .draining survivor last (stalled + check drain) copier.now since finishedAt }
      else none
  | .both => none

section Steps
variable (idle drain : Nat)

def advance (copier : Copier) : Event → Option Copier
  | .send dir bytes =>
      let flow := copier.flows dir
      if flow.closed then none
      else
        some (copier.setFlow dir
          { flow with sent := flow.sent ++ bytes, unread := flow.unread ++ bytes })
  | .close dir => some (copier.setFlow dir { copier.flows dir with closed := true })
  | .wait nanos => some { copier with now := copier.now + nanos }
  | .io dir io =>
      if copier.Polls dir then ((copier.flows dir).act copier.now io).map (copier.acted dir)
      else none
  | .fail dir => if copier.Polls dir then some { copier with outcome := some .err } else none
  | .expire dir =>
      if copier.Polls dir ∧ copier.expired = none ∧ idle ≤ copier.elapsed then
        some { copier with expired := some dir }
      else none
  | .giveUp => if copier.expired.isSome then some (copier.endOk .idle) else none
  | .tick => if copier.expired.isSome then none else copier.look drain

def step (copier : Copier) (event : Event) : Option Copier :=
  if copier.outcome.isSome then none else copier.advance idle drain event

end Steps

end Copier

end Relay

section Promise

/-- The relay has ended as it may: by the watch that ran out, or for good. -/
def Copier.EndedWell (idle drain : Nat) (copier : Copier) : Ending → Prop
  | .idle => ∀ dir,
      idle ≤ (millis copier.now - millis (copier.flows dir).lastMoved) * 1000000
  | .stalled => ∃ survivor last stalled sleepFrom since finishedAt,
      copier.mode = .draining survivor last stalled sleepFrom since finishedAt ∧
      (copier.flows survivor.other).phase = .finished ∧ drain ≤ copier.now - finishedAt ∧
      drain ≤ copier.now - (copier.flows survivor).lastMoved
  | .completed => ∀ dir, (copier.flows dir).phase = .finished

structure Copier.Faithful (idle drain : Nat) (copier : Copier) : Prop where
  carried : ∀ dir, (copier.flows dir).delivered <+: (copier.flows dir).sent
  shutdown : ∀ dir, (copier.flows dir).shut → (copier.flows dir).closed ∧
    (copier.flows dir).delivered = (copier.flows dir).sent
  ended : ∀ a2b b2a ending, copier.outcome = some (.ok a2b b2a ending) →
    copier.EndedWell idle drain ending ∧ a2b = (copier.flows .a2b).delivered.length ∧
      b2a = (copier.flows .b2a).delivered.length

/-- No watch ends the copy in the middle of a chunk, or when a chunk has just
been written in the last poll. -/
def Copier.Careful (idle drain : Nat) (copier : Copier) : Event → Prop
  | .giveUp => (∀ dir, (copier.flows dir).partly = 0) ∧ idle ≤ copier.elapsed
  | .tick =>
      match copier.mode with
      | .draining survivor last stalled _ _ _ =>
          (copier.flows survivor).progress = last → drain ≤ stalled + check drain →
            (copier.flows survivor).partly = 0
      | .both => True
  | _ => True

instance (idle drain : Nat) (copier : Copier) (event : Event) :
    Decidable (copier.Careful idle drain event) :=
  match event with
  | .giveUp =>
      have both : (∀ dir, (copier.flows dir).partly = 0) ↔
          (copier.flows .a2b).partly = 0 ∧ (copier.flows .b2a).partly = 0 :=
        ⟨fun all => ⟨all .a2b, all .b2a⟩, fun ⟨up, down⟩ dir => by cases dir <;> assumption⟩
      have := decidable_of_iff _ both.symm
      inferInstanceAs (Decidable (_ ∧ _))
  | .tick => by
      unfold Copier.Careful
      cases copier.mode with
      | both => exact .isTrue trivial
      | draining survivor last stalled sleepFrom since finishedAt =>
          exact inferInstanceAs (Decidable (_ → _ → _))
  | .send .. | .close _ | .wait _ | .io .. | .fail _ | .expire _ => .isTrue trivial

end Promise

section Flows

namespace Flow

variable {flow next : Flow} {now : Nat}

structure Sound (flow : Flow) (now : Nat) : Prop where
  split : flow.sent = flow.delivered ++ flow.left ++ flow.unread
  counted : flow.delivered.length = flow.progress + flow.partly
  chunk : ∀ size rest, flow.phase = .writing size rest → rest ≠ [] ∧ rest.length ≤ size
  ended : flow.phase = .flushing ∨ flow.phase = .shutting ∨ flow.phase = .finished →
    flow.closed ∧ flow.unread = []
  shutdown : flow.shut → flow.phase = .finished
  moved : flow.lastMoved ≤ now

/-- No byte moves, or a part of a chunk does, or its last part. -/
inductive Moved (flow next : Flow) (now : Nat) : Prop
  | still (progress : next.progress = flow.progress) (partly : next.partly = flow.partly)
      (lastMoved : next.lastMoved = flow.lastMoved)
  | part (progress : next.progress = flow.progress) (partly : next.partly ≠ 0)
      (lastMoved : next.lastMoved = now) (going : next.phase ≠ .finished)
  | whole (progress : flow.progress < next.progress) (partly : next.partly = 0)
      (lastMoved : next.lastMoved = now) (going : next.phase ≠ .finished)

theorem Sound.goOn (sound : flow.Sound now) {phase : Phase} {shut : Bool}
    (plain : ∀ size rest, flow.phase ≠ .writing size rest) (over_ : flow.closed ∧ flow.unread = [])
    (later : phase = .flushing ∨ phase = .shutting ∨ phase = .finished)
    (done : shut → phase = .finished) :
    Sound { flow with phase, shut } now ∧ Moved flow { flow with phase, shut } now := by
  have before : flow.left = [] ∧ flow.partly = 0 := by
    rw [left, partly]
    split
    · rename_i size rest writing
      exact absurd writing (plain size rest)
    · exact ⟨rfl, rfl⟩
  have after : left { flow with phase, shut } = [] ∧ partly { flow with phase, shut } = 0 := by
    rcases later with rfl | rfl | rfl <;> exact ⟨rfl, rfl⟩
  refine ⟨⟨?_, ?_, ?_, fun _ => over_, done, sound.moved⟩, .still rfl ?_ rfl⟩
  · rw [after.1, ← before.1]
    exact sound.split
  · rw [after.2, ← before.2]
    exact sound.counted
  · rintro size rest rfl
    rcases later with other | other | other <;> cases other
  · rw [after.2, before.2]

theorem act_sound (sound : flow.Sound now) {io : Io} (acted : flow.act now io = some next) :
    next.Sound now ∧ Moved flow next now := by
  obtain ⟨split, counted, chunk, ended, shutdown, moved⟩ := sound
  cases io with
  | read n =>
      rw [act] at acted
      split at acted
      · rename_i fits
        obtain ⟨reading, positive, -, within⟩ := fits
        cases acted
        have size : (flow.unread.take n).length = n := List.length_take_of_le within
        have none_ : flow.partly = 0 := by rw [partly, reading]
        have again : n - (flow.unread.take n).length = 0 := by omega
        refine ⟨⟨?_, ?_, ?_, ?_, ?_, moved⟩, .still rfl ?_ rfl⟩
        · rw [left, reading, List.append_nil] at split
          change flow.sent = flow.delivered ++ flow.unread.take n ++ flow.unread.drop n
          rw [split, List.append_assoc, List.take_append_drop]
        · change flow.delivered.length = flow.progress + (n - (flow.unread.take n).length)
          rw [counted, none_, again]
        · intro size' rest same
          cases same
          refine ⟨List.ne_nil_of_length_pos ?_, Nat.le_of_eq size⟩
          rwa [size]
        · rintro (other | other | other) <;> cases other
        · intro shut
          have done := shutdown shut
          rw [reading] at done
          cases done
        · change n - (flow.unread.take n).length = flow.partly
          rw [again, none_]
      · cases acted
  | accept n =>
      rw [act] at acted
      split at acted
      · rename_i size rest writing
        split at acted
        · rename_i fits
          obtain ⟨some_, short⟩ := chunk size rest writing
          have some_n : flow.left = rest := by rw [left, writing]
          have taken : flow.partly = size - rest.length := by rw [partly, writing]
          have length : (flow.delivered ++ rest.take n).length =
              flow.progress + (size - rest.length) + n := by
            rw [List.length_append, counted, taken, List.length_take_of_le fits.2]
          have open_ : flow.shut → False := by
            intro shut
            have done := shutdown shut
            rw [writing] at done
            cases done
          dsimp only at acted
          split at acted
          -- The last byte of the chunk is taken: now the whole chunk counts as progress.
          · rename_i whole
            cases acted
            refine ⟨⟨?_, ?_, ?_, ?_, fun shut => (open_ shut).elim, Nat.le_refl _⟩,
              .whole ?_ rfl rfl (fun done => nomatch done)⟩
            · change flow.sent = flow.delivered ++ rest.take n ++ [] ++ flow.unread
              rw [split, some_n, List.append_nil, List.take_of_length_le (Nat.le_of_eq whole.symm)]
            · change (flow.delivered ++ rest.take n).length = flow.progress + size + 0
              omega
            · intro size' rest' same
              cases same
            · rintro (other | other | other) <;> cases other
            · change flow.progress < flow.progress + size
              omega
          -- Some of the chunk is left, and none of it counts yet.
          · rename_i partial_
            cases acted
            have less : (rest.drop n).length = rest.length - n := List.length_drop
            refine ⟨⟨?_, ?_, ?_, ?_, fun shut => (open_ shut).elim, Nat.le_refl _⟩,
              .part rfl ?_ rfl (fun done => nomatch done)⟩
            · change flow.sent = flow.delivered ++ rest.take n ++ rest.drop n ++ flow.unread
              rw [split, some_n, List.append_assoc flow.delivered (rest.take n),
                List.take_append_drop]
            · change (flow.delivered ++ rest.take n).length =
                flow.progress + (size - (rest.drop n).length)
              omega
            · intro size' rest' same
              cases same
              refine ⟨List.ne_nil_of_length_pos ?_, ?_⟩
              · omega
              · omega
            · rintro (other | other | other) <;> cases other
            · change size - (rest.drop n).length ≠ 0
              omega
        · cases acted
      · cases acted
  | eof =>
      rw [act] at acted
      split at acted
      · rename_i fits
        obtain ⟨reading, empty, closed⟩ := fits
        cases acted
        refine Sound.goOn ⟨split, counted, chunk, ended, shutdown, moved⟩ ?_ ⟨closed, empty⟩
          (Or.inl rfl) ?_
        · exact fun _ _ writing => nomatch reading.symm.trans writing
        · exact fun shut => nomatch reading.symm.trans (shutdown shut)
      · cases acted
  | flush =>
      rw [act] at acted
      split at acted
      · rename_i flushing
        cases acted
        refine Sound.goOn ⟨split, counted, chunk, ended, shutdown, moved⟩ ?_
          (ended (Or.inl flushing)) (Or.inr (Or.inl rfl)) ?_
        · exact fun _ _ writing => nomatch flushing.symm.trans writing
        · exact fun shut => nomatch flushing.symm.trans (shutdown shut)
      · cases acted
  | shutdown =>
      rw [act] at acted
      split at acted
      · rename_i shutting
        cases acted
        refine Sound.goOn ⟨split, counted, chunk, ended, shutdown, moved⟩ ?_
          (ended (Or.inr (Or.inl shutting))) (Or.inr (Or.inr rfl)) fun _ => rfl
        exact fun _ _ writing => nomatch shutting.symm.trans writing
      · cases acted

end Flow

end Flows

section Invariant

namespace Copier

variable {copier next : Copier} {idle drain : Nat}

/-- What the drain watch knows of the surviving direction. -/
structure Watching (copier : Copier) (survivor : Dir)
    (last stalled sleepFrom since finishedAt : Nat) : Prop where
  finished : (copier.flows survivor.other).phase = .finished
  started : finishedAt ≤ since
  counted : since + stalled ≤ sleepFrom
  asleep : sleepFrom ≤ copier.now
  seen : last ≤ (copier.flows survivor).progress
  quiet : (copier.flows survivor).progress = last →
    (copier.flows survivor).lastMoved ≤ since ∨ (copier.flows survivor).partly ≠ 0

structure Sound (copier : Copier) : Prop where
  flow : ∀ dir, (copier.flows dir).Sound copier.now
  active : ∀ dir, millis (copier.flows dir).lastMoved ≤ copier.lastActiveMs ∨
    (copier.flows dir).partly ≠ 0
  touched : ∃ dir, copier.lastActiveMs ≤ millis (copier.flows dir).lastMoved
  watched : ∀ survivor last stalled sleepFrom since finishedAt,
    copier.mode = .draining survivor last stalled sleepFrom since finishedAt →
      copier.Watching survivor last stalled sleepFrom since finishedAt

theorem flow_start_sound : Flow.start.Sound 0 where
  split := rfl
  counted := rfl
  chunk _ _ writing := nomatch writing
  ended late := by rcases late with other | other | other <;> cases other
  shutdown shut := nomatch shut
  moved := Nat.le_refl 0

theorem start_sound : start.Sound where
  flow _ := flow_start_sound
  active _ := Or.inl (show millis 0 ≤ 0 by decide)
  touched := ⟨.a2b, Nat.zero_le _⟩
  watched _ _ _ _ _ _ draining := nomatch draining

theorem millis_le {early late : Nat} (before : early ≤ late) : millis early ≤ millis late :=
  Nat.div_le_div_right before

/-- A direction goes on; a whole chunk touches the clock. -/
theorem Sound.put (sound : copier.Sound) {dir : Dir} {flow : Flow} (kept : flow.Sound copier.now)
    (moved : Flow.Moved (copier.flows dir) flow copier.now)
    (done : (copier.flows dir).phase = .finished → flow.phase = .finished) :
    Sound { copier.setFlow dir flow with
      lastActiveMs :=
        if flow.progress = (copier.flows dir).progress then copier.lastActiveMs
        else max copier.lastActiveMs (millis copier.now) } := by
  obtain ⟨flows, active, touched, watched⟩ := sound
  have put : ∀ other, Function.update copier.flows dir flow other =
      if other = dir then flow else copier.flows other := fun other => by
    rw [Function.update_apply]
  have late : ∀ other, millis (copier.flows other).lastMoved ≤ millis copier.now :=
    fun other => millis_le (flows other).moved
  refine ⟨?_, ?_, ?_, ?_⟩
  · intro other
    change (Function.update copier.flows dir flow other).Sound copier.now
    rw [put]
    split
    · exact kept
    · exact flows other
  · intro other
    change millis (Function.update copier.flows dir flow other).lastMoved ≤ _ ∨
      (Function.update copier.flows dir flow other).partly ≠ 0
    rw [put]
    split
    -- The clock is no later than the last byte that moved in one of the directions.
    · cases moved with
      | still progress partly lastMoved =>
          rw [if_pos progress, lastMoved, partly]
          exact active dir
      | part progress partly lastMoved going => exact Or.inr partly
      | whole progress partly lastMoved going =>
          rw [if_neg (Nat.ne_of_gt progress), lastMoved]
          exact Or.inl (Nat.le_max_right _ _)
    · refine (active other).imp_left fun within => Nat.le_trans within ?_
      split
      · exact Nat.le_refl _
      · exact Nat.le_max_left _ _
  · cases moved with
    | still progress partly lastMoved =>
        obtain ⟨other, touched⟩ := touched
        refine ⟨other, ?_⟩
        change _ ≤ millis (Function.update copier.flows dir flow other).lastMoved
        rw [if_pos progress, put]
        split
        · rename_i same
          rw [lastMoved, ← same]
          exact touched
        · exact touched
    | part progress partly lastMoved going =>
        obtain ⟨other, touched⟩ := touched
        refine ⟨dir, ?_⟩
        change _ ≤ millis (Function.update copier.flows dir flow dir).lastMoved
        rw [if_pos progress, Function.update_self, lastMoved]
        exact Nat.le_trans touched (late other)
    | whole progress partly lastMoved going =>
        obtain ⟨other, touched⟩ := touched
        refine ⟨dir, ?_⟩
        change _ ≤ millis (Function.update copier.flows dir flow dir).lastMoved
        rw [if_neg (Nat.ne_of_gt progress), Function.update_self, lastMoved]
        exact Nat.max_le.mpr ⟨Nat.le_trans touched (late other), Nat.le_refl _⟩
  · intro survivor last stalled sleepFrom since finishedAt draining
    obtain ⟨finished, started, counted, asleep, seen, quiet⟩ :=
      watched survivor last stalled sleepFrom since finishedAt draining
    refine ⟨?_, started, counted, asleep, ?_, ?_⟩
    · change (Function.update copier.flows dir flow survivor.other).phase = .finished
      rw [put]
      split
      · rename_i same
        exact done (same ▸ finished)
      · exact finished
    · change last ≤ (Function.update copier.flows dir flow survivor).progress
      rw [put]
      split
      · rename_i same
        rw [same] at seen
        cases moved with
        | still progress partly lastMoved => rwa [progress]
        | part progress partly lastMoved going => rwa [progress]
        | whole progress partly lastMoved going => exact Nat.le_trans seen (Nat.le_of_lt progress)
      · exact seen
    · change (Function.update copier.flows dir flow survivor).progress = last →
        (Function.update copier.flows dir flow survivor).lastMoved ≤ since ∨
          (Function.update copier.flows dir flow survivor).partly ≠ 0
      rw [put]
      split
      · rename_i same
        rw [same] at seen quiet
        cases moved with
        | still progress partly lastMoved => rwa [progress, partly, lastMoved]
        -- A part of a chunk is not counted, so the survivor looks stalled here.
        | part progress partly lastMoved going => exact fun _ => Or.inr partly
        | whole progress partly lastMoved going => exact fun still => by omega
      · exact quiet

/-- Who is polled, and what is reported, is no matter of the clocks. -/
theorem Sound.report (sound : copier.Sound) (expired : Option Dir) (outcome : Option Outcome) :
    Sound { copier with expired, outcome } where
  flow := sound.flow
  active := sound.active
  touched := sound.touched
  watched survivor last stalled sleepFrom since finishedAt draining := by
    obtain ⟨finished, started, counted, asleep, seen, quiet⟩ :=
      sound.watched survivor last stalled sleepFrom since finishedAt draining
    exact ⟨finished, started, counted, asleep, seen, quiet⟩

theorem Sound.watch (sound : copier.Sound) {survivor : Dir}
    {last stalled sleepFrom since finishedAt : Nat}
    (watching : copier.Watching survivor last stalled sleepFrom since finishedAt) :
    Sound { copier with
      mode := .draining survivor last stalled sleepFrom since finishedAt } where
  flow := sound.flow
  active := sound.active
  touched := sound.touched
  watched survivor' last' stalled' sleepFrom' since' finishedAt' draining := by
    cases draining
    obtain ⟨finished, started, counted, asleep, seen, quiet⟩ := watching
    exact ⟨finished, started, counted, asleep, seen, quiet⟩

theorem other_other (dir : Dir) : dir.other.other = dir := by cases dir <;> rfl

theorem Sound.finish (sound : copier.Sound) {dir : Dir}
    (done : (copier.flows dir).phase = .finished) : (copier.finish dir).Sound := by
  rw [Copier.finish]
  split
  · have watching : copier.Watching dir.other (copier.flows dir.other).progress 0 copier.now
        copier.now copier.now := by
      refine ⟨?_, Nat.le_refl _, Nat.le_refl _, Nat.le_refl _, Nat.le_refl _, fun _ => ?_⟩
      · rw [other_other]
        exact done
      · exact Or.inl (sound.flow dir.other).moved
    exact (sound.watch watching).report none _
  · exact sound.report none _

theorem Sound.wait (sound : copier.Sound) (nanos : Nat) :
    Sound { copier with now := copier.now + nanos } where
  flow dir := { sound.flow dir with moved := Nat.le_add_right_of_le (sound.flow dir).moved }
  active := sound.active
  touched := sound.touched
  watched survivor last stalled sleepFrom since finishedAt draining := by
    obtain ⟨finished, started, counted, asleep, seen, quiet⟩ :=
      sound.watched survivor last stalled sleepFrom since finishedAt draining
    exact ⟨finished, started, counted, Nat.le_add_right_of_le asleep, seen, quiet⟩

theorem Sound.look (sound : copier.Sound) (looked : copier.look drain = some next) :
    next.Sound := by
  rw [Copier.look] at looked
  split at looked
  · rename_i survivor last stalled sleepFrom since finishedAt draining
    obtain ⟨finished, started, counted, asleep, seen, quiet⟩ :=
      sound.watched survivor last stalled sleepFrom since finishedAt draining
    split at looked
    · rename_i awake
      dsimp only at looked
      split at looked
      · cases looked
        refine sound.watch ⟨finished, ?_, Nat.le_refl _, Nat.le_refl _, Nat.le_refl _, fun _ => ?_⟩
        · omega
        · exact Or.inl (sound.flow survivor).moved
      · split at looked
        · cases looked
          exact sound.report _ _
        · cases looked
          refine sound.watch ⟨finished, started, ?_, Nat.le_refl _, seen, quiet⟩
          omega
    · cases looked
  · cases looked

theorem sound_advance (sound : copier.Sound) {event : Event}
    (advanced : copier.advance idle drain event = some next) : next.Sound := by
  cases event with
  | send dir bytes =>
      rw [advance] at advanced
      split at advanced
      · cases advanced
      · rename_i unclosed
        cases advanced
        obtain ⟨split, counted, chunk, ended, shutdown, moved⟩ := sound.flow dir
        have kept : Flow.Sound { copier.flows dir with
            sent := (copier.flows dir).sent ++ bytes
            unread := (copier.flows dir).unread ++ bytes } copier.now := by
          refine ⟨?_, counted, chunk, fun late => absurd (ended late).1 unclosed, shutdown, moved⟩
          change (copier.flows dir).sent ++ bytes =
            (copier.flows dir).delivered ++ (copier.flows dir).left ++
              ((copier.flows dir).unread ++ bytes)
          rw [split, List.append_assoc]
        have put := sound.put kept (.still rfl rfl rfl) id
        rwa [if_pos rfl] at put
  | close dir =>
      cases advanced
      obtain ⟨split, counted, chunk, ended, shutdown, moved⟩ := sound.flow dir
      have kept : Flow.Sound { copier.flows dir with closed := true } copier.now :=
        ⟨split, counted, chunk, fun late => ⟨rfl, (ended late).2⟩, shutdown, moved⟩
      have put := sound.put kept (.still rfl rfl rfl) id
      rwa [if_pos rfl] at put
  | wait nanos =>
      cases advanced
      exact sound.wait nanos
  -- The clock is touched, and the other direction is drained from now on if this one is done.
  | io dir io =>
      rw [advance] at advanced
      split at advanced
      · rename_i polls
        obtain ⟨flow, acted, rfl⟩ := Option.map_eq_some_iff.mp advanced
        obtain ⟨kept, moved⟩ := Flow.act_sound (sound.flow dir) acted
        have put := sound.put kept moved fun done => absurd done polls.1
        rw [Copier.acted]
        dsimp only
        split
        · rename_i done
          refine put.finish ?_
          change (Function.update copier.flows dir flow dir).phase = .finished
          rw [Function.update_self]
          exact done
        · exact put
      · cases advanced
  | fail dir =>
      rw [advance] at advanced
      split at advanced
      · cases advanced
        exact sound.report _ _
      · cases advanced
  | expire dir =>
      rw [advance] at advanced
      split at advanced
      · cases advanced
        exact sound.report _ _
      · cases advanced
  | giveUp =>
      rw [advance] at advanced
      split at advanced
      · cases advanced
        exact sound.report _ _
      · cases advanced
  | tick =>
      rw [advance] at advanced
      split at advanced
      · cases advanced
      · exact sound.look advanced

theorem sound_step (sound : copier.Sound) {event : Event}
    (stepped : step idle drain copier event = some next) : next.Sound := by
  rw [step] at stepped
  split at stepped
  · cases stepped
  · exact sound_advance sound stepped

end Copier

end Invariant

section Endings

namespace Copier

variable {copier next : Copier} {idle drain : Nat}

theorem Sound.carried (sound : copier.Sound) (dir : Dir) :
    (copier.flows dir).delivered <+: (copier.flows dir).sent := by
  rw [(sound.flow dir).split, List.append_assoc]
  exact List.prefix_append _ _

theorem finished_whole {flow : Flow} (done : flow.phase = .finished) :
    flow.left = [] ∧ flow.partly = 0 := by
  rw [Flow.left, Flow.partly, done]
  exact ⟨rfl, rfl⟩

theorem Sound.shutdown (sound : copier.Sound) (dir : Dir) (shut : (copier.flows dir).shut) :
    (copier.flows dir).closed ∧ (copier.flows dir).delivered = (copier.flows dir).sent := by
  have flow := sound.flow dir
  have done := flow.shutdown shut
  obtain ⟨closed, empty⟩ := flow.ended (Or.inr (Or.inr done))
  refine ⟨closed, ?_⟩
  rw [flow.split, (finished_whole done).1, empty, List.append_nil, List.append_nil]

theorem Sound.faithful (sound : copier.Sound)
    (ended : ∀ a2b b2a ending, copier.outcome = some (.ok a2b b2a ending) →
      copier.EndedWell idle drain ending ∧ a2b = (copier.flows .a2b).delivered.length ∧
        b2a = (copier.flows .b2a).delivered.length) : copier.Faithful idle drain :=
  ⟨sound.carried, sound.shutdown, ended⟩

/-- As long as nothing is reported, nothing wrong is. -/
theorem Sound.faithful_going (sound : copier.Sound)
    (going : ∀ a2b b2a ending, copier.outcome ≠ some (.ok a2b b2a ending)) :
    copier.Faithful idle drain :=
  sound.faithful fun a2b b2a ending reported => absurd reported (going a2b b2a ending)

theorem Sound.counted_iff (sound : copier.Sound) (dir : Dir) :
    (copier.flows dir).progress = (copier.flows dir).delivered.length ↔
      (copier.flows dir).partly = 0 := by
  rw [(sound.flow dir).counted]
  omega

/-- An idle end is right when no chunk is under way and the idle time is over. -/
theorem giveUp_iff (sound : copier.Sound) :
    (copier.endOk .idle).Faithful idle drain ↔
      (∀ dir, (copier.flows dir).partly = 0) ∧ idle ≤ copier.elapsed := by
  constructor
  · intro faithful
    obtain ⟨quiet, up, down⟩ := faithful.ended _ _ _ rfl
    constructor
    · intro dir
      cases dir with
      | a2b => exact (sound.counted_iff .a2b).mp up
      | b2a => exact (sound.counted_iff .b2a).mp down
    · obtain ⟨dir, touched⟩ := sound.touched
      exact Nat.le_trans (quiet dir)
        (Nat.mul_le_mul_right _ (Nat.sub_le_sub_left touched _))
  · rintro ⟨whole, over_⟩
    refine Sound.faithful (sound.report _ _) ?_
    intro a2b b2a ending reported
    cases reported
    refine ⟨?_, (sound.counted_iff .a2b).mpr (whole .a2b), (sound.counted_iff .b2a).mpr
      (whole .b2a)⟩
    intro dir
    have touched := (sound.active dir).resolve_right fun part => part (whole dir)
    exact Nat.le_trans over_ (Nat.mul_le_mul_right _ (Nat.sub_le_sub_left touched _))

theorem stalled_iff (sound : copier.Sound) {survivor : Dir}
    {last stalled sleepFrom since finishedAt : Nat}
    (draining : copier.mode = .draining survivor last stalled sleepFrom since finishedAt)
    (awake : sleepFrom + check drain ≤ copier.now)
    (still : (copier.flows survivor).progress = last) (long : drain ≤ stalled + check drain) :
    (copier.endOk .stalled).Faithful idle drain ↔ (copier.flows survivor).partly = 0 := by
  obtain ⟨finished, started, counted, asleep, seen, quiet⟩ :=
    sound.watched survivor last stalled sleepFrom since finishedAt draining
  constructor
  · intro faithful
    obtain ⟨-, up, down⟩ := faithful.ended _ _ _ rfl
    cases survivor with
    | a2b => exact (sound.counted_iff .a2b).mp up
    | b2a => exact (sound.counted_iff .b2a).mp down
  · intro whole
    refine Sound.faithful (sound.report _ _) ?_
    intro a2b b2a ending reported
    cases reported
    have moved := (quiet still).resolve_right fun part => part whole
    have all : ∀ dir, (copier.flows dir).partly = 0 := by
      intro dir
      by_cases same : dir = survivor
      · rw [same]
        exact whole
      · have other : dir = survivor.other := by
          cases dir <;> cases survivor <;> first | rfl | exact absurd rfl same
        rw [other]
        exact (finished_whole finished).2
    refine ⟨⟨survivor, last, stalled, sleepFrom, since, finishedAt, draining, finished, ?_, ?_⟩,
      (sound.counted_iff .a2b).mpr (all .a2b), (sound.counted_iff .b2a).mpr (all .b2a)⟩
    · change drain ≤ copier.now - finishedAt
      omega
    · change drain ≤ copier.now - (copier.flows survivor).lastMoved
      omega

theorem look_iff (sound : copier.Sound) (going : copier.outcome = none)
    (looked : copier.look drain = some next) :
    next.Faithful idle drain ↔ copier.Careful idle drain .tick := by
  have after := sound.look looked
  rw [look] at looked
  split at looked
  · rename_i survivor last stalled sleepFrom since finishedAt draining
    have careful : copier.Careful idle drain .tick ↔
        ((copier.flows survivor).progress = last → drain ≤ stalled + check drain →
          (copier.flows survivor).partly = 0) := by
      rw [Careful, draining]
    rw [careful]
    split at looked
    · rename_i awake
      dsimp only at looked
      split at looked
      · rename_i other
        cases looked
        exact iff_of_true (after.faithful_going fun _ _ _ => by rw [going]; exact nofun)
          fun still => absurd still other
      · rename_i same
        have still := not_not.mp same
        split at looked
        · rename_i long
          cases looked
          rw [stalled_iff sound draining awake still long]
          exact ⟨fun whole _ _ => whole, fun all => all still long⟩
        · rename_i short
          cases looked
          exact iff_of_true (after.faithful_going fun _ _ _ => by rw [going]; exact nofun)
            fun _ long => absurd long short
    · cases looked
  · cases looked

theorem acted_flows (dir : Dir) (flow : Flow) :
    (copier.acted dir flow).flows = Function.update copier.flows dir flow := by
  rw [acted]
  dsimp only
  split
  · rw [finish]
    split <;> rfl
  · rfl

theorem acted_faithful (sound : copier.Sound) (going : copier.outcome = none) {dir : Dir}
    (polls : copier.Polls dir) {flow : Flow} (after : (copier.acted dir flow).Sound) :
    (copier.acted dir flow).Faithful idle drain := by
  have counted : ∀ other, (Function.update copier.flows dir flow other).phase = .finished →
      (Function.update copier.flows dir flow other).progress =
        (Function.update copier.flows dir flow other).delivered.length := by
    intro other done
    have length := (after.flow other).counted
    rw [acted_flows, (finished_whole done).2, Nat.add_zero] at length
    exact length.symm
  refine after.faithful ?_
  intro a2b b2a ending reported
  rw [acted] at reported ⊢
  dsimp only at reported ⊢
  split at reported
  · rename_i done
    rw [if_pos done]
    have here : (Function.update copier.flows dir flow dir).phase = .finished := by
      rw [Function.update_self]
      exact done
    rw [finish] at reported ⊢
    split at reported
    · change copier.outcome = _ at reported
      rw [going] at reported
      cases reported
    · rename_i survivor last stalled sleepFrom since finishedAt draining
      have finished := (sound.watched _ _ _ _ _ _ draining).finished
      have all : ∀ other, (Function.update copier.flows dir flow other).phase = .finished := by
        intro other
        by_cases same : other = dir
        · rw [same]
          exact here
        · have rest : other = survivor.other := by
            have running : dir ≠ survivor.other := fun same => polls.1 (same ▸ finished)
            cases other <;> cases dir <;> cases survivor <;>
              first | rfl | exact absurd rfl same | exact absurd rfl running
          rw [Function.update_of_ne same, rest]
          exact finished
      cases reported
      exact ⟨all, counted .a2b (all .a2b), counted .b2a (all .b2a)⟩
  · change copier.outcome = _ at reported
    rw [going] at reported
    cases reported

theorem step_iff (sound : copier.Sound) {event : Event}
    (stepped : step idle drain copier event = some next) :
    next.Faithful idle drain ↔ copier.Careful idle drain event := by
  have after := sound_step sound stepped
  rw [step] at stepped
  split at stepped
  · cases stepped
  -- Only a watch that gives up can report bytes that are not all.
  · rename_i unreported
    have going : copier.outcome = none := by simpa using unreported
    have nothing : ∀ a2b b2a ending, copier.outcome ≠ some (.ok a2b b2a ending) := by
      rw [going]
      exact nofun
    cases event with
    | send dir bytes =>
        rw [advance] at stepped
        split at stepped
        · cases stepped
        · cases stepped
          exact iff_of_true (after.faithful_going nothing) trivial
    | close dir =>
        cases stepped
        exact iff_of_true (after.faithful_going nothing) trivial
    | wait nanos =>
        cases stepped
        exact iff_of_true (after.faithful_going nothing) trivial
    | io dir io =>
        rw [advance] at stepped
        split at stepped
        · rename_i polls
          obtain ⟨flow, -, rfl⟩ := Option.map_eq_some_iff.mp stepped
          exact iff_of_true (acted_faithful sound going polls after) trivial
        · cases stepped
    | fail dir =>
        rw [advance] at stepped
        split at stepped
        · cases stepped
          exact iff_of_true (after.faithful_going nofun) trivial
        · cases stepped
    | expire dir =>
        rw [advance] at stepped
        split at stepped
        · cases stepped
          exact iff_of_true (after.faithful_going nothing) trivial
        · cases stepped
    | giveUp =>
        rw [advance] at stepped
        split at stepped
        · cases stepped
          exact giveUp_iff sound
        · cases stepped
    | tick =>
        rw [advance] at stepped
        split at stepped
        · cases stepped
        · exact look_iff sound going stepped

/-- All along a run the copy is faithful exactly if its watches are careful. -/
theorem copy_faithful_iff {events : List Event} {final : Copier}
    (run : Trace.follow (step idle drain) start events = some final) :
    (∀ past state, past <+: events → Trace.follow (step idle drain) start past = some state →
      state.Faithful idle drain) ↔
      Trace.Throughout (step idle drain) (Careful idle drain) start events := by
  have begun : start.Faithful idle drain := start_sound.faithful_going nofun
  have exact := @Trace.throughout_iff _ _ (step idle drain) (Careful idle drain)
    (fun copier => copier.Sound ∧ copier.Faithful idle drain)
    (fun {_ _ _} good stepped => by
      rw [← step_iff good.1 stepped]
      exact and_iff_right (sound_step good.1 stepped))
    start final events ⟨start_sound, begun⟩ run
  rw [exact]
  constructor
  · intro faithful past state inside reached
    exact ⟨Trace.follow_keeps Sound (fun sound stepped => sound_step sound stepped) start_sound
      reached, faithful past state inside reached⟩
  · exact fun good past state inside reached => (good past state inside reached).2

/-- A chunk is written, and five minutes later the relay ends. -/
theorem copy_faithful_idle :
    (Trace.follow (step 300000000000 30000000000) start [.send .a2b [1, 2, 3], .io .a2b (.read 3),
      .io .a2b (.accept 2), .io .a2b (.accept 1), .wait 300000000000, .expire .b2a,
      .giveUp]).isSome ∧
    ∀ past state, past <+: [.send .a2b [1, 2, 3], .io .a2b (.read 3), .io .a2b (.accept 2),
        .io .a2b (.accept 1), .wait 300000000000, .expire .b2a, .giveUp] →
      Trace.follow (step 300000000000 30000000000) start past = some state →
        state.Faithful 300000000000 30000000000 :=
  ⟨rfl, (@copy_faithful_iff 300000000000 30000000000 [.send .a2b [1, 2, 3], .io .a2b (.read 3),
    .io .a2b (.accept 2), .io .a2b (.accept 1), .wait 300000000000, .expire .b2a, .giveUp] _
    rfl).mpr (by decide)⟩

def ticks (n : Nat) : List Event := (List.replicate n [.wait 50000000, .tick]).flatten

/-- A peer that takes a byte now and then is cut off, and what it took is not
reported. -/
theorem slow_peer_cut : ∃ final,
    Trace.follow (step 300000000000 500000000) start
      ([.close .b2a, .io .b2a .eof, .io .b2a .flush, .io .b2a .shutdown, .send .a2b [1, 2, 3],
        .io .a2b (.read 3), .io .a2b (.accept 1)] ++ ticks 5 ++ [.io .a2b (.accept 1)] ++
          ticks 5) = some final ∧
    final.outcome = some (.ok 0 0 .stalled) ∧ (final.flows .a2b).delivered = [1, 2] ∧
    ¬final.Faithful 300000000000 500000000 :=
  ⟨_, rfl, rfl, rfl, fun faithful =>
    absurd (faithful.ended 0 0 .stalled rfl).2.1 (by decide)⟩

end Copier

end Endings

end Mirage.Relay.Bidirectional
