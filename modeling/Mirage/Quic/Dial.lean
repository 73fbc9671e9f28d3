import Mathlib.Algebra.Group.Nat.Defs
import Mathlib.Data.List.Basic
import Mathlib.Data.List.Nodup
import Mathlib.Logic.Function.Basic
import Mirage.Lib.Trace

/-!
The shared connection of `QuicMux` and the callers that take turns on it. An
event is what one task does between two awaits; tasks may be dropped at every
await. Connections and watch channels are known by their numbers, as by
`stable_id`. The log of settled closes is kept for the statements only. Times
are in nanoseconds.
-/

namespace Mirage.Quic.Dial

open Function Trace

@[irreducible] def millisecond : Nat := 1000000

def second : Nat := 1000 * millisecond
def rejectWindow : Nat := 10 * second
def rejectBackoffMax : Nat := 30 * second
def dialFailBackoff : Nat := 250 * millisecond
def u32Max : Nat := 4294967295

inductive ConnectionError where
  | versionMismatch
  | transportError
  | connectionClosed
  | applicationClosed (code : Nat)
  | reset
  | timedOut
  | locallyClosed
  | cidsExhausted
  deriving DecidableEq

def isServerRejection (reason : ConnectionError) (lived : Nat) : Bool :=
  decide (reason = .applicationClosed 0) && decide (lived < rejectWindow)

/-- 1 s, 2 s, 4 s and so on up to 30 s. -/
def rejectBackoff (streak : Nat) : Nat :=
  min (2 ^ min (streak - 1) 5 * second) rejectBackoffMax

structure MuxInner where
  conn : Option Nat
  dialing : Option Nat
  lastFailure : Option (Nat × String)
  connSince : Option Nat
  rejectStreak : Nat
  rejectUntil : Option Nat

/-- A connection that was observed closed is settled once; nothing is left to
settle after that. -/
def MuxInner.noteConnClosed (inner : MuxInner) (reason : ConnectionError) (now : Nat) : MuxInner :=
  match inner.connSince with
  | none => inner
  | some since =>
      if isServerRejection reason (now - since) then
        let streak := min (inner.rejectStreak + 1) u32Max
        { inner with
          connSince := none
          rejectStreak := streak
          rejectUntil := some (now + rejectBackoff streak) }
      else { inner with connSince := none, rejectStreak := 0, rejectUntil := none }

inductive DialOutcome where
  | connected (conn : Nat)
  | failed (message : String)
  | cancelled
  deriving DecidableEq

inductive Answer where
  | stream (conn : Nat)
  | cooldown (retryAfter : Nat)
  | failed (message : String)
  | openBiFailed
  | cancelled
  deriving DecidableEq

/-- Where an `open_stream` is: at the head of the loop of `get_or_dial_conn`,
on a leader's channel, dialling itself, or opening a stream. -/
inductive Place where
  | idle
  | looping (attempt : Nat)
  | waiting (attempt chan : Nat)
  | leading (attempt chan : Nat)
  | opening (attempt conn : Nat) (cached : Bool)
  | done (answer : Answer)
  deriving DecidableEq

namespace Place

def leads : Place → Bool
  | leading _ _ => true
  | _ => false

/-- On a channel, its own or another's. -/
def attached : Place → Bool
  | leading _ _ | waiting _ _ => true
  | _ => false

theorem ne_leading {place : Place} (quiet : place.leads = false) (attempt chan : Nat) :
    place ≠ .leading attempt chan := by
  rintro rfl
  cases quiet

theorem ne_of_detached {place : Place} (quiet : place.attached = false) (attempt chan : Nat) :
    place ≠ .leading attempt chan ∧ place ≠ .waiting attempt chan := by
  constructor <;> (rintro rfl; cases quiet)

end Place

structure Close where
  reason : ConnectionError
  at_ : Nat
  deriving DecidableEq

structure Settlement where
  conn : Nat
  reason : ConnectionError
  since : Nat
  now : Nat
  deriving DecidableEq

def Settlement.rejected (entry : Settlement) : Bool :=
  isServerRejection entry.reason (entry.now - entry.since)

structure World where
  now : Nat
  inner : MuxInner
  place : Nat → Place
  channels : Nat
  outcome : Nat → Option DialOutcome
  conns : Nat
  installed : Nat → Nat
  closed : Nat → Option Close
  watching : Nat → Bool
  log : List Settlement

namespace World

def start (now : Nat) : World :=
  { now, inner := ⟨none, none, none, none, 0, none⟩, place := fun _ => .idle, channels := 0
    outcome := fun _ => none, conns := 0, installed := fun _ => 0, closed := fun _ => none
    watching := fun _ => false, log := [] }

def move (world : World) (id : Nat) (place : Place) : World :=
  { world with place := update world.place id place }

/-- `note_conn_closed` for the current connection, which is then given up. -/
def settle (world : World) (conn : Nat) (reason : ConnectionError) : World :=
  { world with
    inner := { world.inner.noteConnClosed reason world.now with conn := none }
    log := world.log ++
      (world.inner.connSince.map fun since => ⟨conn, reason, since, world.now⟩).toList }

def observe (world : World) : World :=
  match world.inner.conn with
  | some conn =>
      match world.closed conn with
      | some close => world.settle conn close.reason
      | none => world
  | none => world

/-- The rest of the locked section of `get_or_dial_conn`. -/
def choose (world : World) (id attempt : Nat) : World :=
  match world.inner.conn with
  | some conn => world.move id (.opening attempt conn true)
  | none =>
      match world.inner.dialing with
      | some chan => world.move id (.waiting attempt chan)
      | none =>
          match world.inner.rejectUntil.filter fun expiry => world.now < expiry with
          | some expiry =>
              world.move id (.done (.cooldown ((expiry - world.now) / second + 1)))
          | none =>
              let world := { world with inner := { world.inner with rejectUntil := none } }
              match world.inner.lastFailure.filter fun f => world.now - f.1 < dialFailBackoff with
              | some failure => world.move id (.done (.failed failure.2))
              | none =>
                  { world with
                    inner := { world.inner with
                      lastFailure := none, dialing := some world.channels }
                    channels := world.channels + 1
                    outcome := update world.outcome world.channels none
                    place := update world.place id (.leading attempt world.channels) }

theorem observe_place (world : World) : world.observe.place = world.place := by
  unfold observe
  split
  · split <;> rfl
  · rfl

/-- The leader's end: the slot is emptied and the followers are told. -/
def release (world : World) (id chan : Nat) (outcome : DialOutcome) (place : Place) : World :=
  { world with
    inner := { world.inner with dialing := none }
    outcome := update world.outcome chan (some outcome)
    place := update world.place id place }

/-- A dial that succeeded is installed, with a watcher of its own. -/
def install (world : World) (already : Option ConnectionError) : World :=
  { world with
    inner := { world.inner with
      conn := some world.conns, connSince := some world.now, lastFailure := none }
    conns := world.conns + 1
    installed := update world.installed world.conns world.now
    closed := update world.closed world.conns (already.map fun reason => ⟨reason, world.now⟩)
    watching := update world.watching world.conns true }

def giveUp (world : World) : World := { world with inner := { world.inner with conn := none } }

/-- `open_bi` failed: the connection is given up if it is still the current one. -/
def dropFailed (world : World) (conn : Nat) : World :=
  if world.inner.conn = some conn then
    match world.closed conn with
    | some close => world.settle conn close.reason
    | none => world.giveUp
  else world

theorem dropFailed_place (world : World) (conn : Nat) :
    (world.dropFailed conn).place = world.place := by
  unfold dropFailed
  split
  · split <;> rfl
  · rfl

def watched (world : World) (conn : Nat) (close : Close) : World :=
  let world := { world with watching := update world.watching conn false }
  if world.inner.conn = some conn then world.settle conn close.reason else world

end World

inductive Event where
  | tick (delay : Nat)
  | call (id : Nat)
  | acquire (id : Nat)
  | wake (id : Nat)
  | dialed (id : Nat) (already : Option ConnectionError)
  | dialFailed (id : Nat) (message : String)
  | cancel (id : Nat)
  | opened (id : Nat)
  | openFailed (id : Nat)
  | closes (conn : Nat) (reason : ConnectionError)
  | watcher (conn : Nat)
  | checkConnClosed
  deriving DecidableEq

open World in
def step (world : World) : Event → Option World
  | .tick delay => some { world with now := world.now + delay }
  | .call id =>
      match world.place id with
      | .idle => some (world.move id (.looping 0))
      | _ => none
  | .acquire id =>
      match world.place id with
      | .looping attempt => some (world.observe.choose id attempt)
      | _ => none
  | .wake id =>
      match world.place id with
      | .waiting attempt chan =>
          (world.outcome chan).map fun
            | .connected conn => world.move id (.opening attempt conn false)
            | .failed message => world.move id (.done (.failed message))
            | .cancelled => world.move id (.looping attempt)
      | _ => none
  | .dialed id already =>
      match world.place id with
      | .leading attempt chan =>
          some ((world.release id chan (.connected world.conns)
            (.opening attempt world.conns false)).install already)
      | _ => none
  | .dialFailed id message =>
      match world.place id with
      | .leading _ chan =>
          let world := { world with
            inner := { world.inner with lastFailure := some (world.now, message) } }
          some (world.release id chan (.failed message) (.done (.failed message)))
      | _ => none
  | .cancel id =>
      match world.place id with
      | .idle | .done _ => none
      | .leading _ chan => some (world.release id chan .cancelled (.done .cancelled))
      | _ => some (world.move id (.done .cancelled))
  | .opened id =>
      match world.place id with
      | .opening _ conn _ => some (world.move id (.done (.stream conn)))
      | _ => none
  | .openFailed id =>
      match world.place id with
      | .opening attempt conn cached =>
          let place := if !cached || attempt == 1 then .done .openBiFailed else .looping (attempt + 1)
          some ((world.dropFailed conn).move id place)
      | _ => none
  | .closes conn reason =>
      if conn < world.conns ∧ world.closed conn = none then
        some { world with closed := update world.closed conn (some ⟨reason, world.now⟩) }
      else none
  | .watcher conn =>
      match world.closed conn with
      | some close => if world.watching conn then some (world.watched conn close) else none
      | none => none
  | .checkConnClosed => some world.observe

/-- How many of the last settled closes were rejections, and when the cooldown
of every rejection so far ends. -/
def tally (log : List Settlement) : Nat × List Nat :=
  log.foldl (fun state entry =>
    if entry.rejected then
      (state.1 + 1, state.2 ++ [entry.now + rejectBackoff (min (state.1 + 1) u32Max)])
    else (0, state.2)) (0, [])

def streakOf (log : List Settlement) : Nat := (tally log).1

def coolings (log : List Settlement) : List Nat := (tally log).2

theorem tally_snoc (log : List Settlement) (entry : Settlement) :
    tally (log ++ [entry]) =
      if entry.rejected then
        (streakOf log + 1, coolings log ++ [entry.now + rejectBackoff (min (streakOf log + 1) u32Max)])
      else (0, coolings log) := by
  rw [tally, List.foldl_append]
  rfl

theorem streakOf_eq (log : List Settlement) :
    streakOf log = (log.reverse.takeWhile Settlement.rejected).length := by
  induction log using List.reverseRecOn with
  | nil => rfl
  | append_singleton log entry ih =>
      rw [streakOf, tally_snoc, List.reverse_append, List.reverse_singleton, List.singleton_append]
      cases rejected : entry.rejected with
      | true =>
          rw [List.takeWhile_cons_of_pos rejected, List.length_cons, ← ih]
          rfl
      | false =>
          rw [List.takeWhile_cons_of_neg (by rw [rejected]; exact Bool.false_ne_true)]
          rfl

/-- What every run keeps. -/
structure Sound (world : World) : Prop where
  leads : ∀ {id attempt chan}, world.place id = .leading attempt chan →
    world.inner.dialing = some chan
  led : ∀ {chan}, world.inner.dialing = some chan →
    ∃ id attempt, world.place id = .leading attempt chan
  single : ∀ {id other attempt chan attempt' chan'}, world.place id = .leading attempt chan →
    world.place other = .leading attempt' chan' → id = other
  slot : ∀ {chan}, world.inner.dialing = some chan → chan < world.channels
  undecided : ∀ {chan}, chan < world.channels →
    (world.outcome chan = none ↔ world.inner.dialing = some chan)
  waits : ∀ {id attempt chan}, world.place id = .waiting attempt chan → chan < world.channels
  alone : world.inner.dialing.isSome = true → world.inner.conn = none
  current : ∀ {conn}, world.inner.conn = some conn → conn < world.conns ∧
    world.inner.connSince = some (world.installed conn) ∧ conn ∉ world.log.map Settlement.conn
  logged : ∀ entry ∈ world.log, entry.conn < world.conns ∧
    entry.since = world.installed entry.conn ∧
    ∃ close, world.closed entry.conn = some close ∧ close.reason = entry.reason
  once : (world.log.map Settlement.conn).Nodup
  streak : world.inner.rejectStreak = min (streakOf world.log) u32Max
  cooled : world.inner.conn.isSome = true ∨ world.inner.dialing.isSome = true →
    ∀ expiry ∈ coolings world.log, expiry ≤ world.now
  cooling : ∀ expiry ∈ coolings world.log, expiry ≤ world.now ∨
    world.inner.rejectUntil = some expiry

namespace Sound
variable {world : World} {id attempt chan conn : Nat} {place : Place}

theorem start (now : Nat) : Sound (.start now) where
  leads := fun same => nomatch same
  led := fun same => nomatch same
  single := fun same => nomatch same
  slot := fun same => nomatch same
  undecided := fun inside => absurd inside (Nat.not_lt_zero _)
  waits := fun same => nomatch same
  alone := fun _ => rfl
  current := fun same => nomatch same
  logged := fun _ member => absurd member List.not_mem_nil
  once := List.nodup_nil
  streak := rfl
  cooled := fun _ _ member => absurd member List.not_mem_nil
  cooling := fun _ member => absurd member List.not_mem_nil

theorem tick (sound : Sound world) (delay : Nat) : Sound { world with now := world.now + delay } :=
  { sound with
    cooled := fun busy expiry member => Nat.le_add_right_of_le (sound.cooled busy expiry member)
    cooling := by
      intro expiry member
      rcases sound.cooling expiry member with passed | until_
      · exact .inl (Nat.le_add_right_of_le passed)
      · exact .inr until_ }

theorem move (sound : Sound world) (before : ∀ attempt chan, world.place id ≠ .leading attempt chan)
    (after : ∀ attempt chan, place ≠ .leading attempt chan)
    (waits : ∀ attempt chan, place = .waiting attempt chan → chan < world.channels) :
    Sound (world.move id place) :=
  have same : ∀ {other attempt chan}, (world.move id place).place other = .leading attempt chan ↔
      world.place other = .leading attempt chan := by
    intro other attempt chan
    by_cases own : other = id
    · rw [own]
      simp only [World.move, update_self]
      exact ⟨fun leads => absurd leads (after _ _), fun leads => absurd leads (before _ _)⟩
    · simp only [World.move, update_of_ne own]
  { sound with
    leads := fun leading => sound.leads (same.mp leading)
    led := by
      intro chan taken
      obtain ⟨leader, attempt, leading⟩ := sound.led taken
      exact ⟨leader, attempt, same.mpr leading⟩
    single := fun first second => sound.single (same.mp first) (same.mp second)
    waits := by
      intro other attempt chan waiting
      by_cases own : other = id
      · rw [own] at waiting
        simp only [World.move, update_self] at waiting
        exact waits attempt chan waiting
      · simp only [World.move, update_of_ne own] at waiting
        exact sound.waits waiting }

theorem detach (sound : Sound world) {before : Place} (here : world.place id = before)
    (quiet : before.leads = false) (free : place.attached = false) : Sound (world.move id place) := by
  apply sound.move
  · rw [here]
    exact Place.ne_leading quiet
  · exact fun attempt chan => (Place.ne_of_detached free attempt chan).1
  · exact fun attempt chan same => absurd same (Place.ne_of_detached free attempt chan).2

theorem giveUp (sound : Sound world) : Sound world.giveUp :=
  { sound with
    alone := fun _ => rfl
    current := fun same => nomatch same
    cooled := by
      intro busy
      rcases busy with held | dialing
      · cases held
      · exact sound.cooled (.inr dialing) }

theorem noteConnClosed_dialing (inner : MuxInner) (reason : ConnectionError) (now : Nat) :
    (inner.noteConnClosed reason now).dialing = inner.dialing := by
  unfold MuxInner.noteConnClosed
  cases inner.connSince with
  | none => rfl
  | some since =>
      dsimp only
      split <;> rfl

theorem settle (sound : Sound world) (held : world.inner.conn = some conn) {close : Close}
    (closed : world.closed conn = some close) : Sound (world.settle conn close.reason) := by
  obtain ⟨known, since, fresh⟩ := sound.current held
  have cooled := sound.cooled (.inl (by rw [held]; rfl))
  have slot : (world.settle conn close.reason).inner.dialing = world.inner.dialing :=
    noteConnClosed_dialing _ _ _
  have log : (world.settle conn close.reason).log =
      world.log ++ [⟨conn, close.reason, world.installed conn, world.now⟩] := by
    simp only [World.settle, since, Option.map_some, Option.toList_some]
  have tallied := tally_snoc world.log ⟨conn, close.reason, world.installed conn, world.now⟩
  have idle : world.inner.dialing = none := by
    cases taken : world.inner.dialing with
    | none => rfl
    | some chan =>
        have gone := sound.alone (by rw [taken]; rfl)
        rw [held] at gone
        cases gone
  -- what the tally says of the new entry is what the settlement did to the streak
  have counted : (world.settle conn close.reason).inner.rejectStreak =
        min (streakOf (world.settle conn close.reason).log) u32Max ∧
      ∀ expiry ∈ coolings (world.settle conn close.reason).log, expiry ≤ world.now ∨
        (world.settle conn close.reason).inner.rejectUntil = some expiry := by
    have grown : min (world.inner.rejectStreak + 1) u32Max = min (streakOf world.log + 1) u32Max := by
      rw [sound.streak]
      omega
    rw [log]
    unfold streakOf coolings
    by_cases rejected :
        Settlement.rejected ⟨conn, close.reason, world.installed conn, world.now⟩ = true
    · have noted : isServerRejection close.reason (world.now - world.installed conn) = true := rejected
      rw [tallied, if_pos rejected]
      simp only [World.settle, MuxInner.noteConnClosed, since, if_pos noted]
      refine ⟨grown, ?_⟩
      intro expiry member
      rcases List.mem_append.mp member with older | newest
      · exact .inl (cooled expiry older)
      · rw [List.mem_singleton.mp newest, grown]
        exact .inr rfl
    · have noted : ¬ isServerRejection close.reason (world.now - world.installed conn) = true := rejected
      rw [tallied, if_neg rejected]
      simp only [World.settle, MuxInner.noteConnClosed, since, if_neg noted]
      refine ⟨(Nat.zero_min _).symm, ?_⟩
      intro expiry member
      exact .inl (cooled expiry member)
  exact
    { leads := fun leading => slot.trans (sound.leads leading)
      led := fun taken => sound.led (slot.symm.trans taken)
      single := sound.single
      slot := fun taken => sound.slot (slot.symm.trans taken)
      undecided := fun inside => (sound.undecided inside).trans (by rw [slot])
      waits := sound.waits
      alone := fun _ => rfl
      current := fun same => nomatch same
      logged := by
        rw [log]
        intro entry member
        rcases List.mem_append.mp member with older | newest
        · exact sound.logged entry older
        · rw [List.mem_singleton.mp newest]
          exact ⟨known, rfl, close, closed, rfl⟩
      once := by
        rw [log, List.map_append, List.map_singleton, ← List.concat_eq_append]
        exact sound.once.concat fresh
      streak := counted.1
      cooled := by
        intro busy
        rcases busy with current | dialing
        · cases current
        · rw [slot, idle] at dialing
          cases dialing
      cooling := counted.2 }

theorem observe (sound : Sound world) : Sound world.observe := by
  unfold World.observe
  split
  · next conn held =>
      split
      · next close closed => exact sound.settle held closed
      · exact sound
  · exact sound

theorem dropFailed (sound : Sound world) (conn : Nat) : Sound (world.dropFailed conn) := by
  unfold World.dropFailed
  split
  · next held =>
      split
      · next close closed => exact sound.settle held closed
      · exact sound.giveUp
  · exact sound

theorem watched (sound : Sound world) {conn : Nat} {close : Close}
    (closed : world.closed conn = some close) : Sound (world.watched conn close) := by
  have kept : Sound { world with watching := update world.watching conn false } := { sound with }
  unfold World.watched
  dsimp only
  split
  · next held => exact kept.settle held closed
  · exact kept

theorem closes (sound : Sound world) {reason : ConnectionError} (live : world.closed conn = none) :
    Sound { world with closed := update world.closed conn (some ⟨reason, world.now⟩) } :=
  { sound with
    logged := by
      intro entry member
      obtain ⟨known, since, close, closed, same⟩ := sound.logged entry member
      refine ⟨known, since, close, ?_, same⟩
      have other : entry.conn ≠ conn := by
        rintro rfl
        rw [live] at closed
        cases closed
      dsimp only
      rw [update_of_ne other]
      exact closed }

/-- The leader of a channel leaves the slot and the channel is decided. -/
theorem release (sound : Sound world) (leading : world.place id = .leading attempt chan)
    (outcome : DialOutcome) (free : place.attached = false) :
    Sound (world.release id chan outcome place) := by
  have taken := sound.leads leading
  have gone : ∀ {other attempt chan'},
      (world.release id chan outcome place).place other ≠ .leading attempt chan' := by
    intro other attempt' chan' leads
    by_cases own : other = id
    · rw [own] at leads
      simp only [World.release, update_self] at leads
      exact (Place.ne_of_detached free _ _).1 leads
    · simp only [World.release, update_of_ne own] at leads
      exact own (sound.single leads leading)
  exact
    { sound with
      leads := fun leads => absurd leads gone
      led := fun same => nomatch same
      single := fun leads => absurd leads gone
      slot := fun same => nomatch same
      undecided := by
        intro chan' inside
        by_cases own : chan' = chan
        · rw [own]
          simp only [World.release, update_self]
          constructor
          · exact fun same => nomatch same
          · exact fun same => nomatch same
        · simp only [World.release, update_of_ne own]
          constructor
          · intro unset
            have still := (sound.undecided inside).mp unset
            exact absurd (Option.some.inj (still.symm.trans taken)) own
          · exact fun same => nomatch same
      waits := by
        intro other attempt' chan' waiting
        by_cases own : other = id
        · rw [own] at waiting
          simp only [World.release, update_self] at waiting
          exact absurd waiting (Place.ne_of_detached free _ _).2
        · simp only [World.release, update_of_ne own] at waiting
          exact sound.waits waiting
      alone := fun busy => nomatch busy
      cooled := by
        intro busy
        rcases busy with held | dialing
        · exact sound.cooled (.inl held)
        · cases dialing }

/-- The slot is taken with a channel of its own, once every cooldown is over. -/
theorem elect (sound : Sound world) (empty : world.inner.conn = none) (free : world.inner.dialing = none)
    (cooled : ∀ expiry ∈ coolings world.log, expiry ≤ world.now) (id attempt : Nat) :
    Sound { world with
      inner := { world.inner with lastFailure := none, dialing := some world.channels }
      channels := world.channels + 1
      outcome := update world.outcome world.channels none
      place := update world.place id (.leading attempt world.channels) } :=
  have idle : ∀ {other attempt chan}, world.place other ≠ .leading attempt chan := by
    intro other attempt chan leads
    have taken := sound.leads leads
    rw [free] at taken
    cases taken
  -- The slot was free, so nobody else leads.
  have only : ∀ {other attempt' chan'}, update world.place id (.leading attempt world.channels) other =
      .leading attempt' chan' → other = id ∧ chan' = world.channels := by
    intro other attempt' chan' leads
    by_cases own : other = id
    · rw [own, update_self] at leads
      cases leads
      exact ⟨own, rfl⟩
    · rw [update_of_ne own] at leads
      exact absurd leads idle
  { sound with
    leads := fun leads => congrArg some (only leads).2.symm
    led := by
      intro chan same
      cases same
      exact ⟨id, attempt, update_self _ _ _⟩
    single := fun first second => (only first).1.trans (only second).1.symm
    slot := by
      intro chan same
      cases same
      exact Nat.lt_succ_self _
    undecided := by
      intro chan inside
      by_cases own : chan = world.channels
      · rw [own]
        simp only [update_self]
      · have older : chan < world.channels := Nat.lt_of_le_of_ne (Nat.le_of_lt_succ inside) own
        simp only [update_of_ne own]
        rw [sound.undecided older, free]
        constructor
        · exact fun same => nomatch same
        · exact fun same => absurd (Option.some.inj same).symm own
    waits := by
      intro other attempt' chan waiting
      by_cases own : other = id
      · rw [own] at waiting
        simp only [update_self] at waiting
        cases waiting
      · simp only [update_of_ne own] at waiting
        exact Nat.lt_succ_of_lt (sound.waits waiting)
    alone := fun _ => empty
    cooled := fun _ => cooled
    cooling := fun expiry member => .inl (cooled expiry member) }

theorem cool (sound : Sound world) (cooled : ∀ expiry ∈ coolings world.log, expiry ≤ world.now) :
    Sound { world with inner := { world.inner with rejectUntil := none } } :=
  { sound with cooling := fun expiry member => .inl (cooled expiry member) }

theorem choose (sound : Sound world) (looping : world.place id = .looping attempt) :
    Sound (world.choose id attempt) := by
  unfold World.choose
  split
  · next conn held =>
      exact sound.detach looping rfl rfl
  · next empty =>
      split
      · next chan taken =>
          apply sound.move
          · rw [looping]
            exact Place.ne_leading rfl
          · exact Place.ne_leading rfl
          · intro _ _ same
            cases same
            exact sound.slot taken
      · next free =>
          split
          · exact sound.detach looping rfl rfl
          · next ended =>
              -- a cooldown that is not over would have been the answer
              have cooled : ∀ expiry ∈ coolings world.log, expiry ≤ world.now := by
                intro expiry member
                rcases sound.cooling expiry member with passed | pending
                · exact passed
                · rw [pending, Option.filter] at ended
                  split at ended
                  · cases ended
                  · next late => simpa using late
              have kept := sound.cool cooled
              dsimp only
              split
              · exact kept.detach looping rfl rfl
              · exact kept.elect empty free cooled id attempt

theorem install (sound : Sound world)
    (free : world.inner.dialing = none) (cooled : ∀ expiry ∈ coolings world.log, expiry ≤ world.now)
    (already : Option ConnectionError) : Sound (world.install already) :=
  { sound with
    leads := sound.leads
    led := sound.led
    alone := by
      intro busy
      change world.inner.dialing.isSome = true at busy
      rw [free] at busy
      cases busy
    current := by
      intro conn same
      cases same
      refine ⟨Nat.lt_succ_self _, ?_, ?_⟩
      · simp only [World.install, update_self]
      · intro member
        obtain ⟨entry, inside, same⟩ := List.mem_map.mp member
        have older := (sound.logged entry inside).1
        omega
    logged := by
      intro entry member
      obtain ⟨known, since, close, closed, same⟩ := sound.logged entry member
      have other : entry.conn ≠ world.conns := Nat.ne_of_lt known
      refine ⟨Nat.lt_succ_of_lt known, ?_, close, ?_, same⟩
      · simp only [World.install, update_of_ne other]
        exact since
      · simp only [World.install, update_of_ne other]
        exact closed
    cooled := fun _ => cooled
    cooling := fun expiry member => .inl (cooled expiry member) }

theorem step (sound : Sound world) {event : Event} {next : World}
    (stepped : step world event = some next) : Sound next := by
  cases event with
  | tick delay =>
      cases stepped
      exact sound.tick delay
  | call id =>
      simp only [Dial.step] at stepped
      split at stepped
      · next idle =>
          cases stepped
          exact sound.detach idle rfl rfl
      · cases stepped
  | acquire id =>
      simp only [Dial.step] at stepped
      split at stepped
      · next attempt looping =>
          cases stepped
          apply sound.observe.choose
          rw [World.observe_place]
          exact looping
      · cases stepped
  | wake id =>
      simp only [Dial.step] at stepped
      split at stepped
      · next attempt chan waiting =>
          obtain ⟨outcome, _, rfl⟩ := Option.map_eq_some_iff.mp stepped
          cases outcome with
          | connected conn => exact sound.detach waiting rfl rfl
          | failed message => exact sound.detach waiting rfl rfl
          | cancelled => exact sound.detach waiting rfl rfl
      · cases stepped
  | dialed id already =>
      simp only [Dial.step] at stepped
      split at stepped
      · next attempt chan leading =>
          cases stepped
          have busy := sound.leads leading
          apply (sound.release leading _ rfl).install rfl
          exact sound.cooled (.inr (by rw [busy]; rfl))
      · cases stepped
  | dialFailed id message =>
      simp only [Dial.step] at stepped
      split at stepped
      · next attempt chan leading =>
          cases stepped
          have noted : Sound { world with
              inner := { world.inner with lastFailure := some (world.now, message) } } :=
            { sound with }
          exact noted.release leading _ rfl
      · cases stepped
  | cancel id =>
      simp only [Dial.step] at stepped
      split at stepped
      · cases stepped
      · cases stepped
      · next attempt chan leading =>
          cases stepped
          exact sound.release leading _ rfl
      · next notIdle notDone notLeading =>
          cases stepped
          apply sound.move notLeading
          · exact Place.ne_leading rfl
          · intro _ _ same
            cases same
  | opened id =>
      simp only [Dial.step] at stepped
      split at stepped
      · next attempt conn cached opening =>
          cases stepped
          exact sound.detach opening rfl rfl
      · cases stepped
  | openFailed id =>
      simp only [Dial.step] at stepped
      split at stepped
      · next attempt conn cached opening =>
          cases stepped
          have here : (world.dropFailed conn).place id = .opening attempt conn cached := by
            rw [World.dropFailed_place]
            exact opening
          apply (sound.dropFailed conn).detach here rfl
          split <;> rfl
      · cases stepped
  | closes conn reason =>
      simp only [Dial.step] at stepped
      split at stepped
      · next live =>
          cases stepped
          exact sound.closes live.2
      · cases stepped
  | watcher conn =>
      simp only [Dial.step] at stepped
      split at stepped
      · next close closed =>
          split at stepped
          · cases stepped
            exact sound.watched closed
          · cases stepped
      · cases stepped
  | checkConnClosed =>
      cases stepped
      exact sound.observe

theorem run {events : List Event} {now : Nat} {final : World}
    (followed : follow Dial.step (.start now) events = some final) : Sound final :=
  follow_keeps Sound (fun sound stepped => sound.step stepped) (.start now) followed

end Sound

/-- At most one dial, whose leader holds the slot; a follower of an undecided
dial has a living leader and one of a decided dial goes on; a connection is
settled once and by its own close; the streak counts the last rejections; a
dial is under way only when every cooldown so far is over. -/
structure Orderly (world : World) : Prop where
  oneDial : ∀ id other attempt chan attempt' chan', world.place id = .leading attempt chan →
    world.place other = .leading attempt' chan' → id = other
  slotLed : ∀ chan, world.inner.dialing = some chan ↔
    ∃ id attempt, world.place id = .leading attempt chan
  followed : ∀ id attempt chan, world.place id = .waiting attempt chan →
    world.outcome chan = none → ∃ leader attempt', world.place leader = .leading attempt' chan
  woken : ∀ id attempt chan, world.place id = .waiting attempt chan →
    world.outcome chan ≠ none → (step world (.wake id)).isSome = true
  settledOnce : (world.log.map Settlement.conn).Nodup
  ownReason : ∀ entry ∈ world.log, entry.since = world.installed entry.conn ∧
    ∃ close, world.closed entry.conn = some close ∧ close.reason = entry.reason
  streak : world.inner.rejectStreak =
    min (world.log.reverse.takeWhile Settlement.rejected).length u32Max
  cooled : world.inner.dialing.isSome = true → ∀ expiry ∈ coolings world.log, expiry ≤ world.now

theorem Sound.orderly {world : World} (sound : Sound world) : Orderly world where
  oneDial := fun _ _ _ _ _ _ first second => sound.single first second
  slotLed := by
    intro chan
    constructor
    · exact sound.led
    · rintro ⟨id, attempt, leading⟩
      exact sound.leads leading
  followed := by
    intro id attempt chan waiting unset
    exact sound.led ((sound.undecided (sound.waits waiting)).mp unset)
  woken := by
    intro id attempt chan waiting decided
    obtain ⟨outcome, told⟩ := Option.ne_none_iff_exists'.mp decided
    simp only [Dial.step, waiting, told]
    rfl
  settledOnce := sound.once
  ownReason := by
    intro entry member
    exact (sound.logged entry member).2
  streak := by
    rw [← streakOf_eq]
    exact sound.streak
  cooled := fun busy => sound.cooled (.inr busy)

/-- The watcher of a connection or a caller that failed on it. -/
def ActsFor (world : World) (conn : Nat) (event : Event) : Prop :=
  event = .watcher conn ∨ ∃ id attempt cached, event = .openFailed id ∧
    world.place id = .opening attempt conn cached

theorem step_other {world next : World} {event : Event} {conn current : Nat}
    (acts : ActsFor world conn event) (held : world.inner.conn = some current)
    (other : current ≠ conn) (stepped : step world event = some next) :
    next.inner = world.inner ∧ next.log = world.log := by
  have differs : ¬ world.inner.conn = some conn := by
    rw [held]
    exact fun same => other (Option.some.inj same)
  rcases acts with rfl | ⟨id, attempt, cached, rfl, opening⟩
  · simp only [step] at stepped
    split at stepped
    · next close closed =>
        split at stepped
        · cases stepped
          simp only [World.watched, if_neg differs, and_self]
        · cases stepped
    · cases stepped
  · simp only [step, opening] at stepped
    cases stepped
    simp only [World.dropFailed, if_neg differs, World.move, and_self]

theorem dialling_orderly {events : List Event} {now : Nat} {world : World}
    (followed : follow step (.start now) events = some world) :
    Orderly world ∧ ∀ event next conn current, step world event = some next →
      ActsFor world conn event → world.inner.conn = some current → current ≠ conn →
        next.inner = world.inner ∧ next.log = world.log := by
  refine ⟨(Sound.run followed).orderly, ?_⟩
  intro event next conn current stepped acts held other
  exact step_other acts held other stepped

def rejectedDial : List Event :=
  [.call 0, .call 1, .acquire 0, .acquire 1, .dialed 0 none, .wake 1,
    .closes 0 (.applicationClosed 0), .watcher 0, .openFailed 1, .call 2, .acquire 2]

theorem rejectedDial_orderly : ∃ world, follow step (.start 0) rejectedDial = some world ∧
    world.place 2 = .done (.cooldown 2) ∧ Orderly world := by
  have ran : (follow step (.start 0) rejectedDial).isSome = true := by decide +kernel
  obtain ⟨world, followed⟩ := Option.isSome_iff_exists.mp ran
  have refused : (follow step (.start 0) rejectedDial).map (fun world => world.place 2) =
      some (.done (.cooldown 2)) := by decide +kernel
  rw [followed] at refused
  exact ⟨world, followed, Option.some.inj refused, (dialling_orderly followed).1⟩

/-- The close itself, and not its settlement, came soon after the dial. -/
def closedSoon (world : World) (entry : Settlement) : Bool :=
  (world.closed entry.conn).any fun close =>
    isServerRejection close.reason (close.at_ - world.installed entry.conn)

/-- A rejection that its watcher gets to see ten seconds later is no rejection. -/
theorem late_settlement : ¬ ∀ (events : List Event) (now : Nat) (world : World),
    follow step (.start now) events = some world →
      world.inner.rejectStreak =
        min (world.log.reverse.takeWhile (closedSoon world)).length u32Max := by
  intro all
  let events : List Event := [.call 0, .acquire 0, .dialed 0 none,
    .closes 0 (.applicationClosed 0), .tick (10 * second), .watcher 0]
  have ran : (follow step (.start 0) events).isSome = true := by decide +kernel
  obtain ⟨world, followed⟩ := Option.isSome_iff_exists.mp ran
  have counted : (follow step (.start 0) events).map (fun world => (world.inner.rejectStreak,
      (world.log.reverse.takeWhile (closedSoon world)).length)) = some (0, 1) := by decide +kernel
  rw [followed] at counted
  have pair := Prod.mk.inj (Option.some.inj counted)
  have same := all events 0 world followed
  rw [pair.1, pair.2] at same
  exact absurd same (by decide)

end Mirage.Quic.Dial
