import Mathlib.Data.List.MinMax
import Mirage.Lib.Assoc
import Mirage.Lib.Trace
import Mirage.Router.Rule

/-!
The failure table of the dashboard API. Every request asks whether its address
is locked and is then counted as a success or a failure of that address. Times
are in nanoseconds. A full table first sweeps what has expired; if that is not
enough it gives up the record with the oldest window, locked or not.
-/

namespace Mirage.Api.Lockout

open Router Assoc Trace

def maxFailures : Nat := 10
@[irreducible] def window : Nat := 60000000000
@[irreducible] def lockout : Nat := 300000000000
def mapCap : Nat := 10000
@[irreducible] def sweepInterval : Nat := 60000000000

structure FailRecord where
  fails : Nat
  windowStart : Nat
  lockedUntil : Option Nat
  deriving DecidableEq

abbrev Table := List (IpAddr × FailRecord)

namespace FailRecord

def lockActive (record : FailRecord) (now : Nat) : Bool :=
  record.lockedUntil.any fun expiry => decide (now < expiry)

def windowActive (record : FailRecord) (now : Nat) : Bool :=
  decide (now - record.windowStart ≤ window)

def fresh (now : Nat) : FailRecord := ⟨0, now, none⟩

/-- The failure is counted from scratch once the window has run out. -/
def bump (record : FailRecord) (now : Nat) : FailRecord :=
  let current := if window < now - record.windowStart then fresh now else record
  { current with
    fails := current.fails + 1
    lockedUntil :=
      if maxFailures ≤ current.fails + 1 then some (now + lockout) else current.lockedUntil }

end FailRecord

/-- A record with the least window start; among several of them the choice is
the hash map's. -/
structure Oldest where
  pick : Table → Option IpAddr
  least : ∀ {table ip}, pick table = some ip → ∃ record, (ip, record) ∈ table ∧
    ∀ entry ∈ table, record.windowStart ≤ entry.2.windowStart
  found : ∀ {table}, pick table = none → table = []

def sweepExpired (now : Nat) (table : Table) : Table :=
  table.filter fun entry => entry.2.lockActive now || entry.2.windowActive now

theorem length_erase_lt_of_mem {table : Table} {entry : IpAddr × FailRecord}
    (member : entry ∈ table) : (erase table entry.1).length < table.length := by
  apply List.length_filter_lt_length_iff_exists.mpr
  exact ⟨entry, member, by simp⟩

def dropOldest (oldest : Oldest) (table : Table) : Table :=
  if mapCap ≤ table.length then
    match _picked : oldest.pick table with
    | some ip => dropOldest oldest (erase table ip)
    | none => table
  else table
termination_by table.length
decreasing_by
  obtain ⟨_, member, _⟩ := oldest.least _picked
  exact length_erase_lt_of_mem member

def evict (oldest : Oldest) (now : Nat) (table : Table) : Table :=
  dropOldest oldest (sweepExpired now table)

structure RateLimiter where
  map : Table
  lastSweep : Nat

namespace RateLimiter

def new (now : Nat) : RateLimiter := ⟨[], now⟩

def swept (limiter : RateLimiter) (now : Nat) : RateLimiter :=
  if sweepInterval ≤ now - limiter.lastSweep then ⟨sweepExpired now limiter.map, now⟩ else limiter

def isLocked (limiter : RateLimiter) (ip : IpAddr) (now : Nat) : Bool × RateLimiter :=
  let limiter := limiter.swept now
  ((limiter.map.lookup ip).any fun record => record.lockActive now, limiter)

def noteFailure (oldest : Oldest) (limiter : RateLimiter) (ip : IpAddr) (now : Nat) :
    RateLimiter :=
  let map :=
    if limiter.map.lookup ip = none ∧ mapCap ≤ limiter.map.length then
      evict oldest now limiter.map
    else limiter.map
  let record := (map.lookup ip).getD (.fresh now)
  { limiter with map := put map ip (record.bump now) }

def noteSuccess (limiter : RateLimiter) (ip : IpAddr) : RateLimiter :=
  { limiter with map := erase limiter.map ip }

end RateLimiter

inductive Answer where
  | tooManyRequests
  | admitted
  | unauthorized
  deriving DecidableEq

/-- A request that reaches the token check, and whether its token is right. -/
structure Request where
  ip : IpAddr
  now : Nat
  authorized : Bool
  oldest : Oldest

def authMw (limiter : RateLimiter) (req : Request) : Answer × RateLimiter :=
  let locked := limiter.isLocked req.ip req.now
  if locked.1 then (.tooManyRequests, locked.2)
  else if req.authorized then (.admitted, locked.2.noteSuccess req.ip)
  else (.unauthorized, locked.2.noteFailure req.oldest req.ip req.now)

/-- The failures of an address in the counting window that its last one fell
into. -/
structure Streak where
  start : Nat
  fails : Nat
  last : Nat

namespace Streak

def add (now : Nat) : Option Streak → Streak
  | none => ⟨now, 1, now⟩
  | some streak =>
      if now - streak.start ≤ window then ⟨streak.start, streak.fails + 1, now⟩ else ⟨now, 1, now⟩

def locks (streak : Streak) (now : Nat) : Bool :=
  decide (maxFailures ≤ streak.fails) && decide (now < streak.last + lockout)

def record (streak : Streak) : FailRecord :=
  ⟨streak.fails, streak.start,
    if maxFailures ≤ streak.fails then some (streak.last + lockout) else none⟩

/-- Neither the lock nor the window is running. -/
def Over (streak : Streak) (now : Nat) : Prop :=
  streak.locks now = false ∧ window < now - streak.start

end Streak

def streak (times : List Nat) : Option Streak :=
  times.foldl (fun state now => some (Streak.add now state)) none

theorem streak_snoc (times : List Nat) (now : Nat) :
    streak (times ++ [now]) = some (Streak.add now (streak times)) := by
  rw [streak, List.foldl_append]
  rfl

/-- The counted failures of an address since its last success: what it was
answered `unauthorized` for. A locked address is not counted. -/
def note (ip : IpAddr) (times : List Nat) (req : Request) (answer : Answer) : List Nat :=
  if req.ip = ip then
    match answer with
    | .tooManyRequests => times
    | .admitted => []
    | .unauthorized => times ++ [req.now]
  else times

theorem note_locked (ip : IpAddr) (times : List Nat) (req : Request) :
    note ip times req .tooManyRequests = times := by
  unfold note
  split <;> rfl

theorem note_other {ip : IpAddr} {times : List Nat} {req : Request} {answer : Answer}
    (differs : ip ≠ req.ip) : note ip times req answer = times :=
  if_neg (Ne.symm differs)

def countedFrom (ip : IpAddr) (limiter : RateLimiter) : List Request → List Nat → List Nat
  | [], times => times
  | req :: rest, times =>
      countedFrom ip (authMw limiter req).2 rest (note ip times req (authMw limiter req).1)

def counted (ip : IpAddr) (born : Nat) (past : List Request) : List Nat :=
  countedFrom ip (.new born) past []

theorem countedFrom_append {ip : IpAddr} {limiter : RateLimiter} {past later : List Request}
    {times : List Nat} :
    countedFrom ip limiter (past ++ later) times =
      countedFrom ip (run authMw limiter past) later (countedFrom ip limiter past times) := by
  induction past generalizing limiter times with
  | nil => rfl
  | cons first rest ih => exact ih

theorem countedFrom_snoc {ip : IpAddr} {limiter : RateLimiter} {past : List Request}
    {times : List Nat} (req : Request) :
    countedFrom ip limiter (past ++ [req]) times =
      note ip (countedFrom ip limiter past times) req (answer authMw limiter past req) := by
  rw [countedFrom_append]
  rfl

section Capacity
variable {limiter : RateLimiter} {oldest : Oldest} {table : Table} {now : Nat} {ip : IpAddr}

theorem length_dropOldest_lt (oldest : Oldest) (table : Table) :
    (dropOldest oldest table).length < mapCap := by
  induction table using dropOldest.induct oldest with
  | case1 table full ip picked ih =>
      rw [dropOldest, if_pos full]
      split
      · next other same =>
          cases picked.symm.trans same
          exact ih
      · next missing =>
          cases picked.symm.trans missing
  | case2 table full missing =>
      cases oldest.found missing
      exact absurd full (by decide)
  | case3 table room =>
      rw [dropOldest, if_neg room]
      exact Nat.lt_of_not_le room

theorem length_swept_le : (limiter.swept now).map.length ≤ limiter.map.length := by
  unfold RateLimiter.swept
  split
  · exact List.length_filter_le _ _
  · exact Nat.le_refl _

theorem length_noteFailure (capped : limiter.map.length ≤ mapCap) :
    (limiter.noteFailure oldest ip now).map.length ≤ mapCap := by
  unfold RateLimiter.noteFailure
  split
  · exact length_put_le.trans (length_dropOldest_lt oldest _)
  · next calm =>
      cases found : limiter.map.lookup ip with
      | some record => exact (length_put_of_lookup found).trans capped
      | none =>
          have room : limiter.map.length < mapCap := Nat.lt_of_not_le fun full => calm ⟨found, full⟩
          exact length_put_le.trans room

theorem authMw_cases (limiter : RateLimiter) (req : Request) :
    (limiter.isLocked req.ip req.now).1 = true ∧
        authMw limiter req = (.tooManyRequests, limiter.swept req.now) ∨
      (limiter.isLocked req.ip req.now).1 = false ∧ req.authorized = true ∧
        authMw limiter req = (.admitted, (limiter.swept req.now).noteSuccess req.ip) ∨
      (limiter.isLocked req.ip req.now).1 = false ∧ req.authorized = false ∧
        authMw limiter req =
          (.unauthorized, (limiter.swept req.now).noteFailure req.oldest req.ip req.now) := by
  have unfolded : authMw limiter req =
      if (limiter.isLocked req.ip req.now).1 then (.tooManyRequests, limiter.swept req.now)
      else if req.authorized then (.admitted, (limiter.swept req.now).noteSuccess req.ip)
      else (.unauthorized, (limiter.swept req.now).noteFailure req.oldest req.ip req.now) := rfl
  rw [unfolded]
  cases (limiter.isLocked req.ip req.now).1 with
  | true => exact .inl ⟨rfl, rfl⟩
  | false =>
      cases req.authorized with
      | true => exact .inr (.inl ⟨rfl, rfl, rfl⟩)
      | false => exact .inr (.inr ⟨rfl, rfl, rfl⟩)

theorem authMw_capped (limiter : RateLimiter) (req : Request)
    (capped : limiter.map.length ≤ mapCap) : (authMw limiter req).2.map.length ≤ mapCap := by
  have still : (limiter.swept req.now).map.length ≤ mapCap := length_swept_le.trans capped
  obtain ⟨_, same⟩ | ⟨_, _, same⟩ | ⟨_, _, same⟩ := authMw_cases limiter req
  · rw [same]
    exact still
  · rw [same]
    exact length_erase_le.trans still
  · rw [same]
    exact length_noteFailure still

theorem run_capped (born : Nat) (past : List Request) :
    (run authMw (.new born) past).map.length ≤ mapCap :=
  run_invariant (fun limiter : RateLimiter => limiter.map.length ≤ mapCap) authMw_capped
    (Nat.zero_le _) past

end Capacity

section Records
variable {state : Streak} {now : Nat}

theorem lockActive_some (fails start expiry : Nat) :
    (FailRecord.mk fails start (some expiry)).lockActive now = decide (now < expiry) := rfl

theorem record_lockActive : state.record.lockActive now = state.locks now := by
  unfold Streak.record Streak.locks
  by_cases many : maxFailures ≤ state.fails
  · rw [decide_eq_true many, Bool.true_and, if_pos many, lockActive_some]
  · rw [decide_eq_false many, Bool.false_and, if_neg many]
    rfl

theorem over_of_swept
    (gone : (state.record.lockActive now || state.record.windowActive now) = false) :
    state.Over now := by
  obtain ⟨unlocked, closed⟩ := Bool.or_eq_false_iff.mp gone
  refine ⟨record_lockActive ▸ unlocked, ?_⟩
  exact Nat.lt_of_not_le (of_decide_eq_false closed)

theorem fresh_bump (now : Nat) :
    (FailRecord.fresh now).bump now = (Streak.add now none).record := by
  simp [FailRecord.bump, FailRecord.fresh, Streak.add, Streak.record, maxFailures]

theorem Streak.Over.add (past : state.Over now) : Streak.add now (some state) = .add now none :=
  if_neg (Nat.not_le_of_lt past.2)

theorem record_bump (state : Streak) (now : Nat) :
    state.record.bump now = (Streak.add now (some state)).record := by
  by_cases open_ : now - state.start ≤ window
  · have kept : ¬ window < now - state.record.windowStart := Nat.not_lt_of_le open_
    simp only [FailRecord.bump, if_neg kept, Streak.add, if_pos open_]
    by_cases many : maxFailures ≤ state.fails + 1
    · simp [Streak.record, many]
    · have fewer : ¬ maxFailures ≤ state.fails := fun enough => many (Nat.le_succ_of_le enough)
      simp [Streak.record, many, fewer]
  · have closed : window < now - state.record.windowStart := Nat.lt_of_not_le open_
    rw [FailRecord.bump, if_pos closed, Streak.add, if_neg open_]
    simp [FailRecord.fresh, Streak.record, maxFailures]

end Records

/-- What the table says of an address is what its own failures say; a record
may only be missing once it is over. -/
def Agrees (now : Nat) : Option FailRecord → Option Streak → Prop
  | some record, tally => ∃ state, tally = some state ∧ record = state.record
  | none, tally => ∀ state, tally = some state → state.Over now

namespace Agrees
variable {found : Option FailRecord} {tally : Option Streak} {now later : Nat}

theorem weaken (agrees : Agrees now found tally) (passed : now ≤ later) :
    Agrees later found tally := by
  cases found with
  | some record => exact agrees
  | none =>
      intro state same
      obtain ⟨unlocked, closed⟩ := agrees state same
      refine ⟨?_, by omega⟩
      simp only [Streak.locks, Bool.and_eq_false_iff, decide_eq_false_iff_not] at unlocked ⊢
      omega

theorem locked (agrees : Agrees now found tally) :
    (found.any fun record => record.lockActive now) = tally.any fun state => state.locks now := by
  cases found with
  | some record =>
      obtain ⟨state, rfl, rfl⟩ := agrees
      exact record_lockActive
  | none =>
      cases tally with
      | none => rfl
      | some state => exact (agrees state rfl).1.symm

theorem sweep (agrees : Agrees now found tally) :
    Agrees now (found.filter fun record => record.lockActive now || record.windowActive now)
      tally := by
  cases found with
  | none => exact agrees
  | some record =>
      obtain ⟨state, rfl, rfl⟩ := agrees
      rw [Option.filter]
      split
      · exact ⟨state, rfl, rfl⟩
      · next gone =>
          intro other same
          cases same
          exact over_of_swept (Bool.eq_false_iff.mpr gone)

theorem failure (agrees : Agrees now found tally) :
    Agrees now (some ((found.getD (.fresh now)).bump now)) (some (Streak.add now tally)) := by
  refine ⟨_, rfl, ?_⟩
  cases found with
  | some record =>
      obtain ⟨state, rfl, rfl⟩ := agrees
      exact record_bump state now
  | none =>
      rw [Option.getD_none, fresh_bump]
      cases tally with
      | none => rfl
      | some state => rw [(agrees state rfl).add]

end Agrees

/-- A failure of a newcomer finds as many unexpired records as the table holds. -/
def Crowded (limiter : RateLimiter) (req : Request) : Prop :=
  let (locked, limiter) := limiter.isLocked req.ip req.now
  locked = false ∧ req.authorized = false ∧ limiter.map.lookup req.ip = none ∧
    mapCap ≤ (sweepExpired req.now limiter.map).length

/-- No address is kept out or let in by anything but its own requests. -/
structure Faithful (limiter : RateLimiter) (now : Nat) (tallies : IpAddr → Option Streak) : Prop where
  unique : UniqueKeys limiter.map
  agrees : ∀ ip, Agrees now (limiter.map.lookup ip) (tallies ip)

namespace Faithful
variable {limiter : RateLimiter} {now : Nat} {tallies : IpAddr → Option Streak} {ip : IpAddr}
variable {oldest : Oldest}

theorem sweep (faithful : Faithful limiter now tallies) (last : Nat) :
    Faithful ⟨sweepExpired now limiter.map, last⟩ now tallies where
  unique := faithful.unique.filter _
  agrees := by
    intro ip
    rw [sweepExpired, faithful.unique.lookup_filter]
    exact (faithful.agrees ip).sweep

theorem swept (faithful : Faithful limiter now tallies) :
    Faithful (limiter.swept now) now tallies := by
  unfold RateLimiter.swept
  split
  · exact faithful.sweep now
  · exact faithful

theorem reports (faithful : Faithful limiter now tallies) (ip : IpAddr) :
    (limiter.isLocked ip now).1 = (tallies ip).any fun state => state.locks now :=
  (faithful.swept.agrees ip).locked

/-- One address gets a new tally and a record that agrees with it. -/
theorem update {map : Table} {tally : Option Streak} (faithful : Faithful limiter now tallies)
    (unique : UniqueKeys map) (own : Agrees now (map.lookup ip) tally)
    (others : ∀ other, other ≠ ip → map.lookup other = limiter.map.lookup other) :
    Faithful { limiter with map } now (fun other => if other = ip then tally else tallies other) where
  unique := unique
  agrees := by
    intro other
    by_cases same : other = ip
    · rw [if_pos same, same]
      exact own
    · rw [if_neg same, others other same]
      exact faithful.agrees other

theorem noteSuccess (faithful : Faithful limiter now tallies) :
    Faithful (limiter.noteSuccess ip) now (fun other => if other = ip then none else tallies other) := by
  apply faithful.update (faithful.unique.erase ip)
  · rw [lookup_erase_self]
    exact fun _ same => nomatch same
  · exact fun _ differs => lookup_erase_ne differs

theorem noteFailure (faithful : Faithful limiter now tallies)
    (room : limiter.map.lookup ip = none → (sweepExpired now limiter.map).length < mapCap) :
    Faithful (limiter.noteFailure oldest ip now) now
      (fun other => if other = ip then some (.add now (tallies ip)) else tallies other) := by
  have recorded : ∀ {before : RateLimiter}, Faithful before now tallies →
      Faithful { before with map := put before.map ip (((before.map.lookup ip).getD (.fresh now)).bump now) }
        now (fun other => if other = ip then some (.add now (tallies ip)) else tallies other) := by
    intro before kept
    apply kept.update (kept.unique.put ip _)
    · rw [lookup_put_self]
      exact (kept.agrees ip).failure
    · exact fun _ differs => lookup_put_ne differs
  unfold RateLimiter.noteFailure
  split
  · next full =>
      -- the sweep alone makes room, so no live record is given up
      have enough : evict oldest now limiter.map = sweepExpired now limiter.map := by
        rw [evict, dropOldest, if_neg (Nat.not_le_of_lt (room full.1))]
      rw [enough]
      exact recorded (faithful.sweep limiter.lastSweep)
  · exact recorded faithful

theorem authMw (faithful : Faithful limiter now tallies) {req : Request} (clock : req.now = now)
    (calm : ¬ Crowded limiter req) {times : IpAddr → List Nat}
    (tallied : ∀ ip, tallies ip = streak (times ip)) :
    Faithful (authMw limiter req).2 now
      (fun ip => streak (note ip (times ip) req (Lockout.authMw limiter req).1)) := by
  subst clock
  have others : ∀ (answer : Answer) (ip : IpAddr), ip ≠ req.ip →
      streak (note ip (times ip) req answer) = tallies ip := by
    intro answer ip differs
    rw [note_other differs, tallied]
  obtain ⟨_, same⟩ | ⟨_, _, same⟩ | ⟨unlocked, failed, same⟩ := authMw_cases limiter req
  · rw [same]
    convert faithful.swept using 2 with ip
    rw [note_locked, tallied]
  · rw [same]
    convert faithful.swept.noteSuccess using 2 with ip
    split
    · next own =>
        rw [note, if_pos own.symm]
        rfl
    · next differs => exact others _ ip differs
  · rw [same]
    have room : (limiter.swept req.now).map.lookup req.ip = none →
        (sweepExpired req.now (limiter.swept req.now).map).length < mapCap := by
      intro missing
      exact Nat.lt_of_not_le fun full => calm ⟨unlocked, failed, missing, full⟩
    convert faithful.swept.noteFailure room using 2 with ip
    split
    · next own =>
        rw [note, if_pos own.symm, own, tallied]
        exact streak_snoc _ _
    · next differs => exact others _ ip differs

end Faithful

/-- The clock of a list of requests does not run backwards. -/
def Clocked (past : List Request) : Prop := past.Pairwise fun first second => first.now ≤ second.now

theorem run_faithful (born : Nat) {past : List Request} (clocked : Clocked past)
    (calm : ∀ before req, before ++ [req] <+: past → ¬ Crowded (run authMw (.new born) before) req)
    {now : Nat} (passed : ∀ req ∈ past, req.now ≤ now) :
    Faithful (run authMw (.new born) past) now (fun ip => streak (counted ip born past)) := by
  induction past using List.reverseRecOn generalizing now with
  | nil =>
      refine ⟨List.nodup_nil, ?_⟩
      exact fun _ _ same => nomatch same
  | append_singleton past req ih =>
      obtain ⟨sorted, _, inOrder⟩ := List.pairwise_append.mp clocked
      have sofar : ∀ other ∈ past, other.now ≤ req.now :=
        fun other member => inOrder other member req List.mem_cons_self
      have before := ih sorted (fun earlier other inside =>
          calm earlier other (inside.trans (List.prefix_append past [req]))) sofar
      have after := before.authMw rfl (calm past req (List.prefix_refl _)) fun _ => rfl
      have later : req.now ≤ now := passed req (List.mem_append_right _ List.mem_cons_self)
      rw [run_append]
      refine ⟨after.unique, ?_⟩
      intro ip
      rw [counted, countedFrom_snoc]
      exact (after.agrees ip).weaken later

/-- An address is reported locked exactly while its own failures say so. -/
def Isolated (born : Nat) (past : List Request) : Prop :=
  ∀ ip now, (∀ req ∈ past, req.now ≤ now) →
    ((run authMw (.new born) past).isLocked ip now).1 =
      (streak (counted ip born past)).any fun state => state.locks now

theorem lockout_isolated (born : Nat) (past : List Request) (clocked : Clocked past) :
    (run authMw (.new born) past).map.length ≤ mapCap ∧
      ((∀ before req, before ++ [req] <+: past → ¬ Crowded (run authMw (.new born) before) req) →
        Isolated born past) := by
  refine ⟨run_capped born past, ?_⟩
  intro calm ip now passed
  exact (run_faithful born clocked calm passed).reports ip

section Short
variable {limiter : RateLimiter} {req : Request} {past : List Request}

theorem length_noteFailure_le {oldest : Oldest} {ip : IpAddr} {now : Nat} :
    (limiter.noteFailure oldest ip now).map.length ≤ limiter.map.length + 1 := by
  unfold RateLimiter.noteFailure
  split
  · next full =>
      have dropped := length_dropOldest_lt oldest (sweepExpired now limiter.map)
      exact length_put_le.trans (Nat.succ_le_succ (dropped.le.trans full.2))
  · exact length_put_le

theorem length_authMw_le : (authMw limiter req).2.map.length ≤ limiter.map.length + 1 := by
  have still : (limiter.swept req.now).map.length ≤ limiter.map.length := length_swept_le
  obtain ⟨_, same⟩ | ⟨_, _, same⟩ | ⟨_, _, same⟩ := authMw_cases limiter req
  · rw [same]
    exact Nat.le_succ_of_le still
  · rw [same]
    exact Nat.le_succ_of_le (length_erase_le.trans still)
  · rw [same]
    exact length_noteFailure_le.trans (Nat.succ_le_succ still)

theorem length_run_le (limiter : RateLimiter) (past : List Request) :
    (run authMw limiter past).map.length ≤ limiter.map.length + past.length := by
  induction past generalizing limiter with
  | nil => exact Nat.le_refl _
  | cons req rest ih =>
      have first : (authMw limiter req).2.map.length ≤ limiter.map.length + 1 := length_authMw_le
      have later := ih (authMw limiter req).2
      rw [run_cons, List.length_cons]
      omega

/-- Fewer requests than the table holds crowd nobody out. -/
theorem calm_of_short (born : Nat) (short : past.length < mapCap) :
    ∀ before req, before ++ [req] <+: past → ¬ Crowded (run authMw (.new born) before) req := by
  intro before req inside crowded
  have fits := inside.length_le
  have kept : (sweepExpired req.now ((run authMw (.new born) before).swept req.now).map).length ≤
      before.length := by
    apply (List.length_filter_le _ _).trans (length_swept_le.trans _)
    exact (length_run_le _ before).trans (Nat.le_of_eq (Nat.zero_add _))
  have full : mapCap ≤ _ := crowded.2.2.2
  rw [List.length_append, List.length_singleton] at fits
  exact absurd (full.trans kept) (by omega)

end Short

section Flood

def firstOldest : Oldest where
  pick table := (table.argmin fun entry => entry.2.windowStart).map Prod.fst
  least := by
    intro table ip picked
    obtain ⟨entry, least, rfl⟩ := Option.map_eq_some_iff.mp picked
    refine ⟨entry.2, List.argmin_mem least, ?_⟩
    intro other member
    exact @List.le_of_mem_argmin _ _ _ (fun entry => entry.2.windowStart) _ _ _ member least
  found := by
    intro table missing
    exact List.argmin_eq_none.mp (Option.map_eq_none_iff.mp missing)

def guesser : IpAddr := .v4 0

def source (index : Nat) : IpAddr := .v4 (BitVec.ofNat 32 (index + 1))

/-- Ten wrong tokens from one address, and then one from each of many others. -/
def guesses : List Request := List.replicate maxFailures ⟨guesser, 0, false, firstOldest⟩

def stray (index : Nat) : Request := ⟨source index, 1, false, firstOldest⟩

def flooded (count : Nat) : List Request := guesses ++ (List.range count).map stray

def locked : FailRecord := ⟨maxFailures, 0, some (0 + lockout)⟩

def strayRecord : FailRecord := (FailRecord.fresh 1).bump 1

def floodTable (count : Nat) : Table :=
  (guesser, locked) :: (List.range count).map fun index => (source index, strayRecord)

theorem guesses_isolated :
    (run authMw (.new 0) guesses).map.length ≤ mapCap ∧ Isolated 0 guesses := by
  have law := lockout_isolated 0 guesses (List.pairwise_replicate.mpr (.inr (Nat.le_refl _)))
  exact ⟨law.1, law.2 (calm_of_short 0 (by decide))⟩

theorem source_injective {first second : Nat} (firstSmall : first < mapCap)
    (secondSmall : second < mapCap) (same : source first = source second) : first = second := by
  have bits := IpAddr.v4.inj same
  rw [← BitVec.toNat_inj, BitVec.toNat_ofNat, BitVec.toNat_ofNat] at bits
  unfold mapCap at *
  omega

theorem source_ne_guesser {index : Nat} (small : index < mapCap) : source index ≠ guesser := by
  intro same
  have bits := IpAddr.v4.inj same
  rw [← BitVec.toNat_inj, BitVec.toNat_ofNat] at bits
  change (index + 1) % 2 ^ 32 = 0 at bits
  unfold mapCap at small
  omega

theorem floodTable_fresh {count : Nat} (small : count < mapCap) (record : FailRecord) :
    (source count, record) ∉ floodTable count := by
  intro member
  rcases List.mem_cons.mp member with same | member
  · exact source_ne_guesser small (Prod.mk.inj same).1
  · obtain ⟨index, inside, same⟩ := List.mem_map.mp member
    have earlier := List.mem_range.mp inside
    have equal := source_injective (Nat.lt_trans earlier small) small (Prod.mk.inj same).1
    omega

theorem lookup_fresh {count : Nat} (small : count < mapCap) :
    (floodTable count).lookup (source count) = none := by
  cases found : (floodTable count).lookup (source count) with
  | none => rfl
  | some record => exact absurd (mem_of_lookup found) (floodTable_fresh small record)

theorem erase_fresh {count : Nat} (small : count < mapCap) :
    erase (floodTable count) (source count) = floodTable count := by
  apply List.filter_eq_self.mpr
  intro entry member
  rw [decide_eq_true_iff]
  intro same
  exact floodTable_fresh small entry.2 (same ▸ member)

theorem put_fresh {count : Nat} (small : count < mapCap) :
    put (floodTable count) (source count) strayRecord = floodTable (count + 1) := by
  rw [put, erase_fresh small, floodTable, floodTable, List.range_succ, List.map_append]
  rfl

theorem swept_missing {limiter : RateLimiter} {ip : IpAddr}
    (missing : limiter.map.lookup ip = none) (now : Nat) :
    (limiter.swept now).map.lookup ip = none := by
  unfold RateLimiter.swept
  split
  · exact lookup_filter_none missing _
  · exact missing

theorem swept_early (table : Table) {now : Nat} (early : now ≤ 1) :
    (RateLimiter.mk table 0).swept now = ⟨table, 0⟩ := by
  unfold RateLimiter.swept
  rw [if_neg]
  unfold sweepInterval
  change ¬ 60000000000 ≤ now - 0
  omega

theorem isLocked_early (table : Table) (ip : IpAddr) {now : Nat} (early : now ≤ 1) :
    (RateLimiter.mk table 0).isLocked ip now =
      ((table.lookup ip).any fun record => record.lockActive now, ⟨table, 0⟩) := by
  unfold RateLimiter.isLocked
  rw [swept_early table early]

theorem failure_early {table : Table} {ip : IpAddr} {now : Nat} (early : now ≤ 1)
    (unlocked : ((table.lookup ip).any fun record => record.lockActive now) = false) :
    authMw ⟨table, 0⟩ ⟨ip, now, false, firstOldest⟩ =
      (.unauthorized, RateLimiter.noteFailure firstOldest ⟨table, 0⟩ ip now) := by
  simp only [authMw, isLocked_early table ip early, unlocked, Bool.false_eq_true, if_false]

theorem failure_roomy {table : Table} {ip : IpAddr} {now : Nat} (early : now ≤ 1)
    (unlocked : ((table.lookup ip).any fun record => record.lockActive now) = false)
    (room : table.length < mapCap) :
    (authMw ⟨table, 0⟩ ⟨ip, now, false, firstOldest⟩).2 =
      ⟨put table ip (((table.lookup ip).getD (.fresh now)).bump now), 0⟩ := by
  rw [failure_early early unlocked]
  unfold RateLimiter.noteFailure
  rw [if_neg fun full => Nat.not_le_of_lt room full.2]

theorem length_floodTable (count : Nat) : (floodTable count).length = count + 1 := by
  simp [floodTable]

theorem run_strays {count : Nat} (small : count < mapCap) :
    run authMw ⟨floodTable 0, 0⟩ ((List.range count).map stray) = ⟨floodTable count, 0⟩ := by
  induction count with
  | zero => rfl
  | succ count ih =>
      have inside : count < mapCap := Nat.lt_of_succ_lt small
      have missing := lookup_fresh inside
      rw [List.range_succ, List.map_append, run_append, ih inside, ← put_fresh inside]
      apply (failure_roomy (Nat.le_refl 1) (by rw [missing]; rfl) (by rwa [length_floodTable])).trans
      rw [missing]
      rfl

theorem bump_within (fails : Nat) (lock : Option Nat) :
    (FailRecord.mk fails 0 lock).bump 0 =
      ⟨fails + 1, 0, if maxFailures ≤ fails + 1 then some (0 + lockout) else lock⟩ := by
  have still : ¬ window < 0 - (FailRecord.mk fails 0 lock).windowStart := Nat.not_lt_zero _
  unfold FailRecord.bump
  rw [if_neg still]

theorem run_guesses (tries : Nat) (below : tries < maxFailures) :
    run authMw (.new 0) (List.replicate (tries + 1) ⟨guesser, 0, false, firstOldest⟩) =
      ⟨[(guesser, ⟨tries + 1, 0, if maxFailures ≤ tries + 1 then some (0 + lockout) else none⟩)], 0⟩ := by
  induction tries with
  | zero =>
      apply (failure_roomy (Nat.zero_le 1) rfl (by decide)).trans
      change RateLimiter.mk [(guesser, (FailRecord.mk 0 0 none).bump 0)] 0 = _
      rw [bump_within]
  | succ tries ih =>
      have fewer : ¬ maxFailures ≤ tries + 1 := Nat.not_le_of_lt below
      have room : ∀ entry : IpAddr × FailRecord, [entry].length < mapCap :=
        fun _ => show 1 < mapCap by decide
      rw [List.replicate_succ', run_append, ih (Nat.lt_of_succ_lt below), if_neg fewer]
      apply (failure_roomy (Nat.zero_le 1) (by rw [List.lookup_cons_self]; rfl) (room _)).trans
      rw [List.lookup_cons_self, Option.getD_some, bump_within]
      rfl

theorem run_flooded {count : Nat} (small : count < mapCap) :
    run authMw (.new 0) (flooded count) = ⟨floodTable count, 0⟩ := by
  have guessed : run authMw (.new 0) guesses = ⟨floodTable 0, 0⟩ := run_guesses 9 (by decide)
  rw [flooded, run_append, guessed]
  exact run_strays small

theorem sweep_flood (count : Nat) : sweepExpired 1 (floodTable count) = floodTable count := by
  apply List.filter_eq_self.mpr
  intro entry member
  have recent : entry.2.windowStart ≤ 1 := by
    rcases List.mem_cons.mp member with rfl | member
    · exact Nat.zero_le 1
    · obtain ⟨_, _, rfl⟩ := List.mem_map.mp member
      exact Nat.le_of_eq (congrArg FailRecord.windowStart (fresh_bump 1))
  have active : entry.2.windowActive 1 = true := by
    unfold FailRecord.windowActive window
    rw [decide_eq_true_iff]
    omega
  rw [active, Bool.or_true]

theorem pick_flood (oldest : Oldest) (count : Nat) :
    oldest.pick (floodTable count) = some guesser := by
  cases picked : oldest.pick (floodTable count) with
  | none => cases oldest.found picked
  | some ip =>
      obtain ⟨record, member, least⟩ := oldest.least picked
      have earliest : record.windowStart ≤ 0 := least (guesser, locked) List.mem_cons_self
      rcases List.mem_cons.mp member with same | member
      · exact congrArg some (Prod.mk.inj same).1
      · obtain ⟨_, _, same⟩ := List.mem_map.mp member
        have later : strayRecord.windowStart = 1 := congrArg FailRecord.windowStart (fresh_bump 1)
        rw [(Prod.mk.inj same).2] at later
        omega

theorem evict_flood {count : Nat} (full : count + 1 = mapCap) :
    evict firstOldest 1 (floodTable count) = erase (floodTable count) guesser := by
  have shorter : (erase (floodTable count) guesser).length < mapCap := by
    rw [← full, ← length_floodTable count]
    have inside : (guesser, locked) ∈ floodTable count := List.mem_cons_self
    exact length_erase_lt_of_mem inside
  rw [evict, sweep_flood, dropOldest, if_pos (by rw [length_floodTable, full])]
  split
  · next ip same =>
      rw [pick_flood] at same
      rw [← Option.some.inj same, dropOldest, if_neg (Nat.not_le_of_lt shorter)]
  · next missing =>
      rw [pick_flood] at missing
      cases missing

/-- The newcomer that no longer fits takes the place of the locked record. -/
theorem guesser_forgotten {count : Nat} (full : count + 1 = mapCap) :
    (run authMw (.new 0) (flooded count ++ [stray count])).map.lookup guesser = none := by
  have inside : count < mapCap := Nat.lt_of_succ_le (Nat.le_of_eq full)
  have missing := lookup_fresh inside
  have crowded : (floodTable count).lookup (source count) = none ∧
      mapCap ≤ (floodTable count).length :=
    ⟨missing, by rw [length_floodTable, full]⟩
  rw [run_append, run_flooded inside, run_cons, run_nil, stray,
    failure_early (Nat.le_refl 1) (by rw [missing]; rfl)]
  unfold RateLimiter.noteFailure
  rw [if_pos crowded, evict_flood full]
  simp only
  rw [lookup_put_ne (source_ne_guesser inside).symm, lookup_erase_self]

theorem counted_strays {limiter : RateLimiter} {indices : List Nat} {times : List Nat}
    (small : ∀ index ∈ indices, index < mapCap) :
    countedFrom guesser limiter (indices.map stray) times = times := by
  induction indices generalizing limiter with
  | nil => rfl
  | cons index rest ih =>
      have other : guesser ≠ (stray index).ip :=
        (source_ne_guesser (small index List.mem_cons_self)).symm
      rw [List.map_cons, countedFrom, note_other other]
      exact ih fun later member => small later (List.mem_cons_of_mem _ member)

theorem counted_guesses (tries : Nat) (below : tries ≤ maxFailures) :
    countedFrom guesser (.new 0) (List.replicate tries ⟨guesser, 0, false, firstOldest⟩) [] =
      List.replicate tries 0 := by
  induction tries with
  | zero => rfl
  | succ tries ih =>
      have refused : answer authMw (.new 0) (List.replicate tries ⟨guesser, 0, false, firstOldest⟩)
          ⟨guesser, 0, false, firstOldest⟩ = .unauthorized := by
        unfold answer
        cases tries with
        | zero => exact congrArg Prod.fst (failure_early (Nat.zero_le 1) rfl)
        | succ before =>
            rw [run_guesses before (Nat.lt_of_succ_lt below), if_neg (Nat.not_le_of_lt below),
              failure_early (Nat.zero_le 1) (by rw [List.lookup_cons_self]; rfl)]
      rw [List.replicate_succ', countedFrom_snoc, ih (Nat.le_of_succ_le below), refused,
        List.replicate_succ']
      rfl

theorem streak_guesses (tries : Nat) :
    streak (List.replicate (tries + 1) 0) = some ⟨0, tries + 1, 0⟩ := by
  induction tries with
  | zero => rfl
  | succ tries ih =>
      have within : 0 - 0 ≤ window := Nat.zero_le window
      rw [List.replicate_succ', streak_snoc, ih, Streak.add, if_pos within]

theorem counted_flooded :
    counted guesser 0 (flooded 9999 ++ [stray 9999]) = List.replicate maxFailures 0 := by
  have strays : flooded 9999 ++ [stray 9999] = guesses ++ (List.range mapCap).map stray := by
    have split : List.range mapCap = List.range 9999 ++ [9999] := List.range_succ
    rw [flooded, List.append_assoc, split, List.map_append]
    rfl
  rw [counted, strays, countedFrom_append, counted_strays fun index member => List.mem_range.mp member]
  exact counted_guesses maxFailures (Nat.le_refl _)

theorem clocked_flooded : Clocked (flooded 9999 ++ [stray 9999]) := by
  unfold Clocked flooded guesses
  rw [List.append_assoc, List.pairwise_append]
  refine ⟨List.pairwise_replicate.mpr (.inr (Nat.le_refl _)), ?_, ?_⟩
  · rw [List.pairwise_append, List.pairwise_map]
    refine ⟨List.pairwise_of_forall fun _ _ => Nat.le_refl 1, List.pairwise_singleton _ _, ?_⟩
    intro first member second last
    obtain ⟨_, _, rfl⟩ := List.mem_map.mp member
    cases List.mem_singleton.mp last
    exact Nat.le_refl 1
  · intro first member second _
    rw [(List.mem_replicate.mp member).2]
    exact Nat.zero_le _

end Flood

/-- Ten failures lock an address until one failure each of ten thousand others
has pushed it out of the table. -/
theorem lock_evicted : ¬ ∀ born past, Clocked past → Isolated born past := by
  intro all
  have passed : ∀ req ∈ flooded 9999 ++ [stray 9999], req.now ≤ 1 := by
    intro req member
    rcases List.mem_append.mp member with member | last
    · rcases List.mem_append.mp member with guess | member
      · rw [(List.mem_replicate.mp guess).2]
        exact Nat.zero_le 1
      · obtain ⟨_, _, rfl⟩ := List.mem_map.mp member
        exact Nat.le_refl 1
    · cases List.mem_singleton.mp last
      exact Nat.le_refl 1
  have same := all 0 _ clocked_flooded guesser 1 passed
  have full : 9999 + 1 = mapCap := rfl
  have forgotten := swept_missing (guesser_forgotten full) 1
  have locks : Streak.locks ⟨0, maxFailures, 0⟩ 1 = true := by
    unfold Streak.locks lockout
    decide
  rw [counted_flooded, show maxFailures = 9 + 1 from rfl, streak_guesses] at same
  simp only [RateLimiter.isLocked, forgotten] at same
  exact absurd (same.trans locks) Bool.false_ne_true

end Mirage.Api.Lockout
