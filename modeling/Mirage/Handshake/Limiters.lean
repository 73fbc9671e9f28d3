import Mathlib.Data.List.MinMax
import Mathlib.Logic.Function.Basic
import Mirage.Lib.Calls
import Mirage.Router.Rule

/-!
The admission limiters of proxy/mirage_server: the handshake and the runtime
limiter of QUIC, the connections per source, and the slots of unauthenticated
connections. A global count is an atomic and the counts per key stand in a map
behind a lock, so that an acquire and a drop are chains of steps between which
other calls take theirs.
-/

namespace Mirage.Handshake
open Function Calls Router

/-- `to_canonical`: an IPv4 address mapped into IPv6 is the IPv4 address. -/
def toCanonical : IpAddr → IpAddr
  | .v4 addr => .v4 addr
  | .v6 addr => if addr >>> 32 = 0xffff#128 then .v4 (addr.setWidth 32) else .v6 addr

/-- IPv6 sources count by /64. -/
def rateLimitKey (ip : IpAddr) : IpAddr :=
  match toCanonical ip with
  | .v4 addr => .v4 addr
  | .v6 addr => .v6 (addr >>> 64 <<< 64)

/-- A `HashMap` of counts. -/
abbrev Counts (Key : Type) := Key → Option Nat

section Counts
variable {Key : Type} [DecidableEq Key]

def Counts.count (counts : Counts Key) (key : Key) : Nat := (counts key).getD 0

/-- `get_mut`, `saturating_sub` and `remove` at zero. -/
def Counts.giveBack (counts : Counts Key) (key : Key) : Counts Key :=
  match counts key with
  | some count =>
      if count - 1 = 0 then update counts key none else update counts key (some (count - 1))
  | none => counts

@[simp] theorem Counts.count_update (counts : Counts Key) (key other : Key) (value : Option Nat) :
    Counts.count (update counts key value) other =
      if other = key then value.getD 0 else counts.count other := by
  unfold Counts.count
  by_cases same : other = key
  · rw [same, update_self, if_pos rfl]
  · rw [update_of_ne same, if_neg same]

@[simp] theorem Counts.count_giveBack (counts : Counts Key) (key other : Key) :
    (counts.giveBack key).count other =
      if other = key then counts.count key - 1 else counts.count other := by
  unfold Counts.giveBack
  cases found : counts key with
  | none =>
      have before : counts.count key = 0 := by rw [Counts.count, found]; rfl
      by_cases same : other = key
      · simp only [same, before, ↓reduceIte]
      · simp only [same, ↓reduceIte]
  | some count =>
      have before : counts.count key = count := by rw [Counts.count, found]; rfl
      by_cases last : count - 1 = 0
      · simp [last, before]
      · simp [last, before]

def Counts.NoZero (counts : Counts Key) : Prop := ∀ key, counts key ≠ some 0

theorem Counts.NoZero.update {counts : Counts Key} (noZero : counts.NoZero) (key : Key)
    {value : Option Nat} (positive : value ≠ some 0) :
    Counts.NoZero (Function.update counts key value) := by
  intro other
  by_cases same : other = key
  · rw [same, update_self]
    exact positive
  · rw [update_of_ne same]
    exact noZero other

theorem Counts.NoZero.giveBack {counts : Counts Key} (noZero : counts.NoZero) (key : Key) :
    (counts.giveBack key).NoZero := by
  unfold Counts.giveBack
  cases counts key with
  | none => exact noZero
  | some count =>
      by_cases last : count - 1 = 0
      · simpa only [last, ↓reduceIte] using noZero.update key (Option.some_ne_none _).symm
      · simpa only [last, ↓reduceIte] using
          noZero.update key fun same => last (Option.some.inj same)

end Counts

/-- Where an acquire, and the guard it returns, stands between two of its steps. -/
inductive Call (Key : Type) where
  | called (key : Key)
  | counted (key : Key)
  | cleared (key : Key)
  /-- To take its one off the global count again. -/
  | exceeded
  /-- The same, with the map still locked. -/
  | full
  | refused
  | holding (key : Key)
  | releasing (key : Key)
  | released
  deriving DecidableEq

/-- An entry of `UNAUTH_RATE`: the start of the window and the reflections in it. -/
structure Window where
  start : Nat
  reflections : UInt32

/-- What the calls of one limiter share. Only the unauthenticated slots have
windows. -/
structure Shared (Key : Type) where
  globalCount : Nat
  locked : Bool
  ipCounts : Counts Key
  windows : List (Key × Window)

def Shared.new (Key : Type) : Shared Key :=
  { globalCount := 0, locked := false, ipCounts := fun _ => none, windows := [] }

/-- A limiter as it is configured, and the steps its calls take. The clock is
read by the reflections only. -/
structure Limiter (Source Key : Type) where
  key : Source → Key
  maxPerIp : Nat
  /-- `none` where no global count is kept. -/
  maxGlobal : Option Nat
  /-- The steps of an acquire that ends with a guard. -/
  acquireSteps : Nat
  steps : Shared Key → Call Key → Nat → Option (Shared Key × Call Key)

section Steps
variable {Key : Type} [DecidableEq Key]

namespace Shared

def fetchAdd (shared : Shared Key) : Shared Key :=
  { shared with globalCount := shared.globalCount + 1 }

def fetchSub (shared : Shared Key) : Shared Key :=
  { shared with globalCount := shared.globalCount - 1 }

def setLock (shared : Shared Key) (locked : Bool) : Shared Key := { shared with locked := locked }

def insert (shared : Shared Key) (key : Key) (count : Nat) : Shared Key :=
  { shared with ipCounts := update shared.ipCounts key (some count) }

def giveBack (shared : Shared Key) (key : Key) : Shared Key :=
  { shared with ipCounts := shared.ipCounts.giveBack key }

end Shared

/-- An acquire that is refused takes back what it has counted, and the drop of
a guard what the acquire has. -/
def leaveSteps (shared : Shared Key) : Call Key → Option (Shared Key × Call Key)
  | .exceeded => some (shared.fetchSub, .refused)
  | .full => some (shared.fetchSub.setLock false, .refused)
  | .holding key => some (shared.fetchSub, .releasing key)
  | .releasing key => if shared.locked then none else some (shared.giveBack key, .released)
  | _ => none

/-- `try_acquire` and `release` of the limiters of QUIC. -/
def acquireSteps (maxPerIp maxGlobal : Nat) (shared : Shared Key) :
    Call Key → Option (Shared Key × Call Key)
  | .called key =>
      let currentGlobal := shared.globalCount
      if maxGlobal ≤ currentGlobal then some (shared.fetchAdd, .exceeded)
      else some (shared.fetchAdd, .counted key)
  | .counted key =>
      if shared.locked then none
      else
        let curIp := shared.ipCounts.count key
        if maxPerIp ≤ curIp then some (shared.setLock true, .full)
        else some (shared.insert key (curIp + 1), .holding key)
  | call => leaveSteps shared call

end Steps

/-- `QuicHandshakeLimiter`. Validated and unvalidated sources count apart. -/
def quicHandshakeLimiter (maxPerIp maxGlobal : Nat) :
    Limiter (IpAddr × Bool) (IpAddr × Bool) :=
  { key := fun source => (rateLimitKey source.1, source.2)
    maxPerIp := maxPerIp
    maxGlobal := some maxGlobal
    acquireSteps := 2
    steps := fun shared call _ => acquireSteps maxPerIp maxGlobal shared call }

structure QuicRuntimeLimiter where
  maxConnPerIp : Nat
  maxConnGlobal : Nat
  maxStreamsPerIp : Nat
  maxStreamsGlobal : Nat

/-- `try_acquire_conn` and `release_conn`. -/
def QuicRuntimeLimiter.conns (limiter : QuicRuntimeLimiter) : Limiter IpAddr IpAddr :=
  { key := rateLimitKey
    maxPerIp := limiter.maxConnPerIp
    maxGlobal := some limiter.maxConnGlobal
    acquireSteps := 2
    steps := fun shared call _ =>
      acquireSteps limiter.maxConnPerIp limiter.maxConnGlobal shared call }

/-- `try_acquire_stream` and `release_stream`. -/
def QuicRuntimeLimiter.streams (limiter : QuicRuntimeLimiter) : Limiter IpAddr IpAddr :=
  { key := rateLimitKey
    maxPerIp := limiter.maxStreamsPerIp
    maxGlobal := some limiter.maxStreamsGlobal
    acquireSteps := 2
    steps := fun shared call _ =>
      acquireSteps limiter.maxStreamsPerIp limiter.maxStreamsGlobal shared call }

def perIpCapFor (global : Nat) : Nat := min (max (global / 4) 16) 1024

/-- `try_acquire_ip_slot_with` and the drop of `ConnIpGuard`, each of them one
locked section. -/
def connIpSteps (limit : Nat) (shared : Shared IpAddr) : Call IpAddr →
    Option (Shared IpAddr × Call IpAddr)
  | .called key =>
      let cur := shared.ipCounts.count key
      if limit ≤ cur then some (shared, .refused)
      else some (shared.insert key (cur + 1), .holding key)
  | .holding key => some (shared.giveBack key, .released)
  | _ => none

/-- `try_acquire_ip_slot`, the global limit being that of all connections. -/
def connIpSlots (maxConnections : Nat) : Limiter IpAddr IpAddr :=
  { key := rateLimitKey
    maxPerIp := perIpCapFor maxConnections
    maxGlobal := none
    acquireSteps := 1
    steps := fun shared call _ => connIpSteps (perIpCapFor maxConnections) shared call }

section Unauthenticated

/-- In nanoseconds. -/
def unauthRateWindow : Nat := 10 * 1000000000

def unauthRateMax : UInt32 := 30

def unauthRateMapCap : Nat := 8192

abbrev Windows := List (IpAddr × Window)

/-- Which of several windows of one age goes is up to the order of the map. -/
def Windows.evictOldest (windows : Windows) : Windows :=
  match windows.argmin fun entry => entry.2.start with
  | some oldest => windows.filter fun entry => entry.1 ≠ oldest.1
  | none => windows

/-- Counts a reflection to the source and says whether it is one too many. -/
def unauthReflectRateExceeded (windows : Windows) (ip : IpAddr) (now : Nat) : Bool × Windows :=
  let windows :=
    if windows.lookup ip = none ∧ unauthRateMapCap ≤ windows.length then windows.evictOldest
    else windows
  let entry := (windows.lookup ip).getD ⟨now, 0⟩
  let entry := if unauthRateWindow < now - entry.start then ⟨now, 0⟩ else entry
  let entry := { entry with reflections := entry.reflections + 1 }
  (unauthRateMax < entry.reflections, (ip, entry) :: windows.filter fun other => other.1 ≠ ip)

/-- `entry(ip).or_insert(0)` -/
def Counts.orInsert (counts : Counts IpAddr) (ip : IpAddr) : Counts IpAddr :=
  if counts ip = none then update counts ip (some 0) else counts

@[simp] theorem Counts.count_orInsert (counts : Counts IpAddr) (ip key : IpAddr) :
    (counts.orInsert ip).count key = counts.count key := by
  unfold Counts.orInsert
  split
  · rename_i missing
    rw [Counts.count_update]
    by_cases same : key = ip
    · rw [if_pos same, same, Counts.count, missing]
      rfl
    · rw [if_neg same]
  · rfl

theorem Counts.orInsert_of_count {counts : Counts IpAddr} {ip : IpAddr}
    (some_ : 0 < counts.count ip) : counts.orInsert ip = counts := by
  unfold Counts.orInsert
  split
  · rename_i missing
    rw [Counts.count, missing] at some_
    exact absurd some_ (Nat.lt_irrefl 0)
  · rfl

theorem Counts.orInsert_update (counts : Counts IpAddr) (ip : IpAddr) (value : Option Nat) :
    update (counts.orInsert ip) ip value = update counts ip value := by
  unfold Counts.orInsert
  split
  · exact update_idem _ _ _
  · rfl

/-- `reflect_to_camouflage` up to the forwarding, and the drop of `IpSlotGuard`. -/
def unauthSteps (shared : Shared IpAddr) (call : Call IpAddr) (now : Nat) :
    Option (Shared IpAddr × Call IpAddr) :=
  match call with
  | .called ip =>
      let globalCount := shared.globalCount
      if 5000 ≤ globalCount then some (shared.fetchAdd, .exceeded)
      else some (shared.fetchAdd, .counted ip)
  | .counted ip =>
      let checked := unauthReflectRateExceeded shared.windows ip now
      let shared := { shared with windows := checked.2 }
      if checked.1 then some (shared, .exceeded) else some (shared, .cleared ip)
  | .cleared ip =>
      if shared.locked then none
      else
        let shared := { shared with ipCounts := shared.ipCounts.orInsert ip }
        let count := shared.ipCounts.count ip
        if 100 ≤ count then some (shared.setLock true, .full)
        else some (shared.insert ip (count + 1), .holding ip)
  | call => leaveSteps shared call

theorem unauthSteps_admitted {shared : Shared IpAddr} {ip : IpAddr} (now : Nat)
    (free : shared.locked = false) (below : shared.ipCounts.count ip < 100) :
    unauthSteps shared (.cleared ip) now =
      some (shared.insert ip (shared.ipCounts.count ip + 1), .holding ip) := by
  simp only [unauthSteps, free, Bool.false_eq_true, ↓reduceIte, Counts.count_orInsert,
    Nat.not_le_of_lt below, Shared.insert, Counts.orInsert_update]

def unauthSlots : Limiter IpAddr IpAddr :=
  { key := rateLimitKey
    maxPerIp := 100
    maxGlobal := some 5000
    acquireSteps := 3
    steps := unauthSteps }

end Unauthenticated

namespace Call

section Weights
variable {Key : Type}

/-- Counted in `globalCount`. -/
def inGlobal : Call Key → Nat
  | .counted _ | .cleared _ | .exceeded | .full | .holding _ => 1
  | _ => 0

def passed : Call Key → Nat
  | .counted _ | .cleared _ | .full | .holding _ => 1
  | _ => 0

def atLock : Call Key → Nat
  | .full => 1
  | _ => 0

def live : Call Key → Nat
  | .holding _ => 1
  | _ => 0

/-- No acquire or drop of it is under way. -/
def resting : Call Key → Bool
  | .refused | .holding _ | .released => true
  | _ => false

theorem passed_le_inGlobal (call : Call Key) : call.passed ≤ call.inGlobal := by
  cases call with
  | exceeded => exact Nat.zero_le _
  | called key | counted key | cleared key | full | refused | holding key | releasing key
  | released => exact le_rfl

theorem live_le_passed (call : Call Key) : call.live ≤ call.passed := by
  cases call with
  | counted key | cleared key | full => exact Nat.zero_le _
  | called key | exceeded | refused | holding key | releasing key | released => exact le_rfl

theorem inGlobal_of_resting {call : Call Key} (resting : call.resting) :
    call.inGlobal = call.live := by
  cases call with
  | refused | holding key | released => rfl
  | called key | counted key | cleared key | exceeded | full | releasing key => nomatch resting

theorem atLock_of_resting {call : Call Key} (resting : call.resting) : call.atLock = 0 := by
  cases call with
  | refused | holding key | released => rfl
  | called key | counted key | cleared key | exceeded | full | releasing key => nomatch resting

variable [DecidableEq Key]

/-- Counted in `ipCounts` for the key. -/
def inMap (key : Key) : Call Key → Nat
  | .holding held | .releasing held => if held = key then 1 else 0
  | _ => 0

def liveFor (key : Key) : Call Key → Nat
  | .holding held => if held = key then 1 else 0
  | _ => 0

theorem liveFor_le_inMap (key : Key) (call : Call Key) : call.liveFor key ≤ call.inMap key := by
  cases call with
  | releasing held => exact Nat.zero_le _
  | called _ | counted _ | cleared _ | exceeded | full | refused | holding _ | released =>
      exact le_rfl

theorem inMap_of_resting (key : Key) {call : Call Key} (resting : call.resting) :
    call.inMap key = call.liveFor key := by
  cases call with
  | refused | holding _ | released => rfl
  | called _ | counted _ | cleared _ | exceeded | full | releasing _ => nomatch resting

end Weights

end Call

section Books
variable {Source Key : Type} [DecidableEq Key]

namespace Limiter

def start (limiter : Limiter Source Key) (source : Source) : Call Key :=
  .called (limiter.key source)

abbrev State (Key : Type) := System (Shared Key) (Call Key)

def step (limiter : Limiter Source Key) (state : State Key) (turn : Calls.Turn Source Nat) :
    Option (State Key) :=
  Calls.step limiter.start limiter.steps state turn

def Reached (limiter : Limiter Source Key) (state : State Key) : Prop :=
  Calls.Reachable limiter.start limiter.steps (Shared.new Key) state

def Quiet (state : State Key) : Prop := ∀ call ∈ state.calls, call.resting

/-- An acquire that no other call takes a step beside. -/
def alone (state : State Key) (source : Source) (times : List Nat) :
    List (Calls.Turn Source Nat) :=
  .enter source :: times.map (Calls.Turn.go state.calls.length)

/-- An acquire by itself that finds the counts below their limits gets its guard. -/
def AdmitsAlone (limiter : Limiter Source Key)
    (allowed : Shared Key → Key → List Nat → Prop) : Prop :=
  ∀ state source times, limiter.Reached state → Quiet state →
    (∀ limit ∈ limiter.maxGlobal, state.shared.globalCount < limit) →
      state.shared.ipCounts.count (limiter.key source) < limiter.maxPerIp →
        times.length = limiter.acquireSteps →
          allowed state.shared (limiter.key source) times →
            ∃ final, Trace.follow limiter.step state (alone state source times) = some final ∧
              final.calls[state.calls.length]? = some (.holding (limiter.key source))

/-- Exact under every interleaving: what live guards there may be, what is left
of a refused acquire, when an acquire succeeds, and the counts at rest. -/
structure Exact (limiter : Limiter Source Key)
    (allowed : Shared Key → Key → List Nat → Prop) : Prop where
  bounded : ∀ state, limiter.Reached state →
    (∀ key, total (Call.liveFor key) state.calls ≤ limiter.maxPerIp) ∧
      ∀ limit ∈ limiter.maxGlobal, total Call.live state.calls ≤ limit
  refused : ∀ turns state index,
    Trace.follow limiter.step ⟨Shared.new Key, []⟩ turns = some state →
      state.calls[index]? = some .refused →
        (∀ limit ∈ limiter.maxGlobal, change limiter.start limiter.steps Shared.globalCount index
          ⟨Shared.new Key, []⟩ turns = 0) ∧
          ∀ key, change limiter.start limiter.steps (fun shared => shared.ipCounts.count key) index
            ⟨Shared.new Key, []⟩ turns = 0
  admits : limiter.AdmitsAlone allowed
  settled : ∀ state, limiter.Reached state → Quiet state →
    (∀ limit ∈ limiter.maxGlobal, state.shared.globalCount = total Call.live state.calls) ∧
      ∀ key, state.shared.ipCounts key =
        if total (Call.liveFor key) state.calls = 0 then none
        else some (total (Call.liveFor key) state.calls)

end Limiter

end Books

end Mirage.Handshake
