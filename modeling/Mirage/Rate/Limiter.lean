import Mirage.Egress.ServerRouter
import Mirage.Lib.Assoc
import Mirage.Lib.Rounding
import Mirage.Lib.Trace

/-!
The limiter by source address of rate_limit.rs: a table of at most
`RATE_LIMIT_CAP` bucket pairs, one per address, and a shared pair per network
for addresses that find the table full of live entries. A bucket pair is known
by its allocation number, so two connections share a bucket when their numbers
agree. `config` counts the reloads that changed the limits.
-/

namespace Mirage.Rate.Limiter
open Router Egress

def rateLimitCap : Nat := 4096

def u64Max : Nat := 2 ^ 64 - 1

/-- The `f64` rate of the buckets made for a limit. -/
def bucketRate (limit : Nat) : Nat := Rounding.round 53 (max limit 1)

/-- `as u64`, which saturates. -/
def asU64 (rate : Nat) : Nat := min rate u64Max

structure DeviceProfile where
  sourceIpCidr : List String
  rateLimitKbps : Option Nat

structure LiveBucketEntry where
  buckets : Nat
  last : Nat
  deriving DecidableEq

structure RateLimiter where
  cidrs : List (IpNet × Nat)
  live : List (IpAddr × LiveBucketEntry)
  overflow : List (IpNet × Nat)

namespace RateLimiter

/-- `ipNet` is `IpNet::from_str` of the ipnet crate. -/
def fromDeviceProfiles (ipNet : String → Option IpNet) (dps : List DeviceProfile) : RateLimiter :=
  { cidrs := dps.flatMap fun dp =>
      match dp.rateLimitKbps.filter (0 < ·) with
      | none => []
      | some kbps =>
          let bytesPerSec := min (kbps * 125) u64Max
          dp.sourceIpCidr.filterMap fun s =>
            ((ipNet s).orElse fun _ => (parseIpAddr s).map netOf).map fun net => (net, bytesPerSec)
    live := [], overflow := [] }

/-- Takes over the bucket pairs whose limit has not changed. `rates` are the
rates of all pairs made so far. -/
def rebuildFrom (ipNet : String → Option IpNet) (dps : List DeviceProfile) (old : RateLimiter)
    (rates : List Nat) : RateLimiter :=
  let new := fromDeviceProfiles ipNet dps
  let resolve (ip : IpAddr) := new.cidrs.find? fun c => c.1.contains ip
  { new with
    live := old.live.filter fun p =>
      (resolve p.1).any fun c => (rates[p.2.buckets]?).any (asU64 · == c.2)
    overflow := old.overflow.filter fun p =>
      new.cidrs.any fun c => c.1 == p.1 && (rates[p.2]?).any (asU64 · == c.2) }

def resolve (limiter : RateLimiter) (ip : IpAddr) : Option (IpNet × Nat) :=
  limiter.cidrs.find? fun c => c.1.contains ip

def touch (limiter : RateLimiter) (ip : IpAddr) (now : Nat) : RateLimiter :=
  { limiter with
    live := limiter.live.map fun p => if p.1 = ip then (ip, { p.2 with last := now }) else p }

def insert (limiter : RateLimiter) (ip : IpAddr) (entry : LiveBucketEntry) : RateLimiter :=
  { limiter with live := limiter.live ++ [(ip, entry)] }

def remove (limiter : RateLimiter) (ip : IpAddr) : RateLimiter :=
  { limiter with live := limiter.live.filter (·.1 ≠ ip) }

def idle (limiter : RateLimiter) (held : Nat → Bool) : List (IpAddr × LiveBucketEntry) :=
  limiter.live.filter fun p => !held p.2.buckets

/-- `min_by_key` over a hash map may end at any of the oldest entries. -/
def oldest (candidates : List (IpAddr × LiveBucketEntry)) (victim : IpAddr) : Bool :=
  candidates.any fun p => p.1 = victim && candidates.all fun other => p.2.last ≤ other.2.last

/-- What a connection gets, the table and the rates. `fresh` is the number of
the pair that is allocated if one is. No answer when `victim` is not a choice. -/
def bucketsFor (limiter : RateLimiter) (rates : List Nat) (held : Nat → Bool) (ip : IpAddr)
    (now : Nat) (victim : IpAddr) : Option (Option Nat × RateLimiter × List Nat) :=
  if limiter.cidrs.isEmpty then some (none, limiter, rates)
  else
    match limiter.resolve ip with
    | none => some (none, limiter, rates)
    | some (net, rate) =>
        let fresh := rates.length
        let entry : LiveBucketEntry := { buckets := fresh, last := now }
        match limiter.live.lookup ip with
        | some entry => some (some entry.buckets, limiter.touch ip now, rates)
        | none =>
            if rateLimitCap ≤ limiter.live.length then
              if limiter.idle held = [] then
                match limiter.overflow.lookup net with
                | some buckets => some (some buckets, limiter, rates)
                | none =>
                    some (some fresh, { limiter with overflow := limiter.overflow ++ [(net, fresh)] },
                      rates ++ [bucketRate rate])
              else if oldest (limiter.idle held) victim then
                some (some fresh, (limiter.remove victim).insert ip entry,
                  rates ++ [bucketRate rate])
              else none
            else some (some fresh, limiter.insert ip entry, rates ++ [bucketRate rate])

inductive Acquired (limiter : RateLimiter) (rates : List Nat) (held : Nat → Bool) (ip : IpAddr)
    (now : Nat) : Option Nat × RateLimiter × List Nat → Prop where
  | unlimited (free : limiter.resolve ip = none) :
      Acquired limiter rates held ip now (none, limiter, rates)
  | own {net rate entry} (resolved : limiter.resolve ip = some (net, rate))
      (here : limiter.live.lookup ip = some entry) :
      Acquired limiter rates held ip now (some entry.buckets, limiter.touch ip now, rates)
  | spilled {net rate buckets} (resolved : limiter.resolve ip = some (net, rate))
      (missing : limiter.live.lookup ip = none) (full : rateLimitCap ≤ limiter.live.length)
      (busy : limiter.idle held = []) (shared : limiter.overflow.lookup net = some buckets) :
      Acquired limiter rates held ip now (some buckets, limiter, rates)
  | firstSpilled {net rate} (resolved : limiter.resolve ip = some (net, rate))
      (missing : limiter.live.lookup ip = none) (full : rateLimitCap ≤ limiter.live.length)
      (busy : limiter.idle held = []) (unshared : limiter.overflow.lookup net = none) :
      Acquired limiter rates held ip now
        (some rates.length, { limiter with overflow := limiter.overflow ++ [(net, rates.length)] },
          rates ++ [bucketRate rate])
  | evicted {net rate victim} (resolved : limiter.resolve ip = some (net, rate))
      (missing : limiter.live.lookup ip = none) (full : rateLimitCap ≤ limiter.live.length)
      (chosen : oldest (limiter.idle held) victim) :
      Acquired limiter rates held ip now
        (some rates.length, (limiter.remove victim).insert ip ⟨rates.length, now⟩,
          rates ++ [bucketRate rate])
  | inserted {net rate} (resolved : limiter.resolve ip = some (net, rate))
      (missing : limiter.live.lookup ip = none) (room : limiter.live.length < rateLimitCap) :
      Acquired limiter rates held ip now
        (some rates.length, limiter.insert ip ⟨rates.length, now⟩, rates ++ [bucketRate rate])

theorem bucketsFor_acquired {limiter : RateLimiter} {rates : List Nat} {held : Nat → Bool}
    {ip : IpAddr} {now : Nat} {victim : IpAddr} {out : Option Nat × RateLimiter × List Nat}
    (answered : limiter.bucketsFor rates held ip now victim = some out) :
    Acquired limiter rates held ip now out := by
  unfold bucketsFor at answered
  split at answered
  case isTrue empty =>
    cases answered
    apply Acquired.unlimited
    rw [resolve, List.isEmpty_iff.mp empty, List.find?_nil]
  split at answered
  case h_1 free =>
    cases answered
    exact .unlimited free
  case h_2 net rate resolved =>
    split at answered
    case h_1 entry here =>
      cases answered
      exact .own resolved here
    case h_2 missing =>
      split at answered
      case isFalse room =>
        cases answered
        exact .inserted resolved missing (Nat.lt_of_not_le room)
      case isTrue full =>
        split at answered
        case isTrue busy =>
          split at answered
          case h_1 buckets shared =>
            cases answered
            exact .spilled resolved missing full busy shared
          case h_2 unshared =>
            cases answered
            exact .firstSpilled resolved missing full busy unshared
        case isFalse =>
          split at answered
          case isTrue chosen =>
            cases answered
            exact .evicted resolved missing full chosen
          case isFalse => cases answered

section Answers
variable {limiter : RateLimiter} {rates : List Nat} {held : Nat → Bool} {ip : IpAddr} {now : Nat}
  {victim : IpAddr} {net : IpNet} {rate : Nat}

theorem cidrs_of_resolve (resolved : limiter.resolve ip = some (net, rate)) :
    limiter.cidrs.isEmpty = false := by
  rw [List.isEmpty_eq_false_iff_exists_mem]
  exact ⟨_, List.mem_of_find?_eq_some resolved⟩

theorem bucketsFor_inserted (resolved : limiter.resolve ip = some (net, rate))
    (missing : limiter.live.lookup ip = none) (room : limiter.live.length < rateLimitCap) :
    limiter.bucketsFor rates held ip now victim =
      some (some rates.length, limiter.insert ip ⟨rates.length, now⟩,
        rates ++ [bucketRate rate]) := by
  simp only [bucketsFor, cidrs_of_resolve resolved, resolved, missing, if_neg room.not_ge,
    Bool.false_eq_true, if_false]

theorem bucketsFor_firstSpilled (resolved : limiter.resolve ip = some (net, rate))
    (missing : limiter.live.lookup ip = none) (full : rateLimitCap ≤ limiter.live.length)
    (busy : limiter.idle held = []) (unshared : limiter.overflow.lookup net = none) :
    limiter.bucketsFor rates held ip now victim =
      some (some rates.length,
        { limiter with overflow := limiter.overflow ++ [(net, rates.length)] },
        rates ++ [bucketRate rate]) := by
  simp only [bucketsFor, cidrs_of_resolve resolved, resolved, missing, if_pos full, if_pos busy,
    unshared, Bool.false_eq_true, if_false]

theorem bucketsFor_evicted (resolved : limiter.resolve ip = some (net, rate))
    (missing : limiter.live.lookup ip = none) (full : rateLimitCap ≤ limiter.live.length)
    (chosen : oldest (limiter.idle held) victim = true) :
    limiter.bucketsFor rates held ip now victim =
      some (some rates.length, (limiter.remove victim).insert ip ⟨rates.length, now⟩,
        rates ++ [bucketRate rate]) := by
  have candidates : limiter.idle held ≠ [] := by
    intro none
    rw [none] at chosen
    cases chosen
  simp only [bucketsFor, cidrs_of_resolve resolved, resolved, missing, if_pos full,
    if_neg candidates, if_pos chosen, Bool.false_eq_true, if_false]

end Answers

end RateLimiter

/-- A connection that holds a bucket pair. `limit` and `config` are those at its start. -/
structure Conn where
  ip : IpAddr
  limit : Nat
  config : Nat
  buckets : Nat
  deriving DecidableEq

structure State where
  limiter : RateLimiter
  rates : List Nat
  alive : List Conn
  config : Nat

/-- `elsewhere` lists pairs that something else than a connection keeps alive. -/
inductive Event where
  | acquire (ip : IpAddr) (now : Nat) (victim : IpAddr) (elsewhere : List Nat)
  | drop (index : Nat)
  | rebuild (dps : List DeviceProfile)

section Model
variable (ipNet : String → Option IpNet)

def State.start (dps : List DeviceProfile) : State :=
  { limiter := .fromDeviceProfiles ipNet dps, rates := [], alive := [], config := 0 }

namespace State

def held (state : State) (elsewhere : List Nat) (buckets : Nat) : Bool :=
  state.alive.any (·.buckets = buckets) || elsewhere.contains buckets

def connect (state : State) (ip : IpAddr) :
    Option Nat × RateLimiter × List Nat → State
  | (none, limiter, rates) => { state with limiter, rates }
  | (some buckets, limiter, rates) =>
      { state with
        limiter, rates
        alive := state.alive ++
          [{ ip, limit := ((state.limiter.resolve ip).map Prod.snd).getD 0
             config := state.config, buckets }] }

def step (state : State) : Event → Option State
  | .acquire ip now victim elsewhere =>
      (state.limiter.bucketsFor state.rates (state.held elsewhere) ip now victim).map
        (state.connect ip)
  | .drop index => some { state with alive := state.alive.eraseIdx index }
  | .rebuild dps =>
      let limiter := RateLimiter.rebuildFrom ipNet dps state.limiter state.rates
      some
        { state with
          limiter
          config := if limiter.cidrs = state.limiter.cidrs then state.config
            else state.config + 1 }

end State
end Model

end Mirage.Rate.Limiter
