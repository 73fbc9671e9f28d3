import Mathlib.Data.List.Sort
import Mirage.Lib.Assoc
import Mirage.Lib.Trace
import Mirage.Router.Rule

/-!
The cache of proxy/resolver.rs with the task that keeps one host warm: what
`resolve_fresh` stores, what `resolve_cached` finds, and how `keep_warm_dns` lets an
entry live on when a refresh fails. Times are in nanoseconds. `resolved` holds the
answers, the latest one first, and is only remembered.
-/

namespace Mirage.Resolver.KeepWarm
open Assoc Trace
open Router (IpAddr)

def second : Nat := 1000000000

def dnsCacheTtl : Nat := 60 * second

def dnsStaleCap : Nat := 3600 * second

def cacheMaxEntries : Nat := 8192

structure CacheEntry where
  ips : List IpAddr
  expiry : Nat
  resolvedAt : Nat
  deriving DecidableEq

structure Answer where
  host : String
  ips : List IpAddr
  at_ : Nat
  deriving DecidableEq

/-- `extension` is the expiry that the keepalive task has worked out and not yet set. -/
structure World where
  now : Nat
  cache : List (String × CacheEntry)
  extension : Option Nat
  resolved : List Answer
  deriving DecidableEq

def rank : IpAddr → Nat
  | .v4 _ => 0
  | .v6 _ => 1

def staleExtendedExpiry (now resolvedAt currentExpiry : Nat) : Option Nat :=
  if now - resolvedAt ≥ dnsStaleCap then none else some (max (now + dnsCacheTtl) currentExpiry)

namespace World

def start : World := ⟨0, [], none, []⟩

def fits (now : Nat) (cache : List (String × CacheEntry)) : List (String × CacheEntry) :=
  if cache.length ≥ cacheMaxEntries then
    let kept := cache.filter fun entry => entry.2.expiry > now
    if kept.length ≥ cacheMaxEntries then [] else kept
  else cache

/-- An answer is stored. The clock is read for the expiry first, and `lag` later for
the time of the answer. -/
def resolveFresh (self : World) (host : String) (ips : List IpAddr) (lag : Nat) : Option World :=
  if ips = [] then none
  else
    let sorted := ips.insertionSort fun a b => rank a ≤ rank b
    some { self with
      now := self.now + lag
      cache := put (fits self.now self.cache) host
        ⟨sorted, self.now + dnsCacheTtl, self.now + lag⟩
      resolved := ⟨host, sorted, self.now + lag⟩ :: self.resolved }

/-- What `resolve_cached` finds. -/
def hit (self : World) (host : String) : Option (List IpAddr) :=
  (self.cache.lookup host).bind fun entry =>
    if entry.expiry > self.now then some entry.ips else none

/-- A refresh has failed. The clock is read `ago` before the lock is taken. -/
def refreshFailed (self : World) (warm : String) (ago : Nat) : World :=
  { self with
    extension := (self.cache.lookup warm).bind fun entry =>
      staleExtendedExpiry (self.now - ago) entry.resolvedAt entry.expiry }

/-- The lock was given back in between, so the entry may be another one by now. -/
def extend (self : World) (warm : String) : Option World :=
  self.extension.map fun expiry =>
    { self with
      cache := self.cache.map fun entry =>
        if entry.1 = warm then (entry.1, { entry.2 with expiry }) else entry
      extension := none }

end World

inductive Event where
  | tick (time : Nat)
  | resolveFresh (host : String) (ips : List IpAddr) (lag : Nat)
  | refreshFailed (ago : Nat)
  | extend

def step (warm : String) (self : World) : Event → Option World
  | .tick time => some { self with now := self.now + time }
  | .resolveFresh host ips lag => self.resolveFresh host ips lag
  | .refreshFailed ago => some (self.refreshFailed warm ago)
  | .extend => self.extend warm

section Bounds

/-- How long after its answer an entry may be used. -/
def lifetime (warm host : String) : Nat :=
  if host = warm then dnsStaleCap + dnsCacheTtl else dnsCacheTtl

variable {warm host : String} {self next : World} {entry : CacheEntry} {now : Nat}
  {cache : List (String × CacheEntry)}

theorem lifetime_ge (warm host : String) : dnsCacheTtl ≤ lifetime warm host := by
  unfold lifetime
  split
  · exact Nat.le_add_left _ _
  · exact Nat.le_refl _

theorem lifetime_warm (warm : String) : lifetime warm warm = dnsStaleCap + dnsCacheTtl := if_pos rfl

/-- An entry is the latest answer for its host, and its expiry is in bounds. -/
structure Entry (warm : String) (world : World) (host : String) (entry : CacheEntry) : Prop where
  latest : world.resolved.find? (fun answer => answer.host = host) =
    some ⟨host, entry.ips, entry.resolvedAt⟩
  past : entry.resolvedAt ≤ world.now
  soon : entry.expiry ≤ world.now + dnsCacheTtl
  bounded : entry.expiry ≤ entry.resolvedAt + lifetime warm host

structure Sound (warm : String) (world : World) : Prop where
  unique : UniqueKeys world.cache
  few : world.cache.length ≤ cacheMaxEntries
  entries : ∀ host entry, (host, entry) ∈ world.cache → Entry warm world host entry
  soon : ∀ expiry, world.extension = some expiry → expiry ≤ world.now + dnsCacheTtl
  bounded : ∀ expiry, world.extension = some expiry → ∀ entry, (warm, entry) ∈ world.cache →
    expiry ≤ entry.resolvedAt + lifetime warm warm

theorem fits_sublist : (World.fits now cache).Sublist cache := by
  unfold World.fits
  split
  · dsimp only
    split
    · exact List.nil_sublist _
    · exact List.filter_sublist
  · exact List.Sublist.refl _

theorem fits_length : (World.fits now cache).length < cacheMaxEntries := by
  unfold World.fits
  split
  · dsimp only
    split
    · exact Nat.succ_pos _
    · rename_i room
      exact Nat.lt_of_not_le room
  · rename_i room
    exact Nat.lt_of_not_le room

theorem Entry.later (found : Entry warm self host entry) (time : Nat) :
    Entry warm { self with now := self.now + time } host entry :=
  ⟨found.latest, found.past.trans (Nat.le_add_right _ _),
    found.soon.trans (Nat.add_le_add_right (Nat.le_add_right _ _) _), found.bounded⟩

theorem Sound.tick (sound : Sound warm self) (time : Nat) :
    Sound warm { self with now := self.now + time } :=
  ⟨sound.unique, sound.few, fun host entry member => (sound.entries host entry member).later time,
    fun expiry waits =>
      (sound.soon expiry waits).trans (Nat.add_le_add_right (Nat.le_add_right _ _) _),
    sound.bounded⟩

theorem Sound.resolveFresh (sound : Sound warm self) {ips : List IpAddr} {lag : Nat}
    (stored : self.resolveFresh host ips lag = some next) : Sound warm next := by
  unfold World.resolveFresh at stored
  split at stored
  · cases stored
  · cases stored
    have unique : UniqueKeys (World.fits self.now self.cache) :=
      (fits_sublist.map Prod.fst).nodup sound.unique
    refine ⟨unique.put _ _, length_put_le.trans fits_length, ?_, ?_, ?_⟩
    · intro other entry member
      rcases List.mem_append.mp member with old | new
      · obtain ⟨inside, apart⟩ := List.mem_filter.mp old
        have apart : other ≠ host := of_decide_eq_true apart
        have found := (sound.entries other entry (fits_sublist.subset inside)).later lag
        refine ⟨?_, found.past, found.soon, found.bounded⟩
        rw [List.find?_cons_of_neg (by simpa using Ne.symm apart)]
        exact found.latest
      · cases List.mem_singleton.mp new
        have least := lifetime_ge warm host
        refine ⟨List.find?_cons_of_pos (by simp), Nat.le_refl _, ?_, ?_⟩
        · exact Nat.add_le_add_right (Nat.le_add_right _ _) _
        · change self.now + dnsCacheTtl ≤ self.now + lag + lifetime warm host
          omega
    · intro expiry waits
      exact (sound.soon expiry waits).trans (Nat.add_le_add_right (Nat.le_add_right _ _) _)
    · intro expiry waits entry member
      rcases List.mem_append.mp member with old | new
      · exact sound.bounded expiry waits entry
          (fits_sublist.subset (List.mem_filter.mp old).1)
      · -- The answer is later than the failure whose extension waits.
        cases List.mem_singleton.mp new
        have soon := sound.soon expiry waits
        have least := lifetime_ge warm warm
        change expiry ≤ self.now + lag + lifetime warm warm
        omega

theorem Sound.refreshFailed (sound : Sound warm self) (ago : Nat) :
    Sound warm (self.refreshFailed warm ago) := by
  have worked_out : ∀ expiry, (self.refreshFailed warm ago).extension = some expiry →
      ∃ entry, (warm, entry) ∈ self.cache ∧ self.now - ago - entry.resolvedAt < dnsStaleCap ∧
        expiry = max (self.now - ago + dnsCacheTtl) entry.expiry := by
    intro expiry waits
    obtain ⟨entry, found, extended⟩ := Option.bind_eq_some_iff.mp waits
    unfold staleExtendedExpiry at extended
    split at extended
    · cases extended
    · rename_i young
      cases extended
      exact ⟨entry, mem_of_lookup found, Nat.lt_of_not_le young, rfl⟩
  refine ⟨sound.unique, sound.few, fun host entry member => ?_, ?_, ?_⟩
  · have found := sound.entries host entry member
    exact ⟨found.latest, found.past, found.soon, found.bounded⟩
  · intro expiry waits
    obtain ⟨entry, member, -, rfl⟩ := worked_out expiry waits
    apply max_le
    · exact Nat.add_le_add_right (Nat.sub_le _ _) _
    · exact (sound.entries warm entry member).soon
  · intro expiry waits other there
    obtain ⟨entry, member, young, rfl⟩ := worked_out expiry waits
    cases sound.unique.same member there
    have found := sound.entries warm other there
    apply max_le
    · rw [lifetime_warm]
      omega
    · exact found.bounded

theorem Sound.extend (sound : Sound warm self) (extended : self.extend warm = some next) :
    Sound warm next := by
  obtain ⟨expiry, waits, rfl⟩ := Option.map_eq_some_iff.mp extended
  have keys : (self.cache.map fun entry : String × CacheEntry =>
      if entry.1 = warm then (entry.1, { entry.2 with expiry }) else entry).map Prod.fst =
        self.cache.map Prod.fst := by
    rw [List.map_map]
    apply List.map_congr_left
    intro entry _
    rw [Function.comp_apply]
    split
    · rfl
    · rfl
  refine ⟨?_, List.length_map _ |>.trans_le sound.few, ?_, nofun, nofun⟩
  · unfold UniqueKeys
    rw [keys]
    exact sound.unique
  · intro host entry member
    obtain ⟨⟨name, old⟩, there, made⟩ := List.mem_map.mp member
    have found := sound.entries name old there
    split at made
    · rename_i same
      obtain rfl : name = warm := same
      cases made
      exact ⟨found.latest, found.past, sound.soon expiry waits, sound.bounded expiry waits old there⟩
    · cases made
      exact ⟨found.latest, found.past, found.soon, found.bounded⟩

theorem Sound.step {event : Event} (sound : Sound warm self)
    (stepped : step warm self event = some next) : Sound warm next := by
  cases event with
  | tick time =>
      cases stepped
      exact sound.tick time
  | resolveFresh host ips lag => exact sound.resolveFresh stepped
  | refreshFailed ago =>
      cases stepped
      exact sound.refreshFailed ago
  | extend => exact sound.extend stepped

end Bounds

section Runs
variable {warm : String}

theorem sound_start : Sound warm World.start :=
  ⟨List.nodup_nil, Nat.zero_le _, nofun, nofun, nofun⟩

def Reached (warm : String) (self : World) : Prop :=
  ∃ events, follow (step warm) World.start events = some self

/-- A hit is the latest answer for its host. It is younger than the TTL, or for the
host that is kept warm than the TTL and the stale cap together, whenever refreshes
fail and whatever comes between a failure and its extension; and the cache never
holds more than it may. -/
theorem hits_latest (warm : String) (self : World) (reached : Reached warm self) :
    self.cache.length ≤ cacheMaxEntries ∧
      ∀ host ips, self.hit host = some ips → ∃ answer,
        self.resolved.find? (fun answer => answer.host = host) = some answer ∧
          answer.ips = ips ∧ answer.at_ ≤ self.now ∧
            self.now < answer.at_ + lifetime warm host := by
  obtain ⟨events, followed⟩ := reached
  have sound : Sound warm self := follow_keeps (Sound warm) Sound.step sound_start followed
  refine ⟨sound.few, ?_⟩
  intro host ips hit
  obtain ⟨entry, there, fresh⟩ := Option.bind_eq_some_iff.mp hit
  split at fresh
  · rename_i alive
    cases fresh
    have found := sound.entries host entry (mem_of_lookup there)
    exact ⟨_, found.latest, rfl, found.past, alive.trans_le found.bounded⟩
  · cases fresh

/-- A minute and a half after the answer, with a refresh that failed in between. -/
theorem hits_latest_sample : ∃ self answer,
    follow (step "a") World.start [.resolveFresh "a" [.v6 2, .v4 1] 0, .tick (45 * second),
      .refreshFailed 0, .extend, .tick (45 * second)] = some self ∧
    self.hit "a" = some [.v4 1, .v6 2] ∧
    self.resolved.find? (fun answer => answer.host = "a") = some answer ∧
      answer.ips = [.v4 1, .v6 2] ∧ answer.at_ ≤ self.now ∧
        self.now < answer.at_ + lifetime "a" "a" := by
  have followed : follow (step "a") World.start [.resolveFresh "a" [.v6 2, .v4 1] 0,
      .tick (45 * second), .refreshFailed 0, .extend, .tick (45 * second)] =
      some ⟨90 * second, [("a", ⟨[.v4 1, .v6 2], 105 * second, 0⟩)], none,
        [⟨"a", [.v4 1, .v6 2], 0⟩]⟩ := by
    decide +kernel
  have hit : World.hit ⟨90 * second, [("a", ⟨[.v4 1, .v6 2], 105 * second, 0⟩)], none,
      [⟨"a", [.v4 1, .v6 2], 0⟩]⟩ "a" = some [.v4 1, .v6 2] := by
    decide +kernel
  obtain ⟨answer, found⟩ := (hits_latest "a" _ ⟨_, followed⟩).2 "a" _ hit
  exact ⟨_, answer, followed, hit, found⟩

end Runs

end Mirage.Resolver.KeepWarm
