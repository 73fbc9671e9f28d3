import Mathlib.Data.List.DropRight
import Mirage.Egress.ServerRouter
import Mirage.Lib.Bounded
import Mirage.Lib.Trace
import Mirage.Udp.Mux

/-!
The two bounded tables of a UDP session in proxy/mirage_server/udp_relay.rs: the
cache of resolved targets of the WireGuard egress and the whitelist of the
targets sent to. What the resolver answers belongs to the call; a call holds
the cache until it returns. Times are in nanoseconds.
-/

namespace Mirage.Udp.Sessions
open Assoc Bounded Trace
open Egress (parseIpAddr)

inductive WgResolveEntry where
  | positive (addr : SocketAddr) (validUntil : Nat)
  | negative (validUntil : Nat)
  deriving DecidableEq

namespace WgResolveEntry

def validUntil : WgResolveEntry → Nat
  | .positive _ validUntil => validUntil
  | .negative validUntil => validUntil

def isExpired (now : Nat) (entry : WgResolveEntry) : Bool := decide (now ≥ entry.validUntil)

def answer : WgResolveEntry → Option SocketAddr
  | .positive addr _ => some addr
  | .negative _ => none

end WgResolveEntry

structure WgResolveCache where
  entries : List (String × WgResolveEntry)
  positiveTtl : Nat
  negativeTtl : Nat
  capacity : Nat

/-- A call of `resolve_with`; `least` is the map's choice among entries that
expire at once. -/
structure Call (Error : Type) where
  cacheKey : String
  host : String
  port : UInt16
  now : Nat
  resolved : Except Error SocketAddr
  least : Least String WgResolveEntry.validUntil

variable {Error : Type}

/-- The host without the brackets of an IPv6 literal. -/
def cleanHost (host : String) : String :=
  String.ofList ((host.toList.dropWhile (· == '[')).rdropWhile (· == ']'))

def Call.literal (call : Call Error) : Option Router.IpAddr := parseIpAddr (cleanHost call.host)

namespace WgResolveCache

def new (positiveTtl negativeTtl capacity : Nat) : WgResolveCache :=
  ⟨[], positiveTtl, negativeTtl, capacity⟩

def insertEntry (self : WgResolveCache) (least : Least String WgResolveEntry.validUntil)
    (key : String) (entry : WgResolveEntry) (now : Nat) : WgResolveCache :=
  { self with
    entries := Bounded.insert least (WgResolveEntry.isExpired now) self.capacity self.entries
      key entry }

def entryOf (self : WgResolveCache) (now : Nat) : Except Error SocketAddr → WgResolveEntry
  | .ok addr => .positive addr (now + self.positiveTtl)
  | .error _ => .negative (now + self.negativeTtl)

/-- The part of `resolve_with` that calls the resolver. -/
def ask (self : WgResolveCache) (call : Call Error) : Option SocketAddr × WgResolveCache :=
  let entry := self.entryOf call.now call.resolved
  (entry.answer, self.insertEntry call.least call.cacheKey entry call.now)

def resolveWith (self : WgResolveCache) (call : Call Error) :
    Option SocketAddr × WgResolveCache :=
  match call.literal with
  | some ip => (some ⟨ip, call.port⟩, self)
  | none =>
      match self.entries.lookup call.cacheKey with
      | some entry => if !entry.isExpired call.now then (entry.answer, self) else self.ask call
      | none => self.ask call

/-- The call is not answered from its text or the table. -/
def consults (self : WgResolveCache) (call : Call Error) : Bool :=
  call.literal.isNone &&
    (self.entries.lookup call.cacheKey).all fun entry => entry.isExpired call.now

/-- The last of the calls that asked the resolver for `key`. -/
def lastResolved (self : WgResolveCache) (key : String) : List (Call Error) → Option (Call Error)
  | [] => none
  | call :: rest =>
      ((self.resolveWith call).2.lastResolved key rest).or
        (if call.cacheKey = key ∧ self.consults call = true then some call else none)

end WgResolveCache

/-- The table of targets with the time of the last datagram to each. -/
abbrev Targets := List (SocketAddr × Nat)

/-- A call of `record_sent_target`. -/
structure Sent where
  target : SocketAddr
  now : Nat
  least : Least SocketAddr (id : Nat → Nat)

/-- A target that has its entry only gets the new time. -/
def recordSentTarget (idleTimeout capacity : Nat) (targets : Targets) (sent : Sent) : Targets :=
  Bounded.insert sent.least (fun lastSent => !decide (sent.now - lastSent ≤ idleTimeout)) capacity
    targets sent.target sent.now

def recordAll (idleTimeout capacity : Nat) (sent : List Sent) : Targets :=
  sent.foldl (recordSentTarget idleTimeout capacity) []

namespace WgResolveCache
variable {self : WgResolveCache} {call : Call Error} {past : List (Call Error)} {key : String}

theorem resolveWith_cases (self : WgResolveCache) (call : Call Error) :
    (∃ ip, call.literal = some ip ∧ self.consults call = false ∧
        self.resolveWith call = (some ⟨ip, call.port⟩, self)) ∨
      (∃ entry, call.literal = none ∧ self.consults call = false ∧
        self.entries.lookup call.cacheKey = some entry ∧ entry.isExpired call.now = false ∧
        self.resolveWith call = (entry.answer, self)) ∨
      call.literal = none ∧ self.consults call = true ∧ self.resolveWith call = self.ask call := by
  unfold resolveWith consults
  cases call.literal with
  | some ip => exact .inl ⟨ip, rfl, rfl, rfl⟩
  | none =>
      cases found : self.entries.lookup call.cacheKey with
      | none => exact .inr (.inr ⟨rfl, rfl, rfl⟩)
      | some entry =>
          cases old : entry.isExpired call.now with
          | false => exact .inr (.inl ⟨entry, rfl, by simp [old], rfl, old, by simp [old]⟩)
          | true => exact .inr (.inr ⟨rfl, by simp [old], by simp [old]⟩)

theorem settings_resolveWith (self : WgResolveCache) (call : Call Error) :
    (self.resolveWith call).2.capacity = self.capacity ∧
      (self.resolveWith call).2.positiveTtl = self.positiveTtl ∧
      (self.resolveWith call).2.negativeTtl = self.negativeTtl := by
  obtain ⟨_, _, _, same⟩ | ⟨_, _, _, _, _, same⟩ | ⟨_, _, same⟩ := resolveWith_cases self call <;>
    rw [same] <;> exact ⟨rfl, rfl, rfl⟩

theorem lastResolved_append (self : WgResolveCache) (past : List (Call Error))
    (call : Call Error) (key : String) :
    self.lastResolved key (past ++ [call]) =
      if call.cacheKey = key ∧ (run resolveWith self past).consults call = true then some call
      else self.lastResolved key past := by
  induction past generalizing self with
  | nil => exact Option.none_or
  | cons first rest ih =>
      rw [List.cons_append, lastResolved, ih, run_cons, lastResolved]
      split
      · rfl
      · rfl

/-- What holds after any calls: the bound, one entry a key, and what stands for
a key is what the resolver last said of it. -/
structure Sound (start cache : WgResolveCache) (past : List (Call Error)) : Prop where
  settings : cache.capacity = start.capacity ∧ cache.positiveTtl = start.positiveTtl ∧
    cache.negativeTtl = start.negativeTtl
  capped : cache.entries.length ≤ cache.capacity
  unique : UniqueKeys cache.entries
  sourced : ∀ key entry, cache.entries.lookup key = some entry →
    ∃ call, start.lastResolved key past = some call ∧
      entry = start.entryOf call.now call.resolved

theorem entryOf_settings {cache start : WgResolveCache} (now : Nat)
    (resolved : Except Error SocketAddr) (positive : cache.positiveTtl = start.positiveTtl)
    (negative : cache.negativeTtl = start.negativeTtl) :
    cache.entryOf now resolved = start.entryOf now resolved := by
  unfold entryOf
  rw [positive, negative]

theorem ask_inserted (least : 1 ≤ self.capacity) (unique : UniqueKeys self.entries)
    (capped : self.entries.length ≤ self.capacity) (call : Call Error) :
    Inserted WgResolveEntry.validUntil (WgResolveEntry.isExpired call.now) self.capacity
      self.entries (self.ask call).2.entries call.cacheKey
      (self.entryOf call.now call.resolved) :=
  inserted least unique capped _ _

theorem sound_run (positiveTtl negativeTtl : Nat) {capacity : Nat} (positive : 1 ≤ capacity)
    (past : List (Call Error)) :
    Sound (new positiveTtl negativeTtl capacity)
      (run resolveWith (new positiveTtl negativeTtl capacity) past) past := by
  induction past using List.reverseRecOn with
  | nil => exact ⟨⟨rfl, rfl, rfl⟩, Nat.zero_le _, List.nodup_nil, fun _ _ found => nomatch found⟩
  | append_singleton past call ih =>
      rw [run_append, run_cons, run_nil]
      generalize begun : new positiveTtl negativeTtl capacity = start at ih ⊢
      generalize reached : run resolveWith start past = cache at ih ⊢
      obtain ⟨kept, keptPositive, keptNegative⟩ := settings_resolveWith cache call
      obtain ⟨⟨size, forPositive, forNegative⟩, capped, unique, sourced⟩ := ih
      have settings := And.intro (kept.trans size)
        (And.intro (keptPositive.trans forPositive) (keptNegative.trans forNegative))
      have unasked (quiet : cache.consults call = false)
          (same : (cache.resolveWith call).2 = cache) :
          Sound start (cache.resolveWith call).2 (past ++ [call]) := by
        refine ⟨settings, same.symm ▸ capped, same.symm ▸ unique, ?_⟩
        intro key entry found
        rw [same] at found
        rw [lastResolved_append, reached, quiet, if_neg (by simp)]
        exact sourced key entry found
      obtain ⟨_, _, quiet, same⟩ | ⟨_, _, quiet, _, _, same⟩ | ⟨_, asked, same⟩ :=
        resolveWith_cases cache call
      · exact unasked quiet (congrArg Prod.snd same)
      · exact unasked quiet (congrArg Prod.snd same)
      · have room : 1 ≤ cache.capacity := by
          rw [size, ← begun]
          exact positive
        have new_ := ask_inserted room unique capped call
        refine ⟨settings, ?_, ?_, ?_⟩
        · rw [kept, same]
          exact new_.capped
        · rw [same]
          exact new_.unique
        · intro key entry found
          rw [same] at found
          rw [lastResolved_append, reached, asked]
          by_cases own : call.cacheKey = key
          · rw [if_pos ⟨own, rfl⟩]
            subst own
            refine ⟨call, rfl, ?_⟩
            rw [← entryOf_settings call.now call.resolved forPositive forNegative]
            exact Option.some.inj (found.symm.trans new_.present)
          · rw [if_neg (fun both => own both.1)]
            exact sourced key entry (new_.sourced key entry (Ne.symm own) found)

/-- What a call does and answers after any calls: a literal is its own answer
and leaves the cache as it is; the resolver's answer goes into the table; and an
answer of the table is not yet expired and what the resolver last said of the
key. -/
structure Answers (start : WgResolveCache) (past : List (Call Error)) (call : Call Error)
    (cache : WgResolveCache) (reply : Option SocketAddr × WgResolveCache) : Prop where
  capped : reply.2.entries.length ≤ start.capacity
  literal : ∀ ip, call.literal = some ip → reply = (some ⟨ip, call.port⟩, cache)
  asked : cache.consults call = true → reply.1 = call.resolved.toOption ∧
    Inserted WgResolveEntry.validUntil (WgResolveEntry.isExpired call.now) start.capacity
      cache.entries reply.2.entries call.cacheKey (start.entryOf call.now call.resolved)
  cached : call.literal = none → cache.consults call = false →
    ∃ earlier, start.lastResolved call.cacheKey past = some earlier ∧
      call.now < (start.entryOf earlier.now earlier.resolved).validUntil ∧
      reply = (earlier.resolved.toOption, cache)

theorem answer_entryOf (now : Nat) (resolved : Except Error SocketAddr) :
    (self.entryOf now resolved).answer = resolved.toOption := by
  cases resolved <;> rfl

theorem answers_resolveWith (positiveTtl negativeTtl : Nat) {capacity : Nat}
    (positive : 1 ≤ capacity) (past : List (Call Error)) (call : Call Error) :
    Answers (new positiveTtl negativeTtl capacity) past call
      (run resolveWith (new positiveTtl negativeTtl capacity) past)
      (resolveWith (run resolveWith (new positiveTtl negativeTtl capacity) past) call) := by
  have sound := sound_run positiveTtl negativeTtl positive past
  have after := sound_run positiveTtl negativeTtl positive (past ++ [call])
  rw [run_append, run_cons, run_nil] at after
  generalize begun : new positiveTtl negativeTtl capacity = start at sound after ⊢
  generalize run resolveWith start past = cache at sound after ⊢
  obtain ⟨size, forPositive, forNegative⟩ := sound.settings
  have bound := after.capped
  rw [after.settings.1] at bound
  obtain ⟨ip, literal, quiet, same⟩ | ⟨entry, named, quiet, found, live, same⟩ |
      ⟨named, asked, same⟩ := resolveWith_cases cache call
  · refine ⟨bound, ?_, fun asked => ?_, fun named => ?_⟩
    · intro other known
      rw [same, Option.some.inj (literal.symm.trans known)]
    · rw [quiet] at asked
      cases asked
    · rw [literal] at named
      cases named
  · refine ⟨bound, fun ip literal => ?_, fun asked => ?_, fun _ _ => ?_⟩
    · rw [named] at literal
      cases literal
    · rw [quiet] at asked
      cases asked
    · obtain ⟨earlier, last, stored⟩ := sound.sourced call.cacheKey entry found
      refine ⟨earlier, last, ?_, ?_⟩
      · rw [← stored]
        exact Nat.lt_of_not_le (of_decide_eq_false live)
      · rw [same, stored, answer_entryOf]
  · refine ⟨bound, fun ip literal => ?_, fun _ => ?_, fun _ quiet => ?_⟩
    · rw [named] at literal
      cases literal
    · have room : 1 ≤ cache.capacity := by
        rw [size, ← begun]
        exact positive
      have new_ := ask_inserted room sound.unique (sound.capped) call
      rw [size, entryOf_settings call.now call.resolved forPositive forNegative] at new_
      rw [same]
      exact ⟨answer_entryOf _ _, new_⟩
    · rw [asked] at quiet
      cases quiet

end WgResolveCache

section Whitelist
variable {idleTimeout capacity : Nat}

/-- The time of the last datagram to `target`. -/
def lastSent (target : SocketAddr) (sent : List Sent) : Option Nat :=
  (sent.reverse.find? fun call => call.target = target).map Sent.now

theorem lastSent_append (target : SocketAddr) (past : List Sent) (call : Sent) :
    lastSent target (past ++ [call]) =
      if call.target = target then some call.now else lastSent target past := by
  unfold lastSent
  rw [List.reverse_append, List.reverse_singleton, List.singleton_append, List.find?_cons]
  by_cases own : call.target = target
  · rw [decide_eq_true own, if_pos own]
    rfl
  · rw [decide_eq_false own, if_neg own]

/-- A target stands in the table with the time of its last datagram. -/
structure Listed (capacity : Nat) (targets : Targets) (past : List Sent) : Prop where
  capped : targets.length ≤ capacity
  unique : UniqueKeys targets
  sourced : ∀ target time, targets.lookup target = some time → lastSent target past = some time

theorem recorded (positive : 1 ≤ capacity) {targets : Targets} (unique : UniqueKeys targets)
    (capped : targets.length ≤ capacity) (sent : Sent) :
    Inserted (id : Nat → Nat) (fun lastSent => !decide (sent.now - lastSent ≤ idleTimeout))
      capacity targets (recordSentTarget idleTimeout capacity targets sent) sent.target sent.now :=
  inserted positive unique capped _ _

theorem recordAll_append (past : List Sent) (call : Sent) :
    recordAll idleTimeout capacity (past ++ [call]) =
      recordSentTarget idleTimeout capacity (recordAll idleTimeout capacity past) call :=
  List.foldl_append

theorem listed_recordAll (positive : 1 ≤ capacity) (past : List Sent) :
    Listed capacity (recordAll idleTimeout capacity past) past := by
  induction past using List.reverseRecOn with
  | nil => exact ⟨Nat.zero_le _, List.nodup_nil, fun _ _ found => nomatch found⟩
  | append_singleton past call ih =>
      have new_ := @recorded idleTimeout _ positive _ ih.unique ih.capped call
      rw [recordAll_append]
      refine ⟨new_.capped, new_.unique, ?_⟩
      intro target time found
      rw [lastSent_append]
      by_cases own : call.target = target
      · subst own
        rw [if_pos rfl]
        exact new_.present.symm.trans found
      · rw [if_neg own]
        exact ih.sourced target time (new_.sourced target time (Ne.symm own) found)

end Whitelist

/-- The cache and the whitelist keep within their bound after any calls, take in
what they are given, give up a valid entry only when none has expired and then
only the one nearest its end, and the cache answers from its text or, before the
expiry, with what the resolver last said. -/
theorem tables_keep (Error : Type) :
    (∀ positiveTtl negativeTtl capacity (past : List (Call Error)) call, 1 ≤ capacity →
      WgResolveCache.Answers (.new positiveTtl negativeTtl capacity) past call
        (run WgResolveCache.resolveWith (.new positiveTtl negativeTtl capacity) past)
        (WgResolveCache.resolveWith
          (run WgResolveCache.resolveWith (.new positiveTtl negativeTtl capacity) past) call)) ∧
    ∀ idleTimeout capacity past (sent : Sent), 1 ≤ capacity →
      Listed capacity (recordAll idleTimeout capacity past) past ∧
        Inserted (id : Nat → Nat) (fun lastSent => !decide (sent.now - lastSent ≤ idleTimeout))
          capacity (recordAll idleTimeout capacity past)
          (recordAll idleTimeout capacity (past ++ [sent])) sent.target sent.now := by
  constructor
  · intro positiveTtl negativeTtl capacity past call positive
    exact WgResolveCache.answers_resolveWith positiveTtl negativeTtl positive past call
  · intro idleTimeout capacity past sent positive
    have listed := @listed_recordAll idleTimeout _ positive past
    rw [recordAll_append]
    exact ⟨listed, recorded positive listed.unique listed.capped sent⟩

end Mirage.Udp.Sessions
