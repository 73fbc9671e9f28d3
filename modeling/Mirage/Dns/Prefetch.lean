import Mathlib.Data.List.Perm.Basic
import Mirage.Dns.Faithful
import Mirage.Lib.Notify

/-!
The cache together with the refresh tasks that hits near expiry start. A task
runs its exchange, then stores the answer or marks the failure, and after
storing clears the entry's mark. `puts` records what was stored and when.
-/

namespace Mirage.Dns
open Word Text Trace Notify

/-- A spawned refresh. Once its answer is `stored` only the clearing is left. -/
structure PrefetchTask where
  path : ResolvePath
  query : Bytes
  stored : Bool

structure StoredAnswer where
  key : CacheKey
  time : Nat
  response : Bytes

structure Serving where
  cache : DnsCache
  tasks : List PrefetchTask
  puts : List StoredAnswer

inductive ServingEvent where
  /-- A call of the query path. -/
  | call (call : Call)
  /-- The exchange of a refresh ends. -/
  | complete (index now : Nat) (result : Option Bytes) (rotation : Nat)
  | clear (index : Nat)

/-- Only a refresh task clears marks. -/
def Op.clears : Op → Bool
  | clearPrefetching => true
  | _ => false

/-- No answer, or SERVFAIL. -/
def isFailure : Option Bytes → Bool
  | none => true
  | some r => decide (r.length < 12 ∨ r.getD 3 0 &&& 0x0F = 2)

section Machine
variable (table : CaseTable)

def storedBy (call : Call) : Option StoredAnswer :=
  match call.op with
  | .put response _ =>
      (cacheTtl response).bind fun _ =>
        (queryKey table call.path call.query).map fun key => ⟨key, call.now, response⟩
  | _ => none

/-- The task's exchange for this key is still running. -/
def PrefetchTask.runs (key : CacheKey) (task : PrefetchTask) : Bool :=
  !task.stored && queryKey table task.path task.query = some key

namespace Serving

def start (maxEntries : Nat) : Serving := ⟨.new maxEntries, [], []⟩

def perform (state : Serving) (call : Call) : Serving :=
  { state with
    cache := (callStep table state.cache call).2
    puts := state.puts ++ (storedBy table call).toList }

def completion (result : Option Bytes) (rotation : Nat) : Op :=
  match result with
  | some response => if isFailure (some response) then .markFailed else .put response rotation
  | none => .markFailed

def step (state : Serving) : ServingEvent → Option Serving
  | .call call =>
      if call.op.clears then none
      else
        let next := state.perform table call
        match (callStep table state.cache call).1 with
        | .fresh _ true => some { next with tasks := state.tasks ++ [⟨call.path, call.query, false⟩] }
        | _ => some next
  | .complete index now result rotation =>
      match state.tasks[index]? with
      | some ⟨path, query, false⟩ =>
          let next := state.perform table ⟨now, path, query, completion result rotation⟩
          if isFailure result then some { next with tasks := state.tasks.eraseIdx index }
          else some { next with tasks := state.tasks.set index ⟨path, query, true⟩ }
      | _ => none
  | .clear index =>
      match state.tasks[index]? with
      | some ⟨path, query, true⟩ =>
          some { state.perform table ⟨0, path, query, .clearPrefetching⟩ with
            tasks := state.tasks.eraseIdx index }
      | _ => none

/-- The running refreshes of a key. -/
def outstanding (state : Serving) (key : CacheKey) : Nat :=
  state.tasks.countP (PrefetchTask.runs table key)

end Serving
end Machine

section Effects
variable {table : CaseTable} {cache : DnsCache} {call : Call}

/-- Everything a call can do to the cache, with its reply. -/
inductive Effect (table : CaseTable) (cache : DnsCache) (call : Call) : Reply → DnsCache → Prop where
  | skip : Effect table cache call .nothing cache
  | hit {key entry} (keyed : queryKey table call.path call.query = some key)
      (found : cache.lookup key = some entry) (alive : call.now < entry.expiry) :
      Effect table cache call (.fresh (patchForQuery entry.response call.query) false) cache
  | prefetch {key entry} (keyed : queryKey table call.path call.query = some key)
      (found : cache.lookup key = some entry) (alive : call.now < entry.expiry)
      (unmarked : entry.prefetching = false) :
      Effect table cache call (.fresh (patchForQuery entry.response call.query) true)
        (cache.modify key fun e => { e with prefetching := true })
  | stale {key entry failed} (keyed : queryKey table call.path call.query = some key)
      (found : cache.lookup key = some entry) (positive : entry.negative = false)
      (expired : entry.expiry ≤ call.now) (within : call.now - entry.expiry < staleWindow) :
      Effect table cache call
        (.stale (setAnswerTtls (patchForQuery entry.response call.query) staleTtl) failed) cache
  | expired {key} : Effect table cache call .nothing (cache.remove key)
  | failed {key} (keyed : queryKey table call.path call.query = some key)
      (op : call.op = .markFailed) :
      Effect table cache call .nothing
        (cache.modify key fun e => { e with failedAt := some call.now, prefetching := false })
  | cleared {key} (keyed : queryKey table call.path call.query = some key)
      (op : call.op = .clearPrefetching) :
      Effect table cache call .nothing (cache.modify key fun e => { e with prefetching := false })
  | stored {key ttl negative response rotation}
      (keyed : queryKey table call.path call.query = some key) (op : call.op = .put response rotation)
      (cached : cacheTtl response = some (ttl, negative)) :
      Effect table cache call .nothing
        ((cache.evict call.now rotation key).insert key {
          response := response
          expiry := call.now + ttl * second
          ttl := ttl * second
          negative := negative
          failedAt := none
          prefetching := false })

variable {domain : String} {qtype : Nat} {response : Bytes}

theorem get_effect (keyed : queryKey table call.path call.query =
    cacheKey call.path domain qtype call.query) :
    Effect table cache call
      (freshReply ((cache.get call.now call.path domain qtype call.query).map (·, false))) cache := by
  cases got : cache.get call.now call.path domain qtype call.query with
  | none => exact .skip
  | some response =>
      obtain ⟨key, entry, found, located, alive, _, rfl⟩ := DnsCache.get_eq_some.mp got
      exact .hit (keyed.trans found) located alive

theorem getWithPrefetch_effect (keyed : queryKey table call.path call.query =
    cacheKey call.path domain qtype call.query) :
    Effect table cache call
      (freshReply (cache.getWithPrefetch call.now call.path domain qtype call.query).1)
      (cache.getWithPrefetch call.now call.path domain qtype call.query).2 := by
  rw [DnsCache.getWithPrefetch]
  split
  case h_1 => exact .skip
  case h_2 key found =>
    split
    case h_1 => exact .skip
    case h_2 entry located =>
      split
      case isTrue => exact .skip
      case isFalse alive =>
        split
        case isTrue => exact .skip
        case isFalse =>
          split
          case isTrue due =>
            simp only [DnsCache.CacheEntry.shouldPrefetch, Bool.and_eq_true, Bool.not_eq_true'] at due
            exact .prefetch (keyed.trans found) located (Nat.lt_of_not_le alive) due.1.2
          case isFalse => exact .hit (keyed.trans found) located (Nat.lt_of_not_le alive)

theorem getStale_effect (keyed : queryKey table call.path call.query =
    cacheKey call.path domain qtype call.query) :
    Effect table cache call
      (staleReply (cache.getStaleWithRecheck call.now call.path domain qtype call.query).1)
      (cache.getStaleWithRecheck call.now call.path domain qtype call.query).2 := by
  rw [DnsCache.getStaleWithRecheck]
  split
  case h_1 => exact .skip
  case h_2 key found =>
    split
    case h_1 => exact .skip
    case h_2 entry located =>
      split
      case isTrue => exact .skip
      case isFalse positive =>
        split
        case isTrue => exact .skip
        case isFalse expired =>
          split
          case isTrue => exact .expired
          case isFalse within =>
            split
            case isTrue => exact .skip
            case isFalse =>
              exact .stale (keyed.trans found) located (Bool.not_eq_true _ ▸ positive)
                (Nat.le_of_not_lt expired) (Nat.lt_of_not_le within)

theorem callStep_effect (table : CaseTable) (cache : DnsCache) (call : Call) :
    Effect table cache call (callStep table cache call).1 (callStep table cache call).2 := by
  rw [callStep]
  cases read : named table call.query with
  | none => exact .skip
  | some args =>
      obtain ⟨domain, qtype⟩ := args
      have keyed := @queryKey_of_named table call.path call.query domain qtype read
      cases op : call.op with
      | put response rotation =>
          dsimp only
          rw [DnsCache.put]
          split
          case h_1 key ttl negative found cached => exact .stored (keyed.trans found) op cached
          case h_2 => exact .skip
      | get => exact get_effect keyed
      | getWithPrefetch => exact getWithPrefetch_effect keyed
      | getStale => exact getStale_effect keyed
      | markFailed =>
          dsimp only
          rw [DnsCache.markFailed]
          split
          case h_1 => exact .skip
          case h_2 key found => exact .failed (keyed.trans found) op
      | clearPrefetching =>
          dsimp only
          rw [DnsCache.clearPrefetching]
          split
          case h_1 => exact .skip
          case h_2 key found => exact .cleared (keyed.trans found) op

namespace Effect
variable {reply : Reply} {next : DnsCache} {key : CacheKey} {entry : CacheEntry}

def resets (table : CaseTable) (cache : DnsCache) (call : Call) : Option CacheKey :=
  match call.op with
  | .put response _ =>
      (cacheTtl response).bind fun _ => queryKey table call.path call.query
  | .markFailed =>
      (queryKey table call.path call.query).filter fun key => (cache.lookup key).isSome
  | .clearPrefetching => queryKey table call.path call.query
  | _ => none

theorem resets_key (reset : resets table cache call = some key) :
    queryKey table call.path call.query = some key := by
  unfold resets at reset
  split at reset
  · obtain ⟨_, _, keyed⟩ := Option.bind_eq_some_iff.mp reset
    exact keyed
  · exact (Option.filter_eq_some_iff.mp reset).1
  · exact reset
  · cases reset

theorem lookup_of_mem (member : (key, entry) ∈ cache.map) : (cache.lookup key).isSome = true := by
  rw [DnsCache.lookup, Option.isSome_map, List.find?_isSome]
  exact ⟨_, member, decide_eq_true rfl⟩

theorem mem_modify_marks {other : CacheKey} {change : CacheEntry → CacheEntry}
    (member : (key, entry) ∈ (cache.modify other change).map) :
    ∃ before, (key, before) ∈ cache.map ∧
      entry = if key = other then change before else before := by
  obtain ⟨item, inMap, same⟩ := List.mem_map.mp member
  split at same
  case isTrue hit =>
    obtain ⟨rfl, rfl⟩ := Prod.mk.inj same
    exact ⟨item.2, inMap, (if_pos hit).symm⟩
  case isFalse miss =>
    cases same
    exact ⟨entry, inMap, (if_neg miss).symm⟩

/-- An entry of a key that is not reset was there before and keeps its mark. -/
theorem marks (effect : Effect table cache call reply next)
    (undisturbed : resets table cache call ≠ some key) (member : (key, entry) ∈ next.map) :
    ∃ before, (key, before) ∈ cache.map ∧ (before.prefetching = true → entry.prefetching = true) := by
  cases effect with
  | skip | hit | stale => exact ⟨entry, member, id⟩
  | @prefetch other located keyed found alive unmarked =>
      obtain ⟨before, inMap, rfl⟩ := mem_modify_marks member
      refine ⟨before, inMap, fun marked => ?_⟩
      split
      · rfl
      · exact marked
  | expired => exact ⟨entry, DnsCache.mem_remove member, id⟩
  | @failed other keyed op =>
      obtain ⟨before, inMap, rfl⟩ := mem_modify_marks member
      have miss : key ≠ other := by
        rintro rfl
        apply undisturbed
        rw [resets, op, keyed]
        exact Option.filter_some_pos (lookup_of_mem inMap)
      rw [if_neg miss]
      exact ⟨before, inMap, id⟩
  | @cleared other keyed op =>
      obtain ⟨before, inMap, rfl⟩ := mem_modify_marks member
      have miss : key ≠ other := by
        rintro rfl
        apply undisturbed
        rw [resets, op, keyed]
      rw [if_neg miss]
      exact ⟨before, inMap, id⟩
  | @stored other ttl negative response rotation keyed op cached =>
      rcases DnsCache.mem_insert member with ⟨rfl, _⟩ | kept
      · refine absurd ?_ undisturbed
        rw [resets, op]
        dsimp only
        rw [cached, keyed, Option.bind_some]
      · exact ⟨entry, DnsCache.mem_evict kept, id⟩

/-- A hit that starts a refresh finds the entry unmarked and marks it. -/
theorem starts (effect : Effect table cache call reply next) {response : Bytes}
    (started : reply = .fresh response true) :
    ∃ key, queryKey table call.path call.query = some key ∧
      (∃ entry, (key, entry) ∈ cache.map ∧ entry.prefetching = false) ∧
      ∀ entry, (key, entry) ∈ next.map → entry.prefetching = true := by
  cases effect with
  | @prefetch key located keyed found alive unmarked =>
      refine ⟨key, keyed, ⟨located, DnsCache.mem_of_lookup found, unmarked⟩, ?_⟩
      intro entry member
      obtain ⟨before, _, rfl⟩ := mem_modify_marks member
      rw [if_pos rfl]
  | skip | hit | stale | expired | failed | cleared | stored => cases started

theorem maxEntries_eq (effect : Effect table cache call reply next) :
    next.maxEntries = cache.maxEntries := by
  cases effect with
  | stored =>
      unfold DnsCache.insert DnsCache.evict DnsCache.remove
      dsimp only
      split
      · rfl
      · split
        · rfl
        · split <;> rfl
  | _ => rfl

theorem length_remove_lt (member : (key, entry) ∈ cache.map) :
    (cache.remove key).map.length < cache.map.length := by
  apply List.length_filter_lt_length_iff_exists.mpr
  exact ⟨_, member, by simp only [ne_eq, not_true_eq_false, decide_false, Bool.false_eq_true,
    not_false_eq_true]⟩

theorem length_remove_le (key : CacheKey) : (cache.remove key).map.length ≤ cache.map.length :=
  List.length_filter_le _ _

theorem length_evict (now rotation : Nat) (some : 0 < cache.maxEntries)
    (fits : cache.map.length ≤ cache.maxEntries) :
    ((cache.evict now rotation key).remove key).map.length < cache.maxEntries := by
  unfold DnsCache.evict
  split
  case isTrue room =>
    rcases room with less | present
    · exact (length_remove_le key).trans_lt less
    · obtain ⟨entry, found⟩ := Option.isSome_iff_exists.mp present
      exact (length_remove_lt (DnsCache.mem_of_lookup found)).trans_le fits
  case isFalse =>
    dsimp only
    split
    case isTrue less => exact (List.length_filter_le _ _).trans_lt less
    case isFalse full =>
      have kept := (List.length_filter_le
        (fun item : CacheKey × CacheEntry => decide (now - item.2.expiry < staleWindow))
        cache.map).trans fits
      split
      case h_1 none =>
        -- Nothing is found in a walk only when nothing is kept.
        have empty := (Option.or_eq_none_iff.mp none).2
        rw [Option.map_eq_none_iff, List.head?_eq_none_iff, List.rotate_eq_nil_iff] at empty
        rw [empty] at full
        exact absurd some full
      case h_2 victim chosen =>
        refine (length_remove_le key).trans_lt ((?_ : _ < _).trans_le kept)
        have walked : ∃ entry, (victim, entry) ∈ (cache.map.filter fun item =>
            decide (now - item.2.expiry < staleWindow)).rotate rotation := by
          rcases Option.or_eq_some_iff.mp chosen with first | ⟨_, first⟩
          · obtain ⟨item, located, rfl⟩ := Option.map_eq_some_iff.mp first
            exact ⟨item.2, List.mem_of_find?_eq_some located⟩
          · obtain ⟨item, located, rfl⟩ := Option.map_eq_some_iff.mp first
            exact ⟨item.2, List.mem_of_mem_head? located⟩
        obtain ⟨entry, inside⟩ := walked
        exact @length_remove_lt { cache with map := _ } victim entry (List.mem_rotate.mp inside)

theorem length_le (effect : Effect table cache call reply next) (some : 0 < cache.maxEntries)
    (fits : cache.map.length ≤ cache.maxEntries) : next.map.length ≤ cache.maxEntries := by
  cases effect with
  | skip | hit | stale => exact fits
  | expired => exact (length_remove_le _).trans fits
  | prefetch | failed | cleared =>
      rw [DnsCache.modify, List.length_map]
      exact fits
  | stored => exact length_evict call.now _ some fits

def Keeps (answer : StoredAnswer) (entry : CacheEntry) : Prop :=
  ∃ ttl, cacheTtl answer.response = some (ttl, entry.negative) ∧ entry.response = answer.response ∧
    entry.expiry = answer.time + ttl * second

def Logged (puts : List StoredAnswer) (cache : DnsCache) : Prop :=
  ∀ key entry, (key, entry) ∈ cache.map → ∃ answer ∈ puts, answer.key = key ∧ Keeps answer entry

theorem Logged.modify {puts : List StoredAnswer} (logged : Logged puts cache) {other : CacheKey}
    {change : CacheEntry → CacheEntry}
    (same : ∀ e, (change e).response = e.response ∧ (change e).expiry = e.expiry ∧
      (change e).negative = e.negative) : Logged puts (cache.modify other change) := by
  intro key entry member
  obtain ⟨before, inMap, rfl⟩ := mem_modify_marks member
  obtain ⟨answer, listed, sameKey, ttl, cached, response, expiry⟩ := logged key before inMap
  refine ⟨answer, listed, sameKey, ttl, ?_⟩
  obtain ⟨r, x, n⟩ := same before
  split
  · exact ⟨n ▸ cached, r.trans response, x.trans expiry⟩
  · exact ⟨cached, response, expiry⟩

theorem logged (effect : Effect table cache call reply next) {puts : List StoredAnswer}
    (before : Logged puts cache) : Logged (puts ++ (storedBy table call).toList) next := by
  have later : ∀ {cache}, Logged puts cache →
      Logged (puts ++ (storedBy table call).toList) cache := by
    intro cache logged key entry member
    obtain ⟨answer, listed, keeps⟩ := logged key entry member
    exact ⟨answer, List.mem_append_left _ listed, keeps⟩
  cases effect with
  | skip | hit | stale => exact later before
  | expired => exact later fun key entry member => before key entry (DnsCache.mem_remove member)
  | prefetch => exact later (before.modify fun _ => ⟨rfl, rfl, rfl⟩)
  | failed => exact later (before.modify fun _ => ⟨rfl, rfl, rfl⟩)
  | cleared => exact later (before.modify fun _ => ⟨rfl, rfl, rfl⟩)
  | @stored key ttl negative response rotation keyed op cached =>
      intro other entry member
      rcases DnsCache.mem_insert member with ⟨rfl, rfl⟩ | kept
      · refine ⟨⟨other, call.now, response⟩, List.mem_append_right _ ?_, rfl, ttl, cached, rfl, rfl⟩
        rw [storedBy, op]
        dsimp only
        rw [cached, keyed, Option.bind_some, Option.map_some, Option.toList_some]
        exact List.mem_singleton.mpr rfl
      · exact later before other entry (DnsCache.mem_evict kept)

end Effect

end Effects

namespace Serving
variable {table : CaseTable} {state next : Serving}

/-- The cache within its size and every entry as it was stored. -/
structure Sound (size : Nat) (state : Serving) : Prop where
  room : 0 < size
  limit : state.cache.maxEntries = size
  fits : state.cache.map.length ≤ size
  logged : Effect.Logged state.puts state.cache

theorem Sound.perform {size : Nat} (sound : state.Sound size) (call : Call) :
    (state.perform table call).Sound size := by
  have effect := callStep_effect table state.cache call
  have bounded := effect.length_le (sound.limit ▸ sound.room) (sound.limit ▸ sound.fits)
  exact ⟨sound.room, effect.maxEntries_eq.trans sound.limit, sound.limit ▸ bounded,
    effect.logged sound.logged⟩

theorem step_cases {event : ServingEvent} (stepped : state.step table event = some next) :
    (∃ call, event = .call call ∧ next = state.perform table call ∧
        ∀ response, (callStep table state.cache call).1 ≠ .fresh response true) ∨
      (∃ call response, event = .call call ∧
        (callStep table state.cache call).1 = .fresh response true ∧
        next = { state.perform table call with
          tasks := state.tasks ++ [⟨call.path, call.query, false⟩] }) ∨
      (∃ index now result rotation path query, event = .complete index now result rotation ∧
        state.tasks[index]? = some ⟨path, query, false⟩ ∧
        ∃ tasks, (tasks = state.tasks.eraseIdx index ∨
          tasks = state.tasks.set index ⟨path, query, true⟩) ∧
        next = { state.perform table ⟨now, path, query, completion result rotation⟩ with tasks }) ∨
      ∃ index path query, event = .clear index ∧ state.tasks[index]? = some ⟨path, query, true⟩ ∧
        next = { state.perform table ⟨0, path, query, .clearPrefetching⟩ with
          tasks := state.tasks.eraseIdx index } := by
  cases event with
  | call call =>
      rw [step] at stepped
      split at stepped
      case isTrue => cases stepped
      case isFalse =>
        dsimp only at stepped
        split at stepped
        case h_1 response started =>
          cases stepped
          exact .inr (.inl ⟨call, response, rfl, started, rfl⟩)
        case h_2 quiet =>
          cases stepped
          exact .inl ⟨call, rfl, rfl, quiet⟩
  | complete index now result rotation =>
      rw [step] at stepped
      split at stepped
      case h_1 path query here =>
        dsimp only at stepped
        split at stepped
        case isTrue =>
          cases stepped
          exact .inr (.inr (.inl ⟨index, now, result, rotation, path, query, rfl, here, _,
            .inl rfl, rfl⟩))
        case isFalse =>
          cases stepped
          exact .inr (.inr (.inl ⟨index, now, result, rotation, path, query, rfl, here, _,
            .inr rfl, rfl⟩))
      case h_2 => cases stepped
  | clear index =>
      rw [step] at stepped
      split at stepped
      case h_1 path query here =>
        cases stepped
        exact .inr (.inr (.inr ⟨index, path, query, rfl, here, rfl⟩))
      case h_2 => cases stepped

theorem Sound.step {size : Nat} {event : ServingEvent} (sound : state.Sound size)
    (stepped : state.step table event = some next) : next.Sound size := by
  obtain ⟨call, _, rfl, _⟩ | ⟨call, _, _, _, rfl⟩ | ⟨_, now, result, rotation, path, query, _, _,
    tasks, _, rfl⟩ | ⟨_, path, query, _, _, rfl⟩ := step_cases stepped
  · exact sound.perform call
  · have kept := @Sound.perform table state size sound call
    exact ⟨kept.room, kept.limit, kept.fits, kept.logged⟩
  · have kept := @Sound.perform table state size sound ⟨now, path, query, completion result rotation⟩
    exact ⟨kept.room, kept.limit, kept.fits, kept.logged⟩
  · have kept := @Sound.perform table state size sound ⟨0, path, query, .clearPrefetching⟩
    exact ⟨kept.room, kept.limit, kept.fits, kept.logged⟩

/-- While a key has a running refresh, its entry is marked; and it has one at most. -/
structure Guarded (table : CaseTable) (state : Serving) : Prop where
  one : ∀ key, state.outstanding table key ≤ 1
  marked : ∀ key, 0 < state.outstanding table key →
    ∀ entry, (key, entry) ∈ state.cache.map → entry.prefetching = true

/-- No other call takes the mark of a key that has a running refresh. -/
def Undisturbed (table : CaseTable) (state : Serving) : ServingEvent → Prop
  | .call call =>
      ∀ key, Effect.resets table state.cache call = some key → state.outstanding table key = 0
  | .complete .. => True
  | .clear index =>
      ∀ task, state.tasks[index]? = some task →
        ∀ key, queryKey table task.path task.query = some key → state.outstanding table key = 0

/-- A call that does not reset a key leaves the marks of its running refresh. -/
theorem Guarded.marked_perform (guarded : state.Guarded table) {call : Call} {key : CacheKey}
    (running : 0 < state.outstanding table key)
    (undisturbed : Effect.resets table state.cache call ≠ some key) {entry : CacheEntry}
    (member : (key, entry) ∈ (callStep table state.cache call).2.map) :
    entry.prefetching = true := by
  obtain ⟨before, inMap, keeps⟩ := (callStep_effect table state.cache call).marks undisturbed member
  exact keeps (guarded.marked key running before inMap)

theorem outstanding_eraseIdx {index : Nat} {task : PrefetchTask}
    (here : state.tasks[index]? = some task) (key : CacheKey) :
    (state.tasks.eraseIdx index).countP (PrefetchTask.runs table key) +
        (PrefetchTask.runs table key task).toNat = state.outstanding table key := by
  obtain ⟨inside, found⟩ := List.getElem?_eq_some_iff.mp here
  have reordered : (task :: state.tasks.eraseIdx index).Perm state.tasks :=
    found ▸ List.getElem_cons_eraseIdx_perm inside
  rw [outstanding, ← reordered.countP_eq, List.countP_cons]
  cases PrefetchTask.runs table key task <;> rfl

theorem runs_self {path : ResolvePath} {query : Bytes} {key : CacheKey} :
    PrefetchTask.runs table key ⟨path, query, false⟩ = true ↔ queryKey table path query = some key := by
  rw [PrefetchTask.runs, Bool.not_false, Bool.true_and, decide_eq_true_iff]

theorem runs_stored {path : ResolvePath} {query : Bytes} (key : CacheKey) :
    PrefetchTask.runs table key ⟨path, query, true⟩ = false := rfl

/-- What a completed or stored task leaves running. -/
theorem outstanding_after {index : Nat} {path : ResolvePath} {query : Bytes}
    {tasks : List PrefetchTask} (here : state.tasks[index]? = some ⟨path, query, false⟩)
    (how : tasks = state.tasks.eraseIdx index ∨ tasks = state.tasks.set index ⟨path, query, true⟩)
    (key : CacheKey) :
    tasks.countP (PrefetchTask.runs table key) +
        (PrefetchTask.runs table key ⟨path, query, false⟩).toNat = state.outstanding table key := by
  rcases how with rfl | rfl
  · exact outstanding_eraseIdx here key
  · have counted := countP_set (PrefetchTask.runs table key) here ⟨path, query, true⟩
    rw [runs_stored, Bool.toNat_false, Nat.add_zero] at counted
    exact counted

theorem Guarded.started (guarded : state.Guarded table) {call : Call} {response : Bytes}
    (hit : (callStep table state.cache call).1 = .fresh response true)
    (undisturbed : ∀ key, Effect.resets table state.cache call = some key →
      state.outstanding table key = 0) :
    Guarded table { state.perform table call with
      tasks := state.tasks ++ [⟨call.path, call.query, false⟩] } := by
  obtain ⟨own, keyed, ⟨entry, inMap, unmarked⟩, marks⟩ :=
    (callStep_effect table state.cache call).starts hit
  have none : state.outstanding table own = 0 := by
    apply Nat.eq_zero_of_not_pos
    intro running
    have marked := guarded.marked own running entry inMap
    rw [unmarked] at marked
    cases marked
  have counted : ∀ key, (state.tasks ++ [PrefetchTask.mk call.path call.query false]).countP
      (PrefetchTask.runs table key) = state.outstanding table key +
        (PrefetchTask.runs table key ⟨call.path, call.query, false⟩).toNat := fun key =>
    countP_append_one state.tasks (PrefetchTask.runs table key) ⟨call.path, call.query, false⟩
  have others : ∀ key, key ≠ own →
      PrefetchTask.runs table key ⟨call.path, call.query, false⟩ = false := by
    intro key differs
    rw [Bool.eq_false_iff]
    intro same
    rw [runs_self, keyed] at same
    exact differs (Option.some.inj same).symm
  constructor
  · intro key
    rw [outstanding, counted]
    by_cases same : key = own
    · rw [same, none, Nat.zero_add]
      exact Bool.toNat_le _
    · rw [others key same, Bool.toNat_false]
      exact guarded.one key
  · intro key running entry member
    by_cases same : key = own
    · exact marks entry (same ▸ member)
    · rw [outstanding, counted, others key same, Bool.toNat_false] at running
      apply guarded.marked_perform running _ member
      intro reset
      exact running.ne' (undisturbed key reset)

/-- The end of a running task: its own call may take its own mark. -/
theorem Guarded.completed (guarded : state.Guarded table) {index now : Nat}
    {result : Option Bytes} {rotation : Nat} {path : ResolvePath} {query : Bytes}
    {tasks : List PrefetchTask} (here : state.tasks[index]? = some ⟨path, query, false⟩)
    (how : tasks = state.tasks.eraseIdx index ∨ tasks = state.tasks.set index ⟨path, query, true⟩) :
    Guarded table { state.perform table ⟨now, path, query, completion result rotation⟩ with
      tasks } := by
  have left := @outstanding_after table state index path query tasks here how
  constructor
  · intro key
    exact (Nat.le_of_add_right_le (left key).le).trans (guarded.one key)
  · intro key running entry member
    have before : 0 < state.outstanding table key :=
      Nat.lt_of_lt_of_le running (Nat.le_of_add_right_le (left key).le)
    apply guarded.marked_perform before _ member
    intro reset
    -- The task itself runs for the key it resets, and is the only one.
    have own : queryKey table path query = some key := Effect.resets_key reset
    have count := left key
    rw [runs_self.mpr own, Bool.toNat_true] at count
    have most := guarded.one key
    have running : 0 < tasks.countP (PrefetchTask.runs table key) := running
    omega

theorem Guarded.step {event : ServingEvent} (guarded : state.Guarded table)
    (undisturbed : state.Undisturbed table event) (stepped : state.step table event = some next) :
    next.Guarded table := by
  obtain ⟨call, rfl, rfl, _⟩ | ⟨call, response, rfl, hit, rfl⟩ | ⟨index, now, result, rotation, path,
    query, rfl, here, tasks, how, rfl⟩ | ⟨index, path, query, rfl, here, rfl⟩ := step_cases stepped
  · refine ⟨guarded.one, fun key running entry member => ?_⟩
    apply guarded.marked_perform running _ member
    intro reset
    exact Nat.ne_of_gt running (undisturbed key reset)
  · exact guarded.started hit undisturbed
  · exact guarded.completed here how
  · have same : ∀ key, (state.tasks.eraseIdx index).countP (PrefetchTask.runs table key) =
        state.outstanding table key := fun key => outstanding_eraseIdx here key
    refine ⟨fun key => (same key).le.trans (guarded.one key), fun key running entry member => ?_⟩
    have before : 0 < state.outstanding table key := (same key) ▸ running
    apply guarded.marked_perform before _ member
    intro reset
    exact Nat.ne_of_gt before (undisturbed _ here key reset)

def Served (table : CaseTable) (state : Serving) (call : Call) (answer : StoredAnswer) : Prop :=
  answer ∈ state.puts ∧ queryKey table call.path call.query = some answer.key

/-- Whatever a call replies is an answer stored for its key, fresh before its
TTL is over, or stale and positive within the stale window. -/
theorem Sound.replies {size : Nat} (sound : state.Sound size) (call : Call) :
    (∀ response started, (callStep table state.cache call).1 = .fresh response started →
        ∃ answer ttl negative, state.Served table call answer ∧
          cacheTtl answer.response = some (ttl, negative) ∧
          response = patchForQuery answer.response call.query ∧
          call.now < answer.time + ttl * second) ∧
      ∀ response failed, (callStep table state.cache call).1 = .stale response failed →
        ∃ answer ttl, state.Served table call answer ∧
          cacheTtl answer.response = some (ttl, false) ∧
          response = setAnswerTtls (patchForQuery answer.response call.query) staleTtl ∧
          answer.time + ttl * second ≤ call.now ∧
          call.now < answer.time + ttl * second + staleWindow := by
  have effect := callStep_effect table state.cache call
  have origin : ∀ {key entry}, queryKey table call.path call.query = some key →
      state.cache.lookup key = some entry →
      ∃ answer, state.Served table call answer ∧ Effect.Keeps answer entry := by
    intro key entry keyed found
    obtain ⟨answer, listed, same, keeps⟩ := sound.logged key entry (DnsCache.mem_of_lookup found)
    exact ⟨answer, ⟨listed, same ▸ keyed⟩, keeps⟩
  generalize (callStep table state.cache call).1 = reply at effect
  generalize (callStep table state.cache call).2 = cache at effect
  constructor
  · rintro response started rfl
    cases effect with
    | hit keyed found alive | prefetch keyed found alive _ =>
        obtain ⟨answer, served, ttl, cached, same, expiry⟩ := origin keyed found
        exact ⟨answer, ttl, _, served, cached, by rw [same], expiry ▸ alive⟩
  · rintro response failed rfl
    cases effect with
    | stale keyed found positive expired within =>
        obtain ⟨answer, served, ttl, cached, same, expiry⟩ := origin keyed found
        rw [positive] at cached
        refine ⟨answer, ttl, served, cached, by rw [same], expiry ▸ expired, ?_⟩
        rw [expiry] at within expired
        omega

end Serving

/-- In every run the cache stays within its size and serves only what is in
time, and no negative answer stale. A key has at most one refresh running as
long as no other call takes its mark meanwhile. -/
theorem cache_representation (table : CaseTable) (maxEntries : Nat) {events : List ServingEvent}
    {final : Serving}
    (followed : follow (Serving.step table) (.start maxEntries) events = some final) :
    final.cache.map.length ≤ max maxEntries 1 ∧
      (∀ call,
        (∀ response started, (callStep table final.cache call).1 = .fresh response started →
          ∃ answer ttl negative, final.Served table call answer ∧
            cacheTtl answer.response = some (ttl, negative) ∧
            response = patchForQuery answer.response call.query ∧
            call.now < answer.time + ttl * second) ∧
        ∀ response failed, (callStep table final.cache call).1 = .stale response failed →
          ∃ answer ttl, final.Served table call answer ∧
            cacheTtl answer.response = some (ttl, false) ∧
            response = setAnswerTtls (patchForQuery answer.response call.query) staleTtl ∧
            answer.time + ttl * second ≤ call.now ∧
            call.now < answer.time + ttl * second + staleWindow) ∧
      (Throughout (Serving.step table) (Serving.Undisturbed table) (.start maxEntries) events →
        ∀ key, final.outstanding table key ≤ 1) := by
  have initial : (Serving.start maxEntries).Sound (max maxEntries 1) :=
    ⟨Nat.lt_of_lt_of_le Nat.one_pos (Nat.le_max_right _ _), rfl, Nat.zero_le _,
      fun _ _ member => by cases member⟩
  have sound := follow_keeps (Serving.Sound (max maxEntries 1))
    (fun before stepped => before.step stepped) initial followed
  refine ⟨sound.fits, fun call => sound.replies call, fun undisturbed => ?_⟩
  have guarded : final.Guarded table :=
    follow_invariant (Serving.Guarded table)
      (fun before allowed stepped => before.step allowed stepped)
      ⟨fun _ => Nat.zero_le _, fun _ _ _ member => by cases member⟩
      followed undisturbed
  exact guarded.one

section Samples

def textQuestion : Bytes := 4 :: utf8 "bank" ++ 3 :: utf8 "com" ++ [0, 0, 16, 0, 1]

def sizedQuery (size : Nat) : Bytes :=
  [0x12, 0x34, 0x01, 0x00, 0, 1, 0, 0, 0, 0, 0, 1] ++ textQuestion ++
    [0, 0, 41, UInt8.ofNat (size / 256), UInt8.ofNat size, 0, 0, 0, 0, 0, 0]

/-- A TXT answer that is good for 300 seconds, 668 bytes in all. -/
def longText : Bytes :=
  [0x12, 0x34, 0x81, 0x80, 0, 1, 0, 1, 0, 0, 0, 0] ++ textQuestion ++
    [0xC0, 0x0C, 0, 16, 0, 1, 0, 0, 1, 0x2C, 2, 0x76] ++ List.replicate 630 0

def bankKey : CacheKey := ⟨.cn, "bank.com", 16, false, false, 1⟩

def bankEntry : CacheEntry :=
  ⟨longText, 300 * second, 300 * second, false, none, false⟩

def refreshTask (stored : Bool) : PrefetchTask := ⟨.cn, sizedQuery 1200, stored⟩

def holding (entry : CacheEntry) (tasks : List PrefetchTask) (puts : List StoredAnswer) : Serving :=
  ⟨⟨[(bankKey, entry)], 8⟩, tasks, puts⟩

theorem sized_read :
    (named sampleCase (sizedQuery 1200) = some ("bank.com", 16) ∧
      named sampleCase (sizedQuery 600) = some ("bank.com", 16)) ∧
    (cacheKey .cn "bank.com" 16 (sizedQuery 1200) = some bankKey ∧
      cacheKey .cn "bank.com" 16 (sizedQuery 600) = some bankKey) ∧
    (ednsInfo (sizedQuery 1200)).maxUdp = 1200 ∧ (ednsInfo (sizedQuery 600)).maxUdp = 600 ∧
    cacheTtl longText = some (300, false) ∧ longText.length = 668 := by
  decide +kernel

theorem named_sized : named sampleCase (sizedQuery 1200) = some ("bank.com", 16) ∧
    named sampleCase (sizedQuery 600) = some ("bank.com", 16) :=
  sized_read.1

theorem cacheKey_sized : cacheKey .cn "bank.com" 16 (sizedQuery 1200) = some bankKey ∧
    cacheKey .cn "bank.com" 16 (sizedQuery 600) = some bankKey :=
  sized_read.2.1

theorem queryKey_sized : queryKey sampleCase .cn (sizedQuery 1200) = some bankKey ∧
    queryKey sampleCase .cn (sizedQuery 600) = some bankKey :=
  ⟨(queryKey_of_named named_sized.1).trans cacheKey_sized.1,
    (queryKey_of_named named_sized.2).trans cacheKey_sized.2⟩

theorem maxUdp_sized : (ednsInfo (sizedQuery 1200)).maxUdp = 1200 ∧
    (ednsInfo (sizedQuery 600)).maxUdp = 600 :=
  ⟨sized_read.2.2.1, sized_read.2.2.2.1⟩

theorem longText_ttl : cacheTtl longText = some (300, false) := sized_read.2.2.2.2.1

theorem longText_length : longText.length = 668 := sized_read.2.2.2.2.2

section Runs
variable {entry : CacheEntry} {tasks : List PrefetchTask} {puts : List StoredAnswer} {now : Nat}

theorem step_put : (Serving.start 8).step sampleCase
    (.call ⟨0, .cn, sizedQuery 1200, .put longText 0⟩) =
      some (holding bankEntry [] [⟨bankKey, 0, longText⟩]) := by
  simp only [Serving.step, Op.clears, callStep, named_sized.1, Serving.perform, DnsCache.put,
    cacheKey_sized.1, longText_ttl, storedBy, queryKey_sized.1]
  rfl

theorem step_refresh (alive : now < entry.expiry) (fits : entry.response.length ≤ 1200)
    (due : DnsCache.CacheEntry.shouldPrefetch entry now = true) :
    (holding entry tasks puts).step sampleCase
        (.call ⟨now, .cn, sizedQuery 1200, .getWithPrefetch⟩) =
      some (holding { entry with prefetching := true } (tasks ++ [refreshTask false]) puts) := by
  have located : (holding entry tasks puts).cache.lookup bankKey = some entry := rfl
  simp only [Serving.step, Op.clears, callStep, named_sized.1, Serving.perform,
    DnsCache.getWithPrefetch, cacheKey_sized.1, storedBy, located, if_neg (Nat.not_le.mpr alive),
    maxUdp_sized.1, if_neg (Nat.not_lt.mpr fits), if_pos due, freshReply, Option.toList_none,
    List.append_nil]
  rfl

/-- The other client's reads find nothing for it. -/
theorem step_misses (alive : now < entry.expiry) (long : 600 < entry.response.length)
    (positive : entry.negative = false) :
    (holding entry tasks puts).step sampleCase
        (.call ⟨now, .cn, sizedQuery 600, .getWithPrefetch⟩) = some (holding entry tasks puts) ∧
      (holding entry tasks puts).step sampleCase (.call ⟨now, .cn, sizedQuery 600, .getStale⟩) =
        some (holding entry tasks puts) := by
  have located : (holding entry tasks puts).cache.lookup bankKey = some entry := rfl
  constructor
  · simp only [Serving.step, Op.clears, callStep, named_sized.2, Serving.perform,
      DnsCache.getWithPrefetch, cacheKey_sized.2, storedBy, located,
      if_neg (Nat.not_le.mpr alive), maxUdp_sized.2, if_pos long, freshReply, Option.toList_none,
      List.append_nil]
    rfl
  · simp only [Serving.step, Op.clears, callStep, named_sized.2, Serving.perform,
      DnsCache.getStaleWithRecheck, cacheKey_sized.2, storedBy, located, positive, if_pos alive,
      staleReply, Option.toList_none, List.append_nil]
    rfl

theorem step_fails :
    (holding entry tasks puts).step sampleCase (.call ⟨now, .cn, sizedQuery 600, .markFailed⟩) =
      some (holding { entry with failedAt := some now, prefetching := false } tasks puts) := by
  simp only [Serving.step, Op.clears, callStep, named_sized.2, Serving.perform,
    DnsCache.markFailed, cacheKey_sized.2, storedBy, Option.toList_none, List.append_nil]
  rfl

end Runs

/-- A hit near expiry starts a refresh. A client with less room cannot use the
entry, and its own exchange fails. The next hit starts another refresh. -/
def refreshedTwice : List ServingEvent :=
  [.call ⟨0, .cn, sizedQuery 1200, .put longText 0⟩,
    .call ⟨275 * second, .cn, sizedQuery 1200, .getWithPrefetch⟩,
    .call ⟨276 * second, .cn, sizedQuery 600, .getWithPrefetch⟩,
    .call ⟨276 * second, .cn, sizedQuery 600, .getStale⟩,
    .call ⟨277 * second, .cn, sizedQuery 600, .markFailed⟩,
    .call ⟨278 * second, .cn, sizedQuery 1200, .getWithPrefetch⟩]

theorem two_refreshes_outstanding : ∃ final,
    follow (Serving.step sampleCase) (.start 8) refreshedTwice = some final ∧
      final.outstanding sampleCase bankKey = 2 := by
  have long : 600 < longText.length ∧ longText.length ≤ 1200 := by
    rw [longText_length]
    decide
  have runs : PrefetchTask.runs sampleCase bankKey (refreshTask false) = true :=
    Serving.runs_self.mpr queryKey_sized.1
  refine ⟨holding { bankEntry with failedAt := some (277 * second), prefetching := true }
    [refreshTask false, refreshTask false] [⟨bankKey, 0, longText⟩], ?_, ?_⟩
  · simp only [refreshedTwice, follow, step_put, Option.bind_some]
    rw [step_refresh (by decide) long.2 (by decide), Option.bind_some,
      (step_misses (by decide) long.1 rfl).1, Option.bind_some,
      (step_misses (by decide) long.1 rfl).2, Option.bind_some, step_fails, Option.bind_some,
      step_refresh (by decide) long.2 (by decide)]
    rfl
  · simp only [Serving.outstanding, holding, List.countP_cons, runs, List.countP_nil, reduceIte]

def refreshedOnce : List ServingEvent :=
  [.call ⟨0, .cn, sizedQuery 1200, .put longText 0⟩,
    .call ⟨275 * second, .cn, sizedQuery 1200, .getWithPrefetch⟩]

theorem one_refresh_outstanding : ∃ final,
    follow (Serving.step sampleCase) (.start 8) refreshedOnce = some final ∧
      final.outstanding sampleCase bankKey = 1 ∧
      final.cache.map.length ≤ max 8 1 ∧ ∀ key, final.outstanding sampleCase key ≤ 1 := by
  have fits : longText.length ≤ 1200 := by
    rw [longText_length]
    decide
  have runs : PrefetchTask.runs sampleCase bankKey (refreshTask false) = true :=
    Serving.runs_self.mpr queryKey_sized.1
  let final := holding { bankEntry with prefetching := true } [refreshTask false]
    [⟨bankKey, 0, longText⟩]
  have refreshed : (holding bankEntry [] [⟨bankKey, 0, longText⟩]).step sampleCase
      (.call ⟨275 * second, .cn, sizedQuery 1200, .getWithPrefetch⟩) = some final :=
    step_refresh (by decide) fits (by decide)
  have followed : follow (Serving.step sampleCase) (.start 8) refreshedOnce = some final := by
    rw [refreshedOnce, follow, step_put, Option.bind_some, follow, refreshed, Option.bind_some,
      follow]
  have undisturbed : Throughout (Serving.step sampleCase) (Serving.Undisturbed sampleCase)
      (.start 8) refreshedOnce :=
    throughout_cons (fun _ _ => rfl) step_put
      (throughout_cons (fun _ reset => (by cases reset)) refreshed trivial)
  have represented := cache_representation sampleCase 8 followed
  refine ⟨final, followed, ?_, represented.1, represented.2.2 undisturbed⟩
  simp only [Serving.outstanding, final, holding, List.countP_cons, runs, List.countP_nil,
    reduceIte]

end Samples

end Mirage.Dns
