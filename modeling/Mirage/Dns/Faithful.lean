import Mirage.Dns.Cache

/-!
What a cache hit is made of, over every sequence of calls. Each stored entry is
a response that some earlier call put under the same key, so a hit is such a
response with the id and question of the client, where it has a question that
can be replaced.
-/

namespace Mirage.Dns
open Word Text Trace

inductive Op where
  | put (response : Bytes) (rotation : Nat)
  | get
  | getWithPrefetch
  | getStale
  | markFailed
  | clearPrefetching

structure Call where
  now : Nat
  path : ResolvePath
  query : Bytes
  op : Op

inductive Reply where
  | nothing
  | fresh (response : Bytes) (shouldPrefetch : Bool)
  | stale (response : Bytes) (failedRecently : Bool)
  deriving DecidableEq

section Machine
variable (table : CaseTable)

/-- Domain and type as `process_query` hands them on. -/
def named (query : Bytes) : Option (String × Nat) :=
  (extractDomain table query).map fun domain =>
    (toLowercase table domain, (getQtype query).getD 0)

def freshReply : Option (Bytes × Bool) → Reply
  | some (response, shouldPrefetch) => .fresh response shouldPrefetch
  | none => .nothing

def staleReply : Option (Bytes × Bool) → Reply
  | some (response, failedRecently) => .stale response failedRecently
  | none => .nothing

def callStep (cache : DnsCache) (call : Call) : Reply × DnsCache :=
  match named table call.query with
  | none => (.nothing, cache)
  | some (domain, qtype) =>
      match call.op with
      | .put response rotation =>
          (.nothing, cache.put call.now rotation call.path domain qtype call.query response)
      | .get =>
          (freshReply ((cache.get call.now call.path domain qtype call.query).map (·, false)),
            cache)
      | .getWithPrefetch =>
          let (reply, next) := cache.getWithPrefetch call.now call.path domain qtype call.query
          (freshReply reply, next)
      | .getStale =>
          let (reply, next) := cache.getStaleWithRecheck call.now call.path domain qtype call.query
          (staleReply reply, next)
      | .markFailed => (.nothing, cache.markFailed call.now call.path domain qtype call.query)
      | .clearPrefetching =>
          (.nothing, cache.clearPrefetching call.path domain qtype call.query)

def Puts (call : Call) (key : CacheKey) (response : Bytes) : Prop :=
  (∃ rotation, call.op = .put response rotation) ∧
    queryKey table call.path call.query = some key ∧ 12 ≤ response.length

def StoredFrom (past : List Call) (cache : DnsCache) : Prop :=
  ∀ key entry, (key, entry) ∈ cache.map → ∃ call ∈ past, Puts table call key entry.response

/-- What the client of a hit may rely on. -/
structure FaithfulHit (past : List Call) (query response : Bytes) : Prop where
  id : response.take 2 = query.take 2
  question : (response.take (questionEnd query)).drop 12 = (query.take (questionEnd query)).drop 12
  short : response.length ≤ (ednsInfo query).maxUdp
  origin : ∃ call ∈ past, ∃ original rotation, call.op = .put original rotation ∧
    SameName call.query query ∧ getQtype call.query = getQtype query ∧
    (ednsInfo call.query).hasOpt = (ednsInfo query).hasOpt ∧
    (ednsInfo call.query).doBit = (ednsInfo query).doBit ∧
    (ednsInfo call.query).cdBit = (ednsInfo query).cdBit ∧
    response.drop (questionEnd query) = original.drop (questionEnd query)

def HitsFaithful (maxEntries : Nat) (calls : List Call) : Prop :=
  ∀ past call rest, calls = past ++ call :: rest → isWellformedQuery call.query = true →
    ∀ response shouldPrefetch,
      answer (callStep table) (.new maxEntries) past call = .fresh response shouldPrefetch →
      FaithfulHit past call.query response

/-- Before a query is looked up, no put on its path was confusable with it, and
what was put for the same question has a question section and room for the one
of the query. -/
def SoundPuts (calls : List Call) : Prop :=
  ∀ past call rest, calls = past ++ call :: rest →
    (call.op = .get ∨ call.op = .getWithPrefetch) →
    ∀ put ∈ past, ∀ response rotation, put.op = .put response rotation → put.path = call.path →
      ¬ Confusable table put.query call.query ∧
        (SameQuestion put.query call.query → SameName put.query call.query →
          u16At response 4 ≠ 0 ∧ questionEnd call.query ≤ response.length)

end Machine

namespace DnsCache
variable {cache : DnsCache} {key other : CacheKey} {entry : CacheEntry}

theorem mem_of_lookup (found : cache.lookup key = some entry) : (key, entry) ∈ cache.map := by
  rw [lookup, Option.map_eq_some_iff] at found
  obtain ⟨item, located, rfl⟩ := found
  have same := List.find?_some located
  rw [decide_eq_true_iff] at same
  rw [← same]
  exact List.mem_of_find?_eq_some located

theorem mem_remove (member : (key, entry) ∈ (cache.remove other).map) : (key, entry) ∈ cache.map :=
  List.mem_of_mem_filter member

theorem mem_insert {added : CacheEntry} (member : (key, entry) ∈ (cache.insert other added).map) :
    (key = other ∧ entry = added) ∨ (key, entry) ∈ cache.map := by
  rcases List.mem_cons.mp member with same | kept
  · exact Or.inl (Prod.mk.inj same)
  · exact Or.inr (mem_remove kept)

theorem mem_modify {change : CacheEntry → CacheEntry}
    (member : (key, entry) ∈ (cache.modify other change).map)
    (keeps : ∀ e, (change e).response = e.response) :
    ∃ before, (key, before) ∈ cache.map ∧ before.response = entry.response := by
  obtain ⟨item, inMap, same⟩ := List.mem_map.mp member
  split at same
  · cases same
    exact ⟨item.2, inMap, (keeps item.2).symm⟩
  · cases same
    exact ⟨entry, inMap, rfl⟩

theorem mem_evict {now rotation : Nat} (member : (key, entry) ∈ (cache.evict now rotation other).map) :
    (key, entry) ∈ cache.map := by
  rw [evict] at member
  split at member
  · exact member
  · dsimp only at member
    split at member
    · exact List.mem_of_mem_filter member
    · split at member
      · exact List.mem_of_mem_filter member
      · exact List.mem_of_mem_filter (mem_remove member)

variable {now qtype : Nat} {path : ResolvePath} {domain : String} {query response : Bytes}

theorem get_eq_some :
    cache.get now path domain qtype query = some response ↔
      ∃ key entry, cacheKey path domain qtype query = some key ∧ cache.lookup key = some entry ∧
        now < entry.expiry ∧ entry.response.length ≤ (ednsInfo query).maxUdp ∧
        response = patchForQuery entry.response query := by
  simp only [get, Option.bind_eq_bind, Option.bind_eq_some_iff]
  refine exists_congr fun key => ?_
  rw [exists_and_left]
  refine and_congr_right fun _ => exists_congr fun entry => and_congr_right fun _ => ?_
  split
  next expired =>
    refine iff_of_false (by simp) ?_
    rintro ⟨alive, _⟩
    exact absurd expired (Nat.not_le.mpr alive)
  next alive =>
    split
    next long =>
      refine iff_of_false (by simp) ?_
      rintro ⟨_, short, _⟩
      exact absurd long (Nat.not_lt.mpr short)
    next short =>
      rw [Option.some_inj, eq_comm, and_iff_right (Nat.not_le.mp alive),
        and_iff_right (Nat.not_lt.mp short)]

theorem getWithPrefetch_fst (cache : DnsCache) :
    (cache.getWithPrefetch now path domain qtype query).1.map Prod.fst =
      cache.get now path domain qtype query := by
  rw [getWithPrefetch, get]
  cases cacheKey path domain qtype query with
  | none => rfl
  | some key =>
      cases found : cache.lookup key with
      | none => simp [found]
      | some entry =>
          simp only [found, Option.bind_eq_bind, Option.bind_some]
          split
          · rfl
          · split
            · rfl
            · split <;> rfl

theorem getWithPrefetch_snd (cache : DnsCache) :
    (cache.getWithPrefetch now path domain qtype query).2 = cache ∨
      ∃ key, (cache.getWithPrefetch now path domain qtype query).2 =
        cache.modify key fun e => { e with prefetching := true } := by
  rw [getWithPrefetch]
  repeat' split
  any_goals exact Or.inl rfl
  exact Or.inr ⟨_, rfl⟩

theorem getStaleWithRecheck_snd (cache : DnsCache) :
    (cache.getStaleWithRecheck now path domain qtype query).2 = cache ∨
      ∃ key, (cache.getStaleWithRecheck now path domain qtype query).2 = cache.remove key := by
  rw [getStaleWithRecheck]
  repeat' split
  any_goals exact Or.inl rfl
  exact Or.inr ⟨_, rfl⟩

end DnsCache

section Origin
variable {table : CaseTable} {past : List Call} {cache : DnsCache} {call : Call}

theorem cacheTtl_long {response : Bytes} {ttl : Nat × Bool} (cached : cacheTtl response = some ttl) :
    12 ≤ response.length := by
  rw [cacheTtl] at cached
  split at cached
  · cases cached
  next long => exact Nat.not_lt.mp long

theorem queryKey_of_named {path : ResolvePath} {query : Bytes} {domain : String} {qtype : Nat}
    (read : named table query = some (domain, qtype)) :
    queryKey table path query = cacheKey path domain qtype query := by
  obtain ⟨text, extracted, same⟩ := Option.map_eq_some_iff.mp read
  cases same
  rw [queryKey, extracted, Option.bind_some]

theorem StoredFrom.later (stored : StoredFrom table past cache) :
    StoredFrom table (past ++ [call]) cache := by
  intro key entry member
  obtain ⟨origin, inPast, puts⟩ := stored key entry member
  exact ⟨origin, List.mem_append_left _ inPast, puts⟩

theorem StoredFrom.modify (stored : StoredFrom table past cache) {changed : CacheKey}
    {change : CacheEntry → CacheEntry} (keeps : ∀ e, (change e).response = e.response) :
    StoredFrom table past (cache.modify changed change) := by
  intro key entry member
  obtain ⟨before, inCache, same⟩ := DnsCache.mem_modify member keeps
  rw [← same]
  exact stored key before inCache

theorem storedFrom_step (call : Call) (stored : StoredFrom table past cache) :
    StoredFrom table (past ++ [call]) (callStep table cache call).2 := by
  have later : StoredFrom table (past ++ [call]) cache := stored.later
  rw [callStep]
  cases read : named table call.query with
  | none => exact later
  | some args =>
      obtain ⟨domain, qtype⟩ := args
      cases op : call.op with
      | put response rotation =>
          dsimp only
          rw [DnsCache.put]
          split
          next key ttl negative found cached =>
            intro other entry member
            rcases DnsCache.mem_insert member with ⟨rfl, rfl⟩ | kept
            · exact ⟨call, List.mem_append_right _ List.mem_cons_self, ⟨rotation, op⟩,
                (queryKey_of_named read).trans found, cacheTtl_long cached⟩
            · exact later other entry (DnsCache.mem_evict kept)
          · exact later
      | get => exact later
      | getWithPrefetch =>
          dsimp only
          obtain same | ⟨key, same⟩ := DnsCache.getWithPrefetch_snd cache <;> rw [same]
          · exact later
          · exact later.modify fun _ => rfl
      | getStale =>
          dsimp only
          obtain same | ⟨key, same⟩ := DnsCache.getStaleWithRecheck_snd cache <;> rw [same]
          · exact later
          · exact fun key entry member => later key entry (DnsCache.mem_remove member)
      | markFailed =>
          dsimp only
          rw [DnsCache.markFailed]
          split
          · exact later
          · exact later.modify fun _ => rfl
      | clearPrefetching =>
          dsimp only
          rw [DnsCache.clearPrefetching]
          split
          · exact later
          · exact later.modify fun _ => rfl

theorem storedFrom_run (maxEntries : Nat) (calls : List Call) :
    StoredFrom table calls (run (callStep table) (.new maxEntries) calls) :=
  run_history (StoredFrom table) (fun _ _ member => by cases member)
    (fun _ _ call stored => storedFrom_step call stored) calls

/-- A fresh reply is a stored response that fits, patched for the query. -/
theorem fresh_of_step {response : Bytes} {shouldPrefetch : Bool}
    (replied : (callStep table cache call).1 = .fresh response shouldPrefetch) :
    (call.op = .get ∨ call.op = .getWithPrefetch) ∧
      ∃ key entry, queryKey table call.path call.query = some key ∧ (key, entry) ∈ cache.map ∧
        entry.response.length ≤ (ednsInfo call.query).maxUdp ∧
        response = patchForQuery entry.response call.query := by
  rw [callStep] at replied
  cases read : named table call.query with
  | none =>
      rw [read] at replied
      cases replied
  | some args =>
      obtain ⟨domain, qtype⟩ := args
      rw [read] at replied
      have hit : (call.op = .get ∨ call.op = .getWithPrefetch) ∧
          cache.get call.now call.path domain qtype call.query = some response := by
        cases op : call.op <;> rw [op] at replied <;> dsimp only at replied
        case get =>
          refine ⟨Or.inl rfl, ?_⟩
          cases found : cache.get call.now call.path domain qtype call.query with
          | none =>
              rw [found] at replied
              cases replied
          | some served =>
              rw [found] at replied
              cases replied
              rfl
        case getWithPrefetch =>
          refine ⟨Or.inr rfl, ?_⟩
          rw [← DnsCache.getWithPrefetch_fst]
          cases found : (cache.getWithPrefetch call.now call.path domain qtype call.query).1 with
          | none =>
              rw [found] at replied
              cases replied
          | some served =>
              rw [found] at replied
              cases replied
              rfl
        case getStale =>
          cases found : (cache.getStaleWithRecheck call.now call.path domain qtype call.query).1 <;>
            rw [found] at replied <;> cases replied
        all_goals cases replied
      obtain ⟨key, entry, keyed, found, _, short, patched⟩ := DnsCache.get_eq_some.mp hit.2
      exact ⟨hit.1, key, entry, (queryKey_of_named read).trans keyed, DnsCache.mem_of_lookup found,
        short, patched⟩

end Origin

section Hits
variable {table : CaseTable}

theorem u16At_append_drop {front data : Bytes} {pos : Nat} (beyond : front.length ≤ pos) :
    u16At (front ++ data.drop front.length) pos = u16At data pos := by
  have same : ∀ at', front.length ≤ at' →
      (front ++ data.drop front.length).getD at' 0 = data.getD at' 0 := by
    intro at' later
    rw [List.getD_eq_getElem?_getD, List.getD_eq_getElem?_getD, List.getElem?_append_right later,
      List.getElem?_drop, Nat.add_sub_cancel' later]
  rw [u16At, u16At, same pos beyond, same (pos + 1) (Nat.le_succ_of_le beyond)]

/-- Where question and response have room for it, the patch is exact. -/
theorem patchForQuery_eq {resp req : Bytes} (header : 12 ≤ resp.length)
    (wellformed : isWellformedQuery req = true) (echoes : u16At resp 4 ≠ 0)
    (fits : questionEnd req ≤ resp.length) :
    (patchForQuery resp req).take 2 = req.take 2 ∧
      ((patchForQuery resp req).take (questionEnd req)).drop 12 =
        (req.take (questionEnd req)).drop 12 ∧
      (patchForQuery resp req).drop (questionEnd req) = resp.drop (questionEnd req) ∧
      (patchForQuery resp req).length = resp.length := by
  simp only [isWellformedQuery, Bool.and_eq_true, decide_eq_true_eq] at wellformed
  obtain ⟨⟨long, _⟩, asked⟩ := wellformed
  have inside := questionEnd_le req
  have idLength : (req.take 2).length = 2 := by
    rw [List.length_take]
    omega
  have count : u16At (req.take 2 ++ resp.drop 2) 4 = u16At resp 4 := by
    have moved := @u16At_append_drop (req.take 2) resp 4 (by omega)
    rwa [idLength] at moved
  have size : (req.take 2 ++ resp.drop 2).length = resp.length := by
    rw [List.length_append, idLength, List.length_drop]
    omega
  have short : ¬ (resp.length < 12 ∨ req.length < 12) := by omega
  -- The patch as three pieces: the header with the id, the question asked, and the rest.
  have patched : patchForQuery resp req =
      (req.take 2 ++ resp.drop 2).take 12 ++ (req.take (questionEnd req)).drop 12 ++
        (req.take 2 ++ resp.drop 2).drop (questionEnd req) := by
    rw [patchForQuery, if_neg short]
    dsimp only
    rw [count, size, if_pos ⟨echoes, asked, fits, inside⟩]
  have front : ((req.take 2 ++ resp.drop 2).take 12).length = 12 := by
    rw [List.length_take, size]
    omega
  have middle : ((req.take (questionEnd req)).drop 12).length = questionEnd req - 12 := by
    rw [List.length_drop, List.length_take]
    omega
  have both : ((req.take 2 ++ resp.drop 2).take 12 ++
      (req.take (questionEnd req)).drop 12).length = questionEnd req := by
    rw [List.length_append, front, middle]
    omega
  rw [patched]
  refine ⟨?_, ?_, ?_, ?_⟩
  · rw [List.append_assoc, List.take_append_of_le_length (by omega), List.take_take,
      List.take_append_of_le_length (by omega)]
    exact List.take_of_length_le (by omega)
  · rw [List.take_append_of_le_length (by omega), List.take_of_length_le (by omega),
      List.drop_append_of_le_length (by omega), List.drop_of_length_le (by omega), List.nil_append]
  · rw [List.drop_append_of_le_length (by omega), List.drop_of_length_le (by omega),
      List.nil_append, List.drop_append, List.drop_drop, idLength,
      List.drop_of_length_le (by omega), List.nil_append]
    congr 1
    omega
  · rw [List.length_append, both, List.length_drop, size]
    omega

/-- In every run whose puts are sound, every fresh answer is faithful. -/
theorem hits_faithful (table : CaseTable) (maxEntries : Nat) (calls : List Call)
    (sound : SoundPuts table calls) : HitsFaithful table maxEntries calls := by
  rintro past call rest rfl wellformed response shouldPrefetch replied
  obtain ⟨asks, key, entry, keyed, member, short, rfl⟩ := fresh_of_step replied
  obtain ⟨put, inPast, ⟨rotation, op⟩, putKey, header⟩ :=
    storedFrom_run maxEntries past key entry member
  -- Both keys carry their path, so the paths agree too.
  have samePath : put.path = call.path := by
    obtain ⟨_, _, _, _, one⟩ := queryKey_eq_some.mp keyed
    obtain ⟨_, _, _, _, two⟩ := queryKey_eq_some.mp putKey
    rw [one] at two
    exact (CacheKey.mk.inj two).1.symm
  obtain ⟨safe, echoed⟩ :=
    sound past call rest rfl asks put inPast entry.response rotation op samePath
  rw [samePath] at putKey
  have share : ShareKey table put.query call.query := Or.inl ⟨call.path, key, putKey, keyed⟩
  obtain ⟨same, _⟩ := shareKey_iff.mp share
  have names := sameName_of_share safe share
  obtain ⟨echoes, fits⟩ := echoed same names
  obtain ⟨id, question, after, size⟩ := patchForQuery_eq header wellformed echoes fits
  exact ⟨id, question, by rw [size]; exact short, put, inPast, entry.response, rotation, op, names,
    same.qtype, EdnsInfo.hasOpt_eq_of_bucket same.bucket, same.doBit, same.cdBit, after⟩

section Samples

/-- A query for `BANK.com` by one client and its answer, ten seconds old when
another client asks. -/
def upperQuery : Bytes := queryHeader ++ 4 :: utf8 "BANK" ++ 3 :: utf8 "com" ++ [0, 0, 1, 0, 1]

def bankAnswer : Bytes :=
  [0x12, 0x34, 0x81, 0x80, 0, 1, 0, 1, 0, 0, 0, 0] ++ upperQuery.drop 12 ++
    [0xC0, 0x0C, 0, 1, 0, 1, 0, 0, 1, 0x2C, 0, 4, 192, 0, 2, 1]

def otherQuery : Bytes := [0xAB, 0xCD] ++ bankQuery.drop 2

def otherAnswer : Bytes :=
  [0xAB, 0xCD] ++ (bankAnswer.take 12).drop 2 ++ otherQuery.drop 12 ++ bankAnswer.drop 26

def answeredRun : List Call :=
  [⟨0, .cn, upperQuery, .put bankAnswer 0⟩, ⟨10 * second, .cn, otherQuery, .get⟩]

theorem upper_plain : PlainName upperQuery :=
  ⟨⟨["BANK", "com"], by decide +kernel, by simp⟩, by decide +kernel⟩

theorem other_plain : PlainName otherQuery :=
  ⟨⟨["bank", "com"], by decide +kernel, by simp⟩, by decide +kernel⟩

theorem answered_hit_faithful :
    answer (callStep sampleCase) (.new 8) [⟨0, .cn, upperQuery, .put bankAnswer 0⟩]
        ⟨10 * second, .cn, otherQuery, .get⟩ = .fresh otherAnswer false ∧
      HitsFaithful sampleCase 8 answeredRun := by
  refine ⟨by decide +kernel, hits_faithful sampleCase 8 answeredRun ?_⟩
  intro past call rest split asks put inPast response rotation op _
  have room : u16At bankAnswer 4 ≠ 0 ∧ questionEnd otherQuery ≤ bankAnswer.length := by
    decide +kernel
  match past with
  | [] => cases inPast
  | [first] =>
      obtain ⟨rfl, rfl, _⟩ : _ ∧ _ ∧ _ := by simpa [answeredRun] using split
      cases List.mem_singleton.mp inPast
      cases op
      exact ⟨not_confusable_of_plain upper_plain other_plain, fun _ _ => room⟩
  | _ :: _ :: more => simp [answeredRun] at split

def bareNxdomain : Bytes :=
  [0x12, 0x34, 0x81, 0x83, 0, 0, 0, 0, 0, 1, 0, 0] ++
    [0, 0, 6, 0, 1, 0, 0, 0, 60, 0, 22, 0, 0] ++ List.replicate 19 0 ++ [60]

def bareRun : List Call :=
  [⟨0, .cn, bankQuery, .put bareNxdomain 0⟩, ⟨10 * second, .cn, bankQuery, .get⟩]

theorem bare_nxdomain_unfaithful :
    isWellformedQuery bankQuery = true ∧ responseMatches bankQuery bareNxdomain = true ∧
      ¬ HitsFaithful sampleCase 8 bareRun := by
  refine ⟨by decide +kernel, by decide +kernel, fun faithful => ?_⟩
  have hit : answer (callStep sampleCase) (.new 8) [⟨0, .cn, bankQuery, .put bareNxdomain 0⟩]
      ⟨10 * second, .cn, bankQuery, .get⟩ = .fresh bareNxdomain false := by decide +kernel
  have served := faithful _ _ [] rfl (by decide +kernel) _ _ hit
  exact absurd served.question (by decide +kernel)

end Samples

end Hits

end Mirage.Dns
