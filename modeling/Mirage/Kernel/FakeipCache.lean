import Mirage.Kernel.DnsXdp
import Mirage.Lib.Trace

/-!
User space's side of the in-kernel DNS responder: the hash of a name in
ebpf/mod.rs, the calls that keep `mirage_dns_cache`, and `answer_fakeip`, which
makes them. The cache is an LRU map, so the kernel may drop an entry at any
time, and an insertion may fail; both are events of a run. Names reach
`answer_fakeip` from the bytes of a query.
-/

namespace Mirage.Kernel.FakeipCache
open Word Text Dns Trace TwoWay DnsXdp

section Hash

/-- The loop body of `hash_domain` for one label. -/
def hashLabel (hash : UInt64) (label : Bytes) : UInt64 :=
  label.foldl (fun hash c => (hash <<< 5) + hash + (toAsciiLowercase c).toUInt64)
    ((hash <<< 5) + hash + UInt64.ofNat label.length)

def hashDomain (domain : String) : UInt64 :=
  (domain.toList.splitOn '.').foldl
    (fun hash label => if label = [] then hash else hashLabel hash (utf8 (String.ofList label))) 5381

def wireLabels (domain : String) : List Bytes :=
  ((domain.toList.splitOn '.').filter (· ≠ [])).map fun label => utf8 (String.ofList label)

/-- A name that DNS can ask for. -/
def LegalName (domain : String) : Prop :=
  (∀ label ∈ wireLabels domain, LabelFits label) ∧ (encodeName (wireLabels domain)).length ≤ 255

instance (domain : String) : Decidable (LegalName domain) := inferInstanceAs (Decidable (_ ∧ _))

theorem hashLabel_eq {label : Bytes} (fits : LabelFits label) (hash : UInt64) :
    hashLabel hash label = DnsXdp.hashLabel hash label := by
  have length : UInt64.ofNat label.length = (UInt8.ofNat label.length).toUInt64 := by
    apply UInt64.toNat_inj.mp
    rw [UInt8.toNat_toUInt64, (length_byte fits).1, UInt64.toNat_ofNat', Nat.mod_eq_of_lt]
    exact Nat.lt_of_le_of_lt fits.2 (by decide)
  rw [hashLabel, length]
  rfl

theorem hashDomain_eq {domain : String} (legal : LegalName domain) :
    hashDomain domain = (wireLabels domain).foldl DnsXdp.hashLabel 5381 := by
  obtain ⟨fits, -⟩ := legal
  unfold hashDomain
  unfold wireLabels at fits ⊢
  generalize (5381 : UInt64) = hash
  generalize domain.toList.splitOn '.' = pieces at fits ⊢
  induction pieces generalizing hash with
  | nil => rfl
  | cons label rest ih =>
      by_cases empty : label = []
      · rw [List.filter_cons_of_neg (by simp [empty])] at fits ⊢
        rw [List.foldl_cons, if_pos empty]
        exact ih hash fits
      · rw [List.filter_cons_of_pos (by simp [empty]), List.map_cons] at fits ⊢
        rw [List.forall_mem_cons] at fits
        rw [List.foldl_cons, List.foldl_cons, if_neg empty, hashLabel_eq fits.1]
        exact ih _ fits.2

/-- Both hashes of a legal name agree, in whatever case it is asked for. -/
theorem hash_agrees {domain : String} (legal : LegalName domain) {labels : List Bytes}
    (letters : labels.map (·.map toAsciiLowercase) =
      (wireLabels domain).map (·.map toAsciiLowercase)) (rest : Bytes) :
    DnsXdp.hashDomain (encodeName labels ++ rest) =
      (hashDomain domain, (encodeName labels).length) := by
  have lengths : labels.map List.length = (wireLabels domain).map List.length := by
    have mapped := congrArg (List.map List.length) letters
    simpa [List.map_map, Function.comp_def] using mapped
  have fits : ∀ label ∈ labels, LabelFits label := by
    intro label member
    have known : label.length ∈ (wireLabels domain).map List.length :=
      lengths ▸ List.mem_map_of_mem member
    obtain ⟨other, listed, same⟩ := List.mem_map.mp known
    rw [LabelFits, ← same]
    exact legal.1 other listed
  have size : ∀ labels : List Bytes,
      (encodeName labels).length = ((labels.map List.length).map (· + 1)).sum + 1 := by
    intro labels
    induction labels with
    | nil => rfl
    | cons label rest ih =>
        rw [encodeName_cons, List.length_append, ih, length_encodeLabel, List.map_cons,
          List.map_cons, List.sum_cons]
        omega
  have short : (encodeName labels).length ≤ 256 := by
    rw [size, lengths, ← size]
    exact Nat.le_succ_of_le legal.2
  rw [DnsXdp.hashDomain, hashLoop_name fits short, hashDomain_eq legal, foldl_hashLabel_congr letters]

end Hash

section Calls

structure Responder where
  mapper : FakeIpMapper
  cache : DnsXdp.DnsCache

/-- `inserted` is whether the kernel took the entry. -/
def updateDnsCache (cache : DnsXdp.DnsCache) (inserted : Bool) (domain : String)
    (fakeIp : BitVec 32) : DnsXdp.DnsCache :=
  if inserted then cache.insert (hashDomain domain) fakeIp else cache

def removeDnsCache (cache : DnsXdp.DnsCache) (domain : String) : DnsXdp.DnsCache :=
  cache.erase (hashDomain domain)

/-- What `make_fake_ip_response` and `make_empty_response` are called with. -/
inductive FakeipReply where
  | fakeIp (ip : BitVec 32)
  | empty
  | emptyOrNxdomain
  deriving DecidableEq

variable (table : CaseTable)

def answerFakeip (state : Responder) (inserted : Bool) (domain : String) (qtype : Nat) :
    FakeipReply × Responder :=
  if qtype = 1 then
    let ((fakeIp, evicted), mapper) := state.mapper.lookupOrAssignWithEviction table domain
    let cache :=
      match evicted with
      | some old => removeDnsCache state.cache old
      | none => state.cache
    (.fakeIp fakeIp, ⟨mapper, updateDnsCache cache inserted domain fakeIp⟩)
  else if qtype = 28 ∨ qtype = 65 then (.empty, state)
  else (.emptyOrNxdomain, state)

inductive Event where
  | answer (req : Bytes) (inserted : Bool)
  | reclaim (hash : UInt64)

def step (state : Responder) : Event → Option FakeipReply × Responder
  | .answer req inserted =>
      match extractDomain table req with
      | none => (none, state)
      | some domain =>
          let (reply, next) := answerFakeip table state inserted domain ((getQtype req).getD 0)
          (some reply, next)
  | .reclaim hash => (none, { state with cache := state.cache.erase hash })

def named : Event → Option String
  | .answer req true => if getQtype req = some 1 then extractDomain table req else none
  | _ => none

def lastNamed (events : List Event) (hash : UInt64) : Option String :=
  ((events.filterMap (named table)).filter (hashDomain · = hash)).getLast?

end Calls

section Owners

variable {table : CaseTable} {state : Responder} {events : List Event} {hash : UInt64}
  {domain : String}

theorem extractDomain_lower {req : Bytes} (read : extractDomain table req = some domain) :
    toLowercase table domain = domain := by
  have long : 12 ≤ req.length := by
    by_contra short
    rw [extractDomain, if_pos (Nat.not_le.mp short)] at read
    cases read
  obtain ⟨labels, lowered, rfl⟩ := (extractDomain_eq_some long).mp read
  unfold lowerLabels at lowered
  split at lowered
  · cases lowered
  · cases lowered
  · cases lowered
    exact toLowercase_join dot_isLower _

theorem hash_of_lastNamed (last : lastNamed table events hash = some domain) :
    hashDomain domain = hash := by
  have member := List.mem_of_mem_getLast? (Option.mem_def.mpr last)
  simpa using (List.mem_filter.mp member).2

theorem lastNamed_snoc (events : List Event) (event : Event) (hash : UInt64) :
    lastNamed table (events ++ [event]) hash =
      ((named table event).filter (hashDomain · = hash)).or (lastNamed table events hash) := by
  unfold lastNamed
  rw [List.filterMap_append, List.filter_append, List.getLast?_append]
  cases written : named table event with
  | none => simp [written]
  | some domain =>
      by_cases same : hashDomain domain = hash
      · simp [written, same, Option.filter_some]
      · simp [written, same, Option.filter_some]

/-- Each entry of the cache is the address of the last name written under its hash. -/
def Owned (table : CaseTable) (events : List Event) (state : Responder) : Prop :=
  ∀ hash ip, state.cache.lookup hash = some ip → ∃ domain,
    lastNamed table events hash = some domain ∧ state.mapper.domainToIp.lookup domain = some ip

theorem Owned.keep (owned : Owned table events state) {next : Responder} {event : Event}
    (quiet : named table event = none)
    (cache : ∀ hash ip, next.cache.lookup hash = some ip → state.cache.lookup hash = some ip)
    (same : next.mapper = state.mapper) : Owned table (events ++ [event]) next := by
  intro hash ip known
  obtain ⟨domain, last, owns⟩ := owned hash ip (cache hash ip known)
  refine ⟨domain, ?_, ?_⟩
  · rw [lastNamed_snoc, quiet]
    exact last
  · rw [same, owns]

theorem lookup_updateDnsCache (cache : DnsXdp.DnsCache) (inserted : Bool) (domain : String)
    (fakeIp : BitVec 32) (hash : UInt64) :
    (updateDnsCache cache inserted domain fakeIp).lookup hash =
      if inserted = true ∧ hashDomain domain = hash then some fakeIp else cache.lookup hash := by
  unfold updateDnsCache
  cases inserted with
  | false => simp
  | true =>
      by_cases same : hashDomain domain = hash
      · subst same
        simp
      · simp [same, AList.lookup_insert_ne (Ne.symm same)]

/-- An assignment moves no address but that of the name it evicts. -/
theorem assign_keeps (known : toLowercase table domain = domain) {mapper : FakeIpMapper}
    {other : String} (had : mapper.domainToIp.lookup other ≠ none)
    (stays : (mapper.lookupOrAssignWithEviction table domain).1.2 ≠ some other) :
    (mapper.lookupOrAssignWithEviction table domain).2.domainToIp.lookup other =
      mapper.domainToIp.lookup other := by
  rcases FakeIpMapper.lookupOrAssign_cases table mapper domain with
    ⟨ip, -, same⟩ | ⟨fresh, next, assigned, maps, -⟩
  · rw [same]
  · rw [known] at fresh assigned maps
    rw [assigned] at stays ⊢
    have differs : other ≠ domain := by
      rintro rfl
      exact had fresh
    have lookup := congrArg (fun maps => maps.forward.lookup other) maps
    refine lookup.trans ?_
    rw [assign_forward, if_neg differs, if_neg]
    · rfl
    · intro owner
      apply stays
      change mapper.lookupDomain mapper.nextIp = some other at owner
      rw [owner]
      simp [Option.filter_some, differs]

/-- An address that changes hands takes the entry of its old name with it. -/
theorem assigned_owned (owned : Owned table events state) (known : toLowercase table domain = domain)
    (inserted : Bool) {event : Event}
    (writes : named table event = if inserted then some domain else none) :
    Owned table (events ++ [event]) (answerFakeip table state inserted domain 1).2 := by
  have answered : (state.mapper.lookupOrAssignWithEviction table domain).2.domainToIp.lookup
      (toLowercase table domain) =
        some (state.mapper.lookupOrAssignWithEviction table domain).1.1 :=
    FakeIpMapper.lookupOrAssign_answer state.mapper domain
  rw [known] at answered
  intro hash ip entry
  rw [answerFakeip, if_pos rfl] at entry ⊢
  simp only [lookup_updateDnsCache] at entry
  by_cases own : inserted = true ∧ hashDomain domain = hash
  · rw [if_pos own] at entry
    cases entry
    refine ⟨domain, ?_, answered⟩
    rw [lastNamed_snoc, writes, if_pos own.1, Option.filter_some, if_pos (decide_eq_true own.2)]
    rfl
  · rw [if_neg own] at entry
    have before : state.cache.lookup hash = some ip ∧
        ∀ old, (state.mapper.lookupOrAssignWithEviction table domain).1.2 = some old →
          hash ≠ hashDomain old := by
      split at entry
      · next old evicted =>
          have differs : hash ≠ hashDomain old := by
            rintro rfl
            rw [removeDnsCache, AList.lookup_erase] at entry
            cases entry
          rw [removeDnsCache, AList.lookup_erase_ne differs] at entry
          refine ⟨entry, fun other evictedToo => ?_⟩
          rw [evicted] at evictedToo
          cases evictedToo
          exact differs
      · next none_evicted =>
          refine ⟨entry, fun other evicted => ?_⟩
          rw [none_evicted] at evicted
          cases evicted
    obtain ⟨owner, last, owns⟩ := owned hash ip before.1
    refine ⟨owner, ?_, ?_⟩
    · rw [lastNamed_snoc, writes]
      cases inserted with
      | false => exact last
      | true =>
          have other : ¬ hashDomain domain = hash := fun same => own ⟨rfl, same⟩
          rw [if_pos rfl, Option.filter_some, if_neg (by simpa using other)]
          exact last
    · have stays : (state.mapper.lookupOrAssignWithEviction table domain).1.2 ≠ some owner :=
        fun evicted => before.2 owner evicted (hash_of_lastNamed last).symm
      exact (assign_keeps known (by simp [owns]) stays).trans owns

theorem step_owned (owned : Owned table events state) (event : Event) :
    Owned table (events ++ [event]) (step table state event).2 := by
  cases event with
  | reclaim hash =>
      apply owned.keep rfl
      · intro other ip known
        by_cases same : other = hash
        · rw [same, step, AList.lookup_erase] at known
          cases known
        · rwa [step, AList.lookup_erase_ne same] at known
      · exact rfl
  | answer req inserted =>
      rw [step]
      cases read : extractDomain table req with
      | none =>
          apply owned.keep _ (fun _ _ known => known) rfl
          cases inserted <;> simp [named, read]
      | some domain =>
          by_cases isA : getQtype req = some 1
          · have writes : named table (.answer req inserted) =
                if inserted then some domain else none := by
              cases inserted <;> simp [named, read, isA]
            simp only [isA, Option.getD_some]
            exact assigned_owned owned (extractDomain_lower read) inserted writes
          · have other : (getQtype req).getD 0 ≠ 1 := by
              cases asked : getQtype req with
              | none => decide
              | some qtype =>
                  rw [asked] at isA
                  exact fun same => isA (congrArg some same)
            have quiet : named table (.answer req inserted) = none := by
              cases inserted <;> simp [named, isA]
            have same : (answerFakeip table state inserted domain ((getQtype req).getD 0)).2 =
                state := by
              rw [answerFakeip, if_neg other]
              split <;> rfl
            simp only [same]
            exact owned.keep quiet (fun _ _ known => known) rfl

theorem run_owned (mapper : FakeIpMapper) (events : List Event) :
    Owned table events (run (step table) ⟨mapper, ∅⟩ events) :=
  run_history (Owned table) (fun hash ip known => by simp at known)
    (fun _ _ event owned => step_owned owned event) events

end Owners

section Answers

def frameHash (frame : Bytes) : UInt64 := (DnsXdp.hashDomain (frame.drop 54)).1

def answerAddress (frame out : Bytes) : Bytes :=
  (out.drop (42 + questionEnd (dnsMessage frame) + 12)).take 4

/-- The question is a legal one of type A and class IN, and the address in the
answer is the one the table has for its name. -/
structure Right (table : CaseTable) (mapper : FakeIpMapper) (frame out : Bytes) : Prop where
  legal : LegalQuestion (dnsMessage frame)
  typeA : getQtype (dnsMessage frame) = some 1
  classIn : getQclass (dnsMessage frame) = some 1
  assigned : ∃ domain ip, extractDomain table (dnsMessage frame) = some domain ∧
    mapper.domainToIp.lookup domain = some ip ∧ answerAddress frame out = (Be32.ofBits ip).bytes

/-- The question is a legal one of class IN, and its name is the last one
written under its hash. -/
structure Unshared (table : CaseTable) (events : List Event) (frame : Bytes) : Prop where
  legal : LegalQuestion (dnsMessage frame)
  classIn : getQclass (dnsMessage frame) = some 1
  last : ∃ domain, extractDomain table (dnsMessage frame) = some domain ∧
    lastNamed table events (frameHash frame) = some domain

variable {table : CaseTable} {query : Query}

theorem answerAddress_eq (plain : query.Plain) (legal : LegalQuestion (dnsMessage query.bytes))
    (tail : Bytes) (fakeIp : BitVec 32) :
    answerAddress query.bytes
        ((query.swapped.grown tail).answered (query.offset + 4) fakeIp).bytes =
      (Be32.ofBits fakeIp).bytes := by
  have room : query.offset + 4 ≤ query.rest.length := plain.room
  have place : 42 + (12 + query.offset + 4) + 12 = 54 + (query.offset + 4 + 12) := by omega
  have taken : ((query.rest ++ tail).take (query.offset + 4)).length = query.offset + 4 := by
    rw [List.length_take, List.length_append]
    omega
  have record : ∀ more, ((answerRecord fakeIp ++ more).drop 12).take 4 =
      (Be32.ofBits fakeIp).bytes := fun _ => rfl
  rw [answerAddress, Query.questionEnd_eq plain legal, place, ← List.drop_drop,
    Query.drop_headers]
  change (((query.rest ++ tail).take (query.offset + 4) ++ answerRecord fakeIp ++ _).drop
    (query.offset + 4 + 12)).take 4 = _
  rw [List.append_assoc, ← List.drop_drop, List.drop_left' taken, record]

theorem run_inverse {mapper : FakeIpMapper} (inverse : mapper.maps.Inverse) (events : List Event) :
    (run (step table) ⟨mapper, ∅⟩ events).mapper.maps.Inverse := by
  apply run_invariant (fun state : Responder => state.mapper.maps.Inverse) _ inverse
  intro state event kept
  cases event with
  | reclaim hash => exact kept
  | answer req inserted =>
      rw [step]
      cases extractDomain table req with
      | none => exact kept
      | some domain =>
          simp only [answerFakeip]
          split
          · rcases FakeIpMapper.lookupOrAssign_cases table state.mapper domain with
              ⟨ip, -, same⟩ | ⟨fresh, next, assigned, maps, -⟩
            · rw [same]
              exact kept
            · rw [assigned]
              change next.maps.Inverse
              rw [maps]
              exact assign_inverse kept fresh
          · split <;> exact kept

/-- What the program answers with is the address of the last name written
under the hash. -/
theorem right_iff_unshared (mapper : FakeIpMapper) (events : List Event)
    {adjustTail : Option { tail : Bytes // tail.length = 16 }} {frame : Bytes}
    (sent : (mirageXdpDns (run (step table) ⟨mapper, ∅⟩ events).cache adjustTail frame).1 = .tx) :
    let state := run (step table) ⟨mapper, ∅⟩ events
    let out := (mirageXdpDns state.cache adjustTail frame).2
    (Unshared table events frame → Right table state.mapper frame out) ∧
      (mapper.maps.Inverse → Right table state.mapper frame out → Unshared table events frame) := by
  intro state out
  rcases mirageXdpDns_cases state.cache adjustTail frame with
    ⟨passed, -⟩ | ⟨query, fakeIp, rfl, plain, hit, ⟨-, passed⟩ | ⟨tail, -, answered⟩⟩
  · rw [passed] at sent
    cases sent
  · rw [passed] at sent
    cases sent
  have outcome : out = ((query.swapped.grown tail.val).answered (query.offset + 4) fakeIp).bytes :=
    congrArg Prod.snd answered
  obtain ⟨owner, last, owns⟩ := run_owned mapper events query.hash fakeIp hit
  constructor
  · rintro ⟨legal, classIn, domain, asked, lastToo⟩
    have same : owner = domain := Option.some.inj (last.symm.trans lastToo)
    subst same
    refine ⟨legal, Query.qtype_eq plain legal, classIn, owner, fakeIp, asked, owns, ?_⟩
    rw [outcome]
    exact answerAddress_eq plain legal tail.val fakeIp
  · rintro inverse ⟨legal, -, classIn, domain, ip, asked, assigned, given⟩
    rw [outcome, answerAddress_eq plain legal] at given
    cases Be32.ofBits_injective (Be32.bytes_injective given)
    have both : (run (step table) ⟨mapper, ∅⟩ events).mapper.maps.Inverse :=
      run_inverse inverse events
    have same : owner = domain := by
      have first := (both owner fakeIp).mp owns
      have second := (both domain fakeIp).mp assigned
      exact Option.some.inj (first.symm.trans second)
    exact ⟨legal, classIn, domain, asked, same ▸ last⟩

end Answers

section Replies

/-- The two hashes agree on every legal name, and an answer from the kernel is
right if its question is a legal one of class IN whose name was the last one
written under its hash. In a table that gives no address to two names it is
right only then. -/
theorem answers_as_user_space (table : CaseTable) :
    (∀ domain, LegalName domain → ∀ labels : List Bytes,
      labels.map (·.map toAsciiLowercase) = (wireLabels domain).map (·.map toAsciiLowercase) →
        ∀ rest, DnsXdp.hashDomain (encodeName labels ++ rest) =
          (hashDomain domain, (encodeName labels).length)) ∧
    ∀ mapper events adjustTail frame,
      let state := run (step table) ⟨mapper, ∅⟩ events
      let reply := mirageXdpDns state.cache adjustTail frame
      reply.1 = .tx →
        (Unshared table events frame → Right table state.mapper frame reply.2) ∧
        (mapper.maps.Inverse → Right table state.mapper frame reply.2 →
          Unshared table events frame) :=
  ⟨fun _ legal _ letters => hash_agrees legal letters,
    fun mapper events _ _ sent => right_iff_unshared mapper events sent⟩

def sampleQuery (name : String) : Bytes := queryHeader ++ encodeName (wireLabels name) ++ [0, 1, 0, 1]

def sampleFrame : Bytes :=
  [2, 0, 0, 0, 0, 1, 2, 0, 0, 0, 0, 2, 8, 0] ++
    [0x45, 0, 0, 52, 0, 0, 0, 0, 64, 17, 0, 0, 10, 0, 0, 2, 10, 0, 0, 1] ++
    [0x30, 0x39, 0, 53, 0, 32, 0, 0] ++ sampleQuery "az.com"

def sharedHash : List Event := [.answer (sampleQuery "az.com") true, .answer (sampleQuery "c8.com") true]

/-- `az.com` and `c8.com` have one hash: a query for the first is answered with
the address of the second. -/
theorem shared_hash_misleads :
    ¬ ∀ (table : CaseTable) (range : FakeRange) events adjustTail frame,
      let state := run (step table) ⟨.new range, ∅⟩ events
      let reply := mirageXdpDns state.cache adjustTail frame
      reply.1 = .tx → Right table state.mapper frame reply.2 := by
  intro all
  have sent : (mirageXdpDns (run (step sampleCase) ⟨.new sampleRange, ∅⟩ sharedHash).cache
      (some ⟨List.replicate 16 0, rfl⟩) sampleFrame).1 = .tx := by
    decide +kernel
  have right := all sampleCase sampleRange sharedHash (some ⟨List.replicate 16 0, rfl⟩) sampleFrame sent
  obtain ⟨-, -, -, domain, ip, asked, assigned, given⟩ := right
  have name : extractDomain sampleCase (dnsMessage sampleFrame) = some "az.com" := by decide +kernel
  cases name.symm.trans asked
  have own : (run (step sampleCase) ⟨.new sampleRange, ∅⟩ sharedHash).mapper.domainToIp.lookup
      "az.com" = some 0xC6120002 := by
    decide +kernel
  cases own.symm.trans assigned
  revert given
  decide +kernel

end Replies

end Mirage.Kernel.FakeipCache
