import Mirage.Dns.FakeIp
import Mirage.Dns.Keys

/-!
What holds of the fake-IP table after any run: the two maps are inverse, only
ordinary addresses of the range are assigned, and there are no more entries
than addresses. Two things a damaged file can say spoil it: a name or address
it gives twice, and a cursor at the network or the gateway address.
-/

namespace Mirage.Dns
open Word Text Lines NumberText TwoWay Trace

namespace FakeRange

variable {range : FakeRange} {ip : BitVec 32}

def Usable (range : FakeRange) (ip : BitVec 32) : Prop :=
  range.contains ip = true ∧ ip ≠ range.network ∧ ip ≠ range.gateway ∧ ip ≠ range.broadcast

theorem netmask_eq (prefixLen : Nat) :
    netmask prefixLen = BitVec.allOnes 32 <<< (32 - prefixLen) := by
  rw [netmask]
  split
  · rename_i none
    subst none
    decide
  · rfl

theorem and_netmask_toNat (ip : BitVec 32) (prefixLen : Nat) :
    (ip &&& netmask prefixLen).toNat =
      ip.toNat / 2 ^ (32 - prefixLen) * 2 ^ (32 - prefixLen) := by
  have shifted : ip &&& netmask prefixLen = ip >>> (32 - prefixLen) <<< (32 - prefixLen) := by
    rw [netmask_eq]
    ext i inside
    simp only [BitVec.getElem_and, BitVec.getElem_shiftLeft, BitVec.getElem_ushiftRight,
      BitVec.getElem_allOnes]
    by_cases low : i < 32 - prefixLen
    · simp [low]
    · rw [show 32 - prefixLen + (i - (32 - prefixLen)) = i by omega]
      simp [low, BitVec.getLsbD_eq_getElem inside]
  have fits : ip.toNat / 2 ^ (32 - prefixLen) * 2 ^ (32 - prefixLen) < 2 ^ 32 :=
    Nat.lt_of_le_of_lt (Nat.div_mul_le_self _ _) ip.isLt
  rw [shifted, BitVec.toNat_shiftLeft, BitVec.toNat_ushiftRight, Nat.shiftLeft_eq,
    Nat.shiftRight_eq_div_pow, Nat.mod_eq_of_lt fits]

theorem not_netmask_toNat (prefixLen : Nat) :
    (~~~netmask prefixLen).toNat = 2 ^ (32 - prefixLen) - 1 := by
  have ones : ~~~netmask prefixLen = BitVec.ofNat 32 (2 ^ (32 - prefixLen) - 1) := by
    rw [netmask_eq]
    apply BitVec.eq_of_getLsbD_eq
    intro i inside
    rw [BitVec.getLsbD_not, BitVec.getLsbD_shiftLeft, BitVec.getLsbD_allOnes,
      BitVec.getLsbD_ofNat, Nat.testBit_two_pow_sub_one]
    by_cases low : i < 32 - prefixLen
    · simp [inside, low]
    · simp [inside, low, show i - (32 - prefixLen) < 32 by omega]
  have small : 2 ^ (32 - prefixLen) - 1 < 2 ^ 32 :=
    Nat.lt_of_lt_of_le (Nat.sub_lt (Nat.two_pow_pos _) Nat.one_pos)
      (Nat.pow_le_pow_right (by decide) (Nat.sub_le _ _))
  rw [ones, BitVec.toNat_ofNat, Nat.mod_eq_of_lt small]

theorem host_toNat (range : FakeRange) (ip : BitVec 32) :
    (range.host ip).toNat = ip.toNat % 2 ^ range.hostBits := by
  rw [host, mask, BitVec.toNat_and, not_netmask_toNat, Nat.and_two_pow_sub_one_eq_mod]
  rfl

theorem network_toNat (range : FakeRange) :
    range.network.toNat = range.network.toNat / 2 ^ range.hostBits * 2 ^ range.hostBits := by
  have := and_netmask_toNat range.network range.prefixLen
  rwa [range.aligned] at this

theorem contains_iff :
    range.contains ip = true ↔
      ip.toNat / 2 ^ range.hostBits = range.network.toNat / 2 ^ range.hostBits := by
  have block := Nat.two_pow_pos range.hostBits
  rw [contains, decide_eq_true_eq, ← BitVec.toNat_inj, mask, and_netmask_toNat, network_toNat]
  change ip.toNat / 2 ^ range.hostBits * 2 ^ range.hostBits = _ ↔ _
  rw [Nat.mul_div_cancel _ block]
  exact Nat.mul_right_cancel_iff block

theorem toNat_eq_of_contains (inside : range.contains ip = true) :
    ip.toNat = range.network.toNat + (range.host ip).toNat := by
  have split := Nat.div_add_mod' ip.toNat (2 ^ range.hostBits)
  rw [contains_iff.mp inside, ← network_toNat] at split
  rw [host_toNat]
  exact split.symm

theorem eight_le (range : FakeRange) : 8 ≤ 2 ^ range.hostBits := by
  have := range.roomy
  calc 8 = 2 ^ 3 := rfl
    _ ≤ 2 ^ range.hostBits := Nat.pow_le_pow_right (by decide) (by unfold hostBits; omega)

theorem network_add_lt (range : FakeRange) (host : Nat) (small : host < 2 ^ range.hostBits) :
    range.network.toNat + host < 2 ^ 32 := by
  have bits : 2 ^ 32 = 2 ^ range.prefixLen * 2 ^ range.hostBits := by
    rw [← Nat.pow_add]
    congr 1
    have := range.roomy
    unfold hostBits
    omega
  have split := network_toNat range
  have whole := range.network.isLt
  rw [bits] at whole ⊢
  rw [split] at whole ⊢
  have quotient := Nat.lt_of_mul_lt_mul_right whole
  calc range.network.toNat / 2 ^ range.hostBits * 2 ^ range.hostBits + host
      < range.network.toNat / 2 ^ range.hostBits * 2 ^ range.hostBits + 2 ^ range.hostBits := by
        omega
    _ = (range.network.toNat / 2 ^ range.hostBits + 1) * 2 ^ range.hostBits := by
        rw [Nat.add_mul, Nat.one_mul]
    _ ≤ _ := Nat.mul_le_mul_right _ quotient

theorem network_add {host : Nat} (small : host < 2 ^ range.hostBits) {ip : BitVec 32}
    (at_host : ip.toNat = range.network.toNat + host) :
    range.contains ip = true ∧ (range.host ip).toNat = host := by
  have block := Nat.two_pow_pos range.hostBits
  have split := network_toNat range
  constructor
  · rw [contains_iff, at_host]
    conv_lhs => rw [split]
    rw [Nat.mul_comm, Nat.mul_add_div block, Nat.div_eq_of_lt small, Nat.add_zero]
  · rw [host_toNat, at_host, split, Nat.mul_comm, Nat.mul_add_mod, Nat.mod_eq_of_lt small]

theorem broadcastHost_toNat (range : FakeRange) :
    range.broadcastHost.toNat = 2 ^ range.hostBits - 1 :=
  not_netmask_toNat range.prefixLen

theorem broadcast_toNat (range : FakeRange) :
    range.broadcast.toNat = range.network.toNat + (2 ^ range.hostBits - 1) := by
  have below : 2 ^ range.hostBits - 1 < 2 ^ range.hostBits := by
    have := eight_le range
    omega
  have split := network_toNat range
  rw [broadcast, mask, BitVec.toNat_or, not_netmask_toNat]
  change range.network.toNat ||| (2 ^ range.hostBits - 1) = _
  rw [split, Nat.mul_comm, ← Nat.two_pow_add_eq_or_of_lt below]

theorem gateway_toNat (range : FakeRange) : range.gateway.toNat = range.network.toNat + 1 := by
  have := network_add_lt range 1 (by have := eight_le range; omega)
  rw [gateway, BitVec.toNat_add]
  exact Nat.mod_eq_of_lt this

theorem first_toNat (range : FakeRange) :
    (range.network + 2).toNat = range.network.toNat + 2 := by
  have := network_add_lt range 2 (by have := eight_le range; omega)
  rw [BitVec.toNat_add]
  exact Nat.mod_eq_of_lt this

theorem usable_iff :
    range.Usable ip ↔ range.contains ip = true ∧ 2 ≤ (range.host ip).toNat ∧
      range.host ip ≠ range.broadcastHost := by
  have room := eight_le range
  have below : (range.host ip).toNat < 2 ^ range.hostBits := by
    rw [host_toNat]
    exact Nat.mod_lt _ (Nat.two_pow_pos _)
  rw [Usable]
  apply and_congr_right
  intro inside
  have address := toNat_eq_of_contains inside
  simp only [ne_eq, ← BitVec.toNat_inj, gateway_toNat, broadcast_toNat, broadcastHost_toNat]
  omega

theorem usable_length_le (range : FakeRange) {ips : List (BitVec 32)} (distinct : ips.Nodup)
    (usable : ∀ ip ∈ ips, range.Usable ip) : ips.length ≤ range.capacity := by
  have hosts : (ips.map fun ip => (range.host ip).toNat).Nodup := by
    apply List.Nodup.map_on _ distinct
    intro ip member other memberToo same
    rw [← BitVec.toNat_inj, toNat_eq_of_contains (usable ip member).1, same,
      ← toNat_eq_of_contains (usable other memberToo).1]
  have within : (ips.map fun ip => (range.host ip).toNat) ⊆ List.range' 2 range.capacity := by
    intro host member
    obtain ⟨ip, found, rfl⟩ := List.mem_map.mp member
    obtain ⟨-, low, high⟩ := usable_iff.mp (usable ip found)
    rw [ne_eq, ← BitVec.toNat_inj, broadcastHost_toNat] at high
    have below : (range.host ip).toNat < 2 ^ range.hostBits := by
      rw [host_toNat]
      exact Nat.mod_lt _ (Nat.two_pow_pos _)
    have room := eight_le range
    rw [List.mem_range'_1, capacity]
    omega
  have := (List.subperm_of_subset hosts within).length_le
  simpa using this

end FakeRange

section Sound

namespace FakeIpMapper

/-- What every state of the table should meet. -/
structure Sound (mapper : FakeIpMapper) : Prop where
  inverse : mapper.maps.Inverse
  assigned : ∀ domain ip, mapper.domainToIp.lookup domain = some ip → mapper.range.Usable ip
  answered : ∀ ip domain, mapper.lookupDomain ip = some domain → mapper.range.Usable ip
  bounded : mapper.domainToIp.entries.length ≤ mapper.range.capacity ∧
    mapper.ipToDomain.entries.length ≤ mapper.range.capacity
  recycled : ∀ ip old owner, mapper.lookupDomain ip = some owner → old ≠ owner →
    mapper.domainToIp.lookup old ≠ some ip

def Cursor (mapper : FakeIpMapper) : Prop :=
  mapper.range.contains mapper.nextIp = true ∧
    mapper.range.host mapper.nextIp ≠ mapper.range.broadcastHost

variable {mapper : FakeIpMapper}

theorem sound_of (inverse : mapper.maps.Inverse)
    (assigned : ∀ domain ip, mapper.domainToIp.lookup domain = some ip →
      mapper.range.Usable ip) : mapper.Sound := by
  have answered : ∀ ip domain, mapper.lookupDomain ip = some domain → mapper.range.Usable ip :=
    fun ip domain known => assigned domain ip ((inverse domain ip).mpr known)
  have known : mapper.ipToDomain.entries.length ≤ mapper.range.capacity := by
    have := FakeRange.usable_length_le mapper.range mapper.ipToDomain.keys_nodup (by
      intro ip member
      obtain ⟨domain, had⟩ := Option.isSome_iff_exists.mp
        (AList.lookup_isSome.mpr (AList.mem_keys.mpr member))
      exact answered ip domain had)
    simpa [AList.keys, List.keys] using this
  refine ⟨inverse, assigned, answered, ⟨Nat.le_trans inverse.entries_le known, known⟩, ?_⟩
  intro ip old owner had different still
  have := (inverse old ip).mp still
  exact different (Option.some.inj (this.symm.trans had))

theorem new_sound (range : FakeRange) : (new range).Sound := by
  apply sound_of
  · exact inverse_empty
  · intro domain ip had
    simp [new] at had

theorem new_cursor (range : FakeRange) : (new range).Cursor := by
  have room := range.eight_le
  have two : 2 < 2 ^ range.hostBits := by omega
  have := FakeRange.network_add two range.first_toNat
  refine ⟨this.1, ?_⟩
  rw [ne_eq, ← BitVec.toNat_inj, FakeRange.broadcastHost_toNat]
  intro same
  change (range.host (range.network + 2)).toNat = 2 ^ range.hostBits - 1 at same
  rw [this.2] at same
  omega

end FakeIpMapper

end Sound

section Runs

variable (table : CaseTable)

inductive FakeIpCall where
  | lookupOrAssign (name : String)
  | lookupDomain (ip : BitVec 32)
  | load (content : Bytes)
  | flush (snapshot : List (String × BitVec 32))

inductive FakeIpReply where
  | assigned (ip : BitVec 32) (evicted : Option String)
  | domain (name : Option String)
  | loaded
  | written (content : Option String)
  deriving DecidableEq

def FakeIpMapper.call (mapper : FakeIpMapper) : FakeIpCall → FakeIpReply × FakeIpMapper
  | .lookupOrAssign name =>
      let (reply, next) := mapper.lookupOrAssignWithEviction table name
      (.assigned reply.1 reply.2, next)
  | .lookupDomain ip => (.domain (mapper.lookupDomain ip), mapper)
  | .load content => (.loaded, mapper.load table content)
  | .flush snapshot =>
      let (content, next) := mapper.flush snapshot
      (.written content, next)

def FileLine.entry : FileLine → Option (String × BitVec 32)
  | .mapping ip domain => some (domain, ip)
  | _ => none

def fileMappings (range : FakeRange) (content : Bytes) : List (String × BitVec 32) :=
  match fromUtf8 content with
  | none => []
  | some text => ((lines text.toList).map (readLine table range)).filterMap FileLine.entry

/-- The calls that leave the table sound: a new address is taken from a cursor
beyond the gateway, and in a file together with the table so far, the last line
of a name is the last line of its address. -/
def FakeIpMapper.Unspoiled (mapper : FakeIpMapper) : FakeIpCall → Prop
  | .lookupOrAssign name =>
      mapper.domainToIp.lookup (toLowercase table name) = none →
        mapper.nextIp ≠ mapper.range.network ∧ mapper.nextIp ≠ mapper.range.gateway
  | .load content => LastAgree (mapper.maps.pairs ++ fileMappings table mapper.range content)
  | .lookupDomain _ | .flush _ => True

namespace FakeIpMapper
variable {table : CaseTable} {mapper : FakeIpMapper} {name : String}

/-- A known name changes nothing; a new one is assigned the address at the cursor. -/
theorem lookupOrAssign_cases (table : CaseTable) (mapper : FakeIpMapper) (name : String) :
    (∃ ip, mapper.domainToIp.lookup (toLowercase table name) = some ip ∧
      mapper.lookupOrAssignWithEviction table name = ((ip, none), mapper)) ∨
    (mapper.domainToIp.lookup (toLowercase table name) = none ∧
      ∃ next, mapper.lookupOrAssignWithEviction table name =
        ((mapper.nextIp,
          (mapper.lookupDomain mapper.nextIp).filter (· ≠ toLowercase table name)), next) ∧
        next.maps = mapper.maps.assign (toLowercase table name) mapper.nextIp ∧
        next.range = mapper.range ∧ next.dirty = true ∧
        next.nextIp =
          if mapper.range.host (mapper.nextIp + 1) = mapper.range.broadcastHost then
            mapper.range.network + 2
          else mapper.nextIp + 1) := by
  cases had : mapper.domainToIp.lookup (toLowercase table name) with
  | some ip => exact .inl ⟨ip, rfl, by simp only [lookupOrAssignWithEviction, had]⟩
  | none =>
      refine .inr ⟨rfl, ?_⟩
      simp only [lookupOrAssignWithEviction, had, lookupDomain, maps, Maps.assign]
      cases mapper.ipToDomain.lookup mapper.nextIp with
      | none => exact ⟨_, rfl, rfl, rfl, rfl, rfl⟩
      | some old =>
          by_cases same : old = toLowercase table name
          · simp [same, Option.filter]
          · simp [same, Option.filter]

theorem foldl_loadLine (lines : List FileLine) (mapper : FakeIpMapper) (value : Option Nat) :
    ((lines.foldl loadLine (mapper, value)).1.maps =
      mapper.maps.putAll (lines.filterMap FileLine.entry)) ∧
      (lines.foldl loadLine (mapper, value)).1.range = mapper.range ∧
      (lines.foldl loadLine (mapper, value)).1.nextIp = mapper.nextIp ∧
      (lines.foldl loadLine (mapper, value)).1.dirty = mapper.dirty := by
  induction lines generalizing mapper value with
  | nil => exact ⟨rfl, rfl, rfl, rfl⟩
  | cons line rest ih =>
      cases line with
      | skipped => exact ih mapper value
      | nextIp value => exact ih mapper value
      | mapping ip domain =>
          obtain ⟨maps, range, nextIp, dirty⟩ := ih
            { mapper with
              domainToIp := mapper.domainToIp.insert domain ip
              ipToDomain := mapper.ipToDomain.insert ip domain } value
          exact ⟨maps, range, nextIp, dirty⟩

theorem resume_spec (state : FakeIpMapper × Option Nat) :
    (resume state).maps = state.1.maps ∧ (resume state).range = state.1.range ∧
      (resume state).dirty = state.1.dirty := by
  obtain ⟨mapper, value⟩ := state
  cases value with
  | none => exact ⟨rfl, rfl, rfl⟩
  | some value =>
      simp only [resume]
      split <;> exact ⟨rfl, rfl, rfl⟩

theorem load_spec (table : CaseTable) (mapper : FakeIpMapper) (content : Bytes) :
    (mapper.load table content).maps =
      mapper.maps.putAll (fileMappings table mapper.range content) ∧
      (mapper.load table content).range = mapper.range ∧
      (mapper.load table content).dirty = mapper.dirty := by
  rw [load, fileMappings]
  cases fromUtf8 content with
  | none => exact ⟨rfl, rfl, rfl⟩
  | some text =>
      obtain ⟨maps, range, -, dirty⟩ :=
        foldl_loadLine ((lines text.toList).map (readLine table mapper.range)) mapper none
      obtain ⟨sameMaps, sameRange, sameDirty⟩ := resume_spec
        (((lines text.toList).map (readLine table mapper.range)).foldl loadLine (mapper, none))
      exact ⟨sameMaps.trans maps, sameRange.trans range, sameDirty.trans dirty⟩

theorem load_cursor {content : Bytes} (stands : mapper.Cursor) :
    (mapper.load table content).Cursor := by
  rw [load]
  cases fromUtf8 content with
  | none => exact stands
  | some text =>
      obtain ⟨-, range, nextIp, -⟩ :=
        foldl_loadLine ((lines text.toList).map (readLine table mapper.range)) mapper none
      simp only [resume]
      split
      · rw [Cursor, range, nextIp]
        exact stands
      · split
        · rename_i accepted
          simpa [Cursor] using accepted
        · rw [Cursor, range, nextIp]
          exact stands

theorem fileMappings_usable {range : FakeRange} {content : Bytes} {domain : String}
    {ip : BitVec 32} (member : (domain, ip) ∈ fileMappings table range content) :
    range.Usable ip := by
  rw [fileMappings] at member
  cases text : fromUtf8 content with
  | none => simp [text] at member
  | some text' =>
      simp only [text, List.mem_filterMap, List.mem_map] at member
      obtain ⟨read, ⟨line, -, rfl⟩, entry⟩ := member
      simp only [readLine] at entry
      split at entry
      · cases entry
      · split at entry
        · cases entry
        · split at entry
          · cases entry
          · cases entry
          · split at entry
            · cases entry
            · rename_i parsed
              split at entry
              · cases entry
              · rename_i accepted
                cases entry
                rw [FakeRange.usable_iff]
                simp only [Bool.or_eq_true, Bool.not_eq_true', decide_eq_true_eq, not_or,
                  Bool.not_eq_false] at accepted
                obtain ⟨⟨inside, low⟩, high⟩ := accepted
                refine ⟨inside, ?_, high⟩
                rw [BitVec.lt_def] at low
                exact Nat.not_lt.mp low

theorem following_contains (stands : mapper.Cursor) :
    mapper.range.contains (mapper.nextIp + 1) = true ∧
      (mapper.range.host (mapper.nextIp + 1)).toNat =
        (mapper.range.host mapper.nextIp).toNat + 1 := by
  obtain ⟨inside, high⟩ := stands
  have address := FakeRange.toNat_eq_of_contains inside
  have below : (mapper.range.host mapper.nextIp).toNat < 2 ^ mapper.range.hostBits := by
    rw [FakeRange.host_toNat]
    exact Nat.mod_lt _ (Nat.two_pow_pos _)
  rw [ne_eq, ← BitVec.toNat_inj, FakeRange.broadcastHost_toNat] at high
  have small : (mapper.range.host mapper.nextIp).toNat + 1 < 2 ^ mapper.range.hostBits := by omega
  have whole := mapper.range.network_add_lt _ small
  have sum : (mapper.nextIp + 1).toNat =
      mapper.range.network.toNat + ((mapper.range.host mapper.nextIp).toNat + 1) := by
    rw [BitVec.toNat_add, address]
    change (mapper.range.network.toNat + (mapper.range.host mapper.nextIp).toNat + 1) % 2 ^ 32 = _
    rw [Nat.mod_eq_of_lt (by omega)]
    omega
  exact FakeRange.network_add small sum

theorem call_cursor (call : FakeIpCall) (stands : mapper.Cursor) :
    (mapper.call table call).2.Cursor := by
  cases call with
  | lookupOrAssign name =>
      rcases lookupOrAssign_cases table mapper name with
        ⟨ip, -, same⟩ | ⟨-, next, assigned, -, range, -, nextIp⟩
      · rw [call, same]
        exact stands
      · rw [call, assigned]
        simp only [Cursor, range, nextIp]
        split
        · exact new_cursor mapper.range
        · exact ⟨(following_contains stands).1, by assumption⟩
  | lookupDomain ip => exact stands
  | load content => exact load_cursor stands
  | flush snapshot =>
      simp only [call, flush]
      split <;> exact stands

/-- A new assignment keeps the table sound exactly when the cursor is beyond
the gateway. -/
theorem lookupOrAssign_exact (stands : mapper.Cursor) (sound : mapper.Sound) :
    (mapper.call table (.lookupOrAssign name)).2.Sound ↔
      mapper.Unspoiled table (.lookupOrAssign name) := by
  rcases lookupOrAssign_cases table mapper name with
    ⟨ip, had, same⟩ | ⟨fresh, next, assigned, maps, range, -, -⟩
  · rw [call, same]
    exact ⟨fun _ none => absurd (had.symm.trans none) (by simp), fun _ => sound⟩
  · rw [call, assigned]
    have lookup : ∀ domain, next.domainToIp.lookup domain =
        (mapper.maps.assign (toLowercase table name) mapper.nextIp).forward.lookup domain :=
      fun domain => congrArg (fun maps => maps.forward.lookup domain) maps
    constructor
    · intro kept _
      have usable := kept.assigned (toLowercase table name) mapper.nextIp
        (by rw [lookup, assign_forward, if_pos rfl])
      rw [range] at usable
      exact ⟨usable.2.1, usable.2.2.1⟩
    · intro beyond
      obtain ⟨notNetwork, notGateway⟩ := beyond fresh
      apply sound_of
      · rw [maps]
        exact assign_inverse sound.inverse fresh
      · intro domain ip had
        rw [lookup, assign_forward] at had
        rw [range]
        split at had
        · cases had
          refine ⟨stands.1, notNetwork, notGateway, ?_⟩
          intro same
          have address := FakeRange.toNat_eq_of_contains stands.1
          rw [same, FakeRange.broadcast_toNat] at address
          apply stands.2
          rw [← BitVec.toNat_inj, FakeRange.broadcastHost_toNat, same]
          omega
        · split at had
          · cases had
          · exact sound.assigned domain ip had

theorem load_exact {content : Bytes} (sound : mapper.Sound) :
    (mapper.call table (.load content)).2.Sound ↔ mapper.Unspoiled table (.load content) := by
  obtain ⟨maps, range, -⟩ := load_spec table mapper content
  rw [call, Unspoiled, ← putAll_inverse_iff sound.inverse, ← maps]
  constructor
  · exact fun kept => kept.inverse
  · intro inverse
    apply sound_of inverse
    intro domain ip had
    have written : (mapper.maps.putAll
        (fileMappings table mapper.range content)).forward.lookup domain = some ip := by
      rw [← maps]
      exact had
    rw [putAll_forward] at written
    rw [range]
    cases last : lastOf (fileMappings table mapper.range content) domain with
    | none =>
        rw [last] at written
        exact sound.assigned domain ip written
    | some value =>
        rw [last] at written
        cases written
        exact fileMappings_usable (mem_of_lastOf last)

theorem call_exact (call : FakeIpCall) (stands : mapper.Cursor) (sound : mapper.Sound) :
    (mapper.call table call).2.Sound ↔ mapper.Unspoiled table call := by
  cases call with
  | lookupOrAssign name => exact lookupOrAssign_exact stands sound
  | lookupDomain ip => exact ⟨fun _ => trivial, fun _ => sound⟩
  | load content => exact load_exact sound
  | flush snapshot =>
      refine ⟨fun _ => trivial, fun _ => ?_⟩
      simp only [FakeIpMapper.call, flush]
      split
      · exact ⟨sound.inverse, sound.assigned, sound.answered, sound.bounded, sound.recycled⟩
      · exact sound

theorem lookupOrAssign_answer (mapper : FakeIpMapper) (name : String) :
    (mapper.lookupOrAssignWithEviction table name).2.domainToIp.lookup (toLowercase table name) =
      some (mapper.lookupOrAssignWithEviction table name).1.1 := by
  rcases lookupOrAssign_cases table mapper name with
    ⟨ip, had, same⟩ | ⟨-, next, assigned, maps, -⟩
  · rw [same]
    exact had
  · rw [assigned]
    have := congrArg (fun maps => maps.forward.lookup (toLowercase table name)) maps
    exact this.trans (by rw [assign_forward, if_pos rfl])

end FakeIpMapper

/-- In every run all states are sound exactly when no call spoils the table, and
an assignment answers with what the table then has. -/
theorem fake_ip_sound_iff (range : FakeRange) (calls : List FakeIpCall) :
    ((∀ past, past <+: calls →
        (run (FakeIpMapper.call table) (FakeIpMapper.new range) past).Sound) ↔
      ∀ past next, past ++ [next] <+: calls →
        (run (FakeIpMapper.call table) (FakeIpMapper.new range) past).Unspoiled table next) ∧
      ∀ past name,
        let answer := (run (FakeIpMapper.call table) (FakeIpMapper.new range)
          past).lookupOrAssignWithEviction table name
        answer.2.domainToIp.lookup (toLowercase table name) = some answer.1.1 :=
  ⟨run_good_iff (fun _ call stands => FakeIpMapper.call_cursor call stands)
      (fun _ call stands sound => FakeIpMapper.call_exact call stands sound)
      (FakeIpMapper.new_cursor range) (FakeIpMapper.new_sound range) calls,
    fun _ name => FakeIpMapper.lookupOrAssign_answer _ name⟩

def sampleRange : FakeRange := ⟨0xC6120000, 16, by decide, by decide⟩

/-- One name on two lines keeps both addresses, and a cursor at the network
address is taken up. -/
theorem damaged_file_spoils_table :
    ¬ (run (FakeIpMapper.call sampleCase) (FakeIpMapper.new sampleRange)
        [.load (utf8 "198.18.0.5 a.com\n198.18.0.6 a.com\n")]).Sound ∧
      ¬ (run (FakeIpMapper.call sampleCase) (FakeIpMapper.new sampleRange)
        [.load (utf8 "next_ip=3323068416\n"), .lookupOrAssign "a.com"]).Sound := by
  constructor
  · intro sound
    have stale : (run (FakeIpMapper.call sampleCase) (FakeIpMapper.new sampleRange)
        [.load (utf8 "198.18.0.5 a.com\n198.18.0.6 a.com\n")]).domainToIp.lookup "a.com" =
          some 0xC6120005 := (sound.inverse "a.com" 0xC6120005).mpr (by decide +kernel)
    exact absurd stale (by decide +kernel)
  · intro sound
    have network := sound.assigned "a.com" 0xC6120000 (by decide +kernel)
    exact network.2.1 (by decide +kernel)

end Runs

end Mirage.Dns
