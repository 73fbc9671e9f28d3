import Mirage.Tls.Record

/-!
ServerHello patching of crypto/handshake_cache.rs: a captured flight is replayed
with the client's session id, a new random, a new public key and new noise. The
source draws from the system's generators; what it draws is an argument here.
-/

namespace Mirage.Tls
open Word Vectors
open Buffer (overwrite overwrite_at)

section Source

/-- What one replay draws. -/
structure Fresh where
  random : Bytes
  publicKey : Nat → Option Bytes
  noise : Nat → UInt8
  randomSize : random.length = 32

/-- A key of the group's length or none. -/
def generateKeyShare (fresh : Fresh) (group : Nat) : Option Bytes :=
  if group = 0x001d then (fresh.publicKey group).filter fun key => key.length = 32
  else if group = 0x0017 then (fresh.publicKey group).filter fun key => key.length = 65
  else none

/-- The extension walk of `key_share_info`: group, key length, where the key stands. -/
def findKeyShare (flight : Bytes) (extEnd curr : Nat) : Option (Nat × Nat × Nat) :=
  if bound : curr + 4 ≤ extEnd then
    let extType := beAt 2 flight curr
    let extDataLen := beAt 2 flight (curr + 2)
    let dataStart := curr + 4
    let dataEnd := dataStart + extDataLen
    if extEnd < dataEnd then none
    else if extType = 0x0033 then
      if 4 ≤ extDataLen ∧ dataStart + 4 + beAt 2 flight (dataStart + 2) = dataEnd then
        some (beAt 2 flight dataStart, beAt 2 flight (dataStart + 2), dataStart + 4)
      else none
    else findKeyShare flight extEnd dataEnd
  else none
termination_by extEnd - curr

def keyShareInfo (flight : Bytes) : Option (Nat × Nat × Nat) :=
  if flight.length < 9 ∨ byteAt flight 0 ≠ 0x16 then none
  else
    let recEnd := 5 + beAt 2 flight 3
    if flight.length < recEnd ∨ recEnd < 9 then none
    else if byteAt flight 5 ≠ 0x02 then none
    else
      let hsEnd := 9 + beAt 3 flight 6
      if recEnd < hsEnd ∨ hsEnd < 44 then none
      else
        let cipherOff := 44 + (byteAt flight 43).toNat
        if hsEnd < cipherOff + 5 then none
        else
          let extStart := cipherOff + 5
          let extEnd := extStart + beAt 2 flight (cipherOff + 3)
          if hsEnd < extEnd then none else findKeyShare flight extEnd extStart

def keyShareGroup (flight : Bytes) : Option (Nat × Nat) :=
  (keyShareInfo flight).map fun info => (info.1, info.2.1)

def replaceable (group klen : Nat) : Bool :=
  group = 0x001d && klen = 32 || group = 0x0017 && klen = 65

def patchKeyShare (fresh : Fresh) (buf : Bytes) : Bytes :=
  match keyShareInfo buf with
  | none => buf
  | some (group, klen, keyStart) =>
      if replaceable group klen then
        match generateKeyShare fresh group with
        | none => buf
        | some newKey => overwrite buf keyStart newKey
      else buf

def clamp (n : Int) (high : Nat) : Nat := (min (max n 0) high).toNat

def patchServerHello (fresh : Fresh) (flight clientSessionId : Bytes) : Bytes :=
  if flight.length < 44 ∨ byteAt flight 0 ≠ 0x16 then flight
  else
    let sidLen := (byteAt flight 43).toNat
    if flight.length < 44 + sidLen then flight
    else
      let diff : Int := clientSessionId.length - sidLen
      let result := flight.take 43 ++ (UInt8.ofNat clientSessionId.length ::
        (clientSessionId ++ flight.drop (44 + sidLen)))
      let result := overwrite result 11 fresh.random
      let newRecordLen := clamp (beAt 2 flight 3 + diff) 65535
      let newHsLen := clamp (beAt 3 flight 6 + diff) 0xFFFFFF
      let result := overwrite result 3 (toBe 2 newRecordLen)
      let result := overwrite result 6 (toBe 3 newHsLen)
      let result := patchKeyShare fresh result
      randomizeFrom fresh.noise result (5 + newRecordLen)

/-- The one-time public key where there is one, else fresh bytes; and what was
written. -/
def applyServerRandom (drawn flight : Bytes) (overrideRandom : Option Bytes) : Bytes × Bytes :=
  if 43 ≤ flight.length ∧ byteAt flight 0 = 0x16 then
    (overwrite flight 11 (overrideRandom.getD drawn), overrideRandom.getD drawn)
  else (flight, List.replicate 32 0)

end Source

section Shape

/-- The parts of a ServerHello that a replay keeps apart. Extensions behind the
key share are not parsed by it, nor is what follows the extensions. -/
structure Parts where
  version : Bytes
  legacy : Bytes
  random : Bytes
  sessionId : Bytes
  suite : Bytes
  before : List (Nat × Bytes)
  group : Nat
  key : Bytes
  after : Bytes
  handshakeRest : Bytes
  recordRest : Bytes

namespace Parts

def keyShare (parts : Parts) : Bytes := item 0x0033 (item parts.group parts.key)

def extensions (parts : Parts) : Bytes :=
  parts.before.flatMap (fun ext => item ext.1 ext.2) ++ (parts.keyShare ++ parts.after)

def handshake (parts : Parts) : Bytes :=
  parts.legacy ++ (parts.random ++ (vector 1 parts.sessionId ++ (parts.suite ++
    (vector 2 parts.extensions ++ parts.handshakeRest))))

def record (parts : Parts) : Bytes :=
  0x02 :: (vector 3 parts.handshake ++ parts.recordRest)

def bytes (parts : Parts) : Bytes := 0x16 :: (parts.version ++ vector 2 parts.record)

end Parts

/-- A ServerHello all of whose lengths fit their fields. -/
structure ServerHello extends Parts where
  versionSize : version.length = 2
  legacySize : legacy.length = 2
  randomSize : random.length = 32
  suiteSize : suite.length = 3
  sessionFits : sessionId.length < 256
  others : ∀ ext ∈ before, ext.1 ≠ 0x0033 ∧ ext.1 < 256 ^ 2
  groupFits : group < 256 ^ 2
  fits : toParts.record.length < 256 ^ 2

namespace ServerHello

variable (hello : ServerHello)

theorem record_length : hello.record.length =
    44 + hello.sessionId.length + hello.extensions.length + hello.handshakeRest.length +
      hello.recordRest.length := by
  simp [Parts.record, Parts.handshake, hello.legacySize, hello.randomSize, hello.suiteSize]
  omega

theorem handshake_length : hello.handshake.length =
    40 + hello.sessionId.length + hello.extensions.length + hello.handshakeRest.length := by
  simp [Parts.handshake, hello.legacySize, hello.randomSize, hello.suiteSize]
  omega

end ServerHello

/-- The bytes up to the session id, under whatever lengths. -/
def head (version : Bytes) (recordLen hsLen : Nat) (legacy random : Bytes) : Bytes :=
  0x16 :: (version ++ (toBe 2 recordLen ++ (0x02 :: (toBe 3 hsLen ++ (legacy ++ random)))))

end Shape

section Reads

variable {version legacy random tail : Bytes} {recordLen hsLen : Nat}

theorem head_length (two : version.length = 2) (alsoTwo : legacy.length = 2)
    (size : random.length = 32) : (head version recordLen hsLen legacy random).length = 43 := by
  simp [head, two, alsoTwo, size]

theorem beAt_head_record (two : version.length = 2) (fits : recordLen < 256 ^ 2) :
    beAt 2 (head version recordLen hsLen legacy random ++ tail) 3 = recordLen := by
  have split : head version recordLen hsLen legacy random ++ tail = (0x16 :: version) ++
      (toBe 2 recordLen ++ (0x02 :: (toBe 3 hsLen ++ (legacy ++ (random ++ tail))))) := by
    simp [head]
  have size : (0x16 :: version).length = 3 := by simp [two]
  rw [split, beAt_skip (Nat.le_of_eq size), size, beAt_toBe fits]

theorem byteAt_head_handshake (two : version.length = 2) :
    byteAt (head version recordLen hsLen legacy random ++ tail) 5 = 0x02 := by
  have split : head version recordLen hsLen legacy random ++ tail =
      (0x16 :: (version ++ toBe 2 recordLen)) ++
        (0x02 :: (toBe 3 hsLen ++ (legacy ++ (random ++ tail)))) := by
    simp [head]
  have size : (0x16 :: (version ++ toBe 2 recordLen)).length = 5 := by simp [two]
  rw [split, byteAt_skip (Nat.le_of_eq size), size]
  rfl

theorem beAt_head_handshake (two : version.length = 2) (fits : hsLen < 256 ^ 3) :
    beAt 3 (head version recordLen hsLen legacy random ++ tail) 6 = hsLen := by
  have split : head version recordLen hsLen legacy random ++ tail =
      (0x16 :: (version ++ toBe 2 recordLen ++ [0x02])) ++
        (toBe 3 hsLen ++ (legacy ++ (random ++ tail))) := by
    simp [head]
  have size : (0x16 :: (version ++ toBe 2 recordLen ++ [0x02])).length = 6 := by simp [two]
  rw [split, beAt_skip (Nat.le_of_eq size), size, beAt_toBe fits]

end Reads

section Walk

/-- The key share extension, read by its offsets. -/
theorem keyShare_reads {front key rest : Bytes} {group : Nat} (groupFits : group < 256 ^ 2)
    (keyFits : 4 + key.length < 256 ^ 2) :
    let data := front ++ (item 0x0033 (item group key) ++ rest)
    beAt 2 data front.length = 0x0033 ∧ beAt 2 data (front.length + 2) = 4 + key.length ∧
      beAt 2 data (front.length + 4) = group ∧ beAt 2 data (front.length + 6) = key.length := by
  intro data
  have size : (item group key).length = 4 + key.length := item_length group key
  have group_here : data = (front ++ (toBe 2 0x0033 ++ toBe 2 (4 + key.length))) ++
      (toBe 2 group ++ (toBe 2 key.length ++ (key ++ rest))) := by
    simp only [data, item_split, size]
    simp
  have key_here : data = (front ++ (toBe 2 0x0033 ++ toBe 2 (4 + key.length)) ++ toBe 2 group) ++
      (toBe 2 key.length ++ (key ++ rest)) := by
    simp [group_here]
  refine ⟨beAt_item_type (by decide), ?_, ?_, ?_⟩
  · rw [beAt_item_length (by omega), size]
  · rw [group_here, beAt_skip (by simp)]
    simpa using beAt_toBe groupFits
  · rw [key_here, beAt_skip (by simp)]
    simpa using beAt_toBe (show key.length < 256 ^ 2 by omega)

theorem findKeyShare_here {front key rest : Bytes} {group extEnd : Nat}
    (groupFits : group < 256 ^ 2) (keyFits : 4 + key.length < 256 ^ 2)
    (inside : front.length + (8 + key.length) ≤ extEnd) :
    findKeyShare (front ++ (item 0x0033 (item group key) ++ rest)) extEnd
      front.length = some (group, key.length, front.length + 8) := by
  obtain ⟨type, length, share, keyLength⟩ := @keyShare_reads front key rest group groupFits keyFits
  rw [findKeyShare, dif_pos (by omega)]
  simp only [type, length, if_true]
  rw [if_neg (by omega), share, keyLength, if_pos (by omega)]

/-- The key share is found behind whatever other extensions. -/
theorem findKeyShare_extensions {before : List (Nat × Bytes)} {key rest : Bytes} {group : Nat}
    (others : ∀ ext ∈ before, ext.1 ≠ 0x0033 ∧ ext.1 < 256 ^ 2) (groupFits : group < 256 ^ 2)
    (front : Bytes) (extEnd : Nat)
    (inside : front.length + ((before.flatMap fun ext => item ext.1 ext.2).length +
      (8 + key.length)) ≤ extEnd)
    (fits : extEnd - front.length < 256 ^ 2) :
    findKeyShare (front ++ (before.flatMap (fun ext => item ext.1 ext.2) ++
        (item 0x0033 (item group key) ++ rest))) extEnd front.length =
      some (group, key.length,
        front.length + (before.flatMap fun ext => item ext.1 ext.2).length + 8) := by
  induction before generalizing front with
  | nil =>
      simp only [List.flatMap_nil, List.nil_append, List.length_nil, Nat.add_zero,
        Nat.zero_add] at inside ⊢
      exact findKeyShare_here groupFits (by omega) inside
  | cons ext before ih =>
      rw [List.forall_mem_cons] at others
      obtain ⟨⟨different, typeFits⟩, later⟩ := others
      simp only [List.flatMap_cons, List.length_append, item_length] at inside ⊢
      rw [List.append_assoc, findKeyShare, dif_pos (by omega)]
      simp only [beAt_item_type typeFits, beAt_item_length (show ext.2.length < 256 ^ 2 by omega),
        if_neg different]
      have size : front.length + 4 + ext.2.length = (front ++ item ext.1 ext.2).length := by
        simp
        omega
      rw [if_neg (by omega), size, ← List.append_assoc, ih later] <;>
        simp only [List.length_append, item_length]
      · congr 3
        omega
      · omega
      · omega

end Walk

theorem exists_extensions {flight : Bytes} {extEnd curr group klen at_ : Nat}
    (inside : extEnd ≤ flight.length)
    (found : findKeyShare flight extEnd curr = some (group, klen, at_)) :
    ∃ (before : List (Nat × Bytes)) (key after : Bytes),
      (flight.take extEnd).drop curr = before.flatMap (fun ext => item ext.1 ext.2) ++
        (item 0x0033 (item group key) ++ after) ∧
      (∀ ext ∈ before, ext.1 ≠ 0x0033 ∧ ext.1 < 256 ^ 2) ∧ key.length = klen ∧
      group < 256 ^ 2 := by
  induction curr using findKeyShare.induct flight extEnd with
  | case1 curr bound extDataLen dataStart dataEnd beyond =>
      rw [findKeyShare, dif_pos bound] at found
      simp only [extDataLen, dataStart, dataEnd] at beyond
      simp [beyond] at found
  | case2 curr bound extType extDataLen dataStart dataEnd within share whole =>
      rw [findKeyShare, dif_pos bound] at found
      simp only [extDataLen, dataStart, dataEnd, extType] at within share whole
      rw [if_neg within, if_pos share, if_pos whole] at found
      simp only [Option.some.injEq, Prod.mk.injEq] at found
      obtain ⟨rfl, rfl, rfl⟩ := found
      have window : ((flight.take extEnd).drop curr).length = extEnd - curr := by
        rw [List.length_drop, List.length_take, Nat.min_eq_left inside]
      have type := @beAt_window flight curr 2 extEnd curr (Nat.le_refl _) (by omega)
      have length := @beAt_window flight (curr + 2) 2 extEnd curr (by omega) (by omega)
      rw [Nat.sub_self] at type
      rw [Nat.add_sub_cancel_left] at length
      obtain ⟨data, rest, split, size, _⟩ := @exists_item ((flight.take extEnd).drop curr)
        (by omega) (by omega)
      rw [type, share] at split
      have group := @beAt_window flight (curr + 4) 2 extEnd curr (by omega) (by omega)
      have keyLength := @beAt_window flight (curr + 4 + 2) 2 extEnd curr (by omega) (by omega)
      have inner : curr + 4 + 2 - curr = 4 + 2 := by omega
      rw [Nat.add_sub_cancel_left, split] at group
      rw [inner, split, beAt_item_data (by omega)] at keyLength
      -- The group is read in front of the bytes that the length counts.
      have groupHere : beAt 2 (item 0x0033 data ++ rest) 4 = beAt 2 data 0 :=
        @beAt_item_data data rest 0x0033 2 0 (by omega)
      obtain ⟨key, none, share, keySize, fits⟩ := @exists_item data (by omega) (by omega)
      have ends : none = [] := by
        have total := congrArg List.length share
        simp only [List.length_append, item_length] at total
        exact List.length_eq_zero_iff.mp (by omega)
      rw [ends, List.append_nil, ← groupHere, group] at share
      refine ⟨[], key, rest, ?_, fun _ missing => (nomatch missing), by omega, by omega⟩
      rw [split, share]
      rfl
  | case3 curr bound extType extDataLen dataStart dataEnd within share broken =>
      rw [findKeyShare, dif_pos bound] at found
      simp only [extDataLen, dataStart, dataEnd, extType] at within share broken
      simp [within, share, broken] at found
  -- Another extension: it joins those before.
  | case4 curr bound extType extDataLen dataStart dataEnd within different ih =>
      rw [findKeyShare, dif_pos bound] at found
      simp only [extDataLen, dataStart, dataEnd, extType] at within different ih
      rw [if_neg within, if_neg different] at found
      obtain ⟨before, key, after, tail, others, keySize, groupFits⟩ := ih found
      have window : ((flight.take extEnd).drop curr).length = extEnd - curr := by
        rw [List.length_drop, List.length_take, Nat.min_eq_left inside]
      have type := @beAt_window flight curr 2 extEnd curr (Nat.le_refl _) (by omega)
      have length := @beAt_window flight (curr + 2) 2 extEnd curr (by omega) (by omega)
      rw [Nat.sub_self] at type
      rw [Nat.add_sub_cancel_left] at length
      obtain ⟨data, rest, split, size, fits⟩ := @exists_item ((flight.take extEnd).drop curr)
        (by omega) (by omega)
      rw [type] at split fits
      have behind : (flight.take extEnd).drop (curr + 4 + beAt 2 flight (curr + 2)) = rest := by
        rw [Nat.add_assoc, ← List.drop_drop, split, ← length, ← size]
        exact List.drop_left' (item_length _ _)
      refine ⟨(beAt 2 flight curr, data) :: before, key, after, ?_,
        List.forall_mem_cons.mpr ⟨⟨different, fits⟩, others⟩, keySize, groupFits⟩
      rw [split, ← behind, tail]
      simp
  | case5 curr bound =>
      rw [findKeyShare, dif_neg bound] at found
      cases found

namespace ServerHello

variable (hello : ServerHello) (tail : Bytes)

def beforeBytes : Bytes := hello.before.flatMap fun ext => item ext.1 ext.2

theorem extensions_length : hello.extensions.length =
    hello.beforeBytes.length + (8 + hello.key.length + hello.after.length) := by
  simp only [Parts.extensions, Parts.keyShare, beforeBytes, List.length_append, item_length]
  omega

def front : Bytes :=
  head hello.version hello.record.length hello.handshake.length hello.legacy hello.random ++
    (vector 1 hello.sessionId ++ (hello.suite ++ toBe 2 hello.extensions.length))

theorem front_length : hello.front.length = 49 + hello.sessionId.length := by
  simp only [front, List.length_append, vector_length, toBe_length, hello.suiteSize,
    head_length hello.versionSize hello.legacySize hello.randomSize]
  omega

theorem bytes_head : hello.bytes ++ tail =
    head hello.version hello.record.length hello.handshake.length hello.legacy hello.random ++
      (vector 1 hello.sessionId ++ (hello.suite ++ (vector 2 hello.extensions ++
        (hello.handshakeRest ++ (hello.recordRest ++ tail))))) := by
  have wire : hello.bytes = 0x16 :: (hello.version ++ (toBe 2 hello.record.length ++
      (0x02 :: ((toBe 3 hello.handshake.length ++ hello.handshake) ++ hello.recordRest)))) := rfl
  rw [wire]
  generalize hello.record.length = recordLen
  generalize hello.handshake.length = hsLen
  simp [head, Parts.handshake]

theorem bytes_front : hello.bytes ++ tail =
    hello.front ++ (hello.beforeBytes ++ (hello.keyShare ++
      (hello.after ++ (hello.handshakeRest ++ (hello.recordRest ++ tail))))) := by
  have split : vector 2 hello.extensions = toBe 2 hello.extensions.length ++
      (hello.beforeBytes ++ (hello.keyShare ++ hello.after)) := rfl
  rw [bytes_head, front, split]
  generalize hello.extensions.length = extLen
  simp

theorem sid_read : (byteAt (hello.bytes ++ tail) 43).toNat = hello.sessionId.length := by
  have size := @head_length hello.version hello.legacy hello.random hello.record.length
    hello.handshake.length hello.versionSize hello.legacySize hello.randomSize
  rw [bytes_head, byteAt_skip (Nat.le_of_eq size), size]
  change (UInt8.ofNat hello.sessionId.length).toNat = _
  rw [UInt8.toNat_ofNat']
  exact Nat.mod_eq_of_lt hello.sessionFits

theorem extensions_read :
    beAt 2 (hello.bytes ++ tail) (44 + hello.sessionId.length + 3) = hello.extensions.length := by
  have fits := hello.fits
  have record := hello.record_length
  have size := @head_length hello.version hello.legacy hello.random hello.record.length
    hello.handshake.length hello.versionSize hello.legacySize hello.randomSize
  have suite := hello.suiteSize
  rw [bytes_head, beAt_skip (by omega), size, beAt_skip (by simp; omega), vector_length,
    beAt_skip (by omega), suite, vector, List.append_assoc]
  have none : 44 + hello.sessionId.length + 3 - 43 - (1 + hello.sessionId.length) - 3 = 0 := by
    omega
  rw [none]
  exact beAt_toBe (by omega)

theorem record_read : beAt 2 (hello.bytes ++ tail) 3 = hello.record.length := by
  rw [bytes_head]
  exact beAt_head_record hello.versionSize hello.fits

theorem random_read : ((hello.bytes ++ tail).drop 11).take 32 = hello.random := by
  have size := hello.randomSize
  have split : hello.bytes ++ tail = (0x16 :: (hello.version ++ (toBe 2 hello.record.length ++
      (0x02 :: (toBe 3 hello.handshake.length ++ hello.legacy))))) ++ (hello.random ++
        (vector 1 hello.sessionId ++ (hello.suite ++ (vector 2 hello.extensions ++
          (hello.handshakeRest ++ (hello.recordRest ++ tail)))))) := by
    rw [bytes_head]
    simp [head]
  rw [split, List.drop_left' (by simp [hello.versionSize, hello.legacySize]), ← size, List.take_left]

theorem bytes_length : hello.bytes.length = 5 + hello.record.length := by
  simp [Parts.bytes, hello.versionSize]
  omega

theorem keyShareInfo_bytes : keyShareInfo (hello.bytes ++ tail) =
    some (hello.group, hello.key.length, hello.front.length + hello.beforeBytes.length + 8) := by
  have record := hello.record_length
  have handshake := hello.handshake_length
  have fits := hello.fits
  have extensions := hello.extensions_length
  have length : (hello.bytes ++ tail).length = 5 + hello.record.length + tail.length := by
    rw [List.length_append, bytes_length]
  have type : byteAt (hello.bytes ++ tail) 0 = 0x16 := rfl
  have two := hello.record_read tail
  have kind : byteAt (hello.bytes ++ tail) 5 = 0x02 := by
    rw [bytes_head]
    exact byteAt_head_handshake hello.versionSize
  have three : beAt 3 (hello.bytes ++ tail) 6 = hello.handshake.length := by
    rw [bytes_head]
    exact beAt_head_handshake hello.versionSize (by omega)
  have front := hello.front_length
  have inside : hello.front.length + (hello.beforeBytes.length + (8 + hello.key.length)) ≤
      hello.front.length + hello.extensions.length := by omega
  have found := @findKeyShare_extensions hello.before hello.key
    (hello.after ++ (hello.handshakeRest ++ (hello.recordRest ++ tail))) hello.group hello.others
    hello.groupFits hello.front (hello.front.length + hello.extensions.length) inside (by omega)
  have start : 44 + hello.sessionId.length + 5 = hello.front.length := by omega
  simp only [keyShareInfo, length, type, two, kind, three, sid_read, extensions_read, start]
  rw [if_neg (by simp; omega), if_neg (by omega), if_neg (by simp), if_neg (by omega),
    if_neg (by omega), if_neg (by omega), bytes_front]
  exact found

end ServerHello

section Parse

variable {flight : Bytes}

/-- The handshake message at the front of a record, by the offsets of the source. -/
theorem exists_handshake (short : 9 ≤ flight.length) (type : byteAt flight 0 = 0x16)
    (outside : 5 + beAt 2 flight 3 ≤ flight.length) (kind : byteAt flight 5 = 0x02)
    (broken : 9 + beAt 3 flight 6 ≤ 5 + beAt 2 flight 3) :
    ∃ version handshake recordRest tail : Bytes, version.length = 2 ∧
      (0x02 :: (vector 3 handshake ++ recordRest)).length < 256 ^ 2 ∧
      handshake.length = beAt 3 flight 6 ∧
      flight = 0x16 :: (version ++ vector 2 (0x02 :: (vector 3 handshake ++ recordRest))) ++ tail := by
  obtain ⟨record, tail, rfl, size⟩ := @Record.exists_front flight (by omega) outside
  obtain ⟨contentType, version, body, two, fits⟩ := record
  replace type : contentType = 0x16 := type
  dsimp only at size fits two
  subst type
  have pre : (0x16 :: (version ++ toBe 2 body.length)).length = 5 := by simp [two]
  have split : Record.bytes ⟨0x16, version, body, two, fits⟩ ++ tail =
      (0x16 :: (version ++ toBe 2 body.length)) ++ (body ++ tail) := by
    simp [Record.bytes, vector]
  obtain ⟨first, inner, rfl, one⟩ := @exists_cut body 1 (by omega)
  obtain ⟨handshakeType, rfl⟩ := List.length_eq_one_iff.mp one
  have bodySize : ([handshakeType] ++ inner).length = 1 + inner.length := by simp; omega
  have hello : handshakeType = 0x02 := by
    rw [split, byteAt_skip (Nat.le_of_eq pre), pre] at kind
    exact kind
  subst hello
  have length : beAt 3 (Record.bytes ⟨0x16, version, [0x02] ++ inner, two, fits⟩ ++ tail) 6 =
      beAt 3 inner 0 := by
    rw [split, beAt_skip (by omega), pre, List.append_assoc, beAt_skip (by simp),
      List.length_singleton, beAt_front (by omega)]
  rw [length] at broken ⊢
  obtain ⟨handshake, recordRest, rfl, hsSize⟩ := @exists_vector 3 inner (by omega)
  exact ⟨version, handshake, recordRest, tail, two, fits, hsSize, rfl⟩

/-- A flight that passes the check of its key share begins with a ServerHello
whose lengths nest. -/
theorem exists_hello {group klen at_ : Nat}
    (found : keyShareInfo flight = some (group, klen, at_)) :
    ∃ (hello : ServerHello) (tail : Bytes), flight = hello.bytes ++ tail ∧ hello.group = group ∧
      hello.key.length = klen := by
  simp only [keyShareInfo] at found
  split_ifs at found with short outside kind broken cut beyond
  simp only [not_or, Nat.not_lt, not_not] at short outside kind broken cut beyond
  obtain ⟨version, handshake, recordRest, tail, two, fits, hsSize, isFlight⟩ :=
    exists_handshake short.1 short.2 outside.1 kind broken.1
  obtain ⟨legacy, more, rfl, alsoTwo⟩ := @exists_cut handshake 2 (by omega)
  obtain ⟨random, more, rfl, randomSize⟩ := @exists_cut more 32 (by simp [alsoTwo] at hsSize; omega)
  -- All that stands in front of the session id has a fixed length.
  obtain ⟨pre, isPre, preSize⟩ : ∃ pre, flight = pre ++ (more ++ (recordRest ++ tail)) ∧
      pre.length = 43 := by
    refine ⟨0x16 :: (version ++ (toBe 2 (0x02 :: (vector 3 (legacy ++ (random ++ more)) ++
      recordRest)).length ++ (0x02 :: (toBe 3 (legacy ++ (random ++ more)).length ++
        (legacy ++ random))))), ?_, by simp [two, alsoTwo, randomSize]⟩
    rw [isFlight]
    simp [vector]
  have moreSize : more.length + 34 = beAt 3 flight 6 := by
    simp [alsoTwo, randomSize] at hsSize
    omega
  have sid : (byteAt flight 43).toNat = beAt 1 more 0 := by
    rw [isPre, byteAt_skip (Nat.le_of_eq preSize), preSize, ← beAt_one, beAt_front (by omega)]
  rw [sid] at cut beyond found
  obtain ⟨sessionId, more, rfl, sidSize⟩ := @exists_vector 1 more (by omega)
  rw [← sidSize] at cut beyond found sid
  simp only [List.length_append, vector_length] at moreSize
  obtain ⟨suite, more, rfl, suiteSize⟩ := @exists_cut more 3 (by omega)
  rw [List.length_append, suiteSize] at moreSize
  have extLen : beAt 2 flight (44 + sessionId.length + 3) = beAt 2 more 0 := by
    rw [isPre, beAt_skip (by omega), preSize, List.append_assoc, beAt_skip (by simp; omega),
      vector_length, List.append_assoc, beAt_skip (by omega), suiteSize]
    have none : 44 + sessionId.length + 3 - 43 - (1 + sessionId.length) - 3 = 0 := by omega
    rw [none, beAt_front (by omega)]
  rw [extLen] at beyond found
  obtain ⟨extensions, handshakeRest, rfl, extSize⟩ := @exists_vector 2 more (by omega)
  rw [← extSize] at beyond found
  have isFront : flight = (pre ++ (vector 1 sessionId ++ (suite ++ toBe 2 extensions.length))) ++
      (extensions ++ (handshakeRest ++ (recordRest ++ tail))) := by
    rw [isPre]
    simp [vector]
  have frontSize : (pre ++ (vector 1 sessionId ++ (suite ++ toBe 2 extensions.length))).length =
      44 + sessionId.length + 5 := by
    simp [preSize, suiteSize]
    omega
  obtain ⟨before, key, after, split, others, keySize, groupFits⟩ := exists_extensions
    (by rw [isFront]; simp [preSize, suiteSize]; omega) found
  have window : (flight.take (44 + sessionId.length + 5 + extensions.length)).drop
      (44 + sessionId.length + 5) = extensions := by
    rw [← frontSize, isFront]
    exact window_here
  rw [window] at split
  subst split
  have sessionFits : sessionId.length < 256 := sid ▸ (byteAt flight 43).toNat_lt
  exact ⟨⟨⟨version, legacy, random, sessionId, suite, before, group, key, after, handshakeRest,
    recordRest⟩, two, alsoTwo, randomSize, suiteSize, sessionFits, others, groupFits, fits⟩, tail,
    isFlight, rfl, keySize⟩

end Parse

section Replay

theorem generateKeyShare_length {fresh : Fresh} {group klen : Nat} {key : Bytes}
    (known : replaceable group klen = true) (drawn : generateKeyShare fresh group = some key) :
    key.length = klen := by
  simp only [replaceable, Bool.or_eq_true, Bool.and_eq_true, decide_eq_true_eq] at known
  rcases known with ⟨rfl, rfl⟩ | ⟨rfl, rfl⟩ <;>
    simp only [generateKeyShare] at drawn <;>
    simpa using (Option.filter_eq_some_iff.mp drawn).2

/-- The same ServerHello with another random, session id and key. -/
def Parts.redrawn (parts : Parts) (random sessionId key : Bytes) : Parts :=
  { parts with random, sessionId, key }

variable {random sessionId key : Bytes}

namespace ServerHello

variable (hello : ServerHello)

theorem redrawn_handshake_length (randomSize : random.length = 32)
    (keySize : key.length = hello.key.length) :
    (hello.redrawn random sessionId key).handshake.length + hello.sessionId.length =
      hello.handshake.length + sessionId.length := by
  simp only [Parts.redrawn, Parts.handshake, Parts.extensions, Parts.keyShare, List.length_append,
    vector_length, item_length, hello.randomSize, randomSize, keySize]
  omega

theorem redrawn_record_length (randomSize : random.length = 32)
    (keySize : key.length = hello.key.length) :
    (hello.redrawn random sessionId key).record.length + hello.sessionId.length =
      hello.record.length + sessionId.length := by
  have handshake := @redrawn_handshake_length random sessionId key hello randomSize keySize
  have old : hello.record.length = 1 + (3 + hello.handshake.length + hello.recordRest.length) := by
    simp [Parts.record]
    omega
  have new : (hello.redrawn random sessionId key).record.length =
      1 + (3 + (hello.redrawn random sessionId key).handshake.length + hello.recordRest.length) := by
    simp [Parts.record, Parts.redrawn]
    omega
  omega

/-- It is one again where its lengths still fit. -/
def replayed (randomSize : random.length = 32) (short : sessionId.length < 256)
    (keySize : key.length = hello.key.length)
    (fits : hello.record.length + sessionId.length < 256 ^ 2 + hello.sessionId.length) :
    ServerHello where
  toParts := hello.redrawn random sessionId key
  versionSize := hello.versionSize
  legacySize := hello.legacySize
  randomSize := randomSize
  suiteSize := hello.suiteSize
  sessionFits := short
  others := hello.others
  groupFits := hello.groupFits
  fits := by
    have length := @redrawn_record_length random sessionId key hello randomSize keySize
    omega

end ServerHello

section Head

variable {version legacy tail : Bytes} {recordLen hsLen : Nat}

theorem overwrite_random {new : Bytes} (two : version.length = 2) (alsoTwo : legacy.length = 2)
    (same : new.length = random.length) :
    overwrite (head version recordLen hsLen legacy random ++ tail) 11 new =
      head version recordLen hsLen legacy new ++ tail := by
  have split : ∀ middle : Bytes, head version recordLen hsLen legacy middle ++ tail =
      (0x16 :: (version ++ (toBe 2 recordLen ++ (0x02 :: (toBe 3 hsLen ++ legacy))))) ++
        (middle ++ tail) := by
    intro middle
    simp [head]
  rw [split, split, overwrite_at (by simp [two, alsoTwo]) same]

theorem overwrite_record {n : Nat} (two : version.length = 2) :
    overwrite (head version recordLen hsLen legacy random ++ tail) 3 (toBe 2 n) =
      head version n hsLen legacy random ++ tail := by
  have split : ∀ n, head version n hsLen legacy random ++ tail = (0x16 :: version) ++
      (toBe 2 n ++ (0x02 :: (toBe 3 hsLen ++ (legacy ++ (random ++ tail))))) := by
    intro n
    simp [head]
  rw [split, split, overwrite_at (by simp [two]) (by simp)]

theorem overwrite_handshake {n : Nat} (two : version.length = 2) :
    overwrite (head version recordLen hsLen legacy random ++ tail) 6 (toBe 3 n) =
      head version recordLen n legacy random ++ tail := by
  have split : ∀ n, head version recordLen n legacy random ++ tail =
      (0x16 :: (version ++ toBe 2 recordLen ++ [0x02])) ++
        (toBe 3 n ++ (legacy ++ (random ++ tail))) := by
    intro n
    simp [head]
  rw [split, split, overwrite_at (by simp [two]) (by simp)]

end Head

namespace ServerHello

variable (hello : ServerHello) (tail : Bytes)

/-- The same with another key of the same length. -/
def rekeyed (same : key.length = hello.key.length) : ServerHello :=
  hello.replayed hello.randomSize hello.sessionFits same
    (Nat.add_lt_add_right hello.fits _)

theorem rekeyed_front (same : key.length = hello.key.length) :
    (hello.rekeyed same).front = hello.front := by
  have record := @redrawn_record_length hello.random hello.sessionId key hello hello.randomSize same
  have handshake := @redrawn_handshake_length hello.random hello.sessionId key hello
    hello.randomSize same
  have recordSame : (hello.rekeyed same).record.length = hello.record.length :=
    Nat.add_right_cancel record
  have handshakeSame : (hello.rekeyed same).handshake.length = hello.handshake.length :=
    Nat.add_right_cancel handshake
  have extensionsSame : (hello.rekeyed same).extensions.length = hello.extensions.length := by
    rw [ServerHello.extensions_length, ServerHello.extensions_length]
    exact congrArg (fun size => hello.beforeBytes.length + (8 + size + hello.after.length)) same
  rw [ServerHello.front, recordSame, handshakeSame, extensionsSame]
  rfl

theorem overwrite_key (same : key.length = hello.key.length) :
    overwrite (hello.bytes ++ tail) (hello.front.length + hello.beforeBytes.length + 8) key =
      (hello.rekeyed same).bytes ++ tail := by
  have share : ∀ (key rest : Bytes), hello.front ++ (hello.beforeBytes ++
      (item 0x0033 (item hello.group key) ++ rest)) = (hello.front ++ (hello.beforeBytes ++
        (toBe 2 0x0033 ++ (toBe 2 (item hello.group key).length ++
          (toBe 2 hello.group ++ toBe 2 key.length))))) ++ (key ++ rest) := by
    intro key rest
    simp [item, vector]
  have lengths : (item hello.group key).length = (item hello.group hello.key).length := by
    rw [item_length, item_length, same]
  rw [hello.bytes_front, (hello.rekeyed same).bytes_front, rekeyed_front]
  change overwrite (hello.front ++ (hello.beforeBytes ++ (item 0x0033 (item hello.group hello.key) ++
    _))) _ _ = hello.front ++ (hello.beforeBytes ++ (item 0x0033 (item hello.group key) ++ _))
  have reached : (hello.front ++ (hello.beforeBytes ++ (toBe 2 0x0033 ++
      (toBe 2 (item hello.group hello.key).length ++
        (toBe 2 hello.group ++ toBe 2 hello.key.length))))).length =
      hello.front.length + hello.beforeBytes.length + 8 := by
    simp only [List.length_append, toBe_length]
    omega
  rw [share, share, lengths, same, overwrite_at reached same]
  rfl

/-- `patch_key_share` puts in a key of the same length or leaves the old one. -/
theorem patchKeyShare_eq (fresh : Fresh) :
    ∃ (key : Bytes) (same : key.length = hello.key.length),
      patchKeyShare fresh (hello.bytes ++ tail) = (hello.rekeyed same).bytes ++ tail := by
  unfold patchKeyShare
  rw [hello.keyShareInfo_bytes tail]
  dsimp only
  by_cases known : replaceable hello.group hello.key.length = true
  · cases drawn : generateKeyShare fresh hello.group with
    | none => exact ⟨hello.key, rfl, if_pos known⟩
    | some key =>
        have same := generateKeyShare_length known drawn
        exact ⟨key, same, (if_pos known).trans (overwrite_key hello tail same)⟩
  · exact ⟨hello.key, rfl, if_neg known⟩

theorem splice_session (sessionId : Bytes) :
    (hello.bytes ++ tail).take 43 ++ (UInt8.ofNat sessionId.length ::
        (sessionId ++ (hello.bytes ++ tail).drop (44 + hello.sessionId.length))) =
      head hello.version hello.record.length hello.handshake.length hello.legacy hello.random ++
        (vector 1 sessionId ++ (hello.suite ++ (vector 2 hello.extensions ++
          (hello.handshakeRest ++ (hello.recordRest ++ tail))))) := by
  have size := @head_length hello.version hello.legacy hello.random hello.record.length
    hello.handshake.length hello.versionSize hello.legacySize hello.randomSize
  have session : 44 + hello.sessionId.length = 43 + (vector 1 hello.sessionId).length := by
    simp
    omega
  rw [hello.bytes_head, List.take_left' size, session, ← List.drop_drop, List.drop_left' size,
    List.drop_left]
  rfl

/-- All of `patch_server_hello`, where the record's length stays in its field. -/
theorem patchServerHello_eq (fresh : Fresh) {sessionId : Bytes} (short : sessionId.length < 256)
    (fits : hello.record.length + sessionId.length < 256 ^ 2 + hello.sessionId.length)
    (records : List Record) :
    ∃ (key : Bytes) (same : key.length = hello.key.length) (others : List Record),
      List.Forall₂ Refilled records others ∧
      patchServerHello fresh (hello.bytes ++ stream records) sessionId =
        (hello.replayed fresh.randomSize short same fits).bytes ++ stream others := by
  let resized := hello.replayed fresh.randomSize short rfl fits
  obtain ⟨key, same, keyed⟩ := resized.patchKeyShare_eq (stream records) fresh
  obtain ⟨others, refilled, noised⟩ := randomizeFrom_stream fresh.noise records
    (resized.rekeyed same).bytes
  refine ⟨key, same, others, refilled, ?_⟩
  have recordLength := @redrawn_record_length fresh.random sessionId hello.key hello
    fresh.randomSize rfl
  have handshakeLength := @redrawn_handshake_length fresh.random sessionId hello.key hello
    fresh.randomSize rfl
  have length : (hello.bytes ++ stream records).length =
      5 + hello.record.length + (stream records).length := by
    rw [List.length_append, hello.bytes_length]
  have record := hello.record_length
  have handshake := hello.handshake_length
  have type : byteAt (hello.bytes ++ stream records) 0 = 0x16 := rfl
  have two := hello.record_read (stream records)
  have three : beAt 3 (hello.bytes ++ stream records) 6 = hello.handshake.length := by
    rw [bytes_head]
    exact beAt_head_handshake hello.versionSize (by have := hello.fits; omega)
  have recordClamped : clamp (hello.record.length + ((sessionId.length : Int) -
      hello.sessionId.length)) 65535 = (hello.redrawn fresh.random sessionId hello.key).record.length := by
    unfold clamp
    omega
  have handshakeClamped : clamp (hello.handshake.length + ((sessionId.length : Int) -
      hello.sessionId.length)) 0xFFFFFF =
        (hello.redrawn fresh.random sessionId hello.key).handshake.length := by
    have := hello.fits
    unfold clamp
    omega
  have patched : ∀ tail, head hello.version
      (hello.redrawn fresh.random sessionId hello.key).record.length
      (hello.redrawn fresh.random sessionId hello.key).handshake.length hello.legacy fresh.random ++
        (vector 1 sessionId ++ (hello.suite ++ (vector 2 hello.extensions ++
          (hello.handshakeRest ++ (hello.recordRest ++ tail))))) = resized.bytes ++ tail :=
    fun tail => (resized.bytes_head tail).symm
  have start : 5 + (hello.redrawn fresh.random sessionId hello.key).record.length =
      (resized.rekeyed same).bytes.length := by
    have unchanged := @redrawn_record_length fresh.random sessionId key resized fresh.randomSize same
    rw [bytes_length]
    exact congrArg (5 + ·) (Nat.add_right_cancel unchanged).symm
  unfold patchServerHello
  rw [if_neg (by rw [length, type]; simp; omega)]
  simp only [sid_read]
  rw [if_neg (by omega), splice_session, overwrite_random hello.versionSize hello.legacySize
    (fresh.randomSize.trans hello.randomSize.symm), two, three, recordClamped, handshakeClamped,
    overwrite_record hello.versionSize, overwrite_handshake hello.versionSize, patched, keyed, start,
    noised]
  rfl

/-- The random is overwritten in place, and what is returned stands there. -/
theorem applyServerRandom_eq {drawn : Bytes} {overrideRandom : Option Bytes}
    (size : (overrideRandom.getD drawn).length = 32) :
    applyServerRandom drawn (hello.bytes ++ tail) overrideRandom =
      ((hello.replayed size hello.sessionFits rfl (Nat.add_lt_add_right hello.fits _)).bytes ++ tail,
        overrideRandom.getD drawn) := by
  let now := hello.replayed size hello.sessionFits rfl (Nat.add_lt_add_right hello.fits _)
  have record := @redrawn_record_length (overrideRandom.getD drawn) hello.sessionId hello.key hello
    size rfl
  have handshake := @redrawn_handshake_length (overrideRandom.getD drawn) hello.sessionId hello.key
    hello size rfl
  have recordSame : now.record.length = hello.record.length := Nat.add_right_cancel record
  have handshakeSame : now.handshake.length = hello.handshake.length := Nat.add_right_cancel handshake
  have header := hello.record_length
  have long : 43 ≤ (hello.bytes ++ tail).length := by
    rw [List.length_append, bytes_length]
    omega
  have type : byteAt (hello.bytes ++ tail) 0 = 0x16 := rfl
  rw [applyServerRandom, if_pos ⟨long, type⟩, hello.bytes_head,
    overwrite_random hello.versionSize hello.legacySize (size.trans hello.randomSize.symm)]
  change _ = (now.bytes ++ tail, _)
  rw [now.bytes_head, recordSame, handshakeSame]
  rfl

end ServerHello

end Replay

section Replayed

namespace ServerHello

variable (hello : ServerHello)

def toRecord : Record := ⟨0x16, hello.version, hello.record, hello.versionSize, hello.fits⟩

theorem stream_toRecord (records : List Record) :
    stream (hello.toRecord :: records) = hello.bytes ++ stream records := rfl

end ServerHello

/-- A template that is kept: whole records of all three types, a key share of a
known group. -/
structure Gated (template : Bytes) : Prop where
  complete : templateIsComplete template = true
  known : keyShareGroup template = some (0x001d, 32) ∨ keyShareGroup template = some (0x0017, 65)

theorem Gated.split {template : Bytes} (gated : Gated template) :
    ∃ (hello : ServerHello) (records : List Record), template = hello.bytes ++ stream records := by
  obtain ⟨group, klen, at_, found⟩ : ∃ group klen at_, keyShareInfo template =
      some (group, klen, at_) := by
    have known := gated.known
    unfold keyShareGroup at known
    cases info : keyShareInfo template with
    | none => simp [info] at known
    | some found => exact ⟨found.1, found.2.1, found.2.2, rfl⟩
  obtain ⟨hello, tail, rfl, _⟩ := exists_hello found
  obtain ⟨records, whole⟩ := exists_stream (Nat.zero_le _) gated.complete
  rw [List.drop_zero] at whole
  have length := hello.bytes_length
  cases records with
  | nil => simp [Parts.bytes] at whole
  | cons record rest =>
      rw [stream_cons] at whole
      have read := @Record.beAt_length [] (stream rest) record
      rw [List.nil_append, List.length_nil, Nat.zero_add, ← whole, hello.record_read] at read
      have size : hello.bytes.length = record.bytes.length := by
        rw [record.bytes_length, length, read]
      exact ⟨hello, rest, congrArg _ (List.append_inj_right whole size)⟩

/-- The replay of a template: the client's session id and the new random in a
ServerHello whose lengths nest again, a key of the same group and length, every
other part of it as it was, and the other records with other noise only. -/
def Preserves (template out sessionId random : Bytes) : Prop :=
  ∃ (old new : ServerHello) (records others : List Record),
    template = old.bytes ++ stream records ∧ out = new.bytes ++ stream others ∧
    new.toParts = old.redrawn random sessionId new.key ∧ new.key.length = old.key.length ∧
    List.Forall₂ Refilled records others ∧ templateIsComplete out = true ∧
    keyShareGroup out = keyShareGroup template

theorem Preserves.fits {template out sessionId random : Bytes}
    (kept : Preserves template out sessionId random) :
    beAt 2 template 3 + sessionId.length ≤ 65535 + (byteAt template 43).toNat := by
  obtain ⟨old, new, records, others, rfl, -, parts, keySize, -⟩ := kept
  have length := @ServerHello.redrawn_record_length random sessionId new.key old
    (by have := new.randomSize; rwa [parts] at this) keySize
  have fits := new.fits
  rw [parts] at fits
  rw [old.sid_read, old.record_read]
  omega

/-- A replay keeps the template's shape exactly where the longer session id still
fits into the record: beyond, the length is cut off at the field's end. -/
theorem replay_iff (fresh : Fresh) {drawn template sessionId : Bytes} {overrideRandom : Option Bytes}
    (gated : Gated template) (short : sessionId.length ≤ 32)
    (size : (overrideRandom.getD drawn).length = 32) :
    let out := applyServerRandom drawn (patchServerHello fresh template sessionId) overrideRandom
    (Preserves template out.1 sessionId out.2 ∧ (out.1.drop 11).take 32 = out.2) ↔
      beAt 2 template 3 + sessionId.length ≤ 65535 + (byteAt template 43).toNat := by
  intro out
  constructor
  · exact fun kept => kept.1.fits
  · intro fits
    obtain ⟨hello, records, rfl⟩ := gated.split
    rw [hello.sid_read, hello.record_read] at fits
    obtain ⟨key, same, others, refilled, patched⟩ := hello.patchServerHello_eq fresh
      (show sessionId.length < 256 by omega) (by omega) records
    have applied := (hello.replayed fresh.randomSize (show sessionId.length < 256 by omega) same
      (by omega)).applyServerRandom_eq (stream others) size
    rw [← patched] at applied
    have random : ((out.1.drop 11).take 32) = overrideRandom.getD drawn := by
      rw [show out = _ from applied]
      exact ServerHello.random_read _ _
    rw [show out = _ from applied] at random ⊢
    refine ⟨⟨hello, _, records, others, rfl, rfl, rfl, same, refilled, ?_, ?_⟩, random⟩
    · rw [← gated.complete, ← hello.stream_toRecord, ← ServerHello.stream_toRecord]
      exact templateIsComplete_types (congrArg (List.cons (0x16 : UInt8)) (Refilled.types refilled).symm)
    · rw [keyShareGroup, keyShareGroup, ServerHello.keyShareInfo_bytes,
        ServerHello.keyShareInfo_bytes]
      exact congrArg (fun size => some (hello.group, size)) same

/-- A ServerHello with an empty session id and so many bytes behind the message. -/
def bareHello (more : Nat) (room : more ≤ 65451) : ServerHello where
  version := [3, 3]
  legacy := [3, 3]
  random := List.replicate 32 0
  sessionId := []
  suite := [0x13, 0x01, 0]
  before := []
  group := 0x001d
  key := List.replicate 32 9
  after := []
  handshakeRest := []
  recordRest := List.replicate more 0
  versionSize := rfl
  legacySize := rfl
  randomSize := rfl
  suiteSize := rfl
  sessionFits := by decide
  others := fun _ missing => nomatch missing
  groupFits := by decide
  fits := by
    simp [Parts.record, Parts.handshake, Parts.extensions, Parts.keyShare]
    omega

def plainRecord (contentType : UInt8) : Record := ⟨contentType, [3, 3], [1], rfl, by decide⟩

def bareTemplate (more : Nat) (room : more ≤ 65451) : Bytes :=
  (bareHello more room).bytes ++ stream [plainRecord 0x14, plainRecord 0x17]

theorem bareTemplate_gated (more : Nat) (room : more ≤ 65451) : Gated (bareTemplate more room) where
  complete := by
    rw [bareTemplate, ← ServerHello.stream_toRecord, templateIsComplete_stream]
    rfl
  known := by
    rw [keyShareGroup, bareTemplate, ServerHello.keyShareInfo_bytes]
    exact .inl rfl

def someFresh : Fresh := ⟨List.replicate 32 7, fun _ => none, fun _ => 0, rfl⟩

/-- A record of 65535 bytes has no room for a session id of 32. -/
theorem full_record_broken : Gated (bareTemplate 65451 (Nat.le_refl _)) ∧
    ¬Preserves (bareTemplate 65451 (Nat.le_refl _))
      (applyServerRandom (List.replicate 32 5) (patchServerHello someFresh
        (bareTemplate 65451 (Nat.le_refl _)) (List.replicate 32 1)) none).1
      (List.replicate 32 1) (List.replicate 32 5) := by
  refine ⟨bareTemplate_gated _ _, fun kept => ?_⟩
  have fits := kept.fits
  rw [bareTemplate, ServerHello.record_read, ServerHello.sid_read, ServerHello.record_length,
    ServerHello.extensions_length] at fits
  simp only [bareHello, ServerHello.beforeBytes, List.length_replicate, List.length_nil,
    List.flatMap_nil] at fits
  omega

theorem replay_bare : Gated (bareTemplate 0 (Nat.zero_le _)) ∧
    let out := applyServerRandom (List.replicate 32 5) (patchServerHello someFresh
      (bareTemplate 0 (Nat.zero_le _)) (List.replicate 32 1)) none
    (Preserves (bareTemplate 0 (Nat.zero_le _)) out.1 (List.replicate 32 1) out.2 ∧
        (out.1.drop 11).take 32 = out.2) ↔
      beAt 2 (bareTemplate 0 (Nat.zero_le _)) 3 + (List.replicate 32 (1 : UInt8)).length ≤
        65535 + (byteAt (bareTemplate 0 (Nat.zero_le _)) 43).toNat :=
  ⟨bareTemplate_gated _ _, replay_iff someFresh (bareTemplate_gated _ _) (by simp) (by simp)⟩

end Replayed

end Mirage.Tls
