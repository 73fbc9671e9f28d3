import Mathlib.Algebra.Group.Int.Defs
import Mirage.Lib.Buffer
import Mirage.Lib.Vectors

/-!
ClientHello templates: what proxy/tls_capture.rs takes for one, and how
crypto/tls_raw.rs puts another name, session id and random into it.
-/

namespace Mirage.Tls
open Word Vectors
open Buffer (overwrite overwrite_at)

section Source

def u16be (b : Bytes) (off : Nat) : Option Nat :=
  if off + 2 ≤ b.length then some (beAt 2 b off) else none

/-- Lengths too long for their fields are cut off to them. -/
def ext (extType : Nat) (data : Bytes) : Bytes := item extType data

def sniExt (sniBytes : Bytes) : Bytes := ext 0x0000 (vector 2 (0 :: vector 2 sniBytes))

def patchU16 (b : Bytes) (off : Nat) (delta : Int) : Bytes :=
  overwrite b off (toBe 2 ((beAt 2 b off + delta) % 2 ^ 16).toNat)

def patchU24 (b : Bytes) (off : Nat) (delta : Int) : Bytes :=
  overwrite b off (toBe 3 ((beAt 3 b off + delta) % 2 ^ 32).toNat)

/-- Behind session id, cipher suites and compression methods. -/
def extensionsAt (tpl : Bytes) : Option Nat := do
  let csLen ← u16be tpl 76
  let compLen ← tpl[78 + csLen]?
  return 79 + csLen + compLen.toNat

/-- The first `server_name` extension: where it is and how long. -/
def findSni (tpl : Bytes) (extEnd p : Nat) : Option (Nat × Nat) :=
  if _bound : p + 4 ≤ extEnd then
    match u16be tpl p, u16be tpl (p + 2) with
    | some etype, some elen =>
        if etype = 0x0000 then some (p, 4 + elen) else findSni tpl extEnd (p + 4 + elen)
    | _, _ => none
  else none
termination_by extEnd - p

def buildFromTemplate (tpl serverName sessionId clientRandom : Bytes) : Option Bytes :=
  if tpl.length < 44 ∨ byteAt tpl 0 ≠ 0x16 ∨ byteAt tpl 5 ≠ 0x01 then none
  else if byteAt tpl 43 ≠ 32 then none
  else do
    let extTotalOff ← extensionsAt tpl
    let extTotal ← u16be tpl extTotalOff
    let extEnd := extTotalOff + 2 + extTotal
    if tpl.length < extEnd then none
    else
      let (sniOff, sniTotal) ← findSni tpl extEnd (extTotalOff + 2)
      if extEnd < sniOff + sniTotal then none
      else
        let newExt := sniExt serverName
        let delta : Int := newExt.length - sniTotal
        let out := tpl.take sniOff ++ (newExt ++ tpl.drop (sniOff + sniTotal))
        let out := overwrite out 11 clientRandom
        let out := overwrite out 44 sessionId
        let out := patchU16 out 3 delta
        let out := patchU24 out 6 delta
        some (patchU16 out extTotalOff delta)

end Source

section Capture

/-- The host of the first `server_name` extension from here on, with its place. -/
def parseSniFrom (data : Bytes) (extEnd offset : Nat) : Option (Option String × Nat × Nat) :=
  if bound : offset + 4 ≤ extEnd then
    let extType := beAt 2 data offset
    let extLen := beAt 2 data (offset + 2)
    if extType = 0 then
      let offset := offset + 4
      if extEnd < offset + 5 then none
      else
        let nameLen := beAt 2 data (offset + 3)
        let hostOff := offset + 5
        if byteAt data (offset + 2) = 0 ∧ hostOff + nameLen ≤ extEnd then
          some (fromUtf8 ((data.drop hostOff).take nameLen), hostOff, nameLen)
        else none
    else parseSniFrom data extEnd (offset + 4 + extLen)
  else none
termination_by extEnd - offset

def parseSni (data : Bytes) (stop : Nat) : Option (Option String × Nat × Nat) :=
  let offset := 44 + (byteAt data 43).toNat
  if stop < offset + 2 then none
  else
    let offset := offset + 2 + beAt 2 data offset
    if stop < offset + 1 then none
    else
      let offset := offset + 1 + (byteAt data offset).toNat
      if stop < offset + 2 then none
      else
        let extTotal := beAt 2 data offset
        let offset := offset + 2
        parseSniFrom data (min (offset + extTotal) stop) offset

/-- What is kept of a captured hello; the place of its name as in `parse_sni`. -/
structure Captured where
  bytes : Bytes
  recordLen : Nat
  sni : Option (Option String × Nat × Nat)

def parseForCapture (data : Bytes) : Option Captured :=
  if data.length < 44 ∨ byteAt data 0 ≠ 0x16 ∨ byteAt data 5 ≠ 0x01 then none
  else
    let recordLen := 5 + beAt 2 data 3
    if data.length < recordLen then none
    else if byteAt data 43 ≠ 32 then none
    else some ⟨data.take recordLen, recordLen, parseSni data recordLen⟩

end Capture

section Walks

def Others (before : List (Nat × Bytes)) : Prop :=
  ∀ ext ∈ before, ext.1 ≠ 0 ∧ ext.1 < 256 ^ 2 ∧ ext.2.length < 256 ^ 2

def itemsBytes (before : List (Nat × Bytes)) : Bytes := before.flatMap fun ext => item ext.1 ext.2

@[simp] theorem itemsBytes_nil : itemsBytes [] = [] := rfl

@[simp] theorem itemsBytes_cons (ext : Nat × Bytes) (before : List (Nat × Bytes)) :
    itemsBytes (ext :: before) = item ext.1 ext.2 ++ itemsBytes before := List.flatMap_cons

theorem u16be_inside {b : Bytes} {off : Nat} (inside : off + 2 ≤ b.length) :
    u16be b off = some (beAt 2 b off) := if_pos inside

theorem u16be_some {b : Bytes} {off n : Nat} (read : u16be b off = some n) :
    off + 2 ≤ b.length ∧ beAt 2 b off = n := by
  unfold u16be at read
  split_ifs at read with inside
  exact ⟨inside, Option.some.inj read⟩

variable {data rest : Bytes} {extEnd : Nat}

theorem findSni_items {before : List (Nat × Bytes)} (others : Others before)
    (fits : data.length < 256 ^ 2) (pre : Bytes)
    (inside : pre.length + (itemsBytes before).length + 4 ≤ extEnd)
    (within : extEnd ≤ (pre ++ (itemsBytes before ++ (item 0 data ++ rest))).length) :
    findSni (pre ++ (itemsBytes before ++ (item 0 data ++ rest))) extEnd pre.length =
      some (pre.length + (itemsBytes before).length, 4 + data.length) := by
  induction before generalizing pre with
  | nil =>
      simp only [itemsBytes_nil, List.nil_append, List.length_nil, Nat.add_zero] at inside within ⊢
      rw [findSni, dif_pos inside, u16be_inside (by omega), u16be_inside (by omega),
        beAt_item_type (by decide), beAt_item_length fits]
      rfl
  | cons ext before ih =>
      obtain ⟨⟨different, typeFits, dataFits⟩, later⟩ := List.forall_mem_cons.mp others
      simp only [itemsBytes_cons, List.append_assoc, List.length_append, item_length] at inside within ⊢
      have size : pre.length + 4 + ext.2.length = (pre ++ item ext.1 ext.2).length := by
        simp
        omega
      rw [findSni, dif_pos (by omega), u16be_inside (by simp; omega), u16be_inside (by simp; omega),
        beAt_item_type typeFits, beAt_item_length dataFits]
      dsimp only
      rw [if_neg different, size, ← List.append_assoc, ih later]
      · simp only [List.length_append, item_length]
        congr 2
        omega
      · simp only [List.length_append, item_length]
        omega
      · simp only [List.length_append, item_length, itemsBytes]
        simp only [itemsBytes] at within
        omega

theorem sniExt_eq (name : Bytes) : sniExt name = item 0 (vector 2 (0 :: vector 2 name)) := rfl

theorem sniData_length (name : Bytes) :
    (vector 2 (0 :: vector 2 name)).length = 5 + name.length := by
  simp
  omega

/-- The lengths inside a name extension, and the name. -/
theorem sniExt_reads {name : Bytes} (fits : name.length + 5 < 256 ^ 2) (pre : Bytes) :
    let hello := pre ++ (sniExt name ++ rest)
    beAt 2 hello (pre.length + 2) = 5 + name.length ∧
      beAt 2 hello (pre.length + 4) = 3 + name.length ∧ byteAt hello (pre.length + 6) = 0 ∧
      beAt 2 hello (pre.length + 7) = name.length ∧
      (hello.drop (pre.length + 9)).take name.length = name := by
  intro hello
  have list : (0 :: vector 2 name).length = 3 + name.length := by
    simp
    omega
  have split : hello = pre ++ (toBe 2 0 ++ (toBe 2 (5 + name.length) ++ (toBe 2 (3 + name.length) ++
      (0 :: (toBe 2 name.length ++ (name ++ rest)))))) := by
    simp only [hello, sniExt_eq, item, vector, ← list, ← sniData_length]
    simp
  have after : ∀ more, beAt 2 hello (pre.length + more) = beAt 2 (toBe 2 0 ++ (toBe 2 (5 +
      name.length) ++ (toBe 2 (3 + name.length) ++ (0 :: (toBe 2 name.length ++ (name ++ rest))))))
        more := by
    intro more
    rw [split, beAt_skip (Nat.le_add_right _ _), Nat.add_sub_cancel_left]
  refine ⟨?_, ?_, ?_, ?_, ?_⟩
  · rw [after, beAt_skip (by simp), toBe_length]
    exact beAt_toBe (by omega)
  · rw [after, beAt_skip (by simp), toBe_length, beAt_skip (by simp), toBe_length]
    exact beAt_toBe (by omega)
  · rw [split, byteAt_skip (Nat.le_add_right _ _), Nat.add_sub_cancel_left]
    rfl
  · have header : (toBe 2 0 ++ (toBe 2 (5 + name.length) ++ (toBe 2 (3 + name.length) ++
        [0]))).length = 7 := rfl
    have regrouped : toBe 2 0 ++ (toBe 2 (5 + name.length) ++ (toBe 2 (3 + name.length) ++
        (0 :: (toBe 2 name.length ++ (name ++ rest))))) = (toBe 2 0 ++ (toBe 2 (5 + name.length) ++
          (toBe 2 (3 + name.length) ++ [0]))) ++ (toBe 2 name.length ++ (name ++ rest)) := by
      simp
    rw [after, regrouped, beAt_skip (Nat.le_of_eq header), header]
    exact beAt_toBe (by omega)
  · rw [split, ← List.drop_drop, List.drop_left]
    exact List.take_left

theorem parseSniFrom_items {before : List (Nat × Bytes)} {name : Bytes} (others : Others before)
    (fits : name.length + 5 < 256 ^ 2) (pre : Bytes)
    (inside : pre.length + (itemsBytes before).length + (9 + name.length) ≤ extEnd) :
    parseSniFrom (pre ++ (itemsBytes before ++ (sniExt name ++ rest))) extEnd pre.length =
      some (fromUtf8 name, pre.length + (itemsBytes before).length + 9, name.length) := by
  induction before generalizing pre with
  | nil =>
      obtain ⟨_, _, kind, length, host⟩ := @sniExt_reads rest name fits pre
      simp only [itemsBytes_nil, List.nil_append, List.length_nil, Nat.add_zero] at inside ⊢
      have type : beAt 2 (pre ++ (sniExt name ++ rest)) pre.length = 0 := beAt_item_type (by decide)
      rw [parseSniFrom, dif_pos (by omega)]
      simp only [type, if_true, Nat.add_assoc, Nat.reduceAdd, kind, length, host]
      rw [if_neg (by omega), if_pos ⟨trivial, by omega⟩]
  | cons ext before ih =>
      obtain ⟨⟨different, typeFits, dataFits⟩, later⟩ := List.forall_mem_cons.mp others
      simp only [itemsBytes_cons, List.append_assoc, List.length_append, item_length] at inside ⊢
      have size : pre.length + 4 + ext.2.length = (pre ++ item ext.1 ext.2).length := by
        simp
        omega
      rw [parseSniFrom, dif_pos (by omega)]
      simp only [beAt_item_type typeFits, beAt_item_length dataFits, if_neg different]
      rw [size, ← List.append_assoc, ih later]
      · simp only [List.length_append, item_length]
        congr 3
        omega
      · simp only [List.length_append, item_length]
        omega

theorem exists_items {tpl : Bytes} {p off total : Nat} (inside : extEnd ≤ tpl.length)
    (found : findSni tpl extEnd p = some (off, total)) (within : off + total ≤ extEnd) :
    ∃ (before : List (Nat × Bytes)) (data rest : Bytes),
      (tpl.take extEnd).drop p = itemsBytes before ++ (item 0 data ++ rest) ∧ Others before ∧
      data.length < 256 ^ 2 ∧ off = p + (itemsBytes before).length ∧ total = 4 + data.length := by
  have window : ∀ p, p ≤ extEnd → ((tpl.take extEnd).drop p).length = extEnd - p := by
    intro p _
    rw [List.length_drop, List.length_take, Nat.min_eq_left inside]
  have type : ∀ p, p + 2 ≤ extEnd → beAt 2 ((tpl.take extEnd).drop p) 0 = beAt 2 tpl p := by
    intro p before
    have read := @beAt_window tpl p 2 extEnd p (Nat.le_refl _) before
    rwa [Nat.sub_self] at read
  have length : ∀ p, p + 4 ≤ extEnd →
      beAt 2 ((tpl.take extEnd).drop p) 2 = beAt 2 tpl (p + 2) := by
    intro p before
    have read := @beAt_window tpl (p + 2) 2 extEnd p (by omega) (by omega)
    rwa [Nat.add_sub_cancel_left] at read
  induction p using findSni.induct tpl extEnd with
  | case1 p bound elen second first =>
      rw [findSni, dif_pos bound, first, second] at found
      rw [u16be_inside (by omega), Option.some.injEq] at first second
      simp only [if_true, Option.some.injEq, Prod.mk.injEq] at found
      obtain ⟨rfl, rfl⟩ := found
      have room := window p (by omega)
      have dataLength := length p bound
      obtain ⟨data, rest, split, size, _⟩ := @exists_item ((tpl.take extEnd).drop p) (by omega)
        (by omega)
      have small := beAt_lt 2 tpl (p + 2)
      rw [type p (by omega), first] at split
      exact ⟨[], data, rest, split, fun _ missing => absurd missing List.not_mem_nil, by omega, rfl,
        by omega⟩
  -- Another extension: it is one item, and the rest is found behind it.
  | case2 p bound etype elen second first different ih =>
      rw [findSni, dif_pos bound, first, second] at found
      dsimp only at found
      rw [if_neg different] at found
      obtain ⟨before, data, rest, tail, others, fits, place, total⟩ := ih found
      rw [u16be_inside (by omega), Option.some.injEq] at first second
      have room := window p (by omega)
      have otherLength := length p bound
      have small := beAt_lt 2 tpl (p + 2)
      obtain ⟨other, more, split, size, typeFits⟩ := @exists_item ((tpl.take extEnd).drop p)
        (by omega) (by omega)
      rw [type p (by omega), first] at split typeFits
      have behind : (tpl.take extEnd).drop (p + 4 + elen) = more := by
        rw [Nat.add_assoc, ← List.drop_drop, split, ← second, ← otherLength, ← size]
        exact List.drop_left' (item_length _ _)
      have otherFits : other.length < 256 ^ 2 := by omega
      refine ⟨(etype, other) :: before, data, rest, ?_,
        List.forall_mem_cons.mpr ⟨⟨different, typeFits, otherFits⟩, others⟩, fits, ?_, total⟩
      · rw [split, ← behind, tail]
        simp
      · simp only [itemsBytes_cons, List.length_append, item_length]
        omega
  | case3 p bound missing =>
      have first := @u16be_inside tpl p (by omega)
      have second := @u16be_inside tpl (p + 2) (by omega)
      exact absurd second (missing _ _ first)
  | case4 p bound =>
      rw [findSni, dif_neg bound] at found
      cases found

end Walks

/-- A length moved along with what it counts, in a field of so many bits. -/
def shifted (bits n : Nat) (delta : Int) : Nat := ((n + delta) % 2 ^ bits).toNat

section Layout

/-- The parts of a template that stay: what stands before and between the
refreshed fields, the extensions before the name's and all behind it. -/
structure Layout where
  start : Bytes
  version : Bytes
  ciphers : Bytes
  compression : Bytes
  before : List (Nat × Bytes)
  after : Bytes
  startSize : start.length = 3
  startType : byteAt start 0 = 0x16
  versionSize : version.length = 2
  ciphersFit : ciphers.length < 256 ^ 2
  compressionFits : compression.length < 256
  others : Others before

namespace Layout

def beforeBytes (layout : Layout) : Bytes := itemsBytes layout.before

def suites (layout : Layout) : Bytes := vector 2 layout.ciphers ++ vector 1 layout.compression

/-- The bytes up to the name's extension, under whatever lengths. -/
def front (layout : Layout) (recordLen hsLen extLen : Nat) (random sessionId : Bytes) : Bytes :=
  layout.start ++ (toBe 2 recordLen ++ (0x01 :: (toBe 3 hsLen ++ (layout.version ++ (random ++
    (32 :: (sessionId ++ (layout.suites ++ (toBe 2 extLen ++ layout.beforeBytes)))))))))

def wire (layout : Layout) (recordLen hsLen extLen : Nat) (random sessionId sni : Bytes) : Bytes :=
  layout.front recordLen hsLen extLen random sessionId ++ (sni ++ layout.after)

variable {layout : Layout} {recordLen hsLen extLen : Nat} {random sessionId sni : Bytes}

def extensionsOff (layout : Layout) : Nat :=
  79 + layout.ciphers.length + layout.compression.length

section Sizes

variable (randomSize : random.length = 32) (sessionSize : sessionId.length = 32)
include randomSize sessionSize

theorem front_length : (layout.front recordLen hsLen extLen random sessionId).length =
    layout.extensionsOff + 2 + layout.beforeBytes.length := by
  simp only [front, suites, extensionsOff, List.length_append, List.length_cons, toBe_length,
    vector_length, layout.startSize, layout.versionSize, randomSize, sessionSize]
  omega

theorem wire_length : (layout.wire recordLen hsLen extLen random sessionId sni).length =
    layout.extensionsOff + 2 + layout.beforeBytes.length + sni.length + layout.after.length := by
  simp only [wire, List.length_append, front_length randomSize sessionSize]
  omega

end Sizes

theorem wire_record : layout.wire recordLen hsLen extLen random sessionId sni =
    layout.start ++ (toBe 2 recordLen ++ (0x01 :: (toBe 3 hsLen ++ (layout.version ++ (random ++
      (32 :: (sessionId ++ (layout.suites ++ (toBe 2 extLen ++ (layout.beforeBytes ++
        (sni ++ layout.after))))))))))) := by
  simp [wire, front]

theorem wire_handshake : layout.wire recordLen hsLen extLen random sessionId sni =
    (layout.start ++ (toBe 2 recordLen ++ [0x01])) ++ (toBe 3 hsLen ++ (layout.version ++ (random ++
      (32 :: (sessionId ++ (layout.suites ++ (toBe 2 extLen ++ (layout.beforeBytes ++
        (sni ++ layout.after))))))))) := by
  simp [wire, front]

theorem wire_random : layout.wire recordLen hsLen extLen random sessionId sni =
    (layout.start ++ (toBe 2 recordLen ++ (0x01 :: (toBe 3 hsLen ++ layout.version)))) ++ (random ++
      (32 :: (sessionId ++ (layout.suites ++ (toBe 2 extLen ++ (layout.beforeBytes ++
        (sni ++ layout.after))))))) := by
  simp [wire, front]

theorem wire_session : layout.wire recordLen hsLen extLen random sessionId sni =
    (layout.start ++ (toBe 2 recordLen ++ (0x01 :: (toBe 3 hsLen ++ (layout.version ++ (random ++
      [32])))))) ++ (sessionId ++ (layout.suites ++ (toBe 2 extLen ++ (layout.beforeBytes ++
        (sni ++ layout.after))))) := by
  simp [wire, front]

theorem wire_suites : layout.wire recordLen hsLen extLen random sessionId sni =
    (layout.start ++ (toBe 2 recordLen ++ (0x01 :: (toBe 3 hsLen ++ (layout.version ++ (random ++
      (32 :: sessionId))))))) ++ (layout.suites ++ (toBe 2 extLen ++ (layout.beforeBytes ++
        (sni ++ layout.after)))) := by
  simp [wire, front]

theorem wire_extensions : layout.wire recordLen hsLen extLen random sessionId sni =
    (layout.start ++ (toBe 2 recordLen ++ (0x01 :: (toBe 3 hsLen ++ (layout.version ++ (random ++
      (32 :: (sessionId ++ layout.suites)))))))) ++ (toBe 2 extLen ++ (layout.beforeBytes ++
        (sni ++ layout.after))) := by
  simp [wire, front]

def walkStart (layout : Layout) (recordLen hsLen extLen : Nat) (random sessionId : Bytes) : Bytes :=
  layout.start ++ (toBe 2 recordLen ++ (0x01 :: (toBe 3 hsLen ++ (layout.version ++ (random ++
    (32 :: (sessionId ++ (layout.suites ++ toBe 2 extLen))))))))

theorem walkStart_length (randomSize : random.length = 32) (sessionSize : sessionId.length = 32) :
    (layout.walkStart recordLen hsLen extLen random sessionId).length = layout.extensionsOff + 2 := by
  simp only [walkStart, suites, extensionsOff, List.length_append, List.length_cons, toBe_length,
    vector_length, layout.startSize, layout.versionSize, randomSize, sessionSize]
  omega

theorem wire_walk : layout.wire recordLen hsLen extLen random sessionId sni =
    layout.walkStart recordLen hsLen extLen random sessionId ++
      (itemsBytes layout.before ++ (sni ++ layout.after)) := by
  simp [wire, front, walkStart, beforeBytes]

section Reads

theorem read_record (fits : recordLen < 256 ^ 2) :
    beAt 2 (layout.wire recordLen hsLen extLen random sessionId sni) 3 = recordLen :=
  read_number wire_record layout.startSize fits

theorem read_handshake (fits : hsLen < 256 ^ 3) :
    beAt 3 (layout.wire recordLen hsLen extLen random sessionId sni) 6 = hsLen :=
  read_number wire_handshake (by simp [layout.startSize]) fits

theorem read_type : byteAt (layout.wire recordLen hsLen extLen random sessionId sni) 0 = 0x16 := by
  have size := layout.startSize
  have read := layout.startType
  rw [wire_record]
  unfold byteAt at read ⊢
  rwa [List.getD_append _ _ _ _ (by omega)]

theorem read_kind : byteAt (layout.wire recordLen hsLen extLen random sessionId sni) 5 = 0x01 := by
  have start := layout.startSize
  rw [wire_record, byteAt_skip (by omega), start, byteAt_skip (by simp), toBe_length]
  rfl

section Sized

variable (randomSize : random.length = 32)
include randomSize

theorem read_sid : byteAt (layout.wire recordLen hsLen extLen random sessionId sni) 43 = 32 := by
  have size : (layout.start ++ (toBe 2 recordLen ++ (0x01 :: (toBe 3 hsLen ++
      layout.version)))).length = 11 := by
    simp [layout.startSize, layout.versionSize]
  rw [wire_random, byteAt_skip (by omega), size, byteAt_skip (by omega), randomSize]
  rfl

variable (sessionSize : sessionId.length = 32)
include sessionSize

theorem read_extensionsAt :
    extensionsAt (layout.wire recordLen hsLen extLen random sessionId sni) =
      some layout.extensionsOff := by
  have size : (layout.start ++ (toBe 2 recordLen ++ (0x01 :: (toBe 3 hsLen ++ (layout.version ++
      (random ++ (32 :: sessionId))))))).length = 76 := by
    simp [layout.startSize, layout.versionSize, randomSize, sessionSize]
  have length := @wire_length layout recordLen hsLen extLen random sessionId sni randomSize
    sessionSize
  have split : layout.wire recordLen hsLen extLen random sessionId sni =
      (layout.start ++ (toBe 2 recordLen ++ (0x01 :: (toBe 3 hsLen ++ (layout.version ++ (random ++
        (32 :: sessionId))))))) ++ (toBe 2 layout.ciphers.length ++ (layout.ciphers ++
          (UInt8.ofNat layout.compression.length :: (layout.compression ++ (toBe 2 extLen ++
            (layout.beforeBytes ++ (sni ++ layout.after))))))) := by
    rw [wire_suites]
    simp [suites, vector, toBe]
  have ciphers := read_number split size layout.ciphersFit
  have compression : (layout.wire recordLen hsLen extLen random sessionId sni)[78 +
      layout.ciphers.length]? = some (UInt8.ofNat layout.compression.length) := by
    rw [split, List.getElem?_append_right (by omega), size, List.getElem?_append_right (by simp; omega),
      toBe_length, List.getElem?_append_right (by omega)]
    have here : 78 + layout.ciphers.length - 76 - 2 - layout.ciphers.length = 0 := by omega
    rw [here]
    rfl
  have small : (UInt8.ofNat layout.compression.length).toNat = layout.compression.length := by
    rw [UInt8.toNat_ofNat']
    exact Nat.mod_eq_of_lt layout.compressionFits
  have inside : 76 + 2 ≤ (layout.wire recordLen hsLen extLen random sessionId sni).length := by
    unfold extensionsOff at length
    omega
  simp only [extensionsAt, u16be, if_pos inside, ciphers, Option.bind_eq_bind, Option.bind_some,
    compression, small]
  rfl

theorem read_extLen (fits : extLen < 256 ^ 2) :
    beAt 2 (layout.wire recordLen hsLen extLen random sessionId sni) layout.extensionsOff =
      extLen := by
  refine read_number wire_extensions ?_ fits
  simp only [suites, extensionsOff, List.length_append, List.length_cons, toBe_length,
    vector_length, layout.startSize, layout.versionSize, randomSize, sessionSize]
  omega

end Sized

end Reads

section Writes

variable {delta : Int} {new : Bytes}

theorem write_random (same : new.length = random.length) :
    overwrite (layout.wire recordLen hsLen extLen random sessionId sni) 11 new =
      layout.wire recordLen hsLen extLen new sessionId sni := by
  rw [wire_random, overwrite_at (by simp [layout.startSize, layout.versionSize]) same, ← wire_random]

theorem write_session (randomSize : random.length = 32) (same : new.length = sessionId.length) :
    overwrite (layout.wire recordLen hsLen extLen random sessionId sni) 44 new =
      layout.wire recordLen hsLen extLen random new sni := by
  rw [wire_session, overwrite_at (by simp [layout.startSize, layout.versionSize, randomSize]) same,
    ← wire_session]

theorem patch_record (fits : recordLen < 256 ^ 2) :
    patchU16 (layout.wire recordLen hsLen extLen random sessionId sni) 3 delta =
      layout.wire (shifted 16 recordLen delta) hsLen extLen random sessionId sni := by
  rw [patchU16, read_record fits, wire_record, overwrite_at layout.startSize (by simp), shifted,
    wire_record]

theorem patch_handshake (fits : hsLen < 256 ^ 3) :
    patchU24 (layout.wire recordLen hsLen extLen random sessionId sni) 6 delta =
      layout.wire recordLen (shifted 32 hsLen delta) extLen random sessionId sni := by
  rw [patchU24, read_handshake fits, wire_handshake,
    overwrite_at (by simp [layout.startSize]) (by simp), shifted, wire_handshake]

theorem patch_extensions (randomSize : random.length = 32) (sessionSize : sessionId.length = 32)
    (fits : extLen < 256 ^ 2) :
    patchU16 (layout.wire recordLen hsLen extLen random sessionId sni) layout.extensionsOff delta =
      layout.wire recordLen hsLen (shifted 16 extLen delta) random sessionId sni := by
  have size : (layout.start ++ (toBe 2 recordLen ++ (0x01 :: (toBe 3 hsLen ++ (layout.version ++
      (random ++ (32 :: (sessionId ++ layout.suites)))))))).length = layout.extensionsOff := by
    simp only [suites, extensionsOff, List.length_append, List.length_cons, toBe_length,
      vector_length, layout.startSize, layout.versionSize, randomSize, sessionSize]
    omega
  rw [patchU16, read_extLen randomSize sessionSize fits, wire_extensions,
    overwrite_at size (by simp), shifted, wire_extensions]

end Writes

end Layout

/-- Name, session id and random replaced, and three lengths moved along. -/
theorem buildFromTemplate_wire (layout : Layout) {recordLen hsLen extLen : Nat}
    {random sessionId data name newSession newRandom : Bytes} (recordFits : recordLen < 256 ^ 2)
    (hsFits : hsLen < 256 ^ 3) (extFits : extLen < 256 ^ 2) (randomSize : random.length = 32)
    (sessionSize : sessionId.length = 32) (newRandomSize : newRandom.length = 32)
    (newSessionSize : newSession.length = 32) (dataFits : data.length < 256 ^ 2)
    (covers : layout.beforeBytes.length + (4 + data.length) ≤ extLen)
    (inside : extLen ≤ layout.beforeBytes.length + (4 + data.length) + layout.after.length) :
    let delta : Int := (sniExt name).length - (4 + data.length : Nat)
    buildFromTemplate (layout.wire recordLen hsLen extLen random sessionId (item 0 data)) name
        newSession newRandom =
      some (layout.wire (shifted 16 recordLen delta) (shifted 32 hsLen delta)
        (shifted 16 extLen delta) newRandom newSession (sniExt name)) := by
  intro delta
  have length := @Layout.wire_length layout recordLen hsLen extLen random sessionId (item 0 data)
    randomSize sessionSize
  have front := @Layout.front_length layout recordLen hsLen extLen random sessionId randomSize
    sessionSize
  have start := @Layout.walkStart_length layout recordLen hsLen extLen random sessionId randomSize
    sessionSize
  have extOff : 76 ≤ layout.extensionsOff := by
    unfold Layout.extensionsOff
    omega
  rw [item_length] at length
  have found : findSni (layout.wire recordLen hsLen extLen random sessionId (item 0 data))
      (layout.extensionsOff + 2 + extLen) (layout.extensionsOff + 2) =
        some (layout.extensionsOff + 2 + layout.beforeBytes.length, 4 + data.length) := by
    have walked := @findSni_items data layout.after (layout.extensionsOff + 2 + extLen) layout.before
      layout.others dataFits (layout.walkStart recordLen hsLen extLen random sessionId)
      (by rw [start]; unfold Layout.beforeBytes at covers; omega)
      (by rw [← Layout.wire_walk, length]; omega)
    rwa [← Layout.wire_walk, start] at walked
  have spliced : (layout.wire recordLen hsLen extLen random sessionId (item 0 data)).take
        (layout.extensionsOff + 2 + layout.beforeBytes.length) ++ (sniExt name ++
      (layout.wire recordLen hsLen extLen random sessionId (item 0 data)).drop
        (layout.extensionsOff + 2 + layout.beforeBytes.length + (4 + data.length))) =
      layout.wire recordLen hsLen extLen random sessionId (sniExt name) := by
    rw [← List.drop_drop, Layout.wire, List.take_left' front, List.drop_left' front,
      List.drop_left' (item_length 0 data), Layout.wire]
  rw [buildFromTemplate, if_neg (by rw [length, Layout.read_type, Layout.read_kind]; simp; omega),
    if_neg (by rw [Layout.read_sid randomSize]; simp), Layout.read_extensionsAt randomSize sessionSize]
  simp only [Option.bind_eq_bind, Option.bind_some]
  rw [u16be_inside (by omega), Layout.read_extLen randomSize sessionSize extFits]
  simp only [Option.bind_some]
  rw [if_neg (by omega), found]
  simp only [Option.bind_some]
  rw [if_neg (by omega), spliced, Layout.write_random (newRandomSize.trans randomSize.symm),
    Layout.write_session newRandomSize (newSessionSize.trans sessionSize.symm),
    Layout.patch_record recordFits, Layout.patch_handshake hsFits,
    Layout.patch_extensions newRandomSize newSessionSize extFits]

theorem exists_head {head : Bytes} (size : head.length = 76) (type : byteAt head 0 = 0x16)
    (kind : byteAt head 5 = 0x01) (session : byteAt head 43 = 32) :
    ∃ (start version random sessionId : Bytes) (recordLen hsLen : Nat),
      head = start ++ (toBe 2 recordLen ++ (0x01 :: (toBe 3 hsLen ++ (version ++ (random ++
        (32 :: sessionId)))))) ∧ recordLen < 256 ^ 2 ∧ hsLen < 256 ^ 3 ∧ start.length = 3 ∧
      byteAt start 0 = 0x16 ∧ version.length = 2 ∧ random.length = 32 ∧ sessionId.length = 32 := by
  obtain ⟨front, sessionId, split, frontSize⟩ := @exists_byte head 43 (by omega)
  rw [session] at split
  subst split
  have sessionSize : sessionId.length = 32 := by
    rw [List.length_append, frontSize, List.length_cons] at size
    omega
  rw [byteAt_front (by omega)] at type kind
  obtain ⟨front, rest, split, fiveSize⟩ := @exists_byte front 5 (by omega)
  rw [kind] at split
  subst split
  rw [List.length_append, fiveSize, List.length_cons] at frontSize
  rw [byteAt_front (by omega)] at type
  obtain ⟨start, number, rfl, three⟩ := @exists_cut front 3 (by omega)
  rw [List.length_append, three] at fiveSize
  rw [byteAt_front (by omega)] at type
  obtain ⟨none, record⟩ := @exists_number number 2 (by omega)
  obtain ⟨more, handshake⟩ := @exists_number rest 3 (by omega)
  have recordEnds : none = [] := by
    have total := congrArg List.length record
    rw [List.length_append, toBe_length] at total
    exact List.length_eq_zero_iff.mp (by omega)
  have total := congrArg List.length handshake
  rw [List.length_append, toBe_length] at total
  obtain ⟨version, random, rfl, two⟩ := @exists_cut more 2 (by omega)
  rw [List.length_append] at total
  refine ⟨start, version, random, sessionId, beAt 2 number 0, beAt 3 rest 0, ?_, beAt_lt _ _ _,
    beAt_lt _ _ _, three, type, two, by omega, sessionSize⟩
  rw [recordEnds, List.append_nil] at record
  rw [← record]
  conv_lhs => rw [handshake]
  simp

theorem exists_layout {tpl name newSession newRandom out : Bytes}
    (accepted : buildFromTemplate tpl name newSession newRandom = some out) :
    ∃ (layout : Layout) (recordLen hsLen extLen : Nat) (random sessionId data : Bytes),
      tpl = layout.wire recordLen hsLen extLen random sessionId (item 0 data) ∧
      recordLen < 256 ^ 2 ∧ hsLen < 256 ^ 3 ∧ extLen < 256 ^ 2 ∧ random.length = 32 ∧
      sessionId.length = 32 ∧ data.length < 256 ^ 2 ∧
      layout.beforeBytes.length + (4 + data.length) ≤ extLen ∧
      extLen ≤ layout.beforeBytes.length + (4 + data.length) + layout.after.length := by
  unfold buildFromTemplate at accepted
  split_ifs at accepted with header session
  simp only [not_or, Nat.not_lt, not_not] at header session
  obtain ⟨long, type, kind⟩ := header
  obtain ⟨extTotalOff, placed, accepted⟩ := Option.bind_eq_some_iff.mp accepted
  obtain ⟨extTotal, counted, accepted⟩ := Option.bind_eq_some_iff.mp accepted
  dsimp only at accepted
  split_ifs at accepted with outside
  obtain ⟨⟨sniOff, sniTotal⟩, found, accepted⟩ := Option.bind_eq_some_iff.mp accepted
  dsimp only at accepted
  split_ifs at accepted with beyond
  obtain ⟨csLen, ciphersRead, placed⟩ := Option.bind_eq_some_iff.mp placed
  obtain ⟨compLen, compressionRead, placed⟩ := Option.bind_eq_some_iff.mp placed
  cases placed
  obtain ⟨before, data, rest, split, others, dataFits, place, rfl⟩ :=
    exists_items (Nat.not_lt.mp outside) found (Nat.not_lt.mp beyond)
  obtain ⟨enough, ciphersLen⟩ := u16be_some ciphersRead
  obtain ⟨room, extLen⟩ := u16be_some counted
  -- The template is cut where the walk of the code puts its offsets: the head of fixed length
  -- first.
  obtain ⟨head, more, rfl, headSize⟩ := @exists_cut tpl 76 (by omega)
  rw [List.length_append, headSize] at outside room enough
  rw [beAt_skip (Nat.le_of_eq headSize), headSize, Nat.sub_self] at ciphersLen
  obtain ⟨ciphers, more, rfl, ciphersSize⟩ := @exists_vector 2 more (by omega)
  have ciphersFit := beAt_lt 2 (vector 2 ciphers ++ more) 0
  rw [List.length_append, vector_length] at outside room
  have compressionLen : beAt 1 more 0 = compLen.toNat := by
    have here : 78 + csLen - 76 - (2 + ciphers.length) = 0 := by omega
    rw [List.getElem?_append_right (by omega), headSize,
      List.getElem?_append_right (by rw [vector_length]; omega), vector_length, here]
      at compressionRead
    rw [beAt_one, byteAt, List.getD_eq_getElem?_getD, compressionRead]
    rfl
  obtain ⟨compression, more, rfl, compressionSize⟩ := @exists_vector 1 more (by omega)
  have compressionFits := compLen.toNat_lt
  rw [List.length_append, vector_length] at outside room
  have extRead : beAt 2 more 0 = extTotal := by
    have here : 79 + csLen + compLen.toNat - 76 - (2 + ciphers.length) - (1 + compression.length) =
        0 := by omega
    rwa [beAt_skip (by omega), headSize, beAt_skip (by rw [vector_length]; omega), vector_length,
      beAt_skip (by rw [vector_length]; omega), vector_length, here] at extLen
  obtain ⟨extensions, counted⟩ := @exists_number more 2 (by omega)
  rw [extRead] at counted
  subst counted
  rw [List.length_append, toBe_length] at outside
  obtain ⟨start, version, random, sessionId, recordLen, hsLen, rfl, recordFits, hsFits, startSize,
    startType, versionSize, randomSize, sessionSize⟩ := exists_head headSize
      (by rwa [byteAt_front (by omega)] at type) (by rwa [byteAt_front (by omega)] at kind)
      (by rwa [byteAt_front (by omega)] at session)
  let layout : Layout := ⟨start, version, ciphers, compression, before,
    rest ++ extensions.drop extTotal, startSize, startType, versionSize,
    by rw [ciphersSize]; exact ciphersFit, by rw [compressionSize, compressionLen]; exact compressionFits,
    others⟩
  -- What stands in front of the extensions, put together again.
  have isPre : ∀ tail : Bytes, (start ++ (toBe 2 recordLen ++ (0x01 :: (toBe 3 hsLen ++ (version ++
      (random ++ (32 :: sessionId))))))) ++ (vector 2 ciphers ++ (vector 1 compression ++
        (toBe 2 extTotal ++ tail))) =
      layout.walkStart recordLen hsLen extTotal random sessionId ++ tail := by
    intro tail
    simp [Layout.walkStart, Layout.suites, layout]
  have preSize := @Layout.walkStart_length layout recordLen hsLen extTotal random sessionId
    randomSize sessionSize
  have offset : layout.extensionsOff = 79 + csLen + compLen.toNat := by
    change 79 + ciphers.length + compression.length = _
    omega
  rw [isPre, ← offset, List.drop_take, List.drop_left' preSize, Nat.add_sub_cancel_left] at split
  have whole := List.take_append_drop extTotal extensions
  have taken := congrArg List.length split
  rw [List.length_take, Nat.min_eq_left (by omega)] at taken
  simp only [List.length_append, item_length] at taken
  refine ⟨layout, recordLen, hsLen, extTotal, random, sessionId, data, ?_, recordFits, hsFits, ?_,
    randomSize, sessionSize, dataFits, ?_, ?_⟩
  · rw [isPre, Layout.wire_walk, ← whole, split]
    simp [layout]
  · rw [← extRead]
    exact beAt_lt _ _ _
  · change (itemsBytes before).length + _ ≤ _
    omega
  · change _ ≤ (itemsBytes before).length + _ + (rest ++ extensions.drop extTotal).length
    rw [List.length_append]
    omega

/-- Twenty-four bits are written of the handshake length. -/
theorem Layout.wire_mod (layout : Layout) (recordLen hsLen extLen : Nat)
    (random sessionId sni : Bytes) :
    layout.wire recordLen (hsLen % 2 ^ 24) extLen random sessionId sni =
      layout.wire recordLen hsLen extLen random sessionId sni := by
  have written := toBe_mod 3 hsLen
  rw [show (256 : Nat) ^ 3 = 2 ^ 24 by decide] at written
  rw [Layout.wire, Layout.wire, Layout.front, Layout.front, written]

/-- Both parsers find the extensions at the same place. -/
theorem parseSni_eq {hello : Bytes} {off : Nat} (session : byteAt hello 43 = 32)
    (placed : extensionsAt hello = some off) (inside : off + 2 ≤ hello.length) :
    parseSni hello hello.length =
      parseSniFrom hello (min (off + 2 + beAt 2 hello off) hello.length) (off + 2) := by
  obtain ⟨csLen, ciphers, placed⟩ := Option.bind_eq_some_iff.mp placed
  obtain ⟨compLen, compression, placed⟩ := Option.bind_eq_some_iff.mp placed
  cases placed
  obtain ⟨enough, ciphersLen⟩ := u16be_some ciphers
  have compressionLen : byteAt hello (78 + csLen) = compLen := by
    rw [byteAt, List.getD_eq_getElem?_getD, compression]
    rfl
  have start : 44 + (byteAt hello 43).toNat = 76 := by
    rw [session]
    rfl
  unfold parseSni
  simp only [start, ciphersLen]
  rw [if_neg (by omega), if_neg (by omega)]
  have place : 76 + 2 + csLen = 78 + csLen := by omega
  have extensions : 78 + csLen + 1 + compLen.toNat = 79 + csLen + compLen.toNat := by omega
  simp only [place, compressionLen, extensions]
  rw [if_neg (by omega)]

theorem parseSni_wire (layout : Layout) {recordLen hsLen extLen : Nat}
    {random sessionId name : Bytes} (randomSize : random.length = 32)
    (sessionSize : sessionId.length = 32) (extFits : extLen < 256 ^ 2)
    (fits : name.length + 5 < 256 ^ 2)
    (covers : layout.beforeBytes.length + (9 + name.length) ≤ extLen)
    (inside : extLen ≤ layout.beforeBytes.length + (9 + name.length) + layout.after.length) :
    let hello := layout.wire recordLen hsLen extLen random sessionId (sniExt name)
    parseSni hello hello.length = some (fromUtf8 name,
      layout.extensionsOff + 2 + layout.beforeBytes.length + 9, name.length) := by
  intro hello
  have length := @Layout.wire_length layout recordLen hsLen extLen random sessionId (sniExt name)
    randomSize sessionSize
  have sniLength : (sniExt name).length = 9 + name.length := by
    rw [sniExt_eq, item_length, sniData_length]
    omega
  have start := @Layout.walkStart_length layout recordLen hsLen extLen random sessionId randomSize
    sessionSize
  have walked := @parseSniFrom_items layout.after (layout.extensionsOff + 2 + extLen) layout.before
    name layout.others fits (layout.walkStart recordLen hsLen extLen random sessionId)
    (by rw [start]; unfold Layout.beforeBytes at covers; omega)
  rw [parseSni_eq (Layout.read_sid randomSize) (Layout.read_extensionsAt randomSize sessionSize)
    (by omega), Layout.read_extLen randomSize sessionSize extFits, Nat.min_eq_left (by omega)]
  rw [← Layout.wire_walk, start] at walked
  exact walked

end Layout

section Rebuilding

/-- The outer lengths of a hello end where it does. -/
def EndsTogether (hello : Bytes) : Prop :=
  9 + beAt 3 hello 6 = hello.length ∧
    ∃ off, extensionsAt hello = some off ∧ off + 2 + beAt 2 hello off = hello.length

/-- A template with another name: all lengths count what is there, the name is
read back, one extension of type 0 is replaced while everything before and behind it
stands as it did, and a further name can be put in as well as into the template. -/
structure Rebuilt (tpl name sessionId random out : Bytes) : Prop where
  record : 5 + beAt 2 out 3 = out.length
  ends : EndsTogether out
  parsed : ∃ off, parseSni out out.length = some (fromUtf8 name, off + 9, name.length) ∧
    beAt 2 out (off + 2) = 5 + name.length ∧ beAt 2 out (off + 4) = 3 + name.length ∧
    (out.drop (off + 9)).take name.length = name
  kept : ∃ (layout : Layout) (recordLen hsLen extLen recordLen' hsLen' extLen' : Nat)
      (random' sessionId' data : Bytes),
    random'.length = 32 ∧ sessionId'.length = 32 ∧ data.length < 256 ^ 2 ∧
    layout.beforeBytes.length + (4 + data.length) ≤ extLen ∧
    tpl = layout.wire recordLen hsLen extLen random' sessionId' (item 0 data) ∧
    out = layout.wire recordLen' hsLen' extLen' random sessionId (sniExt name)
  again : ∀ other session fresh : Bytes, session.length = 32 → fresh.length = 32 →
    buildFromTemplate out other session fresh = buildFromTemplate tpl other session fresh

theorem captured_record {data : Bytes} {cap : Captured} (captured : parseForCapture data = some cap) :
    5 + beAt 2 cap.bytes 3 = cap.bytes.length := by
  unfold parseForCapture at captured
  dsimp only at captured
  split_ifs at captured with header cut session
  cases captured
  have read := @beAt_window data 3 2 (5 + beAt 2 data 3) 0 (Nat.zero_le _) (by omega)
  rw [List.drop_zero, Nat.sub_zero] at read
  rw [read, List.length_take]
  omega

theorem endsTogether_wire (layout : Layout) {recordLen hsLen extLen : Nat}
    {random sessionId sni : Bytes} (randomSize : random.length = 32)
    (sessionSize : sessionId.length = 32) (hsFits : hsLen < 256 ^ 3) (extFits : extLen < 256 ^ 2) :
    let hello := layout.wire recordLen hsLen extLen random sessionId sni
    EndsTogether hello ↔ 9 + hsLen = hello.length ∧
      layout.extensionsOff + 2 + extLen = hello.length := by
  intro hello
  have placed := @Layout.read_extensionsAt layout recordLen hsLen extLen random sessionId sni
    randomSize sessionSize
  unfold EndsTogether
  rw [Layout.read_handshake hsFits]
  refine and_congr_right fun _ => ⟨?_, fun ends => ⟨_, placed, ?_⟩⟩
  · rintro ⟨off, found, ends⟩
    rw [placed] at found
    cases found
    rwa [Layout.read_extLen randomSize sessionSize extFits] at ends
  · rwa [Layout.read_extLen randomSize sessionSize extFits]

theorem shifted_shifted {bits n : Nat} {first second whole : Int} (sum : first + second = whole) :
    shifted bits (shifted bits n first) second = shifted bits n whole := by
  have positive : (0 : Int) < 2 ^ bits := Int.pow_pos (by decide)
  have nonneg := Int.emod_nonneg (n + first) (Int.ne_of_gt positive)
  unfold shifted
  rw [Int.toNat_of_nonneg nonneg, Int.emod_add_emod, Int.add_assoc, sum]

/-- Only twenty-four bits of a length count for those of the moved one. -/
theorem shifted_low (n : Nat) (delta : Int) :
    shifted 32 (n % 2 ^ 24) delta % 2 ^ 24 = shifted 32 n delta % 2 ^ 24 := by
  unfold shifted
  omega

/-- What is captured is rebuilt under any name that fits exactly where its own
lengths end with it: the capture checks that of the record only. -/
theorem rebuilt_iff {packet name sessionId random out : Bytes} {cap : Captured}
    (captured : parseForCapture packet = some cap)
    (accepted : buildFromTemplate cap.bytes name sessionId random = some out)
    (sessionSize : sessionId.length = 32) (randomSize : random.length = 32)
    (fits : out.length ≤ 5 + 65535) :
    Rebuilt cap.bytes name sessionId random out ↔ EndsTogether cap.bytes := by
  have record := captured_record captured
  obtain ⟨layout, recordLen, hsLen, extLen, random', sessionId', data, isTpl, recordFits, hsFits,
    extFits, randomSize', sessionSize', dataFits, covers, inside⟩ := exists_layout accepted
  rw [isTpl] at record accepted ⊢
  have built := @buildFromTemplate_wire layout recordLen hsLen extLen random' sessionId' data name
    sessionId random recordFits hsFits extFits randomSize' sessionSize' randomSize sessionSize
    dataFits covers inside
  rw [accepted, Option.some.injEq] at built
  have tplLength := @Layout.wire_length layout recordLen hsLen extLen random' sessionId' (item 0 data)
    randomSize' sessionSize'
  rw [Layout.read_record recordFits, tplLength, item_length] at record
  rw [← Layout.wire_mod] at built
  have sniLength : (sniExt name).length = 9 + name.length := by
    rw [sniExt_eq, item_length, sniData_length]
    omega
  -- The three lengths as the code moves them, each in the width it is computed in.
  set delta : Int := (sniExt name).length - (4 + data.length : Nat) with moved
  set recordLen' := shifted 16 recordLen delta with recordMoved
  set hsLen' := shifted 32 hsLen delta % 2 ^ 24 with hsMoved
  set extLen' := shifted 16 extLen delta with extMoved
  have outLength := @Layout.wire_length layout recordLen' hsLen' extLen' random sessionId
    (sniExt name) randomSize sessionSize
  rw [← built, sniLength] at outLength
  have extOff : 76 ≤ layout.extensionsOff := by
    unfold Layout.extensionsOff
    omega
  have recordNow : recordLen' + 5 = out.length := by
    unfold shifted at recordMoved
    omega
  have extNow : extLen' + (4 + data.length) = extLen + (9 + name.length) := by
    unfold shifted at extMoved
    omega
  have hsFits' : hsLen' < 256 ^ 3 := by omega
  have ends := @endsTogether_wire layout recordLen' hsLen' extLen' random sessionId (sniExt name)
    randomSize sessionSize hsFits' (by omega)
  have tplEnds := @endsTogether_wire layout recordLen hsLen extLen random' sessionId' (item 0 data)
    randomSize' sessionSize' hsFits extFits
  dsimp only at ends tplEnds
  rw [← built] at ends
  rw [tplLength, item_length] at tplEnds
  -- The change cancels, so that the new lengths end together just where the old ones did.
  have endsSame : EndsTogether out ↔ EndsTogether (layout.wire recordLen hsLen extLen random'
      sessionId' (item 0 data)) := by
    rw [ends, tplEnds]
    unfold shifted at hsMoved
    omega
  refine ⟨fun rebuilt => endsSame.mp rebuilt.ends, fun whole => ?_⟩
  have nameFits : name.length + 5 < 256 ^ 2 := by omega
  have frontSize := @Layout.front_length layout recordLen' hsLen' extLen' random sessionId randomSize
    sessionSize
  obtain ⟨extRead, listRead, _, _, hostRead⟩ := @sniExt_reads layout.after name nameFits
    (layout.front recordLen' hsLen' extLen' random sessionId)
  have parsed := @parseSni_wire layout recordLen' hsLen' extLen' random sessionId name randomSize
    sessionSize (by omega) nameFits (by omega) (by omega)
  rw [← Layout.wire, ← built, frontSize] at extRead listRead hostRead
  dsimp only at parsed
  rw [← built] at parsed
  refine ⟨?_, endsSame.mpr whole, ⟨_, parsed, extRead, listRead, hostRead⟩,
    ⟨layout, recordLen, hsLen, extLen, recordLen', hsLen', extLen', random', sessionId', data,
      randomSize', sessionSize', dataFits, covers, rfl, built⟩, fun other session fresh sessionIs freshIs => ?_⟩
  · have read := @Layout.read_record layout recordLen' hsLen' extLen' random sessionId (sniExt name)
      (by omega)
    rw [← built] at read
    omega
  · have fromOut := @buildFromTemplate_wire layout recordLen' hsLen' extLen' random sessionId
      (vector 2 (0 :: vector 2 name)) other session fresh (by omega) hsFits' (by omega) randomSize
      sessionSize freshIs sessionIs (by rw [sniData_length]; omega)
      (by rw [sniData_length]; omega) (by rw [sniData_length]; omega)
    have fromTpl := @buildFromTemplate_wire layout recordLen hsLen extLen random' sessionId' data
      other session fresh recordFits hsFits extFits randomSize' sessionSize' freshIs sessionIs
      dataFits covers inside
    -- Two changes one after the other add up to the change in one go.
    have sum : delta + ((sniExt other).length - (4 + (vector 2 (0 :: vector 2 name)).length : Nat)) =
        (sniExt other).length - (4 + data.length : Nat) := by
      rw [sniData_length, moved, sniLength]
      omega
    dsimp only at fromOut fromTpl
    rw [← sniExt_eq, ← built, ← Layout.wire_mod, recordMoved, extMoved, hsMoved, shifted_low,
      shifted_shifted sum, shifted_shifted sum, shifted_shifted sum, Layout.wire_mod] at fromOut
    rw [fromOut, fromTpl]

theorem nameOnly_version : ([3, 3] : Bytes).length = 2 := rfl

/-- One cipher suite and no extension but the name's. -/
def nameOnly : Layout :=
  ⟨[0x16, 3, 1], [3, 3], [0x13, 0x01], [0], [], [], rfl, rfl, nameOnly_version, by decide,
    by decide, fun _ missing => (nomatch missing)⟩

def namedHello (hsLen : Nat) : Bytes :=
  nameOnly.wire 89 hsLen 10 (List.replicate 32 0) (List.replicate 32 0) (sniExt [97])

def renamedHello (hsLen : Nat) : Bytes :=
  nameOnly.wire 90 hsLen 11 (List.replicate 32 7) (List.replicate 32 7) (sniExt [98, 98])

theorem namedHello_captured (hsLen : Nat) :
    parseForCapture (namedHello hsLen) =
      some ⟨namedHello hsLen, 94, parseSni (namedHello hsLen) 94⟩ := by
  have length : (namedHello hsLen).length = 94 := Layout.wire_length rfl rfl
  have record : 5 + beAt 2 (namedHello hsLen) 3 = 94 :=
    congrArg (5 + ·) (Layout.read_record (by decide))
  have type : byteAt (namedHello hsLen) 0 = 0x16 := Layout.read_type
  have kind : byteAt (namedHello hsLen) 5 = 0x01 := Layout.read_kind
  have session : byteAt (namedHello hsLen) 43 = 32 := Layout.read_sid rfl
  simp [parseForCapture, length, record, type, kind, session, List.take_of_length_le]

theorem namedHello_accepted :
    buildFromTemplate (namedHello 85) [98, 98] (List.replicate 32 7) (List.replicate 32 7) =
      some (renamedHello 86) ∧
    buildFromTemplate (namedHello 84) [98, 98] (List.replicate 32 7) (List.replicate 32 7) =
      some (renamedHello 85) := by
  decide +kernel

theorem rebuilt_bare : Rebuilt (namedHello 85) [98, 98] (List.replicate 32 7) (List.replicate 32 7)
    (renamedHello 86) :=
  (rebuilt_iff (namedHello_captured 85) namedHello_accepted.1 rfl rfl (by decide)).mpr
    ⟨by decide, 82, by decide⟩

/-- A hello whose handshake length is off by one is captured, and rebuilt with
the error in it. -/
theorem wrong_handshake_kept : ¬ ∀ (packet name sessionId random out : Bytes) (cap : Captured),
    parseForCapture packet = some cap →
    buildFromTemplate cap.bytes name sessionId random = some out → sessionId.length = 32 →
    random.length = 32 → out.length ≤ 5 + 65535 → Rebuilt cap.bytes name sessionId random out := by
  intro always
  have rebuilt := always _ _ _ _ _ _ (namedHello_captured 84) namedHello_accepted.2 rfl rfl (by decide)
  exact absurd rebuilt.ends.1 (by decide)

end Rebuilding

end Mirage.Tls
