import Mathlib.Data.List.Nodup
import Mathlib.Data.List.Perm.Basic
import Mirage.Lib.Shapes
import Mirage.Tls.Template

/-!
The ClientHellos crypto/tls_raw.rs makes up after Chromium, Firefox and OkHttp,
over all that its random generator may give.
-/

namespace Mirage.Tls
open Word Vectors Shapes

section Drawn

def greaseValues : List Nat :=
  [0x0A0A, 0x1A1A, 0x2A2A, 0x3A3A, 0x4A4A, 0x5A5A, 0x6A6A, 0x7A7A,
    0x8A8A, 0x9A9A, 0xAAAA, 0xBABA, 0xCACA, 0xDADA, 0xEAEA, 0xFAFA]

/-- What `get_grease` may return. -/
abbrev Grease := { value : Nat // value ∈ greaseValues }

abbrev Filled (size : Nat) := { bytes : Bytes // bytes.length = size }

/-- The two outer GREASE types: the last is drawn until it is not the first. -/
structure Bookends where
  first : Grease
  draws : List Grease
  ends : ∃ drawn ∈ draws, drawn ≠ first

def Bookends.last (bookends : Bookends) : Grease :=
  (bookends.draws.find? fun drawn => drawn ≠ bookends.first).get (by
    obtain ⟨drawn, member, different⟩ := bookends.ends
    exact List.find?_isSome.mpr ⟨drawn, member, by simpa using different⟩)

structure Mlkem768Draws where
  coefficients : List (Nat × Nat)
  rho : Filled 32
  count : coefficients.length = 384
  below : ∀ pair ∈ coefficients, pair.1 < 3329 ∧ pair.2 < 3329

structure EchDraws (payloadLen : Nat) where
  configId : UInt8
  enc : Filled 32
  payload : Filled payloadLen

structure ChromiumDraws where
  cipherGrease : Grease
  gSv : Grease
  gGroups : Grease
  gKs : Grease
  ech : EchDraws 208
  ek : Mlkem768Draws
  xHybrid : Filled 32
  x25519 : Filled 32
  picks : Nat → Nat
  picksInside : ∀ i, picks i ≤ i
  bookends : Bookends

structure FirefoxDraws where
  ek : Mlkem768Draws
  xh : Filled 32
  x : Filled 32
  p : Filled 65
  aeadFirst : Bool
  ech : EchDraws 239

structure OkhttpDraws where
  cipherGrease : Grease
  bookends : Bookends
  gGroups : Grease
  gKs : Grease
  gSv : Grease
  x : Filled 32

end Drawn

section Source

def numbers (ns : List Nat) : Bytes := ns.flatMap (toBe 2)

def chromiumCiphers : List Nat :=
  [0x1301, 0x1302, 0x1303, 0xC02B, 0xC02F, 0xC02C, 0xC030, 0xCCA9, 0xCCA8,
    0xC013, 0xC014, 0x009C, 0x009D, 0x002F, 0x0035]

def chromiumGroups : List Nat := [0x11EC, 0x001D, 0x0017, 0x0018]

def sigalgs : Bytes :=
  [0x00, 0x16, 0x09, 0x04, 0x09, 0x05, 0x09, 0x06, 0x04, 0x03, 0x08, 0x04,
    0x04, 0x01, 0x05, 0x03, 0x08, 0x05, 0x05, 0x01, 0x08, 0x06, 0x06, 0x01]

def alpn : Bytes := [0x00, 0x0c, 0x02] ++ utf8 "h2" ++ [0x08] ++ utf8 "http/1.1"

def alps : Bytes := [0x00, 0x03, 0x02] ++ utf8 "h2"

def certCompress : Bytes := [0x02, 0x00, 0x02]

def statusRequest : Bytes := [0x01, 0x00, 0x00, 0x00, 0x00]

def ecPointFormats : Bytes := [0x01, 0x00]

def pskModes : Bytes := [0x01, 0x01]

def hybridKeyshareLen : Nat := 1216

/-- Two coefficients of twelve bits in three bytes. -/
def packed (c0 c1 : Nat) : Bytes :=
  [UInt8.ofNat (c0 &&& 0xff), UInt8.ofNat (((c0 >>> 8) &&& 0x0f) ||| ((c1 &&& 0x0f) <<< 4)),
    UInt8.ofNat ((c1 >>> 4) &&& 0xff)]

def mlkem768ValidEncapKey (draws : Mlkem768Draws) : Bytes :=
  draws.coefficients.flatMap (fun pair => packed pair.1 pair.2) ++ draws.rho.1

def supportedVersionsExt (greaseVal : Nat) : Bytes :=
  ext 0x002b (6 :: numbers [greaseVal, 0x0304, 0x0303])

def supportedGroupsExt (greaseVal : Nat) : Bytes :=
  ext 0x000a (vector 2 (numbers (greaseVal :: chromiumGroups)))

def keyShareExt (greaseVal : Nat) (ek : Mlkem768Draws) (xHybrid x25519 : Filled 32) : Bytes :=
  ext 0x0033 (vector 2 (numbers [greaseVal, 1] ++ (0x00 :: (numbers [0x11EC, hybridKeyshareLen] ++
    (mlkem768ValidEncapKey ek ++ (xHybrid.1 ++ (numbers [0x001D, 32] ++ x25519.1)))))))

/-- GREASE ECH over a payload, with the AEAD given. -/
def echExt {payloadLen : Nat} (aead : Nat) (draws : EchDraws payloadLen) : Bytes :=
  ext 0xfe0d (0x00 :: (numbers [0x0001, aead] ++ (draws.configId :: (toBe 2 32 ++ (draws.enc.1 ++
    (toBe 2 payloadLen ++ draws.payload.1))))))

def echGreaseExt (draws : EchDraws 208) : Bytes := echExt 0x0001 draws

def assemble (sessionId clientRandom cipherSuites extensions : Bytes) : Bytes :=
  let helloBody : Bytes := [0x03, 0x03] ++ (clientRandom ++ (UInt8.ofNat sessionId.length ::
    (sessionId ++ (toBe 2 cipherSuites.length ++ (cipherSuites ++ ([0x01, 0x00] ++
      (toBe 2 extensions.length ++ extensions)))))))
  let hs : Bytes := 0x01 :: (toBe 3 helloBody.length ++ helloBody)
  [0x16, 0x03, 0x01] ++ (toBe 2 hs.length ++ hs)

/-- Swaps from the back, each place with one no later. -/
def shuffle {α : Type} (picks : Nat → Nat) : Nat → Array α → Array α
  | 0, middle => middle
  | i + 1, middle => shuffle picks i (middle.swapIfInBounds (i + 1) (picks (i + 1)))

def chromiumMiddle (draws : ChromiumDraws) (sniBytes : Bytes) : Array Bytes :=
  #[supportedVersionsExt draws.gSv, echGreaseExt draws.ech, ext 0x000b ecPointFormats,
    ext 0x0017 [], supportedGroupsExt draws.gGroups, ext 0x002d pskModes, ext 0x0023 [],
    ext 0xff01 [0x00], ext 0x0010 alpn, ext 0x0005 statusRequest, ext 0x0012 [], sniExt sniBytes,
    ext 0x44cd alps, ext 0x000d sigalgs, keyShareExt draws.gKs draws.ek draws.xHybrid draws.x25519,
    ext 0x001b certCompress]

def buildChromium (draws : ChromiumDraws) (sniBytes sessionId clientRandom : Bytes) : Bytes :=
  let middle := chromiumMiddle draws sniBytes
  let exts := ext draws.bookends.first [] ++
    ((shuffle draws.picks (middle.size - 1) middle).toList.flatten ++ ext draws.bookends.last [0x00])
  assemble sessionId clientRandom (numbers (draws.cipherGrease :: chromiumCiphers)) exts

def firefoxCiphers : List Nat :=
  [0x1301, 0x1303, 0x1302, 0xc02b, 0xc02f, 0xcca9, 0xcca8, 0xc02c, 0xc030, 0xc00a, 0xc013, 0xc014,
    0x009c, 0x009d, 0x002f, 0x0035]

def firefoxGroups : List Nat := [0x11ec, 0x001d, 0x0017, 0x0018, 0x0019, 0x0100, 0x0101]

def firefoxSigalgs : Bytes :=
  [0x00, 0x16, 0x04, 0x03, 0x05, 0x03, 0x06, 0x03, 0x08, 0x04, 0x08, 0x05, 0x08, 0x06, 0x04, 0x01,
    0x05, 0x01, 0x06, 0x01, 0x02, 0x03, 0x02, 0x01]

def firefoxDelegCreds : Bytes := [0x00, 0x08, 0x04, 0x03, 0x05, 0x03, 0x06, 0x03, 0x02, 0x03]

def firefoxCertCompress : Bytes := [0x06, 0x00, 0x01, 0x00, 0x02, 0x00, 0x03]

def ffSupportedVersionsExt : Bytes := ext 0x002b [0x04, 0x03, 0x04, 0x03, 0x03]

def ffSupportedGroupsExt : Bytes := ext 0x000a (vector 2 (numbers firefoxGroups))

/-- The first byte of the point is set over the random one. -/
def ffKeyShareExt (ek : Mlkem768Draws) (xh x : Filled 32) (p : Filled 65) : Bytes :=
  ext 0x0033 (vector 2 (numbers [0x11EC, hybridKeyshareLen] ++ (mlkem768ValidEncapKey ek ++ (xh.1 ++
    (numbers [0x001D, 32] ++ (x.1 ++ (numbers [0x0017, 65] ++ p.1.set 0 0x04)))))))

def ffEchExt (aeadFirst : Bool) (draws : EchDraws 239) : Bytes :=
  echExt (if aeadFirst then 0x0001 else 0x0003) draws

def buildFirefox (draws : FirefoxDraws) (sniBytes sessionId clientRandom : Bytes) : Bytes :=
  let exts := [sniExt sniBytes, ext 0x0017 [], ext 0xff01 [0x00], ffSupportedGroupsExt,
    ext 0x000b ecPointFormats, ext 0x0023 [], ext 0x0010 alpn, ext 0x0005 statusRequest,
    ext 0x0022 firefoxDelegCreds, ext 0x0012 [], ffKeyShareExt draws.ek draws.xh draws.x draws.p,
    ffSupportedVersionsExt, ext 0x000d firefoxSigalgs, ext 0x002d pskModes, ext 0x001c [0x40, 0x01],
    ext 0x001b firefoxCertCompress, ffEchExt draws.aeadFirst draws.ech]
  assemble sessionId clientRandom (numbers firefoxCiphers) exts.flatten

def okhttpSigalgs : Bytes :=
  [0x00, 0x10, 0x04, 0x03, 0x08, 0x04, 0x04, 0x01, 0x05, 0x03, 0x08, 0x05, 0x05, 0x01, 0x08, 0x06,
    0x06, 0x01]

def okhttpPadTarget : Nat := 512

def okSupportedGroupsExt (grease : Nat) : Bytes :=
  ext 0x000a (vector 2 (numbers (grease :: [0x001d, 0x0017, 0x0018])))

def okSupportedVersionsExt (grease : Nat) : Bytes :=
  ext 0x002b (10 :: numbers (grease :: [0x0304, 0x0303, 0x0302, 0x0301]))

def okKeyShareExt (grease : Nat) (x : Filled 32) : Bytes :=
  ext 0x0033 (vector 2 (numbers [grease, 1] ++ (0x00 :: (numbers [0x001D, 32] ++ x.1))))

def okhttpExts (draws : OkhttpDraws) (sniBytes : Bytes) : List Bytes :=
  [ext draws.bookends.first [], sniExt sniBytes, ext 0x0017 [], ext 0xff01 [0x00],
    okSupportedGroupsExt draws.gGroups, ext 0x000b ecPointFormats, ext 0x0023 [], ext 0x0010 alpn,
    ext 0x0005 statusRequest, ext 0x000d okhttpSigalgs, ext 0x0012 [],
    okKeyShareExt draws.gKs draws.x, ext 0x002d pskModes, okSupportedVersionsExt draws.gSv,
    ext 0x001b certCompress, ext draws.bookends.last [0x00]]

def buildOkhttp (draws : OkhttpDraws) (sniBytes sessionId clientRandom : Bytes) : Bytes :=
  let ciphers := numbers (draws.cipherGrease :: chromiumCiphers)
  let extsBytes := (okhttpExts draws sniBytes).flatten
  let payload := (assemble sessionId clientRandom ciphers extsBytes).length - 5
  if payload + 4 < okhttpPadTarget then
    assemble sessionId clientRandom ciphers
      (extsBytes ++ ext 0x0015 (List.replicate (okhttpPadTarget - payload - 4) 0))
  else assemble sessionId clientRandom ciphers extsBytes

/-- A profile with what is drawn for it. -/
inductive Profile where
  | chromium (draws : ChromiumDraws)
  | firefox (draws : FirefoxDraws)
  | okHttp (draws : OkhttpDraws)

def buildWithProfile (profile : Profile) (serverName : String) (sessionId clientRandom : Bytes) :
    Bytes :=
  match profile with
  | .chromium draws => buildChromium draws (utf8 serverName) sessionId clientRandom
  | .firefox draws => buildFirefox draws (utf8 serverName) sessionId clientRandom
  | .okHttp draws => buildOkhttp draws (utf8 serverName) sessionId clientRandom

end Source

section Consistency

/-- What stands in the extensions whose type is not GREASE. -/
def shapes : List (Nat × Shape) :=
  let list (width size : Nat) : Shape := .vector width (.many (.fixed size))
  let names (width : Nat) : Shape := .vector 2 (.many (.vector width .any))
  [(0x0000, .vector 2 (.many (.both (.fixed 1) (.vector 2 .any)))),
    (0x0005, .both (.fixed 1) (.both (.vector 2 .any) (.vector 2 .any))),
    (0x000a, list 2 2), (0x000b, list 1 1), (0x000d, list 2 2), (0x0010, names 1),
    (0x0012, .fixed 0), (0x0015, .many (.fixed 1)), (0x0017, .fixed 0), (0x001b, list 1 2),
    (0x001c, .fixed 2), (0x0022, list 2 2), (0x0023, .fixed 0), (0x002b, list 1 2),
    (0x002d, list 1 1), (0x0033, .vector 2 (.many (.both (.fixed 2) (.vector 2 .any)))),
    (0x44cd, names 1), (0xfe0d, .both (.fixed 6) (.both (.vector 2 .any) (.vector 2 .any))),
    (0xff01, .vector 1 .any)]

def shapeOf (type : Nat) : Shape := (shapes.lookup type).getD .any

/-- A hello of one record in which every length, from the record's to those
within extensions, counts what is there, under the name. -/
structure WellFormed (hello : Bytes) (serverName : String) (sessionId clientRandom : Bytes) :
    Prop where
  record : byteAt hello 0 = 0x16 ∧ 5 + beAt 2 hello 3 = hello.length
  handshake : byteAt hello 5 = 0x01 ∧ 9 + beAt 3 hello 6 = hello.length
  random : (hello.drop 11).take 32 = clientRandom
  session : byteAt hello 43 = 32 ∧ (hello.drop 44).take 32 = sessionId
  extensions : ∃ (ciphers : Bytes) (exts : List (Nat × Bytes)),
    hello.drop 76 = vector 2 ciphers ++ (vector 1 [0] ++ vector 2 (itemsBytes exts)) ∧
      (∃ count, ciphers.length = 2 * count) ∧ ciphers.length < 256 ^ 2 ∧
      (itemsBytes exts).length < 256 ^ 2 ∧ (exts.map Prod.fst).Nodup ∧
      ∀ ext ∈ exts, ext.1 < 256 ^ 2 ∧ ext.2.length < 256 ^ 2 ∧ (shapeOf ext.1).Holds ext.2
  named : ∃ off, parseSni hello hello.length = some (some serverName, off, (utf8 serverName).length) ∧
    (hello.drop off).take (utf8 serverName).length = utf8 serverName

/-- One extension of a type, its data as that type has it. -/
def IsExtension (bytes : Bytes) (type : Nat) : Prop :=
  type < 256 ^ 2 ∧ ∃ data, bytes = ext type data ∧ (shapeOf type).Holds data

theorem exists_exts {list : List Bytes} {types : List Nat}
    (all : List.Forall₂ IsExtension list types) :
    ∃ exts : List (Nat × Bytes), list.flatten = itemsBytes exts ∧ exts.map Prod.fst = types ∧
      (∀ e ∈ exts, e.1 < 256 ^ 2 ∧ (shapeOf e.1).Holds e.2) ∧
      ∀ bytes ∈ list, ∃ e ∈ exts, bytes = ext e.1 e.2 := by
  induction all with
  | nil => exact ⟨[], rfl, rfl, fun _ missing => absurd missing List.not_mem_nil,
      fun _ missing => absurd missing List.not_mem_nil⟩
  | cons first _ ih =>
      obtain ⟨small, data, rfl, holds⟩ := first
      obtain ⟨exts, flat, types, good, found⟩ := ih
      refine ⟨(_, data) :: exts, ?_, ?_, List.forall_mem_cons.mpr ⟨⟨small, holds⟩, good⟩, ?_⟩
      · rw [List.flatten_cons, flat, itemsBytes_cons]
        rfl
      · rw [List.map_cons, types]
      · intro bytes member
        rcases List.mem_cons.mp member with rfl | later
        · exact ⟨_, List.mem_cons_self, rfl⟩
        · obtain ⟨e, inside, same⟩ := found bytes later
          exact ⟨e, List.mem_cons_of_mem _ inside, same⟩

theorem ext_injective {type type' : Nat} {data data' : Bytes} (small : type < 256 ^ 2)
    (small' : type' < 256 ^ 2) (same : ext type data = ext type' data') :
    type = type' ∧ data = data' := by
  unfold ext item vector at same
  obtain ⟨types, rest⟩ := List.append_inj same (by simp)
  have read := congrArg ofBe types
  rw [ofBe_toBe small, ofBe_toBe small'] at read
  exact ⟨read, (List.append_inj rest (by simp)).2⟩

section Assembling

variable {sessionId clientRandom ciphers exts : Bytes}

def bodyLen (ciphers exts : Bytes) : Nat := 73 + ciphers.length + exts.length

theorem assemble_eq (randomSize : clientRandom.length = 32) (sessionSize : sessionId.length = 32) :
    assemble sessionId clientRandom ciphers exts =
      [0x16, 0x03, 0x01] ++ (toBe 2 (4 + bodyLen ciphers exts) ++ (0x01 ::
        (toBe 3 (bodyLen ciphers exts) ++ ([0x03, 0x03] ++ (clientRandom ++ (32 :: (sessionId ++
          (vector 2 ciphers ++ (vector 1 [0] ++ vector 2 exts))))))))) := by
  have body : ([0x03, 0x03] ++ (clientRandom ++ (UInt8.ofNat sessionId.length :: (sessionId ++
      (toBe 2 ciphers.length ++ (ciphers ++ ([0x01, 0x00] ++
        (toBe 2 exts.length ++ exts)))))))).length = bodyLen ciphers exts := by
    simp only [List.length_append, List.length_cons, List.length_nil, toBe_length, randomSize,
      sessionSize, bodyLen]
    omega
  dsimp only [assemble]
  rw [body, List.length_cons, List.length_append, toBe_length, body, sessionSize]
  have whole : 3 + bodyLen ciphers exts + 1 = 4 + bodyLen ciphers exts := by omega
  rw [whole]
  simp [vector, toBe]

theorem assemble_length (randomSize : clientRandom.length = 32) (sessionSize : sessionId.length = 32) :
    (assemble sessionId clientRandom ciphers exts).length = 9 + bodyLen ciphers exts := by
  rw [assemble_eq randomSize sessionSize]
  simp only [List.length_append, List.length_cons, List.length_nil, toBe_length, vector_length,
    randomSize, sessionSize, bodyLen]
  omega

theorem itemsBytes_append (before later : List (Nat × Bytes)) :
    itemsBytes (before ++ later) = itemsBytes before ++ itemsBytes later := List.flatMap_append

theorem assemble_wellFormed {list : List Bytes} {types : List Nat} {serverName : String} {count : Nat}
    (all : List.Forall₂ IsExtension list types) (distinct : types.Nodup)
    (name : sniExt (utf8 serverName) ∈ list) (randomSize : clientRandom.length = 32)
    (sessionSize : sessionId.length = 32) (even : ciphers.length = 2 * count)
    (fits : (assemble sessionId clientRandom ciphers list.flatten).length ≤ 5 + 65535) :
    WellFormed (assemble sessionId clientRandom ciphers list.flatten) serverName sessionId
      clientRandom := by
  obtain ⟨exts, flat, rfl, good, found⟩ := exists_exts all
  obtain ⟨⟨type, data⟩, member, same⟩ := found _ name
  obtain ⟨rfl, rfl⟩ := ext_injective (by decide) (good _ member).1 same
  rw [flat] at fits ⊢
  have length := @assemble_length sessionId clientRandom ciphers (itemsBytes exts) randomSize sessionSize
  have split := @assemble_eq sessionId clientRandom ciphers (itemsBytes exts) randomSize sessionSize
  rw [length, bodyLen] at fits
  have inner : ∀ e ∈ exts, e.2.length < 256 ^ 2 := by
    intro e inside
    obtain ⟨before, later, rfl⟩ := List.append_of_mem inside
    rw [itemsBytes_append, itemsBytes_cons, List.length_append, List.length_append, item_length] at fits
    omega
  obtain ⟨before, later, rfl⟩ := List.append_of_mem member
  have others : Others before := by
    intro e inside
    rw [List.map_append, List.map_cons] at distinct
    have apart := (List.nodup_append.mp distinct).2.2 e.1 (List.mem_map_of_mem inside) 0
      List.mem_cons_self
    have kept := List.mem_append_left ((0, vector 2 (0 :: vector 2 (utf8 serverName))) :: later) inside
    exact ⟨apart, (good e kept).1, inner e kept⟩
  -- The hello is the wire of a layout, and is read back as one.
  let layout : Layout := ⟨[0x16, 0x03, 0x01], [0x03, 0x03], ciphers, [0x00], before, itemsBytes later,
    rfl, rfl, rfl, by omega, by decide, others⟩
  have bytes : itemsBytes (before ++ (0, vector 2 (0 :: vector 2 (utf8 serverName))) :: later) =
      itemsBytes before ++ (sniExt (utf8 serverName) ++ itemsBytes later) := by
    rw [itemsBytes_append, itemsBytes_cons, sniExt_eq]
  have sizes := congrArg List.length bytes
  rw [List.length_append, List.length_append, sniExt_eq, item_length, sniData_length] at sizes
  set exts := itemsBytes (before ++ (0, vector 2 (0 :: vector 2 (utf8 serverName))) :: later)
  have wire : assemble sessionId clientRandom ciphers exts =
      layout.wire (4 + bodyLen ciphers exts) (bodyLen ciphers exts) exts.length clientRandom sessionId
        (sniExt (utf8 serverName)) := by
    rw [split, Layout.wire_record, Layout.suites, vector, vector, bytes]
    simp [layout, vector, Layout.beforeBytes]
  have record := @Layout.read_record layout (4 + bodyLen ciphers exts) (bodyLen ciphers exts)
    exts.length clientRandom sessionId (sniExt (utf8 serverName)) (by unfold bodyLen; omega)
  have handshake := @Layout.read_handshake layout (4 + bodyLen ciphers exts) (bodyLen ciphers exts)
    exts.length clientRandom sessionId (sniExt (utf8 serverName)) (by unfold bodyLen; omega)
  have parsed := @parseSni_wire layout (4 + bodyLen ciphers exts) (bodyLen ciphers exts) exts.length
    clientRandom sessionId (utf8 serverName) randomSize sessionSize (by omega) (by omega)
    (by change (itemsBytes before).length + _ ≤ _; omega)
    (by change _ ≤ (itemsBytes before).length + _ + (itemsBytes later).length; omega)
  have frontSize := @Layout.front_length layout (4 + bodyLen ciphers exts) (bodyLen ciphers exts)
    exts.length clientRandom sessionId randomSize sessionSize
  obtain ⟨-, -, -, -, host⟩ := @sniExt_reads layout.after (utf8 serverName) (by omega)
    (layout.front (4 + bodyLen ciphers exts) (bodyLen ciphers exts) exts.length clientRandom sessionId)
  dsimp only at parsed
  rw [← Layout.wire, frontSize] at host
  rw [← wire] at record handshake parsed host
  rw [fromUtf8_utf8] at parsed
  refine ⟨⟨by rw [wire]; exact Layout.read_type, by rw [record, length]; omega⟩,
    ⟨by rw [wire]; exact Layout.read_kind, by rw [handshake, length]⟩, ?_,
    ⟨by rw [wire]; exact Layout.read_sid randomSize, ?_⟩,
    ⟨ciphers, _, ?_, ⟨count, even⟩, by omega, by omega, distinct, fun e inside =>
      ⟨(good e inside).1, inner e inside, (good e inside).2⟩⟩, ⟨_, parsed, host⟩⟩
  · rw [wire, Layout.wire_random, List.drop_left' (by simp [layout]), List.take_left' randomSize]
  · rw [wire, Layout.wire_session, List.drop_left' (by simp [layout, randomSize]),
      List.take_left' sessionSize]
  · have head : [0x16, 0x03, 0x01] ++ (toBe 2 (4 + bodyLen ciphers exts) ++ (0x01 :: (toBe 3 (bodyLen
        ciphers exts) ++ ([0x03, 0x03] ++ (clientRandom ++ (32 :: (sessionId ++ (vector 2 ciphers ++
          (vector 1 [0] ++ vector 2 exts))))))))) =
        ([0x16, 0x03, 0x01] ++ (toBe 2 (4 + bodyLen ciphers exts) ++ (0x01 :: (toBe 3 (bodyLen ciphers
          exts) ++ ([0x03, 0x03] ++ (clientRandom ++ (32 :: sessionId))))))) ++ (vector 2 ciphers ++
            (vector 1 [0] ++ vector 2 exts)) := by
      simp
    rw [split, head, List.drop_left' (by simp [randomSize, sessionSize])]

end Assembling

section Extensions

theorem numbers_length (ns : List Nat) : (numbers ns).length = ns.length * 2 := by
  induction ns with
  | nil => rfl
  | cons n ns ih =>
      rw [numbers, List.flatMap_cons, List.length_append, toBe_length, ← numbers, ih, List.length_cons]
      omega

variable {type width size count : Nat} {data : Bytes}

theorem isExtension_fixed (small : type < 256 ^ 2) (shape : shapeOf type = .fixed data.length) :
    IsExtension (ext type data) type :=
  ⟨small, data, rfl, by rw [shape]; rfl⟩

theorem isExtension_list (small : type < 256 ^ 2)
    (shape : shapeOf type = .vector width (.many (.fixed size))) (whole : data.length = count * size)
    (fits : data.length < 256 ^ width) : IsExtension (ext type (vector width data)) type :=
  ⟨small, _, rfl, by rw [shape]; exact Shape.holds_vector fits (Shape.holds_fixed whole)⟩

theorem isExtension_numbers (small : type < 256 ^ 2) {ns : List Nat}
    (shape : shapeOf type = .vector width (.many (.fixed 2))) (fits : ns.length * 2 < 256 ^ width) :
    IsExtension (ext type (vector width (numbers ns))) type :=
  isExtension_list small shape (numbers_length ns) (by rwa [numbers_length])

theorem grease_extension {value : Nat} (drawn : value ∈ greaseValues) (data : Bytes) :
    IsExtension (ext value data) value := by
  have free : ∀ value ∈ greaseValues, value < 256 ^ 2 ∧ shapeOf value = .any := by decide
  obtain ⟨small, shape⟩ := free value drawn
  exact ⟨small, data, rfl, by rw [shape]; trivial⟩

theorem sni_extension {sniBytes : Bytes} (fits : sniBytes.length + 3 < 256 ^ 2) :
    IsExtension (sniExt sniBytes) 0x0000 := by
  refine ⟨by decide, _, rfl, ?_⟩
  have size : (0 :: vector 2 sniBytes).length < 256 ^ 2 := by
    rw [List.length_cons, vector_length]
    omega
  exact Shape.holds_vector size (Shape.holds_one (@Shape.holds_both _ _ [0] _ rfl
    (Shape.holds_vector (by omega) trivial)))

theorem supportedVersionsExt_extension (greaseVal : Nat) :
    IsExtension (supportedVersionsExt greaseVal) 0x002b :=
  @isExtension_numbers _ 1 (by decide) [greaseVal, 0x0304, 0x0303] rfl (by simp)

theorem supportedGroupsExt_extension (greaseVal : Nat) :
    IsExtension (supportedGroupsExt greaseVal) 0x000a :=
  isExtension_numbers (by decide) rfl (by simp [chromiumGroups])

theorem mlkem768ValidEncapKey_length (draws : Mlkem768Draws) :
    (mlkem768ValidEncapKey draws).length = 1184 := by
  have packedAll : ∀ pairs : List (Nat × Nat),
      (pairs.flatMap fun pair => packed pair.1 pair.2).length = pairs.length * 3 := by
    intro pairs
    induction pairs with
    | nil => rfl
    | cons pair pairs ih =>
        rw [List.flatMap_cons, List.length_append, ih, List.length_cons]
        change 3 + _ = _
        omega
  rw [mlkem768ValidEncapKey, List.length_append, packedAll, draws.count, draws.rho.2]

def Entry : Shape := .both (.fixed 2) (.vector 2 .any)

theorem entry_holds (group : Nat) {key : Bytes} (fits : key.length < 256 ^ 2) :
    Entry.Holds (item group key) :=
  Shape.holds_both (toBe_length 2 group) (Shape.holds_vector fits trivial)

theorem keyShare_extension {list : Bytes} (keys : (Shape.many Entry).Holds list)
    (fits : list.length < 256 ^ 2) : IsExtension (ext 0x0033 (vector 2 list)) 0x0033 :=
  ⟨by decide, _, rfl, Shape.holds_vector fits keys⟩

theorem keyShareExt_extension {greaseVal : Nat} (ek : Mlkem768Draws) (xHybrid x25519 : Filled 32) :
    IsExtension (keyShareExt greaseVal ek xHybrid x25519) 0x0033 := by
  have hybrid : (mlkem768ValidEncapKey ek ++ xHybrid.1).length = hybridKeyshareLen := by
    rw [List.length_append, mlkem768ValidEncapKey_length, xHybrid.2]
    rfl
  have list : numbers [greaseVal, 1] ++ (0x00 :: (numbers [0x11EC, hybridKeyshareLen] ++
      (mlkem768ValidEncapKey ek ++ (xHybrid.1 ++ (numbers [0x001D, 32] ++ x25519.1))))) =
      item greaseVal [0x00] ++ (item 0x11EC (mlkem768ValidEncapKey ek ++ xHybrid.1) ++
        item 0x001D x25519.1) := by
    rw [item, item, item, vector, vector, vector, hybrid, x25519.2]
    simp [numbers]
  rw [keyShareExt, list]
  refine keyShare_extension (Shape.holds_cons (entry_holds _ (by simp)) (Shape.holds_cons
    (entry_holds _ ?_) (Shape.holds_one (entry_holds _ ?_)))) ?_
  · rw [hybrid]
    decide
  · rw [x25519.2]
    decide
  · rw [List.length_append, List.length_append, item_length, item_length, item_length, hybrid, x25519.2]
    simp [hybridKeyshareLen]

theorem echExt_extension {payloadLen aead : Nat} (draws : EchDraws payloadLen)
    (fits : payloadLen < 256 ^ 2) : IsExtension (echExt aead draws) 0xfe0d := by
  have parts : 0x00 :: (numbers [0x0001, aead] ++ (draws.configId :: (toBe 2 32 ++ (draws.enc.1 ++
      (toBe 2 payloadLen ++ draws.payload.1))))) = (0x00 :: (numbers [0x0001, aead] ++
        [draws.configId])) ++ (vector 2 draws.enc.1 ++ vector 2 draws.payload.1) := by
    rw [vector, vector, draws.enc.2, draws.payload.2]
    simp
  refine ⟨by decide, _, rfl, ?_⟩
  rw [parts]
  exact Shape.holds_both (by simp [numbers, Shape.Holds]) (Shape.holds_both
    (Shape.holds_vector (by rw [draws.enc.2]; decide) trivial)
    (Shape.holds_vector (by rwa [draws.payload.2]) trivial))

theorem ffKeyShareExt_extension (ek : Mlkem768Draws) (xh x : Filled 32) (p : Filled 65) :
    IsExtension (ffKeyShareExt ek xh x p) 0x0033 := by
  have hybrid : (mlkem768ValidEncapKey ek ++ xh.1).length = hybridKeyshareLen := by
    rw [List.length_append, mlkem768ValidEncapKey_length, xh.2]
    rfl
  have point : (p.1.set 0 0x04).length = 65 := by rw [List.length_set, p.2]
  have list : numbers [0x11EC, hybridKeyshareLen] ++ (mlkem768ValidEncapKey ek ++ (xh.1 ++
      (numbers [0x001D, 32] ++ (x.1 ++ (numbers [0x0017, 65] ++ p.1.set 0 0x04))))) =
      item 0x11EC (mlkem768ValidEncapKey ek ++ xh.1) ++ (item 0x001D x.1 ++
        item 0x0017 (p.1.set 0 0x04)) := by
    rw [item, item, item, vector, vector, vector, hybrid, x.2, point]
    simp [numbers]
  rw [ffKeyShareExt, list]
  refine keyShare_extension (Shape.holds_cons (entry_holds _ ?_) (Shape.holds_cons
    (entry_holds _ ?_) (Shape.holds_one (entry_holds _ ?_)))) ?_
  · rw [hybrid]
    decide
  · rw [x.2]
    decide
  · rw [point]
    decide
  · rw [List.length_append, List.length_append, item_length, item_length, item_length, hybrid, x.2,
      point]
    decide

theorem okKeyShareExt_extension (grease : Nat) (x : Filled 32) :
    IsExtension (okKeyShareExt grease x) 0x0033 := by
  have list : numbers [grease, 1] ++ (0x00 :: (numbers [0x001D, 32] ++ x.1)) =
      item grease [0x00] ++ item 0x001D x.1 := by
    rw [item, item, vector, vector, x.2]
    simp [numbers]
  rw [okKeyShareExt, list]
  refine keyShare_extension (Shape.holds_cons (entry_holds _ (by simp))
    (Shape.holds_one (entry_holds _ ?_))) ?_
  · rw [x.2]
    decide
  · rw [List.length_append, item_length, item_length, x.2]
    simp

end Extensions

section Constants

theorem renegotiationInfo_extension : IsExtension (ext 0xff01 [0x00]) 0xff01 :=
  ⟨by decide, _, rfl, @Shape.holds_vector [] .any 1 (by decide) trivial⟩

theorem ecPointFormats_extension : IsExtension (ext 0x000b ecPointFormats) 0x000b :=
  @isExtension_list _ 1 1 1 [0x00] (by decide) rfl rfl (by decide)

theorem pskModes_extension : IsExtension (ext 0x002d pskModes) 0x002d :=
  @isExtension_list _ 1 1 1 [0x01] (by decide) rfl rfl (by decide)

theorem certCompress_extension : IsExtension (ext 0x001b certCompress) 0x001b :=
  @isExtension_list _ 1 2 1 [0x00, 0x02] (by decide) rfl rfl (by decide)

theorem statusRequest_extension : IsExtension (ext 0x0005 statusRequest) 0x0005 :=
  ⟨by decide, _, rfl, @Shape.holds_both _ _ [0x01] _ rfl (Shape.holds_both
    (@Shape.holds_vector [] .any 2 (by decide) trivial)
    (@Shape.holds_vector [] .any 2 (by decide) trivial))⟩

theorem alpn_extension : IsExtension (ext 0x0010 alpn) 0x0010 :=
  ⟨by decide, _, rfl, [0x02, 0x68, 0x32, 0x08, 0x68, 0x74, 0x74, 0x70, 0x2f, 0x31, 0x2e, 0x31],
    by decide, by decide, Shape.holds_cons (@Shape.holds_vector [0x68, 0x32] .any 1 (by decide) trivial)
      (Shape.holds_one (@Shape.holds_vector [0x68, 0x74, 0x74, 0x70, 0x2f, 0x31, 0x2e, 0x31] .any 1
        (by decide) trivial))⟩

theorem alps_extension : IsExtension (ext 0x44cd alps) 0x44cd :=
  ⟨by decide, _, rfl, [0x02, 0x68, 0x32], by decide, by decide,
    Shape.holds_one (@Shape.holds_vector [0x68, 0x32] .any 1 (by decide) trivial)⟩

/-- A list of numbers behind its length, as the constants have it. -/
theorem constant_extension {type width count : Nat} {data : Bytes} (small : type < 256 ^ 2)
    (shape : shapeOf type = .vector width (.many (.fixed 2)))
    (counted : data = vector width (data.drop width)) (whole : (data.drop width).length = count * 2)
    (fits : (data.drop width).length < 256 ^ width) : IsExtension (ext type data) type := by
  rw [counted]
  exact isExtension_list small shape whole fits

end Constants

section Builders

theorem Bookends.last_ne (bookends : Bookends) : bookends.last ≠ bookends.first := by
  have found : bookends.draws.find? (fun drawn => drawn ≠ bookends.first) = some bookends.last :=
    (Option.some_get _).symm
  simpa using List.find?_some found

/-- GREASE types around others, and more behind them. -/
theorem bookends_nodup (bookends : Bookends) {types tail : List Nat} (plain : (types ++ tail).Nodup)
    (apart : ∀ value ∈ greaseValues, value ∉ types ++ tail) :
    (bookends.first.1 :: (types ++ bookends.last.1 :: tail)).Nodup := by
  have different : bookends.first.1 ≠ bookends.last.1 := fun same =>
    bookends.last_ne (Subtype.ext same.symm)
  refine List.nodup_cons.mpr ⟨?_, List.nodup_middle.mpr (List.nodup_cons.mpr
    ⟨apart _ bookends.last.2, plain⟩)⟩
  intro member
  rcases List.mem_cons.mp (List.perm_middle.mem_iff.mp member) with same | inside
  · exact different same
  · exact apart _ bookends.first.2 inside

theorem shuffle_perm {α : Type} (picks : Nat → Nat) (i : Nat) (middle : Array α) :
    (shuffle picks i middle).Perm middle := by
  induction i generalizing middle with
  | zero => exact .refl _
  | succ i ih =>
      have swapped : (middle.swapIfInBounds (i + 1) (picks (i + 1))).Perm middle := by
        rw [Array.swapIfInBounds_def]
        split
        · split
          · exact Array.swap_perm _ _
          · exact .refl _
        · exact .refl _
      exact (ih _).trans swapped

theorem name_fits {list : List Bytes} {sessionId clientRandom ciphers sniBytes : Bytes}
    (randomSize : clientRandom.length = 32) (sessionSize : sessionId.length = 32)
    (member : sniExt sniBytes ∈ list)
    (fits : (assemble sessionId clientRandom ciphers list.flatten).length ≤ 5 + 65535) :
    sniBytes.length + 3 < 256 ^ 2 := by
  have inside := (List.sublist_flatten_of_mem member).length_le
  rw [sniExt_eq, item_length, sniData_length] at inside
  rw [assemble_length randomSize sessionSize, bodyLen] at fits
  omega

def chromiumTypes : List Nat :=
  [0x002b, 0xfe0d, 0x000b, 0x0017, 0x000a, 0x002d, 0x0023, 0xff01, 0x0010, 0x0005, 0x0012, 0x0000,
    0x44cd, 0x000d, 0x0033, 0x001b]

theorem chromiumMiddle_extensions (draws : ChromiumDraws) {sniBytes : Bytes}
    (fits : sniBytes.length + 3 < 256 ^ 2) :
    List.Forall₂ IsExtension (chromiumMiddle draws sniBytes).toList chromiumTypes := by
  refine .cons (supportedVersionsExt_extension _) (.cons (echExt_extension _ (by decide))
    (.cons ecPointFormats_extension (.cons (isExtension_fixed (by decide) rfl)
    (.cons (supportedGroupsExt_extension _) (.cons pskModes_extension
    (.cons (isExtension_fixed (by decide) rfl) (.cons renegotiationInfo_extension
    (.cons alpn_extension (.cons statusRequest_extension (.cons (isExtension_fixed (by decide) rfl)
    (.cons (sni_extension fits) (.cons alps_extension (.cons ?_ (.cons (keyShareExt_extension _ _ _)
    (.cons certCompress_extension .nil)))))))))))))))
  exact @constant_extension _ 2 11 _ (by decide) rfl (by decide) (by decide) (by decide)

theorem numbers_count (n : Nat) (ns : List Nat) :
    ∃ count, (numbers (n :: ns)).length = 2 * count :=
  ⟨_, (numbers_length _).trans (Nat.mul_comm _ _)⟩

theorem buildChromium_wellFormed (draws : ChromiumDraws) {serverName : String}
    {sessionId clientRandom : Bytes} (randomSize : clientRandom.length = 32)
    (sessionSize : sessionId.length = 32)
    (fits : (buildChromium draws (utf8 serverName) sessionId clientRandom).length ≤ 5 + 65535) :
    WellFormed (buildChromium draws (utf8 serverName) sessionId clientRandom) serverName sessionId
      clientRandom := by
  let middle := chromiumMiddle draws (utf8 serverName)
  have shuffled := (shuffle_perm draws.picks (middle.size - 1) middle).toList
  let list := ext draws.bookends.first [] ::
    ((shuffle draws.picks (middle.size - 1) middle).toList ++ [ext draws.bookends.last [0x00]])
  have built : buildChromium draws (utf8 serverName) sessionId clientRandom =
      assemble sessionId clientRandom (numbers (draws.cipherGrease :: chromiumCiphers)) list.flatten := by
    simp [buildChromium, list, middle]
  have name : sniExt (utf8 serverName) ∈ list := by
    have inside : sniExt (utf8 serverName) ∈ middle.toList := by
      simp [middle, chromiumMiddle]
    exact List.mem_cons_of_mem _ (List.mem_append_left _ (shuffled.mem_iff.mpr inside))
  rw [built] at fits ⊢
  obtain ⟨types, typed, permuted⟩ := List.perm_comp_forall₂ shuffled (chromiumMiddle_extensions draws
    (name_fits randomSize sessionSize name fits))
  have all : List.Forall₂ IsExtension list
      (draws.bookends.first.1 :: (types ++ [draws.bookends.last.1])) :=
    .cons (grease_extension draws.bookends.first.2 _) (List.rel_append typed
      (.cons (grease_extension draws.bookends.last.2 _) .nil))
  have distinct : (draws.bookends.first.1 :: (types ++ [draws.bookends.last.1])).Nodup := by
    apply bookends_nodup
    · rw [List.append_nil]
      exact permuted.nodup_iff.mpr (by decide)
    · intro value drawn
      rw [List.append_nil, permuted.mem_iff]
      exact (by decide : ∀ value ∈ greaseValues, value ∉ chromiumTypes) value drawn
  obtain ⟨count, even⟩ := numbers_count draws.cipherGrease chromiumCiphers
  exact assemble_wellFormed all distinct name randomSize sessionSize even fits

def firefoxTypes : List Nat :=
  [0x0000, 0x0017, 0xff01, 0x000a, 0x000b, 0x0023, 0x0010, 0x0005, 0x0022, 0x0012, 0x0033, 0x002b,
    0x000d, 0x002d, 0x001c, 0x001b, 0xfe0d]

theorem buildFirefox_wellFormed (draws : FirefoxDraws) {serverName : String}
    {sessionId clientRandom : Bytes} (randomSize : clientRandom.length = 32)
    (sessionSize : sessionId.length = 32)
    (fits : (buildFirefox draws (utf8 serverName) sessionId clientRandom).length ≤ 5 + 65535) :
    WellFormed (buildFirefox draws (utf8 serverName) sessionId clientRandom) serverName sessionId
      clientRandom := by
  unfold buildFirefox at fits ⊢
  dsimp only at fits ⊢
  have nameFits := name_fits randomSize sessionSize List.mem_cons_self fits
  refine @assemble_wellFormed _ _ _ _ firefoxTypes _ firefoxCiphers.length ?_ (by decide)
    List.mem_cons_self randomSize sessionSize ((numbers_length _).trans (Nat.mul_comm _ _)) fits
  refine .cons (sni_extension nameFits) (.cons (isExtension_fixed (by decide) rfl)
    (.cons renegotiationInfo_extension (.cons (isExtension_numbers (by decide) rfl (by decide))
    (.cons ecPointFormats_extension (.cons (isExtension_fixed (by decide) rfl)
    (.cons alpn_extension (.cons statusRequest_extension (.cons ?credentials
    (.cons (isExtension_fixed (by decide) rfl) (.cons (ffKeyShareExt_extension _ _ _ _)
    (.cons ?versions (.cons ?algorithms (.cons pskModes_extension
    (.cons (isExtension_fixed (by decide) rfl) (.cons ?compress
    (.cons (echExt_extension _ (by decide)) .nil))))))))))))))))
  case credentials => exact @constant_extension _ 2 4 _ (by decide) rfl (by decide) (by decide) (by decide)
  case versions => exact @constant_extension _ 1 2 _ (by decide) rfl (by decide) (by decide) (by decide)
  case algorithms => exact @constant_extension _ 2 11 _ (by decide) rfl (by decide) (by decide) (by decide)
  case compress => exact @constant_extension _ 1 3 _ (by decide) rfl (by decide) (by decide) (by decide)

def okhttpTypes : List Nat :=
  [0x0000, 0x0017, 0xff01, 0x000a, 0x000b, 0x0023, 0x0010, 0x0005, 0x000d, 0x0012, 0x0033, 0x002d,
    0x002b, 0x001b]

theorem okhttpExts_extensions (draws : OkhttpDraws) {sniBytes : Bytes}
    (fits : sniBytes.length + 3 < 256 ^ 2) {more : List Bytes} {tail : List Nat}
    (behind : List.Forall₂ IsExtension more tail) :
    List.Forall₂ IsExtension (okhttpExts draws sniBytes ++ more)
      (draws.bookends.first.1 :: (okhttpTypes ++ draws.bookends.last.1 :: tail)) := by
  refine .cons (grease_extension draws.bookends.first.2 _) (.cons (sni_extension fits)
    (.cons (isExtension_fixed (by decide) rfl) (.cons renegotiationInfo_extension
    (.cons (isExtension_numbers (by decide) rfl (by simp)) (.cons ecPointFormats_extension
    (.cons (isExtension_fixed (by decide) rfl) (.cons alpn_extension (.cons statusRequest_extension
    (.cons ?algorithms (.cons (isExtension_fixed (by decide) rfl)
    (.cons (okKeyShareExt_extension _ _) (.cons pskModes_extension (.cons ?versions
    (.cons certCompress_extension (.cons (grease_extension draws.bookends.last.2 _)
    behind)))))))))))))))
  case algorithms => exact @constant_extension _ 2 8 _ (by decide) rfl (by decide) (by decide) (by decide)
  case versions =>
    exact @isExtension_numbers _ 1 (by decide) (draws.gSv.1 :: [0x0304, 0x0303, 0x0302, 0x0301]) rfl
      (by simp)

theorem padding_extension (padLen : Nat) :
    IsExtension (ext 0x0015 (List.replicate padLen 0)) 0x0015 :=
  ⟨by decide, _, rfl, Shape.holds_fixed (by rw [List.length_replicate, Nat.mul_one])⟩

theorem buildOkhttp_wellFormed (draws : OkhttpDraws) {serverName : String}
    {sessionId clientRandom : Bytes} (randomSize : clientRandom.length = 32)
    (sessionSize : sessionId.length = 32)
    (fits : (buildOkhttp draws (utf8 serverName) sessionId clientRandom).length ≤ 5 + 65535) :
    WellFormed (buildOkhttp draws (utf8 serverName) sessionId clientRandom) serverName sessionId
      clientRandom := by
  have name : ∀ more, sniExt (utf8 serverName) ∈ okhttpExts draws (utf8 serverName) ++ more := by
    intro more
    simp [okhttpExts]
  obtain ⟨count, even⟩ := numbers_count draws.cipherGrease chromiumCiphers
  unfold buildOkhttp at fits ⊢
  dsimp only at fits ⊢
  split_ifs at fits ⊢ with short
  · set pad := ext 0x0015 (List.replicate (okhttpPadTarget - ((assemble sessionId clientRandom (numbers
      (draws.cipherGrease :: chromiumCiphers)) (okhttpExts draws (utf8 serverName)).flatten).length - 5) -
        4) 0)
    have flat : (okhttpExts draws (utf8 serverName)).flatten ++ pad =
        (okhttpExts draws (utf8 serverName) ++ [pad]).flatten := by
      simp
    rw [flat] at fits ⊢
    exact assemble_wellFormed (okhttpExts_extensions draws (name_fits randomSize sessionSize (name _) fits)
      (.cons (padding_extension _) .nil)) (bookends_nodup _ (by decide) (by decide)) (name _) randomSize
        sessionSize even fits
  · rw [← List.append_nil (okhttpExts draws (utf8 serverName))] at fits ⊢
    exact assemble_wellFormed (okhttpExts_extensions draws (name_fits randomSize sessionSize (name _) fits)
      .nil) (bookends_nodup _ (by decide) (by decide)) (name _) randomSize sessionSize even fits

/-- Whatever is drawn, each profile's hello is well formed under a name that fits. -/
theorem profile_wellFormed (profile : Profile) {serverName : String} {sessionId clientRandom : Bytes}
    (randomSize : clientRandom.length = 32) (sessionSize : sessionId.length = 32)
    (fits : (buildWithProfile profile serverName sessionId clientRandom).length ≤ 5 + 65535) :
    WellFormed (buildWithProfile profile serverName sessionId clientRandom) serverName sessionId
      clientRandom := by
  cases profile with
  | chromium draws => exact buildChromium_wellFormed draws randomSize sessionSize fits
  | firefox draws => exact buildFirefox_wellFormed draws randomSize sessionSize fits
  | okHttp draws => exact buildOkhttp_wellFormed draws randomSize sessionSize fits

theorem sevens_length : (List.replicate 32 (7 : UInt8)).length = 32 := rfl

def redrawn : OkhttpDraws where
  cipherGrease := ⟨0x3A3A, by decide⟩
  bookends := ⟨⟨0x0A0A, by decide⟩, [⟨0x0A0A, by decide⟩, ⟨0xFAFA, by decide⟩], by decide⟩
  gGroups := ⟨0x1A1A, by decide⟩
  gKs := ⟨0x1A1A, by decide⟩
  gSv := ⟨0x2A2A, by decide⟩
  x := ⟨List.replicate 32 7, sevens_length⟩

theorem profile_redrawn : WellFormed (buildWithProfile (.okHttp redrawn) "a.io" (List.replicate 32 1)
    (List.replicate 32 2)) "a.io" (List.replicate 32 1) (List.replicate 32 2) :=
  profile_wellFormed (.okHttp redrawn) rfl rfl (by decide +kernel)

end Builders

end Consistency

end Mirage.Tls
