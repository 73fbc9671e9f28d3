import Mirage.Lib.Framing
import Mirage.Lib.NumberText
import Mirage.Router.Rule

/-!
UDP flows over one tunnel, proxy/udp_mux.rs: the frames both ends send, the
parser of each end and the read loop around it. The server's loop, in
proxy/mirage_server/udp_relay.rs, keeps its leftover the same way.
-/

namespace Mirage.Udp
open Word Text NumberText Framing
open Router (IpAddr)

section Frames

structure SocketAddr where
  ip : IpAddr
  port : UInt16
  deriving DecidableEq

/-- `IpAddr::octets`. -/
def octets : IpAddr → Bytes
  | .v4 addr => toBe 4 addr.toNat
  | .v6 addr => toBe 16 addr.toNat

def wrapFrame (sid : UInt32) (atypAndAddr : Bytes) (port : UInt16) (payload : Bytes) :
    Option Bytes :=
  let bodyLen := 4 + atypAndAddr.length + 2 + payload.length
  if 65535 < bodyLen then none
  else some (toBe 2 bodyLen ++ toBe 4 sid.toNat ++ atypAndAddr ++ toBe 2 port.toNat ++ payload)

def frameMuxDomain (sid : UInt32) (domain : String) (port : UInt16) (payload : Bytes) :
    Option Bytes :=
  if 255 < (utf8 domain).length then none
  else
    wrapFrame sid ([0x03, UInt8.ofNat (utf8 domain).length] ++ utf8 domain) port payload

def frameMuxIpv4 (sid : UInt32) (ip : BitVec 32) (port : UInt16) (payload : Bytes) :
    Option Bytes :=
  wrapFrame sid (0x01 :: octets (.v4 ip)) port payload

def frameMuxAddr (sid : UInt32) (addr : SocketAddr) (payload : Bytes) : Option Bytes :=
  match addr.ip with
  | .v4 ip => wrapFrame sid (0x01 :: octets (.v4 ip)) addr.port payload
  | .v6 ip => wrapFrame sid (0x04 :: octets (.v6 ip)) addr.port payload

end Frames

section Parsers

inductive MuxFrameDecode where
  | incomplete
  | malformed (consumed : Nat)
  | frame (sid : UInt32) (payload : Bytes) (consumed : Nat)
  deriving DecidableEq

/-- The session and the payload of a frame behind its length field. -/
def parseMuxBody (frame : Bytes) : Option (UInt32 × Bytes) :=
  if frame.length < 4 then none
  else
    let sid := UInt32.ofNat (ofBe (frame.take 4))
    let inner := frame.drop 4
    let addrEnd : Option Nat :=
      match inner with
      | [] => none
      | atyp :: rest =>
          if atyp = 1 then some 5
          else if atyp = 4 then some 17
          else if atyp = 3 then rest.head?.map fun dl => 2 + dl.toNat
          else none
    addrEnd.bind fun off =>
      if inner.length < off + 2 then none else some (sid, inner.drop (off + 2))

def parseMuxFrame (buf : Bytes) : MuxFrameDecode :=
  if buf.length < 2 then .incomplete
  else
    let total := 2 + ofBe (buf.take 2)
    if buf.length < total then .incomplete
    else
      match parseMuxBody ((buf.take total).drop 2) with
      | none => .malformed total
      | some (sid, payload) => .frame sid payload total

structure UplinkFrame where
  sid : UInt32
  target : String
  port : UInt16
  payload : Bytes
  deriving DecidableEq

/-- The target of an uplink frame and where its port stands. -/
def parseTarget (inner : Bytes) : Option (String × Nat) :=
  match inner with
  | [] => none
  | atyp :: rest =>
      if atyp = 1 then
        if inner.length < 5 then none
        else some (ipv4Text (BitVec.ofNat 32 (ofBe (rest.take 4))), 5)
      else if atyp = 3 then
        match rest with
        | [] => none
        | dl :: name =>
            if inner.length < 2 + dl.toNat then none
            else some (fromUtf8Lossy (name.take dl.toNat), 2 + dl.toNat)
      else if atyp = 4 then
        if inner.length < 17 then none
        else some (ipv6Text (BitVec.ofNat 128 (ofBe (rest.take 16))), 17)
      else none

def parseUplinkBody (frame : Bytes) : Option UplinkFrame :=
  if frame.length < 4 then none
  else
    let sid := UInt32.ofNat (ofBe (frame.take 4))
    let inner := frame.drop 4
    (parseTarget inner).bind fun (target, off) =>
      if inner.length < off + 2 then none
      else
        let port := UInt16.ofNat (ofBe ((inner.drop off).take 2))
        some ⟨sid, target, port, inner.drop (off + 2)⟩

/-- The bytes taken and the frame, if it was well formed. -/
def parseMuxUplink (buf : Bytes) : Option (Nat × Option UplinkFrame) :=
  if buf.length < 2 then none
  else
    let total := 2 + ofBe (buf.take 2)
    if buf.length < total then none
    else some (total, parseUplinkBody ((buf.take total).drop 2))

end Parsers

section ReadLoops

/-- What a verdict takes off the buffer, and the datagram in it. -/
def MuxFrameDecode.taken : MuxFrameDecode → Option (Nat × Option (UInt32 × Bytes))
  | .incomplete => none
  | .malformed consumed => some (consumed, none)
  | .frame sid payload consumed => some (consumed, some (sid, payload))

theorem parseMuxFrame_taken (buf : Bytes) :
    (parseMuxFrame buf).taken = lengthPrefixed parseMuxBody buf := by
  simp only [parseMuxFrame, lengthPrefixed]
  split
  · rfl
  · split
    · rfl
    · cases parseMuxBody ((buf.take (2 + ofBe (buf.take 2))).drop 2) <;> rfl

def downlinkParser : FrameParser UInt8 (Option (UInt32 × Bytes)) where
  parse buf := (parseMuxFrame buf).taken
  consumes buf used frame := by
    rw [parseMuxFrame_taken]
    exact (lengthPrefixedParser parseMuxBody).consumes buf used frame
  stable buf more verdict := by
    rw [parseMuxFrame_taken, parseMuxFrame_taken]
    exact (lengthPrefixedParser parseMuxBody).stable buf more verdict

def uplinkParser : FrameParser UInt8 (Option UplinkFrame) where
  parse := parseMuxUplink
  consumes := (lengthPrefixedParser parseUplinkBody).consumes
  stable := (lengthPrefixedParser parseUplinkBody).stable

/-- Both loops give up on a leftover above this. -/
def bufferLimit : Nat := 65536 * 2

/-- The client's read loop over the chunks its tunnel delivers. -/
def demuxDownlink (chunks : List Bytes) : Receiver UInt8 (Option (UInt32 × Bytes)) :=
  receive downlinkParser bufferLimit chunks

/-- The server's. -/
def demuxUplink (chunks : List Bytes) : Receiver UInt8 (Option UplinkFrame) :=
  receive uplinkParser bufferLimit chunks

theorem demuxDownlink_eq (chunks : List Bytes) :
    demuxDownlink chunks =
      ⟨(drain downlinkParser chunks.flatten).2, (drain downlinkParser chunks.flatten).1, false⟩ := by
  apply receive_eq_drain
  intro buffer waiting
  have short := lengthPrefixed_waiting ((parseMuxFrame_taken buffer).symm.trans waiting)
  simp only [bufferLimit]
  omega

theorem demuxUplink_eq (chunks : List Bytes) :
    demuxUplink chunks =
      ⟨(drain uplinkParser chunks.flatten).2, (drain uplinkParser chunks.flatten).1, false⟩ := by
  apply receive_eq_drain
  intro buffer waiting
  have waits : lengthPrefixed parseUplinkBody buffer = none := waiting
  have short := lengthPrefixed_waiting waits
  simp only [bufferLimit]
  omega

end ReadLoops

section RoundTrip

/-- One call of the three framing functions. -/
inductive FrameMux where
  | domain (sid : UInt32) (name : String) (port : UInt16) (payload : Bytes)
  | ipv4 (sid : UInt32) (ip : BitVec 32) (port : UInt16) (payload : Bytes)
  | addr (sid : UInt32) (source : SocketAddr) (payload : Bytes)

def FrameMux.frame : FrameMux → Option Bytes
  | .domain sid name port payload => frameMuxDomain sid name port payload
  | .ipv4 sid ip port payload => frameMuxIpv4 sid ip port payload
  | .addr sid source payload => frameMuxAddr sid source payload

/-- `IpAddr::to_string`. -/
def ipText : IpAddr → String
  | .v4 ip => ipv4Text ip
  | .v6 ip => ipv6Text ip

/-- The session, address and payload a call was made with. -/
def FrameMux.sent : FrameMux → UplinkFrame
  | .domain sid name port payload => ⟨sid, name, port, payload⟩
  | .ipv4 sid ip port payload => ⟨sid, ipv4Text ip, port, payload⟩
  | .addr sid source payload => ⟨sid, ipText source.ip, source.port, payload⟩

/-- An address as it stands in a frame, with the target it names. -/
inductive AddressBytes : Bytes → String → Prop
  | domain (name : String) (short : (utf8 name).length ≤ 255) :
      AddressBytes ([0x03, UInt8.ofNat (utf8 name).length] ++ utf8 name) name
  | ipv4 (ip : BitVec 32) : AddressBytes (0x01 :: octets (.v4 ip)) (ipv4Text ip)
  | ipv6 (ip : BitVec 128) : AddressBytes (0x04 :: octets (.v6 ip)) (ipv6Text ip)

theorem frame_cases {call : FrameMux} {bytes : Bytes} (built : call.frame = some bytes) :
    ∃ address, AddressBytes address call.sent.target ∧
      wrapFrame call.sent.sid address call.sent.port call.sent.payload = some bytes := by
  cases call with
  | domain sid name port payload =>
      simp only [FrameMux.frame, frameMuxDomain] at built
      split at built
      · cases built
      · exact ⟨_, .domain name (by omega), built⟩
  | ipv4 sid ip port payload => exact ⟨_, .ipv4 ip, built⟩
  | addr sid source payload =>
      obtain ⟨ip, port⟩ := source
      cases ip with
      | v4 ip => exact ⟨_, .ipv4 ip, built⟩
      | v6 ip => exact ⟨_, .ipv6 ip, built⟩

theorem wrapFrame_eq_some {sid : UInt32} {address payload bytes : Bytes} {port : UInt16}
    (built : wrapFrame sid address port payload = some bytes) :
    ∃ inside, inside = toBe 4 sid.toNat ++ (address ++ (toBe 2 port.toNat ++ payload)) ∧
      inside.length ≤ 65535 ∧ bytes = toBe 2 inside.length ++ inside := by
  simp only [wrapFrame] at built
  split at built
  · cases built
  · refine ⟨_, rfl, ?_, ?_⟩
    · simp only [List.length_append, toBe_length]
      omega
    · cases built
      have length : 4 + address.length + 2 + payload.length =
          (toBe 4 sid.toNat ++ (address ++ (toBe 2 port.toNat ++ payload))).length := by
        simp only [List.length_append, toBe_length]
        omega
      rw [← length]
      simp only [List.append_assoc]

theorem parseTarget_address {address : Bytes} {target : String}
    (names : AddressBytes address target) (rest : Bytes) :
    parseTarget (address ++ rest) = some (target, address.length) := by
  cases names with
  | domain _ short =>
      have size : (UInt8.ofNat (utf8 target).length).toNat = (utf8 target).length := by
        rw [UInt8.toNat_ofNat']
        omega
      simp [parseTarget, size]
      omega
  | ipv4 ip =>
      have value : ofBe (toBe 4 ip.toNat) = ip.toNat := ofBe_toBe ip.isLt
      simp [parseTarget, octets, value]
  | ipv6 ip =>
      have value : ofBe (toBe 16 ip.toNat) = ip.toNat := ofBe_toBe ip.isLt
      simp [parseTarget, octets, value]

/-- Both parsers look for the address at the same place. -/
theorem parseMuxBody_of_target {frame : Bytes} {target : String} {off : Nat}
    (named : parseTarget (frame.drop 4) = some (target, off)) :
    parseMuxBody frame = (parseUplinkBody frame).map fun read => (read.sid, read.payload) := by
  have after : ∀ sid : UInt32,
      ((if (frame.drop 4).length < off + 2 then none
        else some (⟨sid, target, UInt16.ofNat (ofBe (((frame.drop 4).drop off).take 2)),
          (frame.drop 4).drop (off + 2)⟩ : UplinkFrame)).map fun read => (read.sid, read.payload)) =
        if (frame.drop 4).length < off + 2 then none
        else some (sid, (frame.drop 4).drop (off + 2)) := by
    intro sid
    split <;> rfl
  simp only [parseMuxBody, parseUplinkBody, named, Option.bind_some]
  split
  · rfl
  · rw [after]
    cases inner : frame.drop 4 with
    | nil =>
        rw [inner] at named
        cases named
    | cons atyp rest =>
        rw [inner] at named
        by_cases v4 : atyp = 1
        · simp only [parseTarget, v4, ↓reduceIte] at named ⊢
          split at named
          · cases named
          · obtain ⟨rfl, rfl⟩ := Prod.mk.inj (Option.some.inj named)
            rfl
        · by_cases name : atyp = 3
          · cases rest with
            | nil => simp [parseTarget, name] at named
            | cons dl label =>
                simp only [parseTarget, name] at named ⊢
                simp only [show (3 : UInt8) ≠ 1 by decide, show (3 : UInt8) ≠ 4 by decide,
                  ↓reduceIte, List.head?_cons, Option.map_some, Option.bind_some] at named ⊢
                split at named
                · cases named
                · obtain ⟨rfl, rfl⟩ := Prod.mk.inj (Option.some.inj named)
                  rfl
          · by_cases v6 : atyp = 4
            · simp only [parseTarget, v6] at named ⊢
              simp only [show (4 : UInt8) ≠ 1 by decide, show (4 : UInt8) ≠ 3 by decide,
                ↓reduceIte, Option.bind_some] at named ⊢
              split at named
              · cases named
              · obtain ⟨rfl, rfl⟩ := Prod.mk.inj (Option.some.inj named)
                rfl
            · simp [parseTarget, v4, name, v6] at named

theorem parseUplinkBody_sent {sid : UInt32} {address payload : Bytes} {port : UInt16}
    {target : String} (names : AddressBytes address target) :
    parseUplinkBody (toBe 4 sid.toNat ++ (address ++ (toBe 2 port.toNat ++ payload))) =
      some ⟨sid, target, port, payload⟩ := by
  have session : ofBe (toBe 4 sid.toNat) = sid.toNat := ofBe_toBe sid.toNat_lt
  have service : ofBe (toBe 2 port.toNat) = port.toNat := ofBe_toBe port.toNat_lt
  have head : (toBe 4 sid.toNat ++ (address ++ (toBe 2 port.toNat ++ payload))).take 4 =
      toBe 4 sid.toNat := List.take_left' (by simp)
  have inner : (toBe 4 sid.toNat ++ (address ++ (toBe 2 port.toNat ++ payload))).drop 4 =
      address ++ (toBe 2 port.toNat ++ payload) := List.drop_left' (by simp)
  have behind : (address ++ (toBe 2 port.toNat ++ payload)).drop (address.length + 2) =
      payload := by
    rw [List.drop_append, List.drop_of_length_le (by omega)]
    exact List.drop_left' (by simp)
  have long : ¬(toBe 4 sid.toNat ++ (address ++ (toBe 2 port.toNat ++ payload))).length < 4 := by
    simp only [List.length_append, toBe_length]
    omega
  have room : ¬(address ++ (toBe 2 port.toNat ++ payload)).length < address.length + 2 := by
    simp only [List.length_append, toBe_length]
    omega
  simp only [parseUplinkBody, head, inner, parseTarget_address names, Option.bind_some, behind,
    List.drop_left, List.take_left' (toBe_length 2 port.toNat), session, service]
  rw [if_neg long, if_neg room, UInt32.ofNat_toNat, UInt16.ofNat_toNat]

theorem frame_encodes {call : FrameMux} {bytes : Bytes} (built : call.frame = some bytes) :
    Encodes uplinkParser bytes (some call.sent) ∧
      Encodes downlinkParser bytes (some (call.sent.sid, call.sent.payload)) := by
  obtain ⟨address, names, wrapped⟩ := frame_cases built
  obtain ⟨inside, rfl, fits, rfl⟩ := wrapFrame_eq_some wrapped
  have up : parseUplinkBody (toBe 4 call.sent.sid.toNat ++
      (address ++ (toBe 2 call.sent.port.toNat ++ call.sent.payload))) = some call.sent :=
    parseUplinkBody_sent names
  constructor
  · have whole := lengthPrefixed_frame parseUplinkBody fits
    rwa [up] at whole
  · have whole := lengthPrefixed_frame parseMuxBody fits
    have target : parseTarget ((toBe 4 call.sent.sid.toNat ++
        (address ++ (toBe 2 call.sent.port.toNat ++ call.sent.payload))).drop 4) =
          some (call.sent.target, address.length) := by
      rw [List.drop_left' (toBe_length 4 _)]
      exact parseTarget_address names _
    rw [parseMuxBody_of_target target, up] at whole
    exact (parseMuxFrame_taken _).trans whole

theorem parseMuxFrame_consumes {buf : Bytes} {used : Nat} (datagram : Option (UInt32 × Bytes))
    (taken : (parseMuxFrame buf).taken = some (used, datagram)) : 2 ≤ used ∧ used ≤ buf.length := by
  rw [parseMuxFrame_taken] at taken
  obtain ⟨two, within, -⟩ := lengthPrefixed_eq_some taken
  exact ⟨two, within⟩

theorem mux_survives_chunking {calls : List FrameMux} {frames chunks : List Bytes}
    (built : List.Forall₂ (fun call frame => call.frame = some frame) calls frames)
    (cut : chunks.flatten = frames.flatten) :
    demuxUplink chunks = ⟨[], calls.map fun call => some call.sent, false⟩ ∧
      demuxDownlink chunks =
        ⟨[], calls.map fun call => some (call.sent.sid, call.sent.payload), false⟩ ∧
      (∀ input, (demuxUplink input).closed = false ∧ (demuxDownlink input).closed = false) ∧
      ∀ buf used, ((∃ read, parseMuxUplink buf = some (used, read)) ∨
          parseMuxFrame buf = .malformed used ∨
          ∃ sid payload, parseMuxFrame buf = .frame sid payload used) →
        2 ≤ used ∧ used ≤ buf.length := by
  have up : List.Forall₂ (Encodes uplinkParser) frames (calls.map fun call => some call.sent) := by
    rw [List.forall₂_map_right_iff]
    exact (built.imp fun _ _ whole => (frame_encodes whole).1).flip
  have down : List.Forall₂ (Encodes downlinkParser) frames
      (calls.map fun call => some (call.sent.sid, call.sent.payload)) := by
    rw [List.forall₂_map_right_iff]
    exact (built.imp fun _ _ whole => (frame_encodes whole).2).flip
  refine ⟨?_, ?_, ?_, ?_⟩
  · rw [demuxUplink_eq, cut, drain_frames uplinkParser up]
  · rw [demuxDownlink_eq, cut, drain_frames downlinkParser down]
  · intro input
    rw [demuxUplink_eq, demuxDownlink_eq]
    exact ⟨rfl, rfl⟩
  · rintro buf used (⟨read, taken⟩ | bad | ⟨sid, payload, good⟩)
    · have prefixed : lengthPrefixed parseUplinkBody buf = some (used, read) := taken
      obtain ⟨two, within, -⟩ := lengthPrefixed_eq_some prefixed
      exact ⟨two, within⟩
    · exact parseMuxFrame_consumes none (by rw [bad]; rfl)
    · exact parseMuxFrame_consumes (some (sid, payload)) (by rw [good]; rfl)

theorem mux_survives_chunking_mixed :
    demuxUplink [[0, 11, 0], [0, 0, 7, 3, 2, 97, 46, 0, 53, 9, 0, 12, 0, 0, 0, 8, 1],
        [1, 2, 3, 4, 1, 187, 5]] =
      ⟨[], [some ⟨7, "a.", 53, [9]⟩, some ⟨8, "1.2.3.4", 443, [5]⟩], false⟩ :=
  (@mux_survives_chunking [.domain 7 "a." 53 [9], .addr 8 ⟨.v4 0x01020304, 443⟩ [5]]
    [[0, 11, 0, 0, 0, 7, 3, 2, 97, 46, 0, 53, 9], [0, 12, 0, 0, 0, 8, 1, 1, 2, 3, 4, 1, 187, 5]] _
    (.cons (by decide) (.cons (by decide) .nil)) (by decide)).1

/-- Replies from two addresses look alike to the client. -/
theorem downlink_forgets_address :
    ∃ first second : SocketAddr, ∃ one other : Bytes, first ≠ second ∧
      frameMuxAddr 7 first [9] = some one ∧ frameMuxAddr 7 second [9] = some other ∧
      demuxDownlink [one] = demuxDownlink [other] :=
  ⟨⟨.v4 0x01010101, 53⟩, ⟨.v4 0x08080808, 53⟩, [0, 12, 0, 0, 0, 7, 1, 1, 1, 1, 1, 0, 53, 9],
    [0, 12, 0, 0, 0, 7, 1, 8, 8, 8, 8, 0, 53, 9], by decide, by decide, by decide,
    by decide +kernel⟩

end RoundTrip

end Mirage.Udp
