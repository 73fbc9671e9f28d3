import Mathlib.Data.List.ReduceOption
import Mirage.Udp.Mux

/-!
UDP through a tunnel of its own: the frames of proxy/udp_relay.rs and of
proxy/transparent_udp.rs, the parser of `handle_udp_relay`, the replies of
proxy/mirage_server/udp_relay.rs and their two readers. Routing and the rate
limits of the way up are left out.
-/

namespace Mirage.Udp.PerFlow
open Word Text NumberText Framing
open Router (IpAddr)

section SocksRelay

inductive UdpTarget where
  | ip (addr : SocketAddr)
  | domain (host : String) (port : UInt16)
  deriving DecidableEq

def portBe (bytes : Bytes) : UInt16 := UInt16.ofNat (ofBe (bytes.take 2))

/-- The target, and where the payload behind it starts. -/
def parseSocksUdpAddr (b : Bytes) : Option (UdpTarget × Nat) :=
  match b with
  | [] => none
  | atyp :: rest =>
      if atyp = 0x01 then
        if b.length < 1 + 4 + 2 then none
        else
          let ip := BitVec.ofNat 32 (ofBe (rest.take 4))
          some (.ip ⟨.v4 ip, portBe (rest.drop 4)⟩, 7)
      else if atyp = 0x04 then
        if b.length < 1 + 16 + 2 then none
        else
          let ip := BitVec.ofNat 128 (ofBe (rest.take 16))
          some (.ip ⟨.v6 ip, portBe (rest.drop 16)⟩, 19)
      else if atyp = 0x03 then
        match rest with
        | [] => none
        | len :: name =>
            if b.length < 2 + len.toNat + 2 then none
            else
              (fromUtf8 (name.take len.toNat)).map fun host =>
                (.domain host (portBe (name.drop len.toNat)), 2 + len.toNat + 2)
      else none

def encodeSocksUdpAddr (addr : SocketAddr) : Bytes :=
  match addr.ip with
  | .v4 ip => 0x01 :: octets (.v4 ip) ++ toBe 2 addr.port.toNat
  | .v6 ip => 0x04 :: octets (.v6 ip) ++ toBe 2 addr.port.toNat

/-- The receive buffer of both clients; `recv_from` cuts what is longer. -/
def udpBuf : Nat := 65536

/-- A datagram of the SOCKS client: where it goes, and its part from the address on. -/
def socksDatagram (datagram : Bytes) : Option (UdpTarget × Nat × Bytes) :=
  let data := datagram.take udpBuf
  if data.length < 4 ∨ data.take 3 ≠ [0, 0, 0] then none
  else
    let rest := data.drop 3
    (parseSocksUdpAddr rest).map fun (target, off) => (target, off, rest)

/-- What it becomes on the tunnel. -/
def socksFrame (datagram : Bytes) : Option Bytes :=
  (socksDatagram datagram).map fun (_, off, rest) =>
    let payload := rest.drop off
    let body := rest.take (off + payload.length)
    toBe 2 (UInt16.ofNat body.length).toNat ++ body

/-- What the limiter lets through; `pass` is its verdict on each in turn. -/
def policed {Item : Type} (pass : Nat → Bool) (items : List Item) : List Item :=
  (items.zipIdx.filter fun item => pass item.2).map Prod.fst

theorem policed_map {Item Image : Type} (pass : Nat → Bool) (change : Item → Image)
    (items : List Item) : policed pass (items.map change) = (policed pass items).map change := by
  simp only [policed, List.zipIdx_map, List.filter_map, List.map_map]
  rfl

/-- The frames of a tunnel back to the SOCKS client, behind RSV and FRAG. -/
def socksDownlink (pass : Nat → Bool) (chunks : List Bytes) : List Bytes :=
  (policed pass (collect (lengthPrefixedParser id) chunks).1).map fun frame => [0, 0, 0] ++ frame

end SocksRelay

section Transparent

/-- `domain.as_bytes()[..dlen]` is cut after 255 bytes. -/
def frameUdpDomain (domain : String) (port : UInt16) (payload : Bytes) : Bytes :=
  let dlen := min (utf8 domain).length 255
  let bodyLen := 1 + 1 + dlen + 2 + payload.length
  toBe 2 (UInt16.ofNat bodyLen).toNat ++
    ([0x03, UInt8.ofNat dlen] ++ (utf8 domain).take dlen ++ toBe 2 port.toNat ++ payload)

def frameUdpIpv4 (ip : BitVec 32) (port : UInt16) (payload : Bytes) : Bytes :=
  let bodyLen := 1 + 4 + 2 + payload.length
  toBe 2 (UInt16.ofNat bodyLen).toNat ++
    (0x01 :: octets (.v4 ip) ++ toBe 2 port.toNat ++ payload)

inductive FlowTarget where
  | domain (name : String)
  | ip (addr : BitVec 32)
  deriving DecidableEq

/-- `mk_frame` of the uplink task. -/
def mkFrame (target : FlowTarget) (port : UInt16) (pkt : Bytes) : Option Bytes :=
  match target with
  | .domain d =>
      if 1 + 1 + (utf8 d).length + 2 + pkt.length ≤ 65535 then some (frameUdpDomain d port pkt)
      else none
  | .ip addr =>
      if 1 + 4 + 2 + pkt.length ≤ 65535 then some (frameUdpIpv4 addr port pkt) else none

/-- Where the address ends, as far as its first bytes say. -/
def addressEnd (frame : Bytes) : Option Nat :=
  match frame with
  | [] => none
  | atyp :: rest =>
      if atyp = 1 then some (1 + 4)
      else if atyp = 4 then some (1 + 16)
      else if atyp = 3 then rest.head?.map fun dl => 1 + (1 + dl.toNat)
      else none

/-- The payload inside a frame; a malformed one has none. -/
def framePayload (frame : Bytes) : Bytes :=
  match addressEnd frame with
  | none => []
  | some off => if off + 2 ≤ frame.length then frame.drop (off + 2) else []

def parseUdpFramePayload (buf : Bytes) : Option (Bytes × Nat) :=
  if buf.length < 2 then none
  else
    let total := 2 + ofBe (buf.take 2)
    if buf.length < total then none
    else some (framePayload ((buf.take total).drop 2), total)

theorem parseUdpFramePayload_swap (buf : Bytes) :
    (parseUdpFramePayload buf).map Prod.swap = lengthPrefixed framePayload buf := by
  simp only [parseUdpFramePayload, lengthPrefixed]
  split
  · rfl
  · split <;> rfl

def payloadParser : FrameParser UInt8 Bytes where
  parse buf := (parseUdpFramePayload buf).map Prod.swap
  consumes buf used frame := by
    rw [parseUdpFramePayload_swap]
    exact (lengthPrefixedParser framePayload).consumes buf used frame
  stable buf more verdict := by
    rw [parseUdpFramePayload_swap, parseUdpFramePayload_swap]
    exact (lengthPrefixedParser framePayload).stable buf more verdict

theorem payloadParser_eq : payloadParser = lengthPrefixedParser framePayload := by
  have same : payloadParser.parse = (lengthPrefixedParser framePayload).parse :=
    funext parseUdpFramePayload_swap
  cases here : payloadParser
  cases there : lengthPrefixedParser framePayload
  rw [here, there] at same
  cases same
  rfl

/-- The downlink task's read loop, which gives up on too long a leftover. -/
def readPayloads (chunks : List Bytes) : Receiver UInt8 Bytes :=
  receive payloadParser (udpBuf * 2) chunks

/-- What it sends to the client. -/
def transparentDownlink (pass : Nat → Bool) (chunks : List Bytes) : List Bytes :=
  policed pass ((readPayloads chunks).frames.filter fun payload => !payload.isEmpty)

end Transparent

section Server

structure RelayDatagram where
  target : String
  port : UInt16
  payload : Bytes
  deriving DecidableEq

/-- One frame of `handle_udp_relay`; an empty or malformed one is skipped. -/
def parseRelayFrame (frame : Bytes) : Option RelayDatagram :=
  (parseTarget frame).bind fun (target, offset) =>
    if frame.length < offset + 2 then none
    else some ⟨target, portBe (frame.drop offset), frame.drop (offset + 2)⟩

def handleUdpRelay (chunks : List Bytes) : List RelayDatagram :=
  (collect (lengthPrefixedParser parseRelayFrame) chunks).1.reduceOption

def encodeReplyFrame (source : SocketAddr) (payload : Bytes) : Bytes :=
  match source.ip with
  | .v4 ip => 1 :: octets (.v4 ip) ++ toBe 2 source.port.toNat ++ payload
  | .v6 ip => 4 :: octets (.v6 ip) ++ toBe 2 source.port.toNat ++ payload

/-- The packet for the tunnel, if the reply is not too long. -/
def forwardReply (source : SocketAddr) (data : Bytes) : Option Bytes :=
  let frame := encodeReplyFrame source data
  if 65535 < frame.length then none
  else some (toBe 2 (UInt16.ofNat frame.length).toNat ++ frame)

end Server

section Wire

inductive Target where
  | domain (name : String)
  | ip (addr : IpAddr)
  deriving DecidableEq

namespace Target

def Fits : Target → Prop
  | domain name => (utf8 name).length ≤ 255
  | ip _ => True

def text : Target → String
  | domain name => name
  | ip addr => ipText addr

def address : Target → Bytes
  | domain name => [0x03, UInt8.ofNat (utf8 name).length] ++ utf8 name
  | ip (.v4 addr) => 0x01 :: octets (.v4 addr)
  | ip (.v6 addr) => 0x04 :: octets (.v6 addr)

theorem named {target : Target} (fits : target.Fits) :
    AddressBytes target.address target.text := by
  cases target with
  | domain name => exact .domain name fits
  | ip addr =>
      cases addr with
      | v4 addr => exact .ipv4 addr
      | v6 addr => exact .ipv6 addr

end Target

structure Datagram where
  target : Target
  port : UInt16
  payload : Bytes
  deriving DecidableEq

namespace Datagram

/-- What stands in a frame: `[ATYP][ADDR][PORT][PAYLOAD]`. -/
def body (datagram : Datagram) : Bytes :=
  datagram.target.address ++ (toBe 2 datagram.port.toNat ++ datagram.payload)

/-- The datagram a SOCKS client sends for it. -/
def socks (datagram : Datagram) : Bytes := [0, 0, 0] ++ datagram.body

def read (datagram : Datagram) : RelayDatagram :=
  ⟨datagram.target.text, datagram.port, datagram.payload⟩

def framed (datagram : Datagram) : Option Datagram :=
  if datagram.body.length ≤ 65535 then some datagram else none

end Datagram

def FlowTarget.target : FlowTarget → Target
  | .domain name => .domain name
  | .ip addr => .ip (.v4 addr)

def ofReply (source : SocketAddr) (payload : Bytes) : Datagram :=
  ⟨.ip source.ip, source.port, payload⟩

theorem portBe_toBe (port : UInt16) (rest : Bytes) : portBe (toBe 2 port.toNat ++ rest) = port := by
  rw [portBe, List.take_left' (toBe_length 2 _), ofBe_toBe port.toNat_lt, UInt16.ofNat_toNat]

theorem parseRelayFrame_body {datagram : Datagram} (fits : datagram.target.Fits) :
    parseRelayFrame datagram.body = some datagram.read := by
  have room : ¬datagram.body.length < datagram.target.address.length + 2 := by
    simp only [Datagram.body, List.length_append, toBe_length]
    omega
  have behind : datagram.body.drop (datagram.target.address.length + 2) = datagram.payload := by
    rw [Datagram.body, List.drop_append, List.drop_of_length_le (by omega)]
    exact List.drop_left' (by simp)
  have service : portBe (datagram.body.drop datagram.target.address.length) = datagram.port := by
    rw [Datagram.body, List.drop_left, portBe_toBe]
  have target : parseTarget datagram.body =
      some (datagram.target.text, datagram.target.address.length) :=
    parseTarget_address (Target.named fits) _
  rw [parseRelayFrame, target, Option.bind_some]
  dsimp only
  rw [if_neg room, behind, service]
  rfl

theorem parseTarget_end (frame : Bytes) :
    (parseTarget frame).map Prod.snd =
      (addressEnd frame).bind fun off => if frame.length < off then none else some off := by
  cases frame with
  | nil => rfl
  | cons atyp rest =>
      by_cases v4 : atyp = 1
      · simp only [parseTarget, addressEnd, v4, ↓reduceIte, Option.bind_some]
        split <;> rfl
      · by_cases name : atyp = 3
        · cases rest with
          | nil => simp [parseTarget, addressEnd, name]
          | cons dl label =>
              have size : 1 + (1 + dl.toNat) = 2 + dl.toNat := by omega
              simp only [parseTarget, addressEnd, name, size, List.head?_cons, Option.map_some,
                show (3 : UInt8) ≠ 1 by decide, show (3 : UInt8) ≠ 4 by decide, ↓reduceIte,
                Option.bind_some]
              split <;> rfl
        · by_cases v6 : atyp = 4
          · simp only [parseTarget, addressEnd, v6, show (4 : UInt8) ≠ 1 by decide,
              show (4 : UInt8) ≠ 3 by decide, ↓reduceIte, Option.bind_some]
            split <;> rfl
          · simp [parseTarget, addressEnd, v4, name, v6]

theorem framePayload_eq (frame : Bytes) :
    framePayload frame = ((parseRelayFrame frame).map RelayDatagram.payload).getD [] := by
  have same := parseTarget_end frame
  rw [framePayload, parseRelayFrame]
  cases target : parseTarget frame with
  | none =>
      rw [target, Option.map_none] at same
      cases finish : addressEnd frame with
      | none => rfl
      | some off =>
          rw [finish, Option.bind_some] at same
          have short : frame.length < off := by
            by_contra long
            rw [if_neg long] at same
            cases same
          have beyond : ¬off + 2 ≤ frame.length := by omega
          dsimp only
          rw [if_neg beyond]
          rfl
  | some found =>
      obtain ⟨name, off⟩ := found
      rw [target, Option.map_some] at same
      obtain ⟨reach, finish, inside⟩ := Option.bind_eq_some_iff.mp same.symm
      have reached : reach = off := by
        split at inside
        · cases inside
        · exact Option.some.inj inside
      rw [finish, reached]
      dsimp only [Option.bind_some]
      by_cases room : off + 2 ≤ frame.length
      · rw [if_pos room, if_neg (Nat.not_lt.mpr room)]
        rfl
      · rw [if_neg room, if_pos (Nat.not_le.mp room)]
        rfl

theorem parseSocksUdpAddr_ip (addr : SocketAddr) (rest : Bytes) :
    parseSocksUdpAddr (encodeSocksUdpAddr addr ++ rest) =
      some (.ip addr, (encodeSocksUdpAddr addr).length) := by
  obtain ⟨ip, port⟩ := addr
  cases ip with
  | v4 ip =>
      have value : ofBe (toBe 4 ip.toNat) = ip.toNat := ofBe_toBe ip.isLt
      have service := portBe_toBe port rest
      simp [parseSocksUdpAddr, encodeSocksUdpAddr, octets, value, service]
      omega
  | v6 ip =>
      have value : ofBe (toBe 16 ip.toNat) = ip.toNat := ofBe_toBe ip.isLt
      have service := portBe_toBe port rest
      simp [parseSocksUdpAddr, encodeSocksUdpAddr, octets, value, service]
      omega

theorem parseSocksUdpAddr_domain {name : String} (short : (utf8 name).length ≤ 255)
    (port : UInt16) (rest : Bytes) :
    parseSocksUdpAddr ((Target.domain name).address ++ (toBe 2 port.toNat ++ rest)) =
      some (.domain name port, (Target.domain name).address.length + 2) := by
  have size : (UInt8.ofNat (utf8 name).length).toNat = (utf8 name).length := by
    rw [UInt8.toNat_ofNat']
    omega
  have service := portBe_toBe port rest
  simp [parseSocksUdpAddr, Target.address, size, service]
  omega

/-- The relay finds the address and the port of every datagram it can be sent. -/
theorem parseSocksUdpAddr_body {datagram : Datagram} (fits : datagram.target.Fits) :
    ∃ target, parseSocksUdpAddr datagram.body =
      some (target, datagram.target.address.length + 2) := by
  obtain ⟨target, port, payload⟩ := datagram
  cases target with
  | domain name => exact ⟨_, parseSocksUdpAddr_domain fits port payload⟩
  | ip addr =>
      have parsed := parseSocksUdpAddr_ip ⟨addr, port⟩ payload
      cases addr with
      | v4 addr =>
          refine ⟨.ip ⟨.v4 addr, port⟩, ?_⟩
          simpa [Datagram.body, Target.address, encodeSocksUdpAddr] using parsed
      | v6 addr =>
          refine ⟨.ip ⟨.v6 addr, port⟩, ?_⟩
          simpa [Datagram.body, Target.address, encodeSocksUdpAddr] using parsed

/-- No UDP datagram is longer: its length has two bytes, eight of them its header. -/
def udpMax : Nat := 65535 - 8

def wrap (body : Bytes) : Bytes := toBe 2 body.length ++ body

theorem length_word {n : Nat} (fits : n ≤ 65535) : (UInt16.ofNat n).toNat = n := by
  rw [UInt16.toNat_ofNat']
  omega

theorem socksFrame_socks {datagram : Datagram} (fits : datagram.target.Fits)
    (short : datagram.socks.length ≤ udpMax) :
    datagram.body.length ≤ 65535 ∧ socksFrame datagram.socks = some (wrap datagram.body) := by
  have size : datagram.socks.length = 3 + datagram.body.length := by
    rw [Datagram.socks, List.length_append]
    rfl
  have within : datagram.body.length ≤ 65535 := by
    rw [udpMax] at short
    omega
  have filled : datagram.target.address.length + 2 + datagram.payload.length =
      datagram.body.length := by
    simp only [Datagram.body, List.length_append, toBe_length]
    omega
  have kept : datagram.socks.take udpBuf = datagram.socks := by
    refine List.take_of_length_le ?_
    rw [udpBuf]
    rw [udpMax] at short
    omega
  have head : datagram.socks.take 3 = [0, 0, 0] := rfl
  have rest : datagram.socks.drop 3 = datagram.body := rfl
  have accepted : ¬(datagram.socks.length < 4 ∨ datagram.socks.take 3 ≠ [0, 0, 0]) := by
    rw [head]
    simp only [ne_eq, not_true_eq_false, or_false]
    omega
  have behind : datagram.body.drop (datagram.target.address.length + 2) = datagram.payload := by
    rw [Datagram.body, List.drop_append, List.drop_of_length_le (by omega)]
    exact List.drop_left' (by simp)
  obtain ⟨target, parsed⟩ := parseSocksUdpAddr_body fits
  refine ⟨within, ?_⟩
  rw [socksFrame, socksDatagram]
  dsimp only
  rw [kept, if_neg accepted, rest, parsed, Option.map_some, Option.map_some]
  dsimp only
  rw [behind, filled, List.take_length, length_word within]
  rfl

theorem mkFrame_eq {flow : FlowTarget} (fits : flow.target.Fits) (port : UInt16)
    (payload : Bytes) :
    mkFrame flow port payload =
      (Datagram.framed ⟨flow.target, port, payload⟩).map fun datagram => wrap datagram.body := by
  cases flow with
  | domain name =>
      have short : min (utf8 name).length 255 = (utf8 name).length := Nat.min_eq_left fits
      have size : (Datagram.body ⟨.domain name, port, payload⟩).length =
          1 + 1 + (utf8 name).length + 2 + payload.length := by
        simp only [Datagram.body, Target.address, List.length_append, toBe_length, List.length_cons,
          List.length_nil]
        omega
      rw [mkFrame, Datagram.framed, FlowTarget.target, size]
      split
      · rename_i within
        have whole : frameUdpDomain name port payload =
            wrap (Datagram.body ⟨.domain name, port, payload⟩) := by
          rw [frameUdpDomain, wrap, size]
          rw [short, length_word within, List.take_length, Datagram.body, Target.address]
          simp only [List.append_assoc]
        rw [whole]
        rfl
      · rfl
  | ip addr =>
      have size : (Datagram.body ⟨.ip (.v4 addr), port, payload⟩).length =
          1 + 4 + 2 + payload.length := by
        simp only [Datagram.body, Target.address, octets, List.length_append, toBe_length,
          List.length_cons]
        omega
      rw [mkFrame, Datagram.framed, FlowTarget.target, size]
      split
      · rename_i within
        have whole : frameUdpIpv4 addr port payload =
            wrap (Datagram.body ⟨.ip (.v4 addr), port, payload⟩) := by
          rw [frameUdpIpv4, wrap, size]
          rw [length_word within, Datagram.body, Target.address]
          simp only [List.cons_append, List.append_assoc]
        rw [whole]
        rfl
      · rfl

theorem encodeReplyFrame_eq (source : SocketAddr) (payload : Bytes) :
    encodeReplyFrame source payload = (ofReply source payload).body ∧
      (ofReply source payload).body = encodeSocksUdpAddr source ++ payload := by
  obtain ⟨ip, port⟩ := source
  cases ip <;>
    simp [encodeReplyFrame, encodeSocksUdpAddr, Datagram.body, ofReply, Target.address]

theorem forwardReply_eq (source : SocketAddr) (data : Bytes) :
    forwardReply source data =
      (Datagram.framed (ofReply source data)).map fun datagram => wrap datagram.body := by
  rw [forwardReply, (encodeReplyFrame_eq source data).1, Datagram.framed]
  rcases Nat.lt_or_ge 65535 (ofReply source data).body.length with long | short
  · rw [if_pos long, if_neg (Nat.not_le.mpr long)]
    rfl
  · rw [if_neg (Nat.not_lt.mpr short), if_pos short, length_word short]
    rfl

end Wire

section Uplink

/-- What reaches the server: a datagram that one of the clients frames, or a
frame of somebody else that is no datagram. -/
inductive Uplink where
  | socks (datagram : Datagram)
  | transparent (flow : FlowTarget) (port : UInt16) (payload : Bytes)
  | malformed (frame : Bytes)

namespace Uplink

def Possible : Uplink → Prop
  | socks datagram => datagram.target.Fits ∧ datagram.socks.length ≤ udpMax
  | transparent flow _ _ => flow.target.Fits
  | malformed frame => frame.length ≤ 65535 ∧ parseRelayFrame frame = none

def bytes : Uplink → Option Bytes
  | socks datagram => socksFrame datagram.socks
  | transparent flow port payload => mkFrame flow port payload
  | malformed frame => some (wrap frame)

/-- The datagram it stands for, unless its frame is too long. -/
def datagram : Uplink → Option Datagram
  | socks datagram => datagram.framed
  | transparent flow port payload => Datagram.framed ⟨flow.target, port, payload⟩
  | malformed _ => none

def inside : Uplink → Option Bytes
  | socks datagram => datagram.framed.map Datagram.body
  | transparent flow port payload =>
      (Datagram.framed ⟨flow.target, port, payload⟩).map Datagram.body
  | malformed frame => some frame

end Uplink

theorem framed_eq_some {datagram found : Datagram} (framed : datagram.framed = some found) :
    found = datagram ∧ datagram.body.length ≤ 65535 := by
  rw [Datagram.framed] at framed
  split at framed
  · rename_i within
    exact ⟨(Option.some.inj framed).symm, within⟩
  · cases framed

theorem uplink_bytes {part : Uplink} (possible : part.Possible) :
    part.bytes = part.inside.map wrap := by
  cases part with
  | socks datagram =>
      obtain ⟨within, built⟩ := socksFrame_socks possible.1 possible.2
      have framed : datagram.framed = some datagram := if_pos within
      rw [Uplink.bytes, built, Uplink.inside, framed]
      rfl
  | transparent flow port payload =>
      rw [Uplink.bytes, mkFrame_eq possible, Uplink.inside, Option.map_map]
      rfl
  | malformed frame => rfl

theorem inside_framed {datagram : Datagram} {frame : Bytes}
    (inside : datagram.framed.map Datagram.body = some frame) :
    datagram.framed = some datagram ∧ datagram.body = frame ∧ frame.length ≤ 65535 := by
  obtain ⟨found, framed, rfl⟩ := Option.map_eq_some_iff.mp inside
  obtain ⟨rfl, within⟩ := framed_eq_some framed
  exact ⟨framed, rfl, within⟩

theorem uplink_inside {part : Uplink} (possible : part.Possible) {frame : Bytes}
    (inside : part.inside = some frame) :
    frame.length ≤ 65535 ∧ parseRelayFrame frame = part.datagram.map Datagram.read := by
  cases part with
  | socks datagram =>
      obtain ⟨framed, rfl, within⟩ := inside_framed inside
      refine ⟨within, ?_⟩
      rw [parseRelayFrame_body possible.1, Uplink.datagram, framed]
      rfl
  | transparent flow port payload =>
      obtain ⟨framed, rfl, within⟩ := inside_framed inside
      refine ⟨within, ?_⟩
      have fits : (Datagram.mk flow.target port payload).target.Fits := possible
      rw [parseRelayFrame_body fits, Uplink.datagram, framed]
      rfl
  | malformed found =>
      cases inside
      exact ⟨possible.1, possible.2⟩

theorem uplink_none {part : Uplink} (nothing : part.inside = none) : part.datagram = none := by
  cases part with
  | socks datagram => exact Option.map_eq_none_iff.mp nothing
  | transparent flow port payload => exact Option.map_eq_none_iff.mp nothing
  | malformed frame => cases nothing

end Uplink

section Downlink

/-- What comes back: a reply the server forwards, or a frame of somebody else. -/
inductive Downlink where
  | reply (source : SocketAddr) (data : Bytes)
  | malformed (frame : Bytes)

namespace Downlink

def Possible : Downlink → Prop
  | reply _ _ => True
  | malformed frame => frame.length ≤ 65535 ∧ parseRelayFrame frame = none

def bytes : Downlink → Option Bytes
  | reply source data => forwardReply source data
  | malformed frame => some (wrap frame)

def inside : Downlink → Option Bytes
  | reply source data => (ofReply source data).framed.map Datagram.body
  | malformed frame => some frame

/-- What the SOCKS client makes of it: it does not look inside. -/
def handed : Downlink → Option Bytes
  | reply source data =>
      (ofReply source data).framed.map fun _ => [0, 0, 0] ++ (encodeSocksUdpAddr source ++ data)
  | malformed frame => some ([0, 0, 0] ++ frame)

/-- What the transparent one takes out. -/
def payload : Downlink → Option Bytes
  | reply source data => (ofReply source data).framed.map Datagram.payload
  | malformed _ => some []

end Downlink

theorem downlink_bytes (part : Downlink) : part.bytes = part.inside.map wrap := by
  cases part with
  | reply source data =>
      rw [Downlink.bytes, forwardReply_eq, Downlink.inside, Option.map_map]
      rfl
  | malformed frame => rfl

theorem downlink_fits {part : Downlink} (possible : part.Possible) {frame : Bytes}
    (inside : part.inside = some frame) : frame.length ≤ 65535 := by
  cases part with
  | reply source data => exact (inside_framed inside).2.2
  | malformed found =>
      cases inside
      exact possible.1

theorem downlink_handed (part : Downlink) :
    part.inside.map (fun frame => [0, 0, 0] ++ frame) = part.handed := by
  cases part with
  | reply source data =>
      rw [Downlink.inside, Downlink.handed, Option.map_map]
      refine Option.map_congr ?_
      intro found framed
      obtain ⟨rfl, -⟩ := framed_eq_some framed
      rw [Function.comp_apply, (encodeReplyFrame_eq source data).2]
  | malformed frame => rfl

theorem downlink_payload {part : Downlink} (possible : part.Possible) :
    part.inside.map framePayload = part.payload := by
  cases part with
  | reply source data =>
      rw [Downlink.inside, Downlink.payload, Option.map_map]
      refine Option.map_congr ?_
      intro found framed
      obtain ⟨rfl, -⟩ := framed_eq_some framed
      have fits : (ofReply source data).target.Fits := trivial
      rw [Function.comp_apply, framePayload_eq, parseRelayFrame_body fits]
      rfl
  | malformed frame =>
      rw [Downlink.inside, Option.map_some, framePayload_eq, possible.2]
      rfl

end Downlink

section RoundTrip

variable {Part : Type} {bytes inside : Part → Option Bytes} {parts : List Part}

theorem frames_flatten (wraps : ∀ part ∈ parts, bytes part = (inside part).map wrap) :
    (parts.filterMap bytes).flatten = ((parts.filterMap inside).map wrap).flatten := by
  rw [List.filterMap_congr wraps, List.map_filterMap]

theorem drain_parts {Frame : Type} (body : Bytes → Frame)
    (wraps : ∀ part ∈ parts, bytes part = (inside part).map wrap)
    (fit : ∀ part ∈ parts, ∀ frame, inside part = some frame → frame.length ≤ 65535) :
    drain (lengthPrefixedParser body) (parts.filterMap bytes).flatten =
      (parts.filterMap fun part => (inside part).map body, []) := by
  have short : ∀ frame ∈ parts.filterMap inside, frame.length ≤ 65535 := by
    intro frame member
    obtain ⟨part, present, found⟩ := List.mem_filterMap.mp member
    exact fit part present frame found
  have whole := drain_prefixed body short
  rw [frames_flatten wraps, ← List.map_filterMap]
  exact whole

theorem relay_reads {parts : List Uplink} (possible : ∀ part ∈ parts, part.Possible)
    {chunks : List Bytes} (cut : chunks.flatten = (parts.filterMap Uplink.bytes).flatten) :
    handleUdpRelay chunks = (parts.filterMap Uplink.datagram).map Datagram.read := by
  rw [handleUdpRelay, collect_eq_drain, cut,
    drain_parts parseRelayFrame (fun part present => uplink_bytes (possible part present))
      (fun part present frame inside => (uplink_inside (possible part present) inside).1),
    List.reduceOption, List.filterMap_filterMap, List.map_filterMap]
  refine List.filterMap_congr ?_
  intro part present
  cases inside : part.inside with
  | none =>
      rw [uplink_none inside]
      rfl
  | some frame =>
      rw [Option.map_some, Option.bind_some, id_eq,
        (uplink_inside (possible part present) inside).2]

section Replies

variable {replies : List Downlink} {chunks : List Bytes}
  (possible : ∀ part ∈ replies, part.Possible)
  (cut : chunks.flatten = (replies.filterMap Downlink.bytes).flatten)

include possible cut

theorem socks_hands (pass : Nat → Bool) :
    socksDownlink pass chunks = policed pass (replies.filterMap Downlink.handed) := by
  have frames := drain_parts id (fun part _ => downlink_bytes part)
    (fun part present frame inside => downlink_fits (possible part present) inside)
  have mapped : replies.filterMap Downlink.handed =
      (replies.filterMap Downlink.inside).map fun frame => [0, 0, 0] ++ frame := by
    rw [List.map_filterMap]
    exact List.filterMap_congr fun part _ => (downlink_handed part).symm
  rw [socksDownlink, collect_eq_drain, cut, frames, mapped, policed_map]
  simp

theorem transparent_reads :
    readPayloads chunks = ⟨[], replies.filterMap Downlink.payload, false⟩ := by
  have waits : ∀ buffer, payloadParser.parse buffer = none → buffer.length ≤ udpBuf * 2 := by
    intro buffer waiting
    have short := lengthPrefixed_waiting ((parseUdpFramePayload_swap buffer).symm.trans waiting)
    rw [udpBuf]
    omega
  have frames := drain_parts framePayload (fun part _ => downlink_bytes part)
    (fun part present frame inside => downlink_fits (possible part present) inside)
  rw [readPayloads, receive_eq_drain payloadParser waits, cut, payloadParser_eq, frames]
  congr 1
  exact List.filterMap_congr fun part present => downlink_payload (possible part present)

end Replies

theorem udp_frames_faithful :
    (∀ parts : List Uplink, (∀ part ∈ parts, part.Possible) → ∀ chunks,
      chunks.flatten = (parts.filterMap Uplink.bytes).flatten →
      handleUdpRelay chunks = (parts.filterMap Uplink.datagram).map Datagram.read) ∧
    (∀ replies : List Downlink, (∀ part ∈ replies, part.Possible) → ∀ chunks,
      chunks.flatten = (replies.filterMap Downlink.bytes).flatten →
      (∀ pass, socksDownlink pass chunks = policed pass (replies.filterMap Downlink.handed)) ∧
      readPayloads chunks = ⟨[], replies.filterMap Downlink.payload, false⟩ ∧
      ∀ pass, transparentDownlink pass chunks = policed pass
        ((replies.filterMap Downlink.payload).filter fun payload => !payload.isEmpty)) ∧
    ∀ source rest, parseSocksUdpAddr (encodeSocksUdpAddr source ++ rest) =
      some (.ip source, (encodeSocksUdpAddr source).length) := by
  refine ⟨fun parts possible chunks cut => relay_reads possible cut, ?_, parseSocksUdpAddr_ip⟩
  intro replies possible chunks cut
  have payloads := transparent_reads possible cut
  refine ⟨socks_hands possible cut, payloads, ?_⟩
  intro pass
  rw [transparentDownlink, payloads]

/-- An empty frame reaches the SOCKS client's application all the same. -/
theorem malformed_handed :
    parseRelayFrame [] = none ∧ handleUdpRelay [wrap []] = [] ∧
      socksDownlink (fun _ => true) [wrap []] = [[0, 0, 0]] ∧
      parseUdpFramePayload (wrap []) = some ([], 2) := by
  decide +kernel

end RoundTrip

end Mirage.Udp.PerFlow
