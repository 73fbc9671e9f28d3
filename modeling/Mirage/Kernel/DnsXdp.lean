import Mirage.Dns.FakeFile
import Mirage.Dns.Keys
import Mirage.Dns.WireName
import Mirage.Kernel.Headers

/-!
The XDP program of dns_xdp.c over the bytes of one frame, and the hash of a
name on the wire. The program lays the headers over the frame and writes them
in place; what it hands back is the frame as it then stands.
-/

namespace Mirage.Kernel
open Word Text Checksum Dns
open TwoWay (Table)

namespace DnsXdp

section Hash

/-- `((hash << 5) + hash) + b`. -/
def hashByte (hash : UInt64) (b : UInt8) : UInt64 := (hash <<< 5) + hash + b.toUInt64

/-- The loop of `hash_domain` over the bytes from the offset on. `remaining`
counts the characters of the label still to come. The second result is how far
the offset has moved. -/
def hashLoop : Nat → UInt64 → Nat → Bytes → UInt64 × Nat
  | 0, hash, _, _ => (hash, 0)
  | _ + 1, hash, _, [] => (hash, 0)
  | rounds + 1, hash, 0, b :: rest =>
      -- The root label, or no label length at all.
      if b = 0 then (hash, 1)
      else if 63 < b then (hash, 1)
      else
        let (hash, used) := hashLoop rounds (hashByte hash b) b.toNat rest
        (hash, used + 1)
  | rounds + 1, hash, remaining + 1, b :: rest =>
      let (hash, used) := hashLoop rounds (hashByte hash (toAsciiLowercase b)) remaining rest
      (hash, used + 1)

def hashDomain (data : Bytes) : UInt64 × Nat := hashLoop 256 5381 0 data

def hashLabel (hash : UInt64) (label : Bytes) : UInt64 :=
  label.foldl (fun hash b => hashByte hash (toAsciiLowercase b))
    (hashByte hash (UInt8.ofNat label.length))

variable {rounds : Nat} {hash : UInt64} {label rest : Bytes} {labels : List Bytes}

theorem hashLoop_chars (chars : Bytes) :
    hashLoop (rounds + chars.length) hash chars.length (chars ++ rest) =
      let after := hashLoop rounds
        (chars.foldl (fun hash b => hashByte hash (toAsciiLowercase b)) hash) 0 rest
      (after.1, after.2 + chars.length) := by
  induction chars generalizing hash with
  | nil => rfl
  | cons b chars ih =>
      rw [List.length_cons, ← Nat.add_assoc, List.cons_append, hashLoop, ih]
      rfl

theorem hashLoop_label (fits : LabelFits label) :
    hashLoop (rounds + (label.length + 1)) hash 0 (encodeLabel label ++ rest) =
      let after := hashLoop rounds (hashLabel hash label) 0 rest
      (after.1, after.2 + (label.length + 1)) := by
  obtain ⟨length, nonzero, small⟩ := length_byte fits
  rw [encodeLabel, List.cons_append, ← Nat.add_assoc, hashLoop, if_neg nonzero, if_neg small,
    length, hashLoop_chars]
  rfl

/-- Over a name on the wire the loop hashes label by label and stops behind the
root label. -/
theorem hashLoop_name (fits : ∀ label ∈ labels, LabelFits label)
    (enough : (encodeName labels).length ≤ rounds) :
    hashLoop rounds hash 0 (encodeName labels ++ rest) =
      (labels.foldl hashLabel hash, (encodeName labels).length) := by
  induction labels generalizing rounds hash with
  | nil =>
      obtain ⟨left, rfl⟩ := Nat.exists_eq_add_of_le' enough
      rfl
  | cons label labels ih =>
      rw [encodeName_cons, List.length_append, length_encodeLabel] at enough
      obtain ⟨left, rfl⟩ := Nat.exists_eq_add_of_le' enough
      rw [List.forall_mem_cons] at fits
      have step : left + (label.length + 1 + (encodeName labels).length) =
          left + (encodeName labels).length + (label.length + 1) := by
        omega
      have room : (encodeName labels).length ≤ left + (encodeName labels).length :=
        Nat.le_add_left _ _
      rw [encodeName_cons, List.append_assoc, step, hashLoop_label fits.1, ih fits.2 room,
        List.length_append, length_encodeLabel, List.foldl_cons, Nat.add_comm (label.length + 1)]

theorem foldl_hashLabel_congr {labels others : List Bytes} {hash : UInt64}
    (same : labels.map (·.map toAsciiLowercase) = others.map (·.map toAsciiLowercase)) :
    labels.foldl hashLabel hash = others.foldl hashLabel hash := by
  have lowered : ∀ (hash : UInt64) (label : Bytes), hashLabel hash label =
      (label.map toAsciiLowercase).foldl hashByte
        (hashByte hash (UInt8.ofNat (label.map toAsciiLowercase).length)) := by
    intro hash label
    rw [List.foldl_map, List.length_map]
    rfl
  have folded : ∀ (labels : List Bytes) (hash : UInt64), labels.foldl hashLabel hash =
      (labels.map (·.map toAsciiLowercase)).foldl (fun hash label =>
        label.foldl hashByte (hashByte hash (UInt8.ofNat label.length))) hash := by
    intro labels hash
    rw [List.foldl_map]
    exact congrArg (fun step => labels.foldl step hash) (funext fun hash => funext (lowered hash))
  rw [folded, folded, same]

end Hash

section Program

inductive XdpAction where
  | pass
  | tx
  deriving DecidableEq

/-- `mirage_dns_cache`: hash of a name to the octets of its address. -/
abbrev DnsCache := Table UInt64 (BitVec 32)

/-- A frame with its headers laid over it; `rest` is what follows them. -/
structure Query where
  eth : EthHdr
  iph : IpHdr
  udph : UdpHdr
  dns : DnsHdr
  rest : Bytes

namespace Query

def bytes (self : Query) : Bytes :=
  self.eth.bytes ++ (self.iph.bytes ++ (self.udph.bytes ++ (self.dns.bytes ++ self.rest)))

theorem drop_headers (self : Query) : self.bytes.drop 54 = self.rest := rfl

def hash (self : Query) : UInt64 := (hashDomain self.rest).1

def offset (self : Query) : Nat := (hashDomain self.rest).2

end Query

/-- The checks up to the lookup; `none` passes the frame. -/
def readQuery (frame : Bytes) : Option Query := do
  let (eth, rest) ← EthHdr.parse frame
  guard (eth.hProto.toNat = 0x0800)
  let (iph, rest) ← IpHdr.parse rest
  guard (iph.ihl = 5)
  guard (iph.protocol = 17)
  let (udph, rest) ← UdpHdr.parse rest
  guard (udph.dest.toNat = 53)
  let (dns, rest) ← DnsHdr.parse rest
  guard (dns.qdcount.toNat = 1 ∧ dns.flags.toNat &&& 0x8000 = 0)
  guard (dns.ancount.toNat = 0 ∧ dns.nscount.toNat = 0 ∧ dns.arcount.toNat = 0)
  let query : Query := ⟨eth, iph, udph, dns, rest⟩
  guard (query.offset + 4 ≤ rest.length)
  guard (u16At rest query.offset = 1)
  return query

/-- Steps 1 to 4: addresses and ports change places, the DNS header becomes
that of a response. -/
def Query.swapped (self : Query) : Query :=
  { self with
    eth := { self.eth with hSource := self.eth.hDest, hDest := self.eth.hSource }
    iph := { self.iph with saddr := self.iph.daddr, daddr := self.iph.saddr }
    udph := { self.udph with source := self.udph.dest, dest := self.udph.source }
    dns := { self.dns with flags := .ofNat 0x8180, ancount := .ofNat 1 } }

/-- A pointer to the name, type A, class IN, a TTL of 600 and the address. -/
def answerRecord (fakeIp : BitVec 32) : Bytes :=
  (Be16.ofNat 0xC00C).bytes ++ (Be16.ofNat 1).bytes ++ (Be16.ofNat 1).bytes ++ toBe 4 600 ++
    (Be16.ofNat 4).bytes ++ (Be32.ofBits fakeIp).bytes

/-- The sum of the words of a header as a little-endian machine loads them. -/
def nativeSum : Bytes → Nat
  | high :: low :: rest => fromBe16 low high + nativeSum rest
  | _ => 0

def ipChecksum (iph : IpHdr) : Be16 :=
  let csum := nativeSum iph.bytes
  let csum := csum % 65536 + csum / 65536
  .ofNative (0xFFFF - (csum + csum / 65536) % 65536)

def Query.grown (self : Query) (tail : Bytes) : Query := { self with rest := self.rest ++ tail }

/-- Steps 5 and 6: the record behind the question, the lengths and checksums. -/
def Query.answered (self : Query) (answerOffset : Nat) (fakeIp : BitVec 32) : Query :=
  let iph := { self.iph with totLen := .ofNat (self.iph.totLen.toNat + 16), check := .ofNat 0 }
  { self with
    iph := { iph with check := ipChecksum iph }
    udph := { self.udph with len := .ofNat (self.udph.len.toNat + 16), check := .ofNat 0 }
    rest := self.rest.take answerOffset ++ answerRecord fakeIp ++
      self.rest.drop (answerOffset + 16) }

/-- The verdict and the frame after the program. `adjustTail` is the outcome of
`bpf_xdp_adjust_tail`: a failure, or the sixteen bytes the frame has grown by. -/
def mirageXdpDns (cache : DnsCache) (adjustTail : Option { tail : Bytes // tail.length = 16 })
    (frame : Bytes) : XdpAction × Bytes :=
  match readQuery frame with
  | none => (.pass, frame)
  | some query =>
      match cache.lookup query.hash with
      -- A miss is left to user space.
      | none => (.pass, frame)
      | some fakeIp =>
          let answerOffset := query.offset + 4
          let reply := query.swapped
          match adjustTail with
          | none => (.pass, reply.bytes)
          | some tail =>
              let grown := reply.grown tail
              -- The check after the pointers have been fetched again.
              if grown.rest.length < answerOffset + 16 then (.pass, grown.bytes)
              else (.tx, (grown.answered answerOffset fakeIp).bytes)

end Program

section Checks

/-- A bare DNS query over IPv4 without options, for type A as the program reads it. -/
structure Query.Plain (query : Query) : Prop where
  proto : query.eth.hProto.toNat = 0x0800
  ihl : query.iph.ihl = 5
  udp : query.iph.protocol = 17
  port : query.udph.dest.toNat = 53
  question : query.dns.qdcount.toNat = 1 ∧ query.dns.flags.toNat &&& 0x8000 = 0
  bare : query.dns.ancount.toNat = 0 ∧ query.dns.nscount.toNat = 0 ∧ query.dns.arcount.toNat = 0
  room : query.offset + 4 ≤ query.rest.length
  qtype : u16At query.rest query.offset = 1

variable {frame : Bytes} {query : Query}

theorem readQuery_bytes (plain : query.Plain) : readQuery query.bytes = some query := by
  simp [readQuery, Query.bytes, plain.proto, plain.ihl, plain.udp, plain.port, plain.question,
    plain.bare, plain.room, plain.qtype]

theorem readQuery_eq_some : readQuery frame = some query ↔ frame = query.bytes ∧ query.Plain := by
  constructor
  · intro read
    simp only [readQuery, Option.bind_eq_bind, Option.bind_eq_some_iff, Prod.exists,
      Option.guard_eq_some', exists_const, Option.pure_def, Option.some.injEq] at read
    obtain ⟨eth, afterEth, isEth, proto, iph, afterIp, isIp, ihl, udp, udph, afterUdp, isUdp, port,
      dns, rest, isDns, question, bare, room, qtype, rfl⟩ := read
    refine ⟨?_, ⟨proto, ihl, udp, port, question, bare, room, qtype⟩⟩
    rw [EthHdr.bytes_of_parse isEth, IpHdr.bytes_of_parse isIp, UdpHdr.bytes_of_parse isUdp,
      DnsHdr.bytes_of_parse isDns]
    rfl
  · rintro ⟨rfl, plain⟩
    exact readQuery_bytes plain

variable {cache : DnsCache} {adjustTail : Option { tail : Bytes // tail.length = 16 }}

/-- A frame that is no bare query, or asks for a name the cache lacks, passes
as it is. A hit is rewritten, and then transmitted unless the frame did not grow. -/
theorem mirageXdpDns_cases (cache : DnsCache)
    (adjustTail : Option { tail : Bytes // tail.length = 16 }) (frame : Bytes) :
    (mirageXdpDns cache adjustTail frame = (.pass, frame) ∧
      ∀ query : Query, frame = query.bytes → query.Plain → cache.lookup query.hash = none) ∨
    ∃ (query : Query) (fakeIp : BitVec 32), frame = query.bytes ∧ query.Plain ∧ cache.lookup query.hash = some fakeIp ∧
      ((adjustTail = none ∧
          mirageXdpDns cache adjustTail frame = (.pass, query.swapped.bytes)) ∨
        ∃ tail, adjustTail = some tail ∧ mirageXdpDns cache adjustTail frame =
          (.tx, ((query.swapped.grown tail.val).answered (query.offset + 4) fakeIp).bytes)) := by
  unfold mirageXdpDns
  cases read : readQuery frame with
  | none =>
      refine .inl ⟨rfl, fun query same plain => ?_⟩
      rw [readQuery_eq_some.mpr ⟨same, plain⟩] at read
      cases read
  | some query =>
      obtain ⟨same, plain⟩ := readQuery_eq_some.mp read
      cases known : cache.lookup query.hash with
      | none =>
          refine .inl ⟨by simp only [known], fun other sameToo plainToo => ?_⟩
          rw [readQuery_eq_some.mpr ⟨sameToo, plainToo⟩] at read
          cases read
          exact known
      | some fakeIp =>
          refine .inr ⟨query, fakeIp, same, plain, known, ?_⟩
          cases adjustTail with
          | none => exact .inl ⟨rfl, by simp only [known]⟩
          | some tail =>
              have room : ¬ (query.swapped.grown tail.val).rest.length < query.offset + 4 + 16 := by
                have := plain.room
                have := tail.property
                simp only [Query.grown, Query.swapped, List.length_append]
                omega
              refine .inr ⟨tail, rfl, ?_⟩
              simp only [known, if_neg room]

end Checks

section Question

def dnsMessage (frame : Bytes) : Bytes := frame.drop 42

/-- The question's name ends with the root label and is no longer than DNS allows. -/
structure LegalQuestion (message : Bytes) : Prop where
  root : (questionName message).2 = .root
  short : (encodeName (questionName message).1).length ≤ 255

theorem u16At_append (before after : Bytes) (pos : Nat) :
    u16At (before ++ after) (before.length + pos) = u16At after pos := by
  simp only [u16At, List.getD_eq_getElem?_getD, Nat.add_assoc,
    List.getElem?_append_right (Nat.le_add_right before.length _), Nat.add_sub_cancel_left]

variable {query : Query}

theorem dnsMessage_bytes (query : Query) :
    dnsMessage query.bytes = query.dns.bytes ++ query.rest := rfl

theorem Query.rest_eq (legal : LegalQuestion (dnsMessage query.bytes)) :
    ∃ tail, query.rest = encodeName (questionName (dnsMessage query.bytes)).1 ++ tail := by
  obtain ⟨⟨tail, written⟩, -⟩ := nameAt_root legal.root
  refine ⟨tail, ?_⟩
  rw [questionName, ← written]
  rfl

theorem Query.hashDomain_eq (legal : LegalQuestion (dnsMessage query.bytes)) :
    hashDomain query.rest =
      ((questionName (dnsMessage query.bytes)).1.foldl hashLabel 5381,
        (encodeName (questionName (dnsMessage query.bytes)).1).length) := by
  obtain ⟨tail, written⟩ := Query.rest_eq legal
  have fits := (nameAt_root legal.root).2
  have short := legal.short
  rw [hashDomain, written]
  exact hashLoop_name fits (Nat.le_trans short (by decide))

theorem Query.questionEnd_eq (plain : query.Plain)
    (legal : LegalQuestion (dnsMessage query.bytes)) :
    questionEnd (dnsMessage query.bytes) = 12 + query.offset + 4 := by
  have count : u16At (dnsMessage query.bytes) 4 = 1 := plain.question.1
  have walked : nameEnd (dnsMessage query.bytes) 12 = 12 + query.offset := by
    rw [nameEnd_root legal.root, Query.offset, Query.hashDomain_eq legal]
    rfl
  have length : (dnsMessage query.bytes).length = 12 + query.rest.length := by
    rw [dnsMessage_bytes, List.length_append, DnsHdr.length_bytes]
  have room := plain.room
  rw [questionEnd, if_neg (by omega), count, questionsEnd, walked, if_neg (by omega), questionsEnd]

theorem Query.qtype_eq (plain : query.Plain) (legal : LegalQuestion (dnsMessage query.bytes)) :
    getQtype (dnsMessage query.bytes) = some 1 := by
  have stop := Query.questionEnd_eq plain legal
  have inside := questionEnd_le (dnsMessage query.bytes)
  have read : u16At (dnsMessage query.bytes) (12 + query.offset) = 1 :=
    (u16At_append query.dns.bytes query.rest query.offset).trans plain.qtype
  have place : 12 + query.offset + 4 - 4 = 12 + query.offset := by omega
  rw [stop] at inside
  unfold getQtype
  simp only [stop]
  rw [if_neg (by omega), place, read]

end Question

end DnsXdp

end Mirage.Kernel
