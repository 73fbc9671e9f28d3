import Mirage.Lib.Checksum

/-!
The packet headers that the eBPF programs lay over a frame. A field of more
than one byte stands as its bytes in memory; `toNat` reads it in network order
and `native` as the little-endian machine loads it. A header that does not end
before `data_end` is not read.
-/

namespace Mirage.Kernel
open Word Checksum

section Fields

structure Be16 where
  high : UInt8
  low : UInt8
  deriving DecidableEq

structure Be32 where
  b0 : UInt8
  b1 : UInt8
  b2 : UInt8
  b3 : UInt8
  deriving DecidableEq

structure Mac where
  b0 : UInt8
  b1 : UInt8
  b2 : UInt8
  b3 : UInt8
  b4 : UInt8
  b5 : UInt8
  deriving DecidableEq

namespace Be16

def bytes (self : Be16) : Bytes := [self.high, self.low]

/-- `bpf_ntohs`. -/
def toNat (self : Be16) : Nat := fromBe16 self.high self.low

/-- `bpf_htons` of the low 16 bits. -/
def ofNat (n : Nat) : Be16 := ⟨UInt8.ofNat (n / 256), UInt8.ofNat n⟩

def native (self : Be16) : Nat := fromBe16 self.low self.high

def ofNative (n : Nat) : Be16 := ⟨UInt8.ofNat n, UInt8.ofNat (n / 256)⟩

variable (field : Be16) {n : Nat}

theorem toNat_lt : field.toNat < 65536 := by
  have := field.high.toNat_lt
  have := field.low.toNat_lt
  unfold toNat fromBe16
  omega

theorem native_eq : field.native = swap field.toNat := by
  have := field.high.toNat_lt
  have := field.low.toNat_lt
  unfold native toNat fromBe16 swap
  omega

theorem native_lt : field.native < 65536 := by
  rw [native_eq]
  exact swap_lt field.toNat_lt

theorem toNat_ofNat (n : Nat) : (ofNat n).toNat = n % 65536 := by
  simp only [toNat, ofNat, fromBe16, UInt8.toNat_ofNat']
  omega

theorem native_ofNative (n : Nat) : (ofNative n).native = n % 65536 := by
  simp only [native, ofNative, fromBe16, UInt8.toNat_ofNat']
  omega

end Be16

namespace Be32

def bytes (self : Be32) : Bytes := [self.b0, self.b1, self.b2, self.b3]

/-- `bpf_ntohl`. -/
def toNat (self : Be32) : Nat :=
  self.b0.toNat * 2 ^ 24 + self.b1.toNat * 2 ^ 16 + self.b2.toNat * 2 ^ 8 + self.b3.toNat

def bits (self : Be32) : BitVec 32 := BitVec.ofNat 32 self.toNat

def ofBits (ip : BitVec 32) : Be32 :=
  ⟨UInt8.ofNat (ip.toNat / 2 ^ 24), UInt8.ofNat (ip.toNat / 2 ^ 16), UInt8.ofNat (ip.toNat / 2 ^ 8),
    UInt8.ofNat ip.toNat⟩

theorem toNat_ofBits (ip : BitVec 32) : (ofBits ip).toNat = ip.toNat := by
  have := ip.isLt
  simp only [toNat, ofBits, UInt8.toNat_ofNat']
  omega

theorem bytes_injective {field other : Be32} (same : field.bytes = other.bytes) : field = other := by
  cases field
  cases other
  simpa [bytes] using same

theorem ofBits_injective {ip other : BitVec 32} (same : ofBits ip = ofBits other) : ip = other := by
  apply BitVec.eq_of_toNat_eq
  rw [← toNat_ofBits, same, toNat_ofBits]

end Be32

def Mac.bytes (self : Mac) : Bytes := [self.b0, self.b1, self.b2, self.b3, self.b4, self.b5]

end Fields

section Structs

structure EthHdr where
  hDest : Mac
  hSource : Mac
  hProto : Be16
  deriving DecidableEq

/-- `versionIhl` holds the two half-byte fields `version` and `ihl`. -/
structure IpHdr where
  versionIhl : UInt8
  tos : UInt8
  totLen : Be16
  id : Be16
  fragOff : Be16
  ttl : UInt8
  protocol : UInt8
  check : Be16
  saddr : Be32
  daddr : Be32
  deriving DecidableEq

structure UdpHdr where
  source : Be16
  dest : Be16
  len : Be16
  check : Be16
  deriving DecidableEq

structure DnsHdr where
  id : Be16
  flags : Be16
  qdcount : Be16
  ancount : Be16
  nscount : Be16
  arcount : Be16
  deriving DecidableEq

/-- `doffRes` holds `doff` in its high half, `flags` the flag bits. -/
structure TcpHdr where
  source : Be16
  dest : Be16
  seq : Be32
  ackSeq : Be32
  doffRes : UInt8
  flags : UInt8
  window : Be16
  check : Be16
  urgPtr : Be16
  deriving DecidableEq

structure IcmpMinHdr where
  type : UInt8
  code : UInt8
  checksum : Be16
  deriving DecidableEq

namespace EthHdr

def bytes (self : EthHdr) : Bytes :=
  self.hDest.bytes ++ self.hSource.bytes ++ self.hProto.bytes

def parse : Bytes → Option (EthHdr × Bytes)
  | d0 :: d1 :: d2 :: d3 :: d4 :: d5 :: s0 :: s1 :: s2 :: s3 :: s4 :: s5 :: p0 :: p1 :: rest =>
      some (⟨⟨d0, d1, d2, d3, d4, d5⟩, ⟨s0, s1, s2, s3, s4, s5⟩, ⟨p0, p1⟩⟩, rest)
  | _ => none

@[simp] theorem length_bytes (self : EthHdr) : self.bytes.length = 14 := rfl

@[simp] theorem parse_bytes (self : EthHdr) (rest : Bytes) :
    parse (self.bytes ++ rest) = some (self, rest) := rfl

theorem bytes_of_parse {data rest : Bytes} {hdr : EthHdr} (parsed : parse data = some (hdr, rest)) :
    data = hdr.bytes ++ rest := by
  unfold parse at parsed
  split at parsed
  · cases parsed
    rfl
  · cases parsed

end EthHdr

namespace IpHdr

def ihl (self : IpHdr) : Nat := self.versionIhl.toNat % 16

def bytes (self : IpHdr) : Bytes :=
  [self.versionIhl, self.tos] ++ self.totLen.bytes ++ self.id.bytes ++ self.fragOff.bytes ++
    [self.ttl, self.protocol] ++ self.check.bytes ++ self.saddr.bytes ++ self.daddr.bytes

def parse : Bytes → Option (IpHdr × Bytes)
  | v :: tos :: l0 :: l1 :: i0 :: i1 :: f0 :: f1 :: ttl :: protocol :: c0 :: c1 ::
      s0 :: s1 :: s2 :: s3 :: d0 :: d1 :: d2 :: d3 :: rest =>
      some (⟨v, tos, ⟨l0, l1⟩, ⟨i0, i1⟩, ⟨f0, f1⟩, ttl, protocol, ⟨c0, c1⟩,
        ⟨s0, s1, s2, s3⟩, ⟨d0, d1, d2, d3⟩⟩, rest)
  | _ => none

@[simp] theorem length_bytes (self : IpHdr) : self.bytes.length = 20 := rfl

@[simp] theorem parse_bytes (self : IpHdr) (rest : Bytes) :
    parse (self.bytes ++ rest) = some (self, rest) := rfl

theorem bytes_of_parse {data rest : Bytes} {hdr : IpHdr} (parsed : parse data = some (hdr, rest)) :
    data = hdr.bytes ++ rest := by
  unfold parse at parsed
  split at parsed
  · cases parsed
    rfl
  · cases parsed

end IpHdr

namespace UdpHdr

def bytes (self : UdpHdr) : Bytes :=
  self.source.bytes ++ self.dest.bytes ++ self.len.bytes ++ self.check.bytes

def parse : Bytes → Option (UdpHdr × Bytes)
  | s0 :: s1 :: d0 :: d1 :: l0 :: l1 :: c0 :: c1 :: rest =>
      some (⟨⟨s0, s1⟩, ⟨d0, d1⟩, ⟨l0, l1⟩, ⟨c0, c1⟩⟩, rest)
  | _ => none

@[simp] theorem length_bytes (self : UdpHdr) : self.bytes.length = 8 := rfl

@[simp] theorem parse_bytes (self : UdpHdr) (rest : Bytes) :
    parse (self.bytes ++ rest) = some (self, rest) := rfl

theorem bytes_of_parse {data rest : Bytes} {hdr : UdpHdr} (parsed : parse data = some (hdr, rest)) :
    data = hdr.bytes ++ rest := by
  unfold parse at parsed
  split at parsed
  · cases parsed
    rfl
  · cases parsed

end UdpHdr

namespace DnsHdr

def bytes (self : DnsHdr) : Bytes :=
  self.id.bytes ++ self.flags.bytes ++ self.qdcount.bytes ++ self.ancount.bytes ++
    self.nscount.bytes ++ self.arcount.bytes

def parse : Bytes → Option (DnsHdr × Bytes)
  | i0 :: i1 :: f0 :: f1 :: q0 :: q1 :: a0 :: a1 :: n0 :: n1 :: r0 :: r1 :: rest =>
      some (⟨⟨i0, i1⟩, ⟨f0, f1⟩, ⟨q0, q1⟩, ⟨a0, a1⟩, ⟨n0, n1⟩, ⟨r0, r1⟩⟩, rest)
  | _ => none

@[simp] theorem length_bytes (self : DnsHdr) : self.bytes.length = 12 := rfl

@[simp] theorem parse_bytes (self : DnsHdr) (rest : Bytes) :
    parse (self.bytes ++ rest) = some (self, rest) := rfl

theorem bytes_of_parse {data rest : Bytes} {hdr : DnsHdr} (parsed : parse data = some (hdr, rest)) :
    data = hdr.bytes ++ rest := by
  unfold parse at parsed
  split at parsed
  · cases parsed
    rfl
  · cases parsed

end DnsHdr

namespace TcpHdr

def doff (self : TcpHdr) : Nat := self.doffRes.toNat / 16

def syn (self : TcpHdr) : Bool := self.flags.toNat / 2 % 2 = 1

def ack (self : TcpHdr) : Bool := self.flags.toNat / 16 % 2 = 1

def bytes (self : TcpHdr) : Bytes :=
  self.source.bytes ++ self.dest.bytes ++ self.seq.bytes ++ self.ackSeq.bytes ++
    [self.doffRes, self.flags] ++ self.window.bytes ++ self.check.bytes ++ self.urgPtr.bytes

def parse : Bytes → Option (TcpHdr × Bytes)
  | s0 :: s1 :: d0 :: d1 :: q0 :: q1 :: q2 :: q3 :: a0 :: a1 :: a2 :: a3 :: doffRes :: flags ::
      w0 :: w1 :: c0 :: c1 :: u0 :: u1 :: rest =>
      some (⟨⟨s0, s1⟩, ⟨d0, d1⟩, ⟨q0, q1, q2, q3⟩, ⟨a0, a1, a2, a3⟩, doffRes, flags,
        ⟨w0, w1⟩, ⟨c0, c1⟩, ⟨u0, u1⟩⟩, rest)
  | _ => none

@[simp] theorem length_bytes (self : TcpHdr) : self.bytes.length = 20 := rfl

@[simp] theorem parse_bytes (self : TcpHdr) (rest : Bytes) :
    parse (self.bytes ++ rest) = some (self, rest) := rfl

theorem bytes_of_parse {data rest : Bytes} {hdr : TcpHdr} (parsed : parse data = some (hdr, rest)) :
    data = hdr.bytes ++ rest := by
  unfold parse at parsed
  split at parsed
  · cases parsed
    rfl
  · cases parsed

end TcpHdr

namespace IcmpMinHdr

def bytes (self : IcmpMinHdr) : Bytes := [self.type, self.code] ++ self.checksum.bytes

def parse : Bytes → Option (IcmpMinHdr × Bytes)
  | type :: code :: c0 :: c1 :: rest => some (⟨type, code, ⟨c0, c1⟩⟩, rest)
  | _ => none

@[simp] theorem length_bytes (self : IcmpMinHdr) : self.bytes.length = 4 := rfl

@[simp] theorem parse_bytes (self : IcmpMinHdr) (rest : Bytes) :
    parse (self.bytes ++ rest) = some (self, rest) := rfl

theorem bytes_of_parse {data rest : Bytes} {hdr : IcmpMinHdr}
    (parsed : parse data = some (hdr, rest)) : data = hdr.bytes ++ rest := by
  unfold parse at parsed
  split at parsed
  · cases parsed
    rfl
  · cases parsed

end IcmpMinHdr

end Structs

end Mirage.Kernel
