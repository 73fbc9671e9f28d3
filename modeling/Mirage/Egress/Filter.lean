import Mirage.Egress.ServerRouter
import Mirage.Udp.Mux

/-!
The egress filter: `egress_allowed` of net_util.rs, the two functions of
proxy/resolver.rs that pick an address under it, and the conversion for a dual-stack
socket. Where the filter's code tests bits, the law about it names prefixes.
-/

namespace Mirage.Egress
open Router AddressPrefix NumberText
open Udp (SocketAddr)

section Addresses

/-- `Ipv6Addr::to_ipv4_mapped`. -/
def toIpv4Mapped (addr : BitVec 128) : Option (BitVec 32) :=
  if addr.toNat / 2 ^ 32 = 0xffff then some (addr.setWidth 32) else none

/-- `Ipv4Addr::to_ipv6_mapped`. -/
def toIpv6Mapped (addr : BitVec 32) : BitVec 128 := BitVec.ofNat 128 (0xffff * 2 ^ 32 + addr.toNat)

def unmapped : IpAddr → IpAddr
  | .v4 addr => .v4 addr
  | .v6 addr =>
      match toIpv4Mapped addr with
      | some v4 => .v4 v4
      | none => .v6 addr

def isMulticast : IpAddr → Bool
  | .v4 addr => addr.toNat / 2 ^ 28 = 0xe
  | .v6 addr => addr.toNat / 2 ^ 120 = 0xff

def isBroadcast : IpAddr → Bool
  | .v4 addr => addr = 0xffffffff#32
  | .v6 _ => false

def isLoopback : IpAddr → Bool
  | .v4 addr => addr.toNat / 2 ^ 24 = 127
  | .v6 addr => addr = 1#128

def isUnspecified : IpAddr → Bool
  | .v4 addr => addr = 0#32
  | .v6 addr => addr = 0#128

/-- For IPv6 the test that `egress_allowed` makes on the first segment. -/
def isLinkLocal : IpAddr → Bool
  | .v4 addr => addr.toNat / 2 ^ 16 = 0xa9fe
  | .v6 addr => addr.toNat / 2 ^ 112 &&& 0xffc0 = 0xfe80

/-- 100.100.100.200, 168.63.129.16 and fd00:ec2::254. -/
def isMetadata : IpAddr → Bool
  | .v4 addr => addr = 0x646464c8#32 || addr = 0xa83f8110#32
  | .v6 addr => addr = 0xfd000ec2000000000000000000000254#128

def egressAllowed (localIps : List IpAddr) (ip : IpAddr) (allowLocal : Bool) : Bool :=
  let ip := unmapped ip
  if isMulticast ip || isBroadcast ip then false
  else if allowLocal then true
  else if isLoopback ip || isUnspecified ip || isLinkLocal ip || isMetadata ip then false
  else !localIps.contains ip

end Addresses

section Prefixes

def net4 (addr : Nat) (len : Fin 33) : IpNet :=
  .v4 ⟨BitVec.ofNat 32 addr, len, Nat.lt_succ_iff.mp len.isLt⟩

def net6 (addr : Nat) (len : Fin 129) : IpNet :=
  .v6 ⟨BitVec.ofNat 128 addr, len, Nat.lt_succ_iff.mp len.isLt⟩

/-- Multicast and broadcast. -/
def nonUnicast : List IpNet := [net4 0xe0000000 4, net4 0xffffffff 32, net6 (0xff * 2 ^ 120) 8]

/-- Loopback, unspecified and link-local addresses, and the metadata services. -/
def internal : List IpNet :=
  [net4 0x7f000000 8, net4 0 32, net4 0xa9fe0000 16, net4 0x646464c8 32, net4 0xa83f8110 32,
    net6 1 128, net6 0 128, net6 (0xfe80 * 2 ^ 112) 10, net6 0xfd000ec2000000000000000000000254 128]

theorem net4_contains (addr : Nat) (len : Fin 33) (ip : BitVec 32) :
    (net4 addr len).contains (.v4 ip) =
      decide (ip.toNat / 2 ^ (32 - len.val) = addr % 2 ^ 32 / 2 ^ (32 - len.val)) := by
  apply Bool.eq_iff_iff.mpr
  rw [decide_eq_true_iff]
  exact contains_iff_div _ ip

theorem net6_contains (addr : Nat) (len : Fin 129) (ip : BitVec 128) :
    (net6 addr len).contains (.v6 ip) =
      decide (ip.toNat / 2 ^ (128 - len.val) = addr % 2 ^ 128 / 2 ^ (128 - len.val)) := by
  apply Bool.eq_iff_iff.mpr
  rw [decide_eq_true_iff]
  exact contains_iff_div _ ip

/-- The mask of `fe80::/10` on a segment keeps its ten leading bits. -/
theorem segment_mask {segment : Nat} (small : segment < 2 ^ 16) :
    segment &&& 0xffc0 = segment >>> 6 <<< 6 := by
  have mask : 0xffc0 = (2 ^ 10 - 1) <<< 6 := by decide
  apply Nat.eq_of_testBit_eq
  intro i
  rw [Nat.testBit_and, mask, Nat.testBit_shiftLeft, Nat.testBit_shiftLeft,
    Nat.testBit_two_pow_sub_one, Nat.testBit_shiftRight]
  by_cases high : 6 ≤ i
  · rw [Nat.add_sub_cancel' high]
    by_cases beyond : 16 ≤ i
    · have clear : segment.testBit i = false :=
        Nat.testBit_lt_two_pow (small.trans_le (Nat.pow_le_pow_right (by decide) beyond))
      simp [clear]
    · have inside : i - 6 < 10 := by omega
      simp [high, inside]
  · simp [high]

theorem linkLocal_segment (addr : BitVec 128) :
    addr.toNat / 2 ^ 112 &&& 0xffc0 = 0xfe80 ↔ addr.toNat / 2 ^ 118 = 0x3fa := by
  have small : addr.toNat / 2 ^ 112 < 2 ^ 16 := by
    apply Nat.div_lt_of_lt_mul
    exact addr.isLt
  rw [segment_mask small, Nat.shiftRight_eq_div_pow, Nat.shiftLeft_eq, Nat.div_div_eq_div_mul]
  omega

@[simp] theorem net4_contains_v6 (addr : Nat) (len : Fin 33) (ip : BitVec 128) :
    (net4 addr len).contains (.v6 ip) = false := rfl

@[simp] theorem net6_contains_v4 (addr : Nat) (len : Fin 129) (ip : BitVec 32) :
    (net6 addr len).contains (.v4 ip) = false := rfl

theorem nonUnicast_eq (ip : IpAddr) :
    (isMulticast ip || isBroadcast ip) = nonUnicast.any (·.contains ip) := by
  cases ip with
  | v4 addr => simp [isMulticast, isBroadcast, nonUnicast, net4_contains, BitVec.toNat_eq]
  | v6 addr => simp [isMulticast, isBroadcast, nonUnicast, net6_contains]

theorem internal_eq (ip : IpAddr) :
    (isLoopback ip || isUnspecified ip || isLinkLocal ip || isMetadata ip) =
      internal.any (·.contains ip) := by
  cases ip with
  | v4 addr =>
      simp [isLoopback, isUnspecified, isLinkLocal, isMetadata, internal, net4_contains,
        BitVec.toNat_eq, Bool.or_assoc]
  | v6 addr =>
      simp only [isLoopback, isUnspecified, isLinkLocal, isMetadata, linkLocal_segment]
      simp [internal, net6_contains, BitVec.toNat_eq, Bool.or_assoc]

/-- What the filter lets through, by prefixes. -/
theorem egressAllowed_iff (localIps : List IpAddr) (ip : IpAddr) (allowLocal : Bool) :
    egressAllowed localIps ip allowLocal = true ↔
      (∀ net ∈ nonUnicast, net.contains (unmapped ip) = false) ∧
        (allowLocal = false →
          (∀ net ∈ internal, net.contains (unmapped ip) = false) ∧ unmapped ip ∉ localIps) := by
  have outside : ∀ nets : List IpNet, (∀ net ∈ nets, net.contains (unmapped ip) = false) ↔
      nets.any (·.contains (unmapped ip)) = false := by
    intro nets
    rw [List.any_eq_false]
    exact forall₂_congr fun net _ => Bool.eq_false_iff
  unfold egressAllowed
  dsimp only
  rw [nonUnicast_eq, internal_eq, outside, outside]
  cases nonUnicast.any (·.contains (unmapped ip)) with
  | true => simp
  | false =>
      cases allowLocal with
      | true => simp
      | false =>
          cases internal.any (·.contains (unmapped ip)) with
          | true => simp
          | false => simp

end Prefixes

section Picking

/-- Bound to `[::]` the socket takes IPv4 targets as mapped addresses, bound to `0.0.0.0`
it takes nothing else. -/
def prepareTargetAddr (target : SocketAddr) (isDualStack : Bool) : Option SocketAddr :=
  match target.ip with
  | .v4 addr => some (if isDualStack then ⟨.v6 (toIpv6Mapped addr), target.port⟩ else target)
  | .v6 _ => if isDualStack then some target else none

theorem toIpv4Mapped_toIpv6Mapped (addr : BitVec 32) : toIpv4Mapped (toIpv6Mapped addr) = some addr := by
  have value : (toIpv6Mapped addr).toNat = 0xffff * 2 ^ 32 + addr.toNat := by
    have small := addr.isLt
    rw [toIpv6Mapped, BitVec.toNat_ofNat, Nat.mod_eq_of_lt (by omega)]
  have marked : (toIpv6Mapped addr).toNat / 2 ^ 32 = 0xffff := by
    rw [value]
    have small := addr.isLt
    omega
  have low : (toIpv6Mapped addr).setWidth 32 = addr := by
    apply BitVec.eq_of_toNat_eq
    rw [BitVec.toNat_setWidth, value]
    have small := addr.isLt
    omega
  rw [toIpv4Mapped, if_pos marked, low]

/-- The conversion leaves the address what it is to the filter. -/
theorem prepareTargetAddr_unmapped {target sent : SocketAddr} {isDualStack : Bool}
    (prepared : prepareTargetAddr target isDualStack = some sent) :
    unmapped sent.ip = unmapped target.ip := by
  obtain ⟨ip, port⟩ := target
  cases isDualStack with
  | false =>
      cases ip with
      | v4 addr =>
          cases prepared
          rfl
      | v6 addr => cases prepared
  | true =>
      cases ip with
      | v4 addr =>
          cases prepared
          simp only [unmapped, if_true, toIpv4Mapped_toIpv6Mapped]
      | v6 addr =>
          cases prepared
          rfl

inductive ErrorKind where
  | permissionDenied
  | notFound
  | invalidInput
  | timedOut
  | addrNotAvailable
  | other
  deriving DecidableEq

/-- `resolved` is what `resolve_cached` gives for a name, from its cache or not. -/
def resolveFirstFiltered (host : String) (port : UInt16) (filter : IpAddr → Bool)
    (resolved : Except ErrorKind (List IpAddr)) : Except ErrorKind SocketAddr :=
  match parseIpAddr host with
  | some ip => if filter ip then .ok ⟨ip, port⟩ else .error .permissionDenied
  | none =>
      match resolved with
      | .error e => .error e
      | .ok ips =>
          if ips.isEmpty then .error .notFound
          else
            match ips.find? filter with
            | some ip => .ok ⟨ip, port⟩
            | none => .error .permissionDenied

theorem resolveFirstFiltered_passes {host : String} {port : UInt16} {filter : IpAddr → Bool}
    {resolved : Except ErrorKind (List IpAddr)} {addr : SocketAddr}
    (picked : resolveFirstFiltered host port filter resolved = .ok addr) : filter addr.ip = true := by
  unfold resolveFirstFiltered at picked
  split at picked
  · split at picked
    · cases picked
      assumption
    · cases picked
  · split at picked
    · cases picked
    · split at picked
      · cases picked
      · split at picked
        · rename_i ip found
          cases picked
          exact List.find?_some found
        · cases picked

/-- A call of `connect_smart_filtered`: the addresses it has not looked at yet, and what
came of those it has, or its result. -/
inductive Connecting where
  | trying (port : UInt16) (left : List IpAddr) (lastErr : Option ErrorKind) (anyAllowed : Bool)
  | done (result : Except ErrorKind SocketAddr)

namespace Connecting

/-- An address in the target is the only candidate and is not resolved. -/
def start (target : String) (resolved : Except ErrorKind (List IpAddr)) : Connecting :=
  match splitHostPort target with
  | none => done (.error .invalidInput)
  | some (host, port) =>
      match parseIpAddr host with
      | some ip => trying port [ip] none false
      | none =>
          match resolved with
          | .error e => done (.error e)
          | .ok ips => trying port ips none false

/-- The next address: what is dialled, which fails or not, and how the call stands. -/
def next (filter : IpAddr → Bool) (failed : Option ErrorKind) :
    Connecting → Option SocketAddr × Connecting
  | done result => (none, done result)
  | trying _ [] lastErr anyAllowed =>
      if anyAllowed then (none, done (.error (lastErr.getD .addrNotAvailable)))
      else (none, done (.error .permissionDenied))
  | trying port (ip :: left) lastErr anyAllowed =>
      if filter ip then
        match failed with
        | none => (some ⟨ip, port⟩, done (.ok ⟨ip, port⟩))
        | some e => (some ⟨ip, port⟩, trying port left (some e) true)
      else (none, trying port left lastErr anyAllowed)

theorem next_passes {filter : IpAddr → Bool} {failed : Option ErrorKind} {call : Connecting}
    {addr : SocketAddr} (dialled : (call.next filter failed).1 = some addr) : filter addr.ip = true := by
  unfold next at dialled
  split at dialled
  · cases dialled
  · split at dialled
    · cases dialled
    · cases dialled
  · split at dialled
    · rename_i passes
      split at dialled
      · cases dialled
        exact passes
      · cases dialled
        exact passes
    · cases dialled

end Connecting

end Picking

end Mirage.Egress
