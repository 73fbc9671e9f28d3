import Mirage.Kernel.Headers

/-!
The classifier of tc_divert.c. Direct packet access reaches the linear part of
a packet only; what the helpers do is an input. `bpf_l4_csum_replace` updates
the checksum field as RFC 1624 has it, with the two words it is given as the
machine loads them.
-/

namespace Mirage.Kernel.TcDivert
open Word Checksum

section Types

structure Skb where
  linear : Bytes
  paged : Bytes
  deriving DecidableEq

/-- `mtu` 0 or below 68 turns the clamp off, a zero mask the reflection. -/
structure DivertCfg where
  listenPort : UInt32
  mtu : UInt32
  fakeipNet : BitVec 32
  fakeipMask : BitVec 32

/-- The outcomes of the helpers: whether the two rewrites of a clamp succeed,
whether an address is in `direct_cidr`, and whether a listener is found. -/
structure Helpers where
  csumOk : Bool
  storeOk : Bool
  direct : BitVec 32 → Bool
  listener : UInt8 → Bool

inductive TcAction where
  | ok
  | redirect
  deriving DecidableEq

structure Outcome where
  action : TcAction
  skb : Skb
  mark : Bool
  assigned : Bool
  deriving DecidableEq

end Types

section Clamp

/-- The loop over the options: where the MSS option is that it stops at. -/
def findMss (optsLen : Nat) (opt : Bytes) : Nat → Nat → Option Nat
  | 0, _ => none
  | rounds + 1, pos =>
      if optsLen < pos + 2 then none
      else if opt.length < pos + 2 then none
      else
        let kind := opt.getD pos 0
        if kind = 0 then none
        else if kind = 1 then findMss optsLen opt rounds (pos + 1)
        else
          let olen := (opt.getD (pos + 1) 0).toNat
          if olen < 2 then none
          else if optsLen < pos + olen then none
          else if kind = 2 ∧ olen = 4 then
            if opt.length < pos + 4 then none else some pos
          else findMss optsLen opt rounds (pos + olen)

def be16At (data : Bytes) (pos : Nat) : Be16 := ⟨data.getD pos 0, data.getD (pos + 1) 0⟩

def storeBe16 (data : Bytes) (pos : Nat) (field : Be16) : Bytes :=
  data.take pos ++ field.bytes ++ data.drop (pos + 2)

/-- `opt` is what the linear part holds behind the TCP header. -/
def clampTcpMss (env : Helpers) (th : TcpHdr) (opt : Bytes) (maxMss : Nat) : TcpHdr × Bytes :=
  if th.doff * 4 ≤ 20 then (th, opt)
  else
    match findMss (th.doff * 4 - 20) opt 10 0 with
    | none => (th, opt)
    | some pos =>
        let oldMss := be16At opt (pos + 2)
        if maxMss < oldMss.toNat then
          let newMss := Be16.ofNat maxMss
          let check := .ofNative (replace th.check.native oldMss.native newMss.native)
          (if env.csumOk then { th with check := check } else th,
            if env.storeOk then storeBe16 opt (pos + 2) newMss else opt)
        else (th, opt)

end Clamp

section Program

def isDirectDst (d : BitVec 32) : Bool :=
  d &&& 0xff000000 = 0x0a000000 ∨ d &&& 0xfff00000 = 0xac100000 ∨ d &&& 0xffff0000 = 0xc0a80000 ∨
  d &&& 0xffc00000 = 0x64400000 ∨ d &&& 0xffff0000 = 0xa9fe0000 ∨ d &&& 0xff000000 = 0x7f000000 ∨
  d &&& 0xf0000000 = 0xe0000000 ∨ d = 0xffffffff

/-- The echo request turned around: addresses swapped, the type zero, and the
checksum raised by what the type lost. -/
def reflectIcmpEcho (eth : EthHdr) (ip : IpHdr) (icmp : IcmpMinHdr) : EthHdr × IpHdr × IcmpMinHdr :=
  let c := icmp.checksum.toNat + 0x0800
  let c := c % 65536 + c / 65536
  ({ eth with hDest := eth.hSource, hSource := eth.hDest },
    { ip with saddr := ip.daddr, daddr := ip.saddr },
    { icmp with checksum := .ofNat c, type := 0 })

/-- The decision after the clamp; `segment` is what follows the IP header. -/
def divert (env : Helpers) (skb : Skb) (ip : IpHdr) (segment : Bytes) : Outcome :=
  let pass := ⟨.ok, skb, false, false⟩
  let daddr := ip.daddr.bits
  if isDirectDst daddr then pass
  else if env.direct daddr then pass
  else if ip.protocol = 6 then
    match TcpHdr.parse segment with
    | none => pass
    | some (th, _) =>
        if !env.listener 6 then pass
        -- Only the first SYN is given to the listener; later packets are marked.
        else if th.syn && !th.ack then ⟨.ok, skb, true, true⟩
        else ⟨.ok, skb, true, false⟩
  else if ip.protocol = 17 then
    match UdpHdr.parse segment with
    | none => pass
    | some _ => if !env.listener 17 then pass else ⟨.ok, skb, true, true⟩
  else pass

def tcDivert (cfg : Option DivertCfg) (env : Helpers) (skb : Skb) : Outcome :=
  let pass := ⟨.ok, skb, false, false⟩
  match EthHdr.parse skb.linear with
  | none => pass
  | some (eth, rest) =>
    if eth.hProto.toNat ≠ 0x0800 then pass
    else
      match IpHdr.parse rest with
      | none => pass
      | some (ip, segment) =>
        if ip.ihl ≠ 5 then pass
        else
          match cfg with
          | none => pass
          | some cfg =>
            if ip.protocol = 1 then
              if cfg.fakeipMask ≠ 0 ∧ ip.daddr.bits &&& cfg.fakeipMask = cfg.fakeipNet then
                match IcmpMinHdr.parse segment with
                | none => pass
                | some (icmp, payload) =>
                  if icmp.type ≠ 8 ∨ icmp.code ≠ 0 then pass
                  else
                    let (eth, ip, icmp) := reflectIcmpEcho eth ip icmp
                    let linear := eth.bytes ++ (ip.bytes ++ (icmp.bytes ++ payload))
                    ⟨.redirect, { skb with linear := linear }, false, false⟩
              else pass
            else if 68 ≤ cfg.mtu ∧ ip.protocol = 6 then
              match TcpHdr.parse segment with
              | none => divert env skb ip segment
              | some (th, opt) =>
                if th.syn then
                  let (th, opt) := clampTcpMss env th opt ((cfg.mtu.toNat - 40) % 65536)
                  let segment := th.bytes ++ opt
                  divert env { skb with linear := eth.bytes ++ (ip.bytes ++ segment) } ip segment
                else divert env skb ip segment
            else divert env skb ip segment

end Program

end Mirage.Kernel.TcDivert
