import Mirage.Kernel.DnsReply
import Mirage.Kernel.MssClamp

/-!
What both packet rewriting programs leave of a packet. The classifier touches
two kinds of packets: a TCP SYN and an echo request to the fake-IP range.
-/

namespace Mirage.Kernel.TcDivert
open Word Checksum

section Kinds

/-- A TCP SYN that the clamp is switched on for. -/
structure Syn (cfg : Option DivertCfg) (skb : Skb) (active : DivertCfg) (eth : EthHdr) (ip : IpHdr)
    (th : TcpHdr) (opt : Bytes) : Prop where
  configured : cfg = some active
  enabled : 68 ≤ active.mtu
  linear : skb.linear = eth.bytes ++ (ip.bytes ++ (th.bytes ++ opt))
  proto : eth.hProto.toNat = 0x0800
  ihl : ip.ihl = 5
  tcp : ip.protocol = 6
  syn : th.syn = true

/-- An ICMP echo request to the fake-IP range. -/
structure FakeEcho (cfg : Option DivertCfg) (skb : Skb) (active : DivertCfg) (eth : EthHdr)
    (ip : IpHdr) (icmp : IcmpMinHdr) (payload : Bytes) : Prop where
  configured : cfg = some active
  linear : skb.linear = eth.bytes ++ (ip.bytes ++ (icmp.bytes ++ payload))
  proto : eth.hProto.toNat = 0x0800
  ihl : ip.ihl = 5
  isIcmp : ip.protocol = 1
  inRange : active.fakeipMask ≠ 0 ∧ ip.daddr.bits &&& active.fakeipMask = active.fakeipNet
  request : icmp.type = 8 ∧ icmp.code = 0

structure IcmpChecked (ip : IpHdr) (icmp : IcmpMinHdr) (payload : Bytes) : Prop where
  header : 24 ≤ ip.totLen.toNat
  sum : Valid (icmp.bytes ++ payload.take (ip.totLen.toNat - 24))

structure EchoReply (eth after : EthHdr) (ip ipAfter : IpHdr) (icmp icmpAfter : IcmpMinHdr)
    (payload : Bytes) : Prop where
  macs : after.hDest = eth.hSource ∧ after.hSource = eth.hDest
  addresses : ipAfter = { ip with saddr := ip.daddr, daddr := ip.saddr }
  reply : icmpAfter.type = 0 ∧ icmpAfter.code = 0
  ipChecksum : Valid ip.bytes → Valid ipAfter.bytes
  icmpChecksum : IcmpChecked ip icmp payload → IcmpChecked ipAfter icmpAfter payload

/-- A SYN is changed by the clamp only and rightly, an echo request to the
fake-IP range becomes its reply, and other packets are left alone. -/
structure Rewrites (cfg : Option DivertCfg) (env : Helpers) (skb : Skb) : Prop where
  clamped : ∀ active eth ip th opt, Syn cfg skb active eth ip th opt → ∃ after optAfter,
    (tcDivert cfg env skb).skb =
      { skb with linear := eth.bytes ++ (ip.bytes ++ (after.bytes ++ optAfter)) } ∧
    Clamped active.mtu.toNat ip th after opt optAfter skb.paged
  reflected : ∀ active eth ip icmp payload, FakeEcho cfg skb active eth ip icmp payload →
    ∃ ethAfter ipAfter icmpAfter, (tcDivert cfg env skb).action = .redirect ∧
      (tcDivert cfg env skb).skb =
        { skb with linear := ethAfter.bytes ++ (ipAfter.bytes ++ (icmpAfter.bytes ++ payload)) } ∧
      EchoReply eth ethAfter ip ipAfter icmp icmpAfter (payload ++ skb.paged)
  untouched : (∀ active eth ip th opt, ¬ Syn cfg skb active eth ip th opt) →
    (∀ active eth ip icmp payload, ¬ FakeEcho cfg skb active eth ip icmp payload) →
      (tcDivert cfg env skb).skb = skb

end Kinds

section Cases

variable {cfg : Option DivertCfg} {env : Helpers} {skb : Skb} {active : DivertCfg} {eth : EthHdr}
  {ip : IpHdr} {th : TcpHdr} {icmp : IcmpMinHdr} {opt payload : Bytes}

/-- The decision where a packet goes does not change it. -/
theorem divert_skb (env : Helpers) (skb : Skb) (ip : IpHdr) (segment : Bytes) :
    (divert env skb ip segment).skb = skb := by
  simp only [divert]
  repeat' split
  all_goals rfl

theorem tcDivert_syn (is_syn : Syn cfg skb active eth ip th opt) :
    (tcDivert cfg env skb).skb =
      { skb with linear := eth.bytes ++ (ip.bytes ++
        ((clampTcpMss env th opt ((active.mtu.toNat - 40) % 65536)).1.bytes ++
          (clampTcpMss env th opt ((active.mtu.toNat - 40) % 65536)).2)) } := by
  have notIcmp : ¬ ip.protocol = 1 := by
    rw [is_syn.tcp]
    decide
  unfold tcDivert
  simp only [is_syn.linear, EthHdr.parse_bytes, IpHdr.parse_bytes, TcpHdr.parse_bytes,
    is_syn.proto, is_syn.ihl, is_syn.configured, ne_eq, not_true_eq_false, if_false,
    if_neg notIcmp, is_syn.enabled, true_and, if_pos is_syn.tcp, is_syn.syn, if_true, divert_skb]

theorem tcDivert_echo (echo : FakeEcho cfg skb active eth ip icmp payload) :
    tcDivert cfg env skb =
      ⟨.redirect, { skb with linear := (reflectIcmpEcho eth ip icmp).1.bytes ++
        ((reflectIcmpEcho eth ip icmp).2.1.bytes ++
          ((reflectIcmpEcho eth ip icmp).2.2.bytes ++ payload)) }, false, false⟩ := by
  have request : ¬ (icmp.type ≠ 8 ∨ icmp.code ≠ 0) := by
    simp [echo.request]
  unfold tcDivert
  simp only [echo.linear, EthHdr.parse_bytes, IpHdr.parse_bytes, IcmpMinHdr.parse_bytes,
    echo.proto, echo.ihl, echo.configured, ne_eq, not_true_eq_false, if_false, echo.isIcmp, if_true,
    if_pos echo.inRange]
  exact if_neg request

theorem tcDivert_other (no_syn : ∀ active eth ip th opt, ¬ Syn cfg skb active eth ip th opt)
    (no_echo : ∀ active eth ip icmp payload, ¬ FakeEcho cfg skb active eth ip icmp payload) :
    (tcDivert cfg env skb).skb = skb := by
  simp only [tcDivert]
  split
  · rfl
  next eth afterEth isEth =>
  split
  · rfl
  next proto =>
  split
  · rfl
  next ip segment isIp =>
  split
  · rfl
  next ihl =>
  split
  · rfl
  next active =>
  have layout : skb.linear = eth.bytes ++ (ip.bytes ++ segment) := by
    rw [EthHdr.bytes_of_parse isEth, IpHdr.bytes_of_parse isIp]
  split
  · next isIcmp =>
    split
    · next inRange =>
      split
      · rfl
      next icmp payload parsed =>
      split
      · rfl
      next request =>
      have both : icmp.type = 8 ∧ icmp.code = 0 := by simpa using request
      rw [IcmpMinHdr.bytes_of_parse parsed] at layout
      exact absurd ⟨rfl, layout, not_not.mp proto, not_not.mp ihl, isIcmp, inRange, both⟩
        (no_echo active eth ip icmp payload)
    · rfl
  split
  · next enabled =>
    split
    · exact divert_skb env skb ip segment
    next th opt parsed =>
    split
    · next syn =>
      rw [TcpHdr.bytes_of_parse parsed] at layout
      exact absurd ⟨rfl, enabled.1, layout, not_not.mp proto, not_not.mp ihl, enabled.2, syn⟩
        (no_syn active eth ip th opt)
    · exact divert_skb env skb ip segment
  · exact divert_skb env skb ip segment

/-- What the checksum field gains is what the type word loses. -/
theorem reflect_replies (request : icmp.type = 8 ∧ icmp.code = 0) (payload : Bytes) :
    EchoReply eth (reflectIcmpEcho eth ip icmp).1 ip (reflectIcmpEcho eth ip icmp).2.1 icmp
      (reflectIcmpEcho eth ip icmp).2.2 payload := by
  have field := icmp.checksum.toNat_lt
  refine ⟨⟨rfl, rfl⟩, rfl, ⟨rfl, request.2⟩, ?_, ?_⟩
  · -- The same words in another order.
    intro valid
    have same : wordSum (reflectIcmpEcho eth ip icmp).2.1.bytes = wordSum ip.bytes := by
      simp only [reflectIcmpEcho, IpHdr.bytes, Be16.bytes, Be32.bytes, List.cons_append,
        List.nil_append, wordSum]
      omega
    rw [Valid, same]
    exact valid
  · rintro ⟨header, sum⟩
    refine ⟨header, ?_⟩
    have raised : (reflectIcmpEcho eth ip icmp).2.2.checksum.toNat =
        (icmp.checksum.toNat + 0x0800) % 65536 + (icmp.checksum.toNat + 0x0800) / 65536 := by
      rw [reflectIcmpEcho]
      simp only
      rw [Be16.toNat_ofNat]
      omega
    have words : ∀ (icmp : IcmpMinHdr) (data : Bytes), wordSum (icmp.bytes ++ data) =
        icmp.type.toNat * 256 + icmp.code.toNat + (icmp.checksum.toNat + wordSum data) :=
      fun _ _ => rfl
    have cleared : (reflectIcmpEcho eth ip icmp).2.2.type.toNat = 0 := rfl
    have kept : (reflectIcmpEcho eth ip icmp).2.2.code = icmp.code := rfl
    rw [valid_iff, words, request.1, request.2] at sum
    have length : (reflectIcmpEcho eth ip icmp).2.1.totLen = ip.totLen := rfl
    rw [valid_iff, words, cleared, kept, request.2, raised, length]
    generalize wordSum _ = data at sum ⊢
    obtain ⟨-, zero⟩ := sum
    have eight : (8 : UInt8).toNat = 8 := rfl
    have none_code : (0 : UInt8).toNat = 0 := rfl
    rw [eight, none_code] at zero
    rw [none_code]
    unfold Nat.ModEq at zero ⊢
    omega

end Cases

section Rewrites

variable {cfg : Option DivertCfg} {env : Helpers} {skb : Skb}

/-- The classifier rewrites rightly exactly if the clamp fits each SYN. -/
theorem rewrites_iff (cfg : Option DivertCfg) (env : Helpers) (skb : Skb) :
    Rewrites cfg env skb ↔ ∀ active eth ip th opt, Syn cfg skb active eth ip th opt →
      ClampFits env active.mtu.toNat ip th opt skb.paged := by
  constructor
  · intro rewrites active eth ip th opt is_syn
    obtain ⟨after, optAfter, same, clamped⟩ := rewrites.clamped active eth ip th opt is_syn
    have segment := congrArg Skb.linear ((tcDivert_syn is_syn).symm.trans same)
    simp only [List.append_cancel_left_eq] at segment
    have parsed := congrArg TcpHdr.parse segment
    rw [TcpHdr.parse_bytes, TcpHdr.parse_bytes] at parsed
    obtain ⟨rfl, rfl⟩ := Prod.mk.inj (Option.some.inj parsed)
    exact (clamped_iff is_syn.tcp).mp clamped
  · intro fits
    refine ⟨?_, ?_, tcDivert_other⟩
    · intro active eth ip th opt is_syn
      exact ⟨_, _, tcDivert_syn is_syn,
        (clamped_iff is_syn.tcp).mpr (fits active eth ip th opt is_syn)⟩
    · intro active eth ip icmp payload echo
      refine ⟨_, _, _, ?_, ?_, reflect_replies echo.request _⟩
      · rw [tcDivert_echo echo]
      · rw [tcDivert_echo echo]

/-- Each XDP frame comes back as it was or as a whole response, exactly if each
hit is a tidy query that gets room for its answer; and the classifier changes
what it should and no more, exactly if the clamp fits each SYN. -/
theorem rewriting_iff (cache : DnsXdp.DnsCache)
    (adjustTail : Option { tail : Bytes // tail.length = 16 }) (frame : Bytes)
    (cfg : Option DivertCfg) (env : Helpers) (skb : Skb) :
    (DnsXdp.AllOrNothing cache adjustTail frame ↔
      ∀ query : DnsXdp.Query, frame = query.bytes → query.Plain →
        cache.lookup query.hash ≠ none → adjustTail ≠ none ∧ DnsXdp.Tidy query) ∧
    (Rewrites cfg env skb ↔
      ∀ active eth ip th opt, Syn cfg skb active eth ip th opt →
        ClampFits env active.mtu.toNat ip th opt skb.paged) :=
  ⟨DnsXdp.allOrNothing_iff cache adjustTail frame, rewrites_iff cfg env skb⟩

def sampleEth : EthHdr := ⟨⟨2, 0, 0, 0, 0, 1⟩, ⟨2, 0, 0, 0, 0, 2⟩, ⟨8, 0⟩⟩

/-- A query for `a.com`. -/
def sampleQuery : DnsXdp.Query where
  eth := sampleEth
  iph := ⟨0x45, 0, ⟨0, 51⟩, ⟨0, 0⟩, ⟨0, 0⟩, 64, 17, ⟨0, 0⟩, ⟨10, 0, 0, 2⟩, ⟨10, 0, 0, 1⟩⟩
  udph := ⟨⟨0x30, 0x39⟩, ⟨0, 53⟩, ⟨0, 31⟩, ⟨0, 0⟩⟩
  dns := ⟨⟨0x12, 0x34⟩, ⟨1, 0⟩, ⟨0, 1⟩, ⟨0, 0⟩, ⟨0, 0⟩, ⟨0, 0⟩⟩
  rest := [1, 97, 3, 99, 111, 109, 0, 0, 1, 0, 1]

/-- A SYN whose MSS option follows one NOP. -/
def sampleIp : IpHdr :=
  ⟨0x45, 0, ⟨0, 48⟩, ⟨0, 0⟩, ⟨0, 0⟩, 64, 6, ⟨0, 0⟩, ⟨10, 0, 0, 2⟩, ⟨93, 184, 216, 34⟩⟩

def sampleTcp : TcpHdr :=
  ⟨⟨0x30, 0x39⟩, ⟨1, 187⟩, ⟨0, 0, 0, 1⟩, ⟨0, 0, 0, 0⟩, 0x70, 2, ⟨255, 255⟩, ⟨99, 255⟩, ⟨0, 0⟩⟩

def sampleOptions : Bytes := [1, 2, 4, 5, 180, 1, 1, 1]

def sampleSkb : Skb := ⟨sampleEth.bytes ++ (sampleIp.bytes ++ (sampleTcp.bytes ++ sampleOptions)), []⟩

theorem sampleQuery_plain : sampleQuery.Plain := by
  constructor <;> decide +kernel

theorem sampleSkb_syn : Syn (some ⟨0, 1400, 0, 0⟩) sampleSkb ⟨0, 1400, 0, 0⟩ sampleEth sampleIp
    sampleTcp sampleOptions := by
  constructor
  · rfl
  · decide
  · rfl
  all_goals decide

theorem sampleSkb_checked : Checked sampleIp sampleTcp sampleOptions [] := by
  constructor <;> decide +kernel

/-- A query that gets no room passes with its addresses swapped, and a clamp at
an odd distance breaks the checksum. -/
theorem rewritten_in_part :
    (¬ ∀ cache adjustTail frame, DnsXdp.AllOrNothing cache adjustTail frame) ∧
      ¬ ∀ cfg env skb, Rewrites cfg env skb := by
  constructor
  · intro all
    have hit : (AList.insert sampleQuery.hash 0xC6120002 (∅ : DnsXdp.DnsCache)).lookup
        sampleQuery.hash ≠ none := by
      rw [AList.lookup_insert]
      exact Option.some_ne_none _
    exact ((DnsXdp.allOrNothing_iff _ none sampleQuery.bytes).mp (all _ none sampleQuery.bytes)
      sampleQuery rfl sampleQuery_plain hit).1 rfl
  · intro all
    have fits := (rewrites_iff _ ⟨true, true, fun _ => false, fun _ => true⟩ _).mp
      (all _ ⟨true, true, fun _ => false, fun _ => true⟩ sampleSkb) _ _ _ _ _ sampleSkb_syn
    have stop : reached (optionArea sampleTcp sampleOptions []) sampleOptions.length 10 0 =
        some ⟨1, 2, 4⟩ := by
      decide +kernel
    have large : (1400 - 40) % 65536 <
        TcpOption.mss (optionArea sampleTcp sampleOptions []) ⟨1, 2, 4⟩ := by
      decide +kernel
    have cancels := fits.aligned ⟨1, 2, 4⟩ stop large sampleSkb_checked
    revert cancels
    decide +kernel

end Rewrites

end Mirage.Kernel.TcDivert
