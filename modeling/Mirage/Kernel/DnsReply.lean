import Mirage.Kernel.DnsXdp

/-!
What dns_xdp.c makes of a frame: either the frame as it came or a whole
response. The program swaps addresses and ports before it asks for room for the
record, and it does not compare the lengths in the headers with the end of the
question, so this holds under a condition.
-/

namespace Mirage.Kernel.DnsXdp
open Word Checksum Dns

section Overlay

variable {query other : Query}

theorem Query.bytes_injective (same : query.bytes = other.bytes) : query = other := by
  have headers := congrArg EthHdr.parse same
  rw [Query.bytes, Query.bytes, EthHdr.parse_bytes, EthHdr.parse_bytes] at headers
  obtain ⟨eth, afterEth⟩ := Prod.mk.inj (Option.some.inj headers)
  have iph := congrArg IpHdr.parse afterEth
  rw [IpHdr.parse_bytes, IpHdr.parse_bytes] at iph
  obtain ⟨iph, afterIp⟩ := Prod.mk.inj (Option.some.inj iph)
  have udph := congrArg UdpHdr.parse afterIp
  rw [UdpHdr.parse_bytes, UdpHdr.parse_bytes] at udph
  obtain ⟨udph, afterUdp⟩ := Prod.mk.inj (Option.some.inj udph)
  have dns := congrArg DnsHdr.parse afterUdp
  rw [DnsHdr.parse_bytes, DnsHdr.parse_bytes] at dns
  obtain ⟨dns, rest⟩ := Prod.mk.inj (Option.some.inj dns)
  cases query
  cases other
  cases eth
  cases iph
  cases udph
  cases dns
  cases rest
  rfl

end Overlay

section IpChecksum

theorem nativeSum_modEq {data : Bytes} (even : data.length % 2 = 0) :
    nativeSum data ≡ 256 * wordSum data [MOD 65535] := by
  induction data using wordSum.induct with
  | case1 => rfl
  | case2 high => simp at even
  | case3 high low rest ih =>
      have fewer : rest.length % 2 = 0 := by
        simp only [List.length_cons] at even
        omega
      have tail := ih fewer
      simp only [nativeSum, wordSum, fromBe16]
      unfold Nat.ModEq at tail ⊢
      omega

theorem nativeSum_le (data : Bytes) : nativeSum data ≤ 65535 * (data.length / 2) := by
  induction data using wordSum.induct with
  | case1 => exact Nat.zero_le _
  | case2 high => exact Nat.zero_le _
  | case3 high low rest ih =>
      have := high.toNat_lt
      have := low.toNat_lt
      simp only [nativeSum, fromBe16, List.length_cons]
      omega

theorem wordSum_iphdr (iph : IpHdr) (check : Be16) :
    wordSum { iph with check := check }.bytes =
      wordSum { iph with check := .ofNat 0 }.bytes + check.toNat := by
  have none_yet : (Be16.ofNat 0).toNat = 0 := rfl
  simp only [IpHdr.bytes, Be16.bytes, Be32.bytes, List.cons_append, List.nil_append, wordSum,
    Be16.toNat] at none_yet ⊢
  omega

/-- Two rounds fold the carries of ten words. -/
theorem folded_modEq {sum : Nat} (small : sum ≤ 655350) :
    ((sum % 65536 + sum / 65536) + (sum % 65536 + sum / 65536) / 65536) % 65536 ≡ sum
      [MOD 65535] := by
  have once : sum % 65536 + sum / 65536 ≡ sum [MOD 65535] := by
    unfold Nat.ModEq
    omega
  have bounded : sum % 65536 + sum / 65536 ≤ 65544 := by omega
  refine Nat.ModEq.trans ?_ once
  generalize sum % 65536 + sum / 65536 = csum at bounded
  rcases Nat.lt_or_ge csum 65536 with fits | carry
  · rw [Nat.div_eq_of_lt fits, Nat.add_zero, Nat.mod_eq_of_lt fits]
  · have one : csum / 65536 = 1 := by omega
    rw [one]
    unfold Nat.ModEq
    omega

/-- The header checksum is recomputed as RFC 1071 has it. -/
theorem ipChecksum_valid {iph : IpHdr} (ihl : iph.ihl = 5) (blank : iph.check = .ofNat 0) :
    Valid { iph with check := ipChecksum iph }.bytes := by
  have words : nativeSum iph.bytes ≡ 256 * wordSum iph.bytes [MOD 65535] :=
    nativeSum_modEq (by rw [IpHdr.length_bytes])
  have small := nativeSum_le iph.bytes
  rw [IpHdr.length_bytes] at small
  have folded := folded_modEq small
  have same : { iph with check := .ofNat 0 } = iph := by rw [← blank]
  -- The field as it is loaded and the native sum cancel.
  have cancel : (ipChecksum iph).native + nativeSum iph.bytes ≡ 0 [MOD 65535] := by
    refine (Nat.ModEq.add_left _ folded.symm).trans ?_
    rw [ipChecksum, Be16.native_ofNative]
    unfold Nat.ModEq
    omega
  have loaded : (ipChecksum iph).native ≡ 256 * (ipChecksum iph).toNat [MOD 65535] := by
    rw [Be16.native_eq]
    exact swap_modEq _
  have scaled : 256 * ((ipChecksum iph).toNat + wordSum iph.bytes) ≡ 0 [MOD 65535] := by
    rw [Nat.mul_add]
    exact (loaded.symm.add words.symm).trans cancel
  have nonzero : 0 < wordSum iph.bytes := by
    apply wordSum_pos (b := iph.versionIhl)
    · exact List.mem_cons_self
    · intro zero
      rw [IpHdr.ihl, zero] at ihl
      cases ihl
  rw [valid_iff, wordSum_iphdr, same]
  refine ⟨Nat.lt_of_lt_of_le nonzero (Nat.le_add_right _ _), ?_⟩
  unfold Nat.ModEq at scaled ⊢
  omega

end IpChecksum

section Response

/-- A question as it stands behind the DNS header: a legal name, type and class. -/
def IsQuestion (question : Bytes) : Prop :=
  ∃ (labels : List Bytes) (qtype qclass : Be16), question = encodeName labels ++ (qtype.bytes ++ qclass.bytes) ∧
    (∀ label ∈ labels, LabelFits label) ∧ (encodeName labels).length ≤ 255

def IsAnswer (record : Bytes) : Prop :=
  ∃ ttl ip : Be32, record = [0xC0, 0x0C, 0, 1, 0, 1] ++ ttl.bytes ++ [0, 4] ++ ip.bytes

def Query.payload (self : Query) : Bytes :=
  (self.dns.bytes ++ self.rest).take (self.udph.len.toNat - 8)

structure Responds (query reply : Query) : Prop where
  macs : reply.eth.hDest = query.eth.hSource ∧ reply.eth.hSource = query.eth.hDest
  addresses : reply.iph.saddr = query.iph.daddr ∧ reply.iph.daddr = query.iph.saddr
  ports : reply.udph.source = query.udph.dest ∧ reply.udph.dest = query.udph.source
  ipLength : reply.iph.totLen.toNat = 20 + reply.udph.len.toNat
  inside : reply.udph.len.toNat ≤ 20 + reply.rest.length
  ipChecksum : Valid reply.iph.bytes
  /-- No checksum, which IPv4 allows. -/
  udpChecksum : reply.udph.check.toNat = 0
  id : reply.dns.id = query.dns.id
  response : reply.dns.flags.toNat &&& 0x8000 ≠ 0
  counts : reply.dns.qdcount.toNat = 1 ∧ reply.dns.ancount.toNat = 1 ∧
    reply.dns.nscount.toNat = 0 ∧ reply.dns.arcount.toNat = 0
  body : ∃ question record, reply.payload = reply.dns.bytes ++ (question ++ record) ∧
    question <+: query.rest ∧ IsQuestion question ∧ IsAnswer record

/-- Either the frame passes as it came, or a whole response goes out. -/
def AllOrNothing (cache : DnsCache) (adjustTail : Option { tail : Bytes // tail.length = 16 })
    (frame : Bytes) : Prop :=
  mirageXdpDns cache adjustTail frame = (.pass, frame) ∨
    ∃ query reply : Query, frame = query.bytes ∧
      mirageXdpDns cache adjustTail frame = (.tx, reply.bytes) ∧ Responds query reply

structure Tidy (query : Query) : Prop where
  legal : LegalQuestion (dnsMessage query.bytes)
  udpLength : query.udph.len.toNat = 8 + questionEnd (dnsMessage query.bytes)
  ipLength : query.iph.totLen.toNat = 20 + query.udph.len.toNat

variable {query : Query} {tail : Bytes} {fakeIp : BitVec 32}

theorem swapped_ne (plain : query.Plain) : query.swapped.bytes ≠ query.bytes := by
  intro same
  have flags := congrArg (fun query : Query => query.dns.flags.toNat) (Query.bytes_injective same)
  have fresh := plain.question.2
  change (Be16.ofNat 0x8180).toNat = query.dns.flags.toNat at flags
  rw [← flags] at fresh
  exact absurd fresh (by decide)

theorem offset_of_question {labels : List Bytes} {more : Bytes}
    (written : query.rest = encodeName labels ++ more)
    (fits : ∀ label ∈ labels, LabelFits label) (short : (encodeName labels).length ≤ 255) :
    LegalQuestion (dnsMessage query.bytes) ∧ query.offset = (encodeName labels).length := by
  have placed : (dnsMessage query.bytes).drop 12 = encodeName labels ++ more := by
    rw [← written]
    rfl
  have named : questionName (dnsMessage query.bytes) = (labels, .root) :=
    nameAt_encodeName placed fits
  have legal : LegalQuestion (dnsMessage query.bytes) :=
    ⟨by rw [named], by rw [named]; exact short⟩
  refine ⟨legal, ?_⟩
  rw [Query.offset, Query.hashDomain_eq legal, named]

theorem take_four {data : Bytes} (enough : 4 ≤ data.length) :
    ∃ qtype qclass : Be16, data.take 4 = qtype.bytes ++ qclass.bytes := by
  obtain _ | ⟨t0, _ | ⟨t1, _ | ⟨c0, _ | ⟨c1, rest⟩⟩⟩⟩ := data
  · cases enough
  · cases enough
    contradiction
  · simp at enough
  · simp at enough
  · exact ⟨⟨t0, t1⟩, ⟨c0, c1⟩, rfl⟩

/-- The answered frame holds a whole response exactly if the query was tidy. -/
theorem responds_iff_tidy (plain : query.Plain) (sixteen : tail.length = 16) :
    Responds query ((query.swapped.grown tail).answered (query.offset + 4) fakeIp) ↔
      Tidy query := by
  have room := plain.room
  have kept : (query.rest ++ tail).take (query.offset + 4) = query.rest.take (query.offset + 4) := by
    rw [List.take_append_of_le_length room]
  have rest : ((query.swapped.grown tail).answered (query.offset + 4) fakeIp).rest =
      query.rest.take (query.offset + 4) ++
        (answerRecord fakeIp ++ (query.rest ++ tail).drop (query.offset + 4 + 16)) := by
    rw [← kept, ← List.append_assoc]
    rfl
  have length : ((query.swapped.grown tail).answered (query.offset + 4) fakeIp).rest.length =
      query.rest.length + 16 := by
    rw [rest, List.length_append, List.length_append, List.length_take, List.length_drop,
      List.length_append, sixteen, show (answerRecord fakeIp).length = 16 from rfl]
    omega
  have udpLen : ((query.swapped.grown tail).answered (query.offset + 4) fakeIp).udph.len.toNat =
      (query.udph.len.toNat + 16) % 65536 := Be16.toNat_ofNat _
  have totLen : ((query.swapped.grown tail).answered (query.offset + 4) fakeIp).iph.totLen.toNat =
      (query.iph.totLen.toNat + 16) % 65536 := Be16.toNat_ofNat _
  have := query.udph.len.toNat_lt
  have := query.iph.totLen.toNat_lt
  constructor
  -- Where a response is read back, the record fills the payload, which fixes the lengths.
  · intro responds
    obtain ⟨question, record, body, asked, ⟨labels, qtype, qclass, rfl, fits, short⟩,
      ⟨ttl, ip, rfl⟩⟩ := responds.body
    obtain ⟨more, behind⟩ := asked
    rw [List.append_assoc] at behind
    obtain ⟨legal, offset⟩ := offset_of_question behind.symm fits short
    have size := congrArg List.length body
    have inside := responds.inside
    have ipLength := responds.ipLength
    rw [length] at inside
    rw [totLen] at ipLength
    simp only [Query.payload, List.length_take, List.length_append, DnsHdr.length_bytes, length,
      Be16.bytes, Be32.bytes, List.length_cons, List.length_nil] at size
    rw [udpLen] at inside ipLength size
    refine ⟨legal, ?_, ?_⟩
    · rw [Query.questionEnd_eq plain legal]
      omega
    · omega
  · rintro ⟨legal, udpLength, ipLength⟩
    rw [Query.questionEnd_eq plain legal] at udpLength
    have short := legal.short
    have offset : query.offset = (encodeName (questionName (dnsMessage query.bytes)).1).length := by
      rw [Query.offset, Query.hashDomain_eq legal]
    obtain ⟨more, written⟩ := Query.rest_eq legal
    have four : 4 ≤ more.length := by
      rw [written, List.length_append, offset] at room
      omega
    have question : IsQuestion (query.rest.take (query.offset + 4)) := by
      obtain ⟨qtype, qclass, fields⟩ := take_four four
      refine ⟨(questionName (dnsMessage query.bytes)).1, qtype, qclass, ?_, (nameAt_root legal.root).2, short⟩
      rw [written, offset, List.take_length_add_append, fields]
    refine ⟨⟨rfl, rfl⟩, ⟨rfl, rfl⟩, ⟨rfl, rfl⟩, ?_, ?_, ?_, ?_, rfl, ?_, ?_, ?_⟩
    · rw [totLen, udpLen]
      omega
    · rw [udpLen, length]
      omega
    · exact ipChecksum_valid plain.ihl rfl
    · exact Be16.toNat_ofNat 0
    · change (Be16.ofNat 0x8180).toNat &&& 0x8000 ≠ 0
      decide
    · exact ⟨plain.question.1, Be16.toNat_ofNat 1, plain.bare.2.1, plain.bare.2.2⟩
    · refine ⟨query.rest.take (query.offset + 4), answerRecord fakeIp, ?_, List.take_prefix _ _,
        question, ⟨⟨0, 0, 2, 0x58⟩, Be32.ofBits fakeIp, rfl⟩⟩
      have end_of_payload : (query.udph.len.toNat + 16) % 65536 - 8 =
          12 + (query.offset + 4 + 16) := by
        omega
      have taken : (query.rest.take (query.offset + 4) ++ answerRecord fakeIp).length =
          query.offset + 4 + 16 := by
        rw [List.length_append, List.length_take, Nat.min_eq_left room]
        rfl
      have header : ∀ dns : DnsHdr, dns.bytes.take (12 + (query.offset + 4 + 16)) = dns.bytes := by
        intro dns
        apply List.take_of_length_le
        rw [DnsHdr.length_bytes]
        exact Nat.le_add_right _ _
      rw [Query.payload, rest, udpLen, end_of_payload, ← List.append_assoc (query.rest.take _),
        List.take_append, DnsHdr.length_bytes, header, Nat.add_sub_cancel_left, List.take_left' taken]

/-- A frame comes back as it was or as a whole response, exactly if each hit is
a tidy query that gets room for its answer. -/
theorem allOrNothing_iff (cache : DnsCache)
    (adjustTail : Option { tail : Bytes // tail.length = 16 }) (frame : Bytes) :
    AllOrNothing cache adjustTail frame ↔
      ∀ query : Query, frame = query.bytes → query.Plain → cache.lookup query.hash ≠ none →
        adjustTail ≠ none ∧ Tidy query := by
  rcases mirageXdpDns_cases cache adjustTail frame with
    ⟨passed, missed⟩ | ⟨query, fakeIp, rfl, plain, hit, outcome⟩
  · refine ⟨fun _ query same plain hit => absurd (missed query same plain) hit, fun _ => .inl passed⟩
  have only : ∀ other : Query, query.bytes = other.bytes → other = query :=
    fun other same => (Query.bytes_injective same).symm
  rcases outcome with ⟨stuck, passed⟩ | ⟨tail, room, sent⟩
  · constructor
    · rintro (same | ⟨_, _, _, same, _⟩)
      · rw [passed] at same
        exact absurd (Prod.mk.inj same).2 (swapped_ne plain)
      · rw [passed] at same
        cases same
    · intro all
      exact absurd stuck (all query rfl plain (by simp [hit])).1
  · constructor
    · rintro (same | ⟨asked, reply, same, went, responds⟩) other sameToo _ _
      · rw [sent] at same
        cases same
      · cases only other sameToo
        cases only asked same
        rw [sent] at went
        cases Query.bytes_injective (Prod.mk.inj went).2
        exact ⟨by simp [room], (responds_iff_tidy plain tail.property).mp responds⟩
    · intro all
      have tidy := (all query rfl plain (by simp [hit])).2
      exact .inr ⟨query, _, rfl, sent, (responds_iff_tidy plain tail.property).mpr tidy⟩

end Response

end Mirage.Kernel.DnsXdp
