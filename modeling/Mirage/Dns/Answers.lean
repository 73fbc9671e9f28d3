import Mirage.Dns.Cache
import Mirage.Router.Rule

/-!
The answers that dns/server.rs makes up itself: an address for a fake or a
configured name, NODATA with the SOA a client caches by, NXDOMAIN. Each takes
header and question from the bytes of the query.
-/

namespace Mirage.Dns
open Word
open Router (IpAddr)

section Builders

/-- The header of the query with QR set, the flags byte and so many answers and
authorities in place of its own. -/
def responseHeader (query : Bytes) (flags answers authorities : UInt8) : Bytes :=
  query.take 2 ++ [query.getD 2 0 ||| 0x80, flags] ++ (query.drop 4).take 2 ++
    [0, answers, 0, authorities, 0, 0]

/-- Header, question up to `question_end`, and what is appended to them. -/
def respond (query : Bytes) (flags answers authorities : UInt8) (record : Bytes) : Bytes :=
  responseHeader query flags answers authorities ++
    ((query.take (questionEnd query)).drop 12 ++ record)

/-- The fixed part of a record: name as a pointer to the question's, type, class
IN, a TTL of 300 seconds, and the length of what follows. -/
def recordHead (rrtype rdlen : UInt8) : Bytes :=
  [0xC0, 0x0C, 0x00, rrtype, 0x00, 0x01, 0x00, 0x00, 0x01, 0x2C, 0x00, rdlen]

/-- One address under the question's name. A message without a question would
make the name point to itself. -/
def addressResponse (query : Bytes) (rrtype : UInt8) (octets : Bytes) : Option Bytes :=
  let stop := questionEnd query
  if stop ≤ 12 ∨ query.length < stop ∨ query.length < 12 then none
  else
    -- the source keeps the low half of the flags, where RCODE stands
    some (respond query (query.getD 3 0 &&& 0x0F) 1 0
      (recordHead rrtype (UInt8.ofNat octets.length) ++ octets))

def makeFakeIpResponse (query : Bytes) (ip : BitVec 32) : Option Bytes :=
  addressResponse query 1 (toBe 4 ip.toNat)

def makeAaaaResponse (query : Bytes) (ip : BitVec 128) : Option Bytes :=
  addressResponse query 28 (toBe 16 ip.toNat)

/-- MNAME and RNAME of the SOA point to the question's name; the last number,
MINIMUM, is 300. -/
def soaData : Bytes :=
  [0xC0, 0x0C, 0xC0, 0x0C,
    0x00, 0x00, 0x00, 0x01, 0x00, 0x00, 0x0E, 0x10, 0x00, 0x00, 0x02, 0x58,
    0x00, 0x01, 0x51, 0x80, 0x00, 0x00, 0x01, 0x2C]

def makeEmptyResponse (query : Bytes) : Option Bytes :=
  if query.length < questionEnd query ∨ query.length < 12 then none
  else some (respond query (query.getD 3 0 &&& 0x0F) 0 1 (recordHead 0x06 0x18 ++ soaData))

def makeNxdomain (query : Bytes) : Bytes :=
  if query.length < 12 then query
  else respond query ((query.getD 3 0 &&& 0xF0) ||| 0x03) 0 0 []

inductive IpStrategy where
  | dual
  | ipv4Only
  | ipv6Only
  | preferIpv4
  | preferIpv6
  deriving DecidableEq

def ipStrategySuppresses (strategy : IpStrategy) (qtype : Nat) (hasV4 hasV6 : Bool) : Bool :=
  match strategy with
  | .dual => false
  | .ipv4Only => qtype = 28
  | .ipv6Only => qtype = 1
  | .preferIpv4 => qtype = 28 && hasV4
  | .preferIpv6 => qtype = 1 && hasV6

def asV4 : IpAddr → Option (BitVec 32)
  | .v4 ip => some ip
  | .v6 _ => none

def asV6 : IpAddr → Option (BitVec 128)
  | .v4 _ => none
  | .v6 ip => some ip

/-- A name with configured addresses is never asked upstream: what it has no
address for is answered as empty. -/
def staticAnswer (req : Bytes) (qtype : Nat) (ips : List IpAddr) (strategy : IpStrategy) :
    Option Bytes :=
  let nodata := (makeEmptyResponse req).or (some (makeNxdomain req))
  let hasV4 := ips.any fun ip => (asV4 ip).isSome
  let hasV6 := ips.any fun ip => (asV6 ip).isSome
  if ipStrategySuppresses strategy qtype hasV4 hasV6 then nodata
  else if qtype = 1 then ((ips.findSome? asV4).bind (makeFakeIpResponse req)).or nodata
  else if qtype = 28 then ((ips.findSome? asV6).bind (makeAaaaResponse req)).or nodata
  else nodata

end Builders

section Readers

/-- The name walk of `first_a_record`: here only the pointer stops it. -/
def answerNameEnd (resp : Bytes) (pos : Nat) : Nat :=
  if bound : pos < resp.length then
    let n := resp[pos]
    if n = 0 then pos + 1
    else if n &&& 0xC0 = 0xC0 then pos + 2
    else answerNameEnd resp (pos + 1 + n.toNat)
  else pos
termination_by resp.length - pos

def firstAFrom (resp : Bytes) : Nat → Nat → Option (BitVec 32)
  | 0, _ => none
  | count + 1, pos =>
      let pos := answerNameEnd resp pos
      if resp.length < pos + 10 then none
      else
        let rtype := u16At resp pos
        let rdlen := u16At resp (pos + 8)
        let rdata := pos + 10
        if resp.length < rdata + rdlen then none
        else if rtype = 1 ∧ rdlen = 4 then some (BitVec.ofNat 32 (u32At resp rdata))
        else firstAFrom resp count (rdata + rdlen)

def firstARecord (resp : Bytes) : Option (BitVec 32) :=
  if resp.length < 12 then none else firstAFrom resp (u16At resp 6) (questionEnd resp)

end Readers

section Walks

variable {data other : Bytes}

theorem nameEnd_ge (data : Bytes) (pos : Nat) : pos ≤ nameEnd data pos := by
  induction pos using nameEnd.induct data with
  | case1 pos bound n zero =>
      rw [nameEnd, dif_pos bound]
      simp only [show data[pos] = 0 from zero, if_true]
      omega
  | case2 pos bound n nonzero pointer =>
      rw [nameEnd, dif_pos bound]
      simp only [n] at nonzero pointer
      simp only [nonzero, pointer, if_false, ne_eq, not_false_eq_true, if_true]
      omega
  | case3 pos bound n nonzero label ih =>
      rw [nameEnd, dif_pos bound]
      simp only [n] at nonzero label ih
      simp only [nonzero, label, if_false]
      omega
  | case4 pos bound =>
      rw [nameEnd, dif_neg bound]

theorem nameEnd_outside {stop pos : Nat} (outside : ¬pos < stop) :
    min (nameEnd data pos) stop = min (nameEnd other pos) stop := by
  have one := nameEnd_ge data pos
  have two := nameEnd_ge other pos
  omega

theorem nameEnd_agree {stop : Nat} (inside : stop ≤ data.length) (within : stop ≤ other.length)
    {pos : Nat} (agree : ∀ i, pos ≤ i → i < stop → data.getD i 0 = other.getD i 0) :
    min (nameEnd data pos) stop = min (nameEnd other pos) stop := by
  have byte : ∀ (bound : pos < data.length) (here : pos < other.length), pos < stop →
      data[pos] = other[pos] := by
    intro bound here before
    have same := agree pos (Nat.le_refl _) before
    rwa [List.getD_eq_getElem _ _ bound, List.getD_eq_getElem _ _ here] at same
  induction pos using nameEnd.induct data with
  | case1 pos bound n zero =>
      by_cases before : pos < stop
      · have here : pos < other.length := by omega
        rw [nameEnd, nameEnd, dif_pos bound, dif_pos here]
        simp only [← byte bound here before, show data[pos] = 0 from zero, if_true]
      · exact nameEnd_outside before
  | case2 pos bound n nonzero pointer =>
      by_cases before : pos < stop
      · have here : pos < other.length := by omega
        rw [nameEnd, nameEnd, dif_pos bound, dif_pos here]
        simp only [n] at nonzero pointer
        simp only [← byte bound here before, nonzero, pointer, if_false, ne_eq,
          not_false_eq_true, if_true]
      · exact nameEnd_outside before
  | case3 pos bound n nonzero label ih =>
      by_cases before : pos < stop
      · have here : pos < other.length := by omega
        rw [nameEnd, nameEnd, dif_pos bound, dif_pos here]
        simp only [n] at nonzero label ih
        simp only [← byte bound here before, nonzero, label, if_false]
        refine ih (fun i after => agree i (by omega)) fun next there below => ?_
        have same := agree (pos + 1 + data[pos].toNat) (by omega) below
        rwa [List.getD_eq_getElem _ _ next, List.getD_eq_getElem _ _ there] at same
      · exact nameEnd_outside before
  | case4 pos bound => exact nameEnd_outside (by omega)

end Walks

section Shape

variable {query : Bytes} {flags answers authorities : UInt8} {record : Bytes}

theorem responseHeader_length (whole : 12 ≤ query.length) :
    (responseHeader query flags answers authorities).length = 12 := by
  simp [responseHeader]
  omega

theorem respond_length (whole : 12 ≤ query.length) (asks : 12 ≤ questionEnd query) :
    (respond query flags answers authorities record).length =
      questionEnd query + record.length := by
  have := questionEnd_le query
  simp [respond, responseHeader_length whole]
  omega

theorem respond_record (whole : 12 ≤ query.length) (asks : 12 ≤ questionEnd query) :
    (respond query flags answers authorities record).drop (questionEnd query) = record := by
  have := questionEnd_le query
  have size : (responseHeader query flags answers authorities ++
      (query.take (questionEnd query)).drop 12).length = questionEnd query := by
    simp [responseHeader_length whole]
    omega
  rw [respond, ← List.append_assoc]
  exact List.drop_left' size

theorem respond_question (whole : 12 ≤ query.length) (asks : 12 ≤ questionEnd query) :
    ((respond query flags answers authorities record).take (questionEnd query)).drop 12 =
      (query.take (questionEnd query)).drop 12 := by
  have := questionEnd_le query
  have header := @responseHeader_length query flags answers authorities whole
  rw [List.drop_take, respond, List.drop_left' header]
  exact List.take_left' (by simp; omega)

theorem respond_agree (whole : 12 ≤ query.length) (asks : 12 ≤ questionEnd query) {i : Nat}
    (after : 12 ≤ i) (before : i < questionEnd query) :
    query.getD i 0 = (respond query flags answers authorities record).getD i 0 := by
  have same := congrArg (fun bytes => bytes.getD (i - 12) 0)
    (@respond_question query flags answers authorities record whole asks)
  simp only [List.drop_take, List.getD_eq_getElem?_getD, List.getElem?_take,
    List.getElem?_drop] at same
  rw [if_pos (by omega), if_pos (by omega), Nat.add_sub_cancel' after] at same
  simpa only [List.getD_eq_getElem?_getD] using same.symm

theorem header_bytes (whole : 12 ≤ query.length) : ∃ b0 b1 b2 b3 b4 b5 rest,
    query = b0 :: b1 :: b2 :: b3 :: b4 :: b5 :: rest := by
  rcases query with _ | ⟨b0, _ | ⟨b1, _ | ⟨b2, _ | ⟨b3, _ | ⟨b4, _ | ⟨b5, rest⟩⟩⟩⟩⟩⟩
  iterate 6 · simp at whole
  exact ⟨b0, b1, b2, b3, b4, b5, rest, rfl⟩

theorem respond_count (whole : 12 ≤ query.length) :
    u16At (respond query flags answers authorities record) 4 = u16At query 4 ∧
    u16At (respond query flags answers authorities record) 6 = answers.toNat ∧
    u16At (respond query flags answers authorities record) 8 = authorities.toNat ∧
    u16At (respond query flags answers authorities record) 10 = 0 := by
  obtain ⟨b0, b1, b2, b3, b4, b5, rest, rfl⟩ := header_bytes whole
  simp [respond, responseHeader, u16At, fromBe16]

theorem qr_set (n : UInt8) : (n ||| 0x80) &&& 0x80 ≠ 0 := by
  have all : ∀ n : Fin 256, (UInt8.ofNat n ||| 0x80) &&& 0x80 ≠ 0 := by decide +kernel
  have here := all ⟨n.toNat, n.toNat_lt⟩
  rwa [UInt8.ofNat_toNat] at here

theorem respond_id (whole : 12 ≤ query.length) :
    (respond query flags answers authorities record).take 2 = query.take 2 ∧
    (respond query flags answers authorities record).getD 2 0 &&& 0x80 ≠ 0 := by
  obtain ⟨b0, b1, b2, b3, b4, b5, rest, rfl⟩ := header_bytes whole
  exact ⟨by simp [respond, responseHeader], by simpa [respond, responseHeader] using qr_set b2⟩

end Shape

section Questions

variable {query : Bytes} {flags answers authorities : UInt8} {record : Bytes}

/-- Name, type and class of the question are all there. `question_end` takes the
end of the message for the end of one that is cut. -/
def WholeQuestion (query : Bytes) : Prop := nameEnd query 12 + 4 ≤ query.length

instance (query : Bytes) : Decidable (WholeQuestion query) := inferInstanceAs (Decidable (_ ≤ _))

def question (data : Bytes) : Bytes := (data.take (questionEnd data)).drop 12

theorem wellformed_iff (query : Bytes) : isWellformedQuery query = true ↔
    12 ≤ query.length ∧ u16At query 4 = 1 ∧ 12 < questionEnd query := by
  simp [isWellformedQuery, and_assoc]

theorem questionEnd_one {data : Bytes} (whole : 12 ≤ data.length) (one : u16At data 4 = 1) :
    questionEnd data = min (nameEnd data 12 + 4) data.length := by
  rw [questionEnd, if_neg (by omega), one]
  simp only [questionsEnd]
  split <;> omega

variable (formed : isWellformedQuery query = true)
include formed

theorem respond_ends :
    questionEnd (respond query flags answers authorities record) =
      min (nameEnd (respond query flags answers authorities record) 12 + 4)
        (questionEnd query + record.length) ∧
    min (nameEnd query 12) (questionEnd query) =
      min (nameEnd (respond query flags answers authorities record) 12) (questionEnd query) := by
  obtain ⟨header, one, asks⟩ := (wellformed_iff query).mp formed
  have size := @respond_length query flags answers authorities record header asks.le
  have counted := (@respond_count query flags answers authorities record header).1
  constructor
  · rw [questionEnd_one (by omega) (counted.trans one), size]
  · refine nameEnd_agree (questionEnd_le query) (by omega) ?_
    exact fun i => @respond_agree query flags answers authorities record header asks.le i

/-- The question is found again in the answer where the query had it whole. -/
theorem questionEnd_respond (whole : WholeQuestion query) :
    questionEnd (respond query flags answers authorities record) = questionEnd query := by
  obtain ⟨header, one, asks⟩ := (wellformed_iff query).mp formed
  have ends := questionEnd_one header one
  obtain ⟨found, agreed⟩ := @respond_ends query flags answers authorities record formed
  unfold WholeQuestion at whole
  omega

/-- A cut question goes on into the record behind it. -/
theorem questionEnd_cut (cut : ¬WholeQuestion query) (follows : record ≠ []) :
    questionEnd query < questionEnd (respond query flags answers authorities record) := by
  obtain ⟨header, one, asks⟩ := (wellformed_iff query).mp formed
  have ends := questionEnd_one header one
  have more := List.length_pos_iff.mpr follows
  obtain ⟨found, agreed⟩ := @respond_ends query flags answers authorities record formed
  unfold WholeQuestion at cut
  omega

end Questions

section Reading

inductive Content where
  | v4 (ip : BitVec 32)
  | v6 (ip : BitVec 128)
  | nodata
  deriving DecidableEq

/-- The program's own parsers find it. There is none for AAAA records: their
address is what follows the fixed part of the only record. -/
def Content.ReadBack (resp : Bytes) : Content → Prop
  | .v4 ip => firstARecord resp = some ip
  | .v6 ip => u16At resp (questionEnd resp + 2) = 28 ∧
      resp.drop (questionEnd resp + 12) = toBe 16 ip.toNat
  | .nodata => negativeTtl resp = some 300

/-- An answer to the question and nothing else: as many records behind it as the
header counts, down to the last byte. -/
structure AnswersQuery (query resp : Bytes) : Prop where
  sameId : resp.take 2 = query.take 2
  qr : resp.getD 2 0 &&& 0x80 ≠ 0
  oneQuestion : u16At resp 4 = 1
  sameQuestion : question resp = question query
  counted : skipMany (skipRr resp) (u16At resp 6 + u16At resp 8 + u16At resp 10)
    (questionEnd resp) = some resp.length
  accepted : responseMatches query resp = true

variable {query : Bytes} {flags answers authorities : UInt8} {record : Bytes}

theorem u16At_drop (data : Bytes) (pos more : Nat) :
    u16At data (pos + more) = u16At (data.drop pos) more := by
  simp [u16At, List.getD_eq_getElem?_getD, List.getElem?_drop, Nat.add_assoc]

theorem u32At_drop (data : Bytes) (pos more : Nat) :
    u32At data (pos + more) = u32At (data.drop pos) more := by
  simp [u32At, List.getD_eq_getElem?_getD, List.getElem?_drop, Nat.add_assoc]

theorem u32At_toBe {n : Nat} (fits : n < 2 ^ 32) : u32At (toBe 4 n) 0 = n := by
  simp only [toBe, u32At, fromBe32, List.nil_append, List.cons_append, List.getD_cons_zero,
    List.getD_cons_succ, UInt8.toNat_ofNat']
  omega

theorem skipName_pointer {data rest : Bytes} {pos : Nat} {low : UInt8}
    (points : data.drop pos = 0xC0 :: low :: rest) : skipName data pos = some (pos + 2) := by
  have bound : pos < data.length := by
    by_contra outside
    rw [List.drop_eq_nil_of_le (Nat.not_lt.mp outside)] at points
    cases points
  rw [List.drop_eq_getElem_cons bound] at points
  rw [skipName, dif_pos bound]
  simp [(List.cons.inj points).1]

theorem answerNameEnd_pointer {data rest : Bytes} {pos : Nat} {low : UInt8}
    (points : data.drop pos = 0xC0 :: low :: rest) : answerNameEnd data pos = pos + 2 := by
  have bound : pos < data.length := by
    by_contra outside
    rw [List.drop_eq_nil_of_le (Nat.not_lt.mp outside)] at points
    cases points
  rw [List.drop_eq_getElem_cons bound] at points
  rw [answerNameEnd, dif_pos bound]
  simp [(List.cons.inj points).1]

section Record

variable {data rdata : Bytes} {pos : Nat} {rrtype rdlen : UInt8}
  (stands : data.drop pos = recordHead rrtype rdlen ++ rdata)
include stands

theorem record_inside : data.length = pos + 12 + rdata.length := by
  have length := congrArg List.length stands
  simp [recordHead] at length
  omega

theorem record_reads :
    u16At data (pos + 2) = rrtype.toNat ∧ u32At data (pos + 2 + 4) = 300 ∧
      u16At data (pos + 2 + 8) = rdlen.toNat ∧ data.drop (pos + 2 + 10) = rdata := by
  refine ⟨?_, ?_, ?_, ?_⟩
  · rw [u16At_drop, stands]
    simp [recordHead, u16At, fromBe16]
  · rw [Nat.add_assoc, u32At_drop, stands]
    simp [recordHead, u32At, fromBe32]
  · rw [Nat.add_assoc, u16At_drop, stands]
    simp [recordHead, u16At, fromBe16]
  · rw [Nat.add_assoc, ← List.drop_drop, stands]
    rfl

theorem record_skipped (fits : rdlen.toNat = rdata.length) :
    skipRr data pos = some data.length := by
  have inside := record_inside stands
  have points : data.drop pos = 0xC0 :: 0x0C :: (data.drop pos).drop 2 := by
    rw [stands]
    rfl
  have length := (record_reads stands).2.2.1
  have first : pos + 2 + 8 < data.length := by omega
  have last : pos + 2 + 8 + 1 < data.length := by omega
  have read : u16At? data (pos + 2 + 8) = some rdlen.toNat := by
    rw [← length]
    simp [u16At?, u16At, first, last]
  simp only [skipRr, skipName_pointer points, read, Option.bind_eq_bind, Option.bind_some]
  rw [fits, inside]
  simp

theorem firstARecord_read {ip : BitVec 32} (begins : questionEnd data = pos)
    (one : u16At data 6 = 1) (isA : rrtype = 1)
    (four : rdlen = 4) (octets : rdata = toBe 4 ip.toNat) : firstARecord data = some ip := by
  subst isA four octets
  have inside := record_inside stands
  rw [toBe_length] at inside
  obtain ⟨rtype, _, length, rest⟩ := record_reads stands
  have points : data.drop pos = 0xC0 :: 0x0C :: (data.drop pos).drop 2 := by
    rw [stands]
    rfl
  have value : u32At data (pos + 2 + 10) = ip.toNat := by
    have read := u32At_drop data (pos + 2 + 10) 0
    rw [Nat.add_zero, rest] at read
    rw [read, u32At_toBe ip.isLt]
  have short : ¬data.length < pos + 2 + 10 := by omega
  have within : ¬data.length < pos + 2 + 10 + 4 := by omega
  rw [firstARecord, if_neg (by omega), begins, one]
  simp only [firstAFrom, answerNameEnd_pointer points, rtype, length, if_neg short]
  simp [within, value]

theorem negativeTtl_read (begins : questionEnd data = pos)
    (none : u16At data 6 = 0) (one : u16At data 8 = 1) (isSoa : rrtype = 6)
    (size : rdlen = 24) (soa : rdata = soaData) : negativeTtl data = some 300 := by
  subst isSoa size soa
  have inside := record_inside stands
  have bytes : soaData.length = 24 := rfl
  obtain ⟨rtype, ttl, length, rest⟩ := record_reads stands
  have points : data.drop pos = 0xC0 :: 0x0C :: (data.drop pos).drop 2 := by
    rw [stands]
    rfl
  have minimum : u32At data (pos + 32) = 300 := by
    have read := u32At_drop data (pos + 2 + 10) 20
    rw [rest] at read
    exact read.trans (by decide)
  have room : ¬data.length < pos + 2 + 8 + 2 := by omega
  have whole : ¬data.length < pos + 2 + 8 + 2 + 24 := by omega
  rw [negativeTtl, if_neg (by omega), none, one, begins]
  simp only [skipMany, Option.bind_eq_bind, Option.bind_some, soaTtlFrom, skipName_pointer points,
    rtype, ttl, length, if_neg room]
  simp [whole, minimum]

end Record

end Reading

section Synthesis

variable {query : Bytes}

theorem respond_answers {flags answers authorities rrtype rdlen : UInt8} {rdata : Bytes}
    (formed : isWellformedQuery query = true) (whole : WholeQuestion query)
    (alone : answers.toNat + authorities.toNat = 1) (fits : rdlen.toNat = rdata.length) :
    AnswersQuery query
      (respond query flags answers authorities (recordHead rrtype rdlen ++ rdata)) := by
  obtain ⟨header, one, asks⟩ := (wellformed_iff query).mp formed
  have begins := @questionEnd_respond query flags answers authorities
    (recordHead rrtype rdlen ++ rdata) formed whole
  obtain ⟨id, qr⟩ := @respond_id query flags answers authorities
    (recordHead rrtype rdlen ++ rdata) header
  obtain ⟨qd, an, ns, ar⟩ := @respond_count query flags answers authorities
    (recordHead rrtype rdlen ++ rdata) header
  have record := @respond_record query flags answers authorities
    (recordHead rrtype rdlen ++ rdata) header asks.le
  have asked := @respond_question query flags answers authorities
    (recordHead rrtype rdlen ++ rdata) header asks.le
  have size := @respond_length query flags answers authorities
    (recordHead rrtype rdlen ++ rdata) header asks.le
  have skipped := record_skipped record fits
  refine ⟨id, qr, qd.trans one, ?_, ?_, ?_⟩
  · rw [question, begins, asked, question]
  · rw [an, ns, ar, begins, Nat.add_zero, alone]
    simp only [skipMany, skipped, Option.bind_some]
  · have long : ¬(query.length < 12 ∨ (respond query flags answers authorities
        (recordHead rrtype rdlen ++ rdata)).length < 12) := by omega
    have reaches : questionEnd query ≤ (respond query flags answers authorities
        (recordHead rrtype rdlen ++ rdata)).length := by omega
    rw [responseMatches, if_neg long, if_neg (not_or.mpr ⟨not_not.mpr id, qr⟩), qd, one,
      if_neg fun bare => absurd bare.1 (by decide), if_neg (not_not.mpr rfl)]
    simp [asked, asks, reaches]

inductive Synthesis where
  | fakeIp (ip : BitVec 32)
  | aaaa (ip : BitVec 128)
  | empty
  | static (qtype : Nat) (ips : List IpAddr) (strategy : IpStrategy)

def Synthesis.run (query : Bytes) : Synthesis → Option Bytes
  | .fakeIp ip => makeFakeIpResponse query ip
  | .aaaa ip => makeAaaaResponse query ip
  | .empty => makeEmptyResponse query
  | .static qtype ips strategy => staticAnswer query qtype ips strategy

/-- What it is to say: of configured addresses the first of the family asked
for, unless the strategy holds that family back. -/
def Synthesis.content : Synthesis → Content
  | .fakeIp ip => .v4 ip
  | .aaaa ip => .v6 ip
  | .empty => .nodata
  | .static qtype ips strategy =>
      if ipStrategySuppresses strategy qtype (ips.any fun ip => (asV4 ip).isSome)
          (ips.any fun ip => (asV6 ip).isSome) then .nodata
      else if qtype = 1 then ((ips.findSome? asV4).map .v4).getD .nodata
      else if qtype = 28 then ((ips.findSome? asV6).map .v6).getD .nodata
      else .nodata

def Content.message (query : Bytes) : Content → Bytes
  | .v4 ip => respond query (query.getD 3 0 &&& 0x0F) 1 0 (recordHead 1 4 ++ toBe 4 ip.toNat)
  | .v6 ip => respond query (query.getD 3 0 &&& 0x0F) 1 0 (recordHead 28 16 ++ toBe 16 ip.toNat)
  | .nodata => respond query (query.getD 3 0 &&& 0x0F) 0 1 (recordHead 6 24 ++ soaData)

variable (formed : isWellformedQuery query = true)
include formed

theorem makeFakeIpResponse_eq (ip : BitVec 32) :
    makeFakeIpResponse query ip = some ((Content.v4 ip).message query) := by
  obtain ⟨header, _, asks⟩ := (wellformed_iff query).mp formed
  have within := questionEnd_le query
  rw [makeFakeIpResponse, addressResponse, if_neg (by omega), toBe_length]
  rfl

theorem makeAaaaResponse_eq (ip : BitVec 128) :
    makeAaaaResponse query ip = some ((Content.v6 ip).message query) := by
  obtain ⟨header, _, asks⟩ := (wellformed_iff query).mp formed
  have within := questionEnd_le query
  rw [makeAaaaResponse, addressResponse, if_neg (by omega), toBe_length]
  rfl

theorem makeEmptyResponse_eq : makeEmptyResponse query = some (Content.nodata.message query) := by
  obtain ⟨header, _, asks⟩ := (wellformed_iff query).mp formed
  have within := questionEnd_le query
  rw [makeEmptyResponse, if_neg (by omega)]
  rfl

/-- An admitted query is always answered, and a static name never with NXDOMAIN. -/
theorem run_eq (synthesis : Synthesis) :
    synthesis.run query = some (synthesis.content.message query) := by
  have empty := makeEmptyResponse_eq formed
  cases synthesis with
  | fakeIp ip => exact makeFakeIpResponse_eq formed ip
  | aaaa ip => exact makeAaaaResponse_eq formed ip
  | empty => exact empty
  | static qtype ips strategy =>
      simp only [Synthesis.run, staticAnswer, Synthesis.content, empty, Option.some_or]
      split
      · rfl
      · split
        · cases ips.findSome? asV4 with
          | none => rfl
          | some ip => simp [makeFakeIpResponse_eq formed ip]
        · split
          · cases ips.findSome? asV6 with
            | none => rfl
            | some ip => simp [makeAaaaResponse_eq formed ip]
          · rfl

theorem message_answers (content : Content) (whole : WholeQuestion query) :
    AnswersQuery query (content.message query) := by
  cases content with
  | v4 ip => exact respond_answers formed whole rfl (toBe_length 4 _).symm
  | v6 ip => exact respond_answers formed whole rfl (toBe_length 16 _).symm
  | nodata => exact respond_answers formed whole rfl rfl

theorem message_readBack (content : Content) (whole : WholeQuestion query) :
    content.ReadBack (content.message query) := by
  obtain ⟨header, _, asks⟩ := (wellformed_iff query).mp formed
  cases content with
  | v4 ip =>
      exact firstARecord_read (respond_record header asks.le) (questionEnd_respond formed whole)
        (respond_count header).2.1 rfl rfl rfl
  | v6 ip =>
      have begins : questionEnd ((Content.v6 ip).message query) = questionEnd query :=
        questionEnd_respond formed whole
      have record : ((Content.v6 ip).message query).drop (questionEnd query) =
          recordHead 28 16 ++ toBe 16 ip.toNat := respond_record header asks.le
      obtain ⟨rtype, _, _, rest⟩ := record_reads record
      rw [Content.ReadBack, begins]
      exact ⟨rtype, rest⟩
  | nodata =>
      obtain ⟨_, an, ns, _⟩ := respond_count header
      exact negativeTtl_read (respond_record header asks.le) (questionEnd_respond formed whole)
        an ns rfl rfl rfl

/-- A cut question grows into the record, so the answer has another one. -/
theorem message_cut (content : Content) (cut : ¬WholeQuestion query) :
    question (content.message query) ≠ question query := by
  obtain ⟨header, _, asks⟩ := (wellformed_iff query).mp formed
  have later : questionEnd query < questionEnd (content.message query) := by
    cases content <;> exact questionEnd_cut formed cut (by simp [recordHead])
  have inside := questionEnd_le query
  have within := questionEnd_le (content.message query)
  intro same
  have lengths := congrArg List.length same
  simp only [question, List.length_drop, List.length_take] at lengths
  omega

end Synthesis

/-- A made-up answer is right for exactly the queries whose question is whole.
The gate lets the others pass, as `question_end` stops at the end of the message. -/
theorem synthesised_iff {query : Bytes} (formed : isWellformedQuery query = true)
    (synthesis : Synthesis) :
    (∃ resp, synthesis.run query = some resp ∧ AnswersQuery query resp ∧
      synthesis.content.ReadBack resp) ↔ WholeQuestion query := by
  rw [run_eq formed]
  constructor
  · rintro ⟨resp, ⟨⟩, answers, _⟩
    by_contra cut
    exact message_cut formed _ cut answers.sameQuestion
  · intro whole
    exact ⟨_, rfl, message_answers formed _ whole, message_readBack formed _ whole⟩

/-- A query for `a` that ends in its name. The count of additional records, before
the name, is taken for its type. -/
def cutQuery : Bytes := [0x12, 0x34, 1, 0, 0, 1, 0, 0, 0, 0, 0, 1, 1, 97]

/-- The gate lets it pass, it is of type A, and its answer reads as another
question with no address. -/
theorem cut_question_misread : isWellformedQuery cutQuery = true ∧ getQtype cutQuery = some 1 ∧
    ∃ resp, makeFakeIpResponse cutQuery 0xC6120005 = some resp ∧
      question resp ≠ question cutQuery ∧ firstARecord resp = none := by
  have formed : isWellformedQuery cutQuery = true := by decide +kernel
  exact ⟨formed, by decide +kernel, _, makeFakeIpResponse_eq formed _, by decide +kernel,
    by decide +kernel⟩

/-- A query for the address of `a`, whole. -/
def wholeQuery : Bytes := [0x12, 0x34, 1, 0, 0, 1, 0, 0, 0, 0, 0, 0, 1, 97, 0, 0, 1, 0, 1]

theorem synthesised_whole : isWellformedQuery wholeQuery = true ∧
    ((∃ resp, (Synthesis.fakeIp 0xC6120005).run wholeQuery = some resp ∧
      AnswersQuery wholeQuery resp ∧ (Synthesis.fakeIp 0xC6120005).content.ReadBack resp) ↔
      WholeQuestion wholeQuery) :=
  ⟨by decide +kernel, synthesised_iff (by decide +kernel) (.fakeIp 0xC6120005)⟩

end Mirage.Dns
