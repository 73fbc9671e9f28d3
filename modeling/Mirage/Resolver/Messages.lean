import Mirage.Dns.DomainMatch
import Mirage.Dns.WireName
import Mirage.Lib.Utf8

/-!
The queries and the readers of answers of proxy/wg/dns.rs, inside a tunnel, and of
proxy/resolver.rs, over TCP. Addresses are their octets.
-/

namespace Mirage.Resolver
open Word Text Utf8 Dns

section Queries

def queryHeader (id : UInt16) : Bytes :=
  be16 id.toNat ++ [0x01, 0x00, 0x00, 0x01, 0, 0, 0, 0, 0, 0]

/-- `build_query` of the tunnel. Empty labels are left out. -/
def buildQuery (id : UInt16) (name : List Char) : Except String Bytes :=
  let labels := (name.splitOn '.').filter (!·.isEmpty)
  match labels.find? fun label => 63 < (encode label).length with
  | some label => .error ("domain label exceeds 63 bytes: " ++ String.ofList label)
  | none => .ok (queryHeader id ++ encodeName (labels.map encode) ++ [0x00, 0x01, 0x00, 0x01])

/-- `build_dns_query` over TCP, with the id that is drawn. -/
def buildDnsQuery (tx : UInt16) (host : List Char) (qtype : UInt16) : Option Bytes :=
  let labels := (trimEndDots host).splitOn '.'
  if labels.any fun label => label.isEmpty || 63 < (encode label).length then none
  else
    let q := queryHeader tx ++ encodeName (labels.map encode) ++ be16 qtype.toNat ++ [0x00, 0x01]
    if 65535 < q.length then none else some q

end Queries

section Tunnel

def ttlMin : Nat := 5

def ttlMax : Nat := 3600

/-- The walk ends at the first pointer, so that its count of jumps never matters. -/
def skipName (msg : Bytes) (pos : Nat) : Except String Nat :=
  if bound : pos < msg.length then
    let len := msg[pos]
    if len = 0 then .ok (pos + 1)
    else if len &&& 0xC0 = 0xC0 then
      if msg.length ≤ pos + 1 then .error "DNS compression pointer truncated" else .ok (pos + 2)
    else skipName msg (pos + 1 + len.toNat)
  else .error "DNS message truncated"
termination_by msg.length - pos

def skipQuestions (resp : Bytes) : Nat → Nat → Except String Nat
  | 0, pos => .ok pos
  | count + 1, pos => (skipName resp pos).bind fun pos => skipQuestions resp count (pos + 4)

/-- The loop over the answers, with the addresses and the least TTL so far. -/
def answerLoop (resp : Bytes) : Nat → Nat → List Bytes → Nat → Except String (List Bytes × Nat)
  | 0, _, ips, minTtl => .ok (ips, minTtl)
  | count + 1, pos, ips, minTtl =>
      (skipName resp pos).bind fun pos =>
        if resp.length < pos + 10 then .error "DNS answer section truncated"
        else
          let rtype := u16At resp pos
          let ttl := u32At resp (pos + 4)
          let rdlen := u16At resp (pos + 8)
          let pos := pos + 10
          if resp.length < pos + rdlen then .error "DNS record data truncated"
          else if rtype = 1 ∧ rdlen = 4 then
            answerLoop resp count (pos + rdlen) (ips ++ [(resp.drop pos).take rdlen])
              (min minTtl ttl)
          else answerLoop resp count (pos + rdlen) ips minTtl

def parseARecords (resp : Bytes) (wantId : UInt16) : Except String (List Bytes × Nat) :=
  if resp.length < 12 then .error "DNS response too short"
  else if u16At resp 0 ≠ wantId.toNat then
    .error "DNS response ID mismatch (possible out-of-order packet)"
  else if resp.getD 2 0 &&& 0x80 = 0 then
    .error "DNS response QR bit indicates query, not response"
  else if resp.getD 3 0 &&& 0x0F = 3 then .error "domain does not exist (NXDOMAIN)"
  else if resp.getD 3 0 &&& 0x0F ≠ 0 then
    .error ("DNS server returned error RCODE=" ++ toString (resp.getD 3 0 &&& 0x0F).toNat)
  else
    (skipQuestions resp (u16At resp 4) 12).bind fun pos =>
      (answerLoop resp (u16At resp 6) pos [] ttlMax).bind fun found =>
        if found.1.isEmpty then .error "no A record in DNS response"
        else .ok (found.1, max ttlMin (min found.2 ttlMax))

end Tunnel

section Tcp

/-- Names are passed without a check. -/
def skipNameTcp (buf : Bytes) (pos : Nat) : Nat :=
  if bound : pos < buf.length then
    let len := buf[pos]
    if len = 0 then pos + 1
    else if len &&& 0xC0 = 0xC0 then pos + 2
    else skipNameTcp buf (pos + 1 + len.toNat)
  else pos
termination_by buf.length - pos

def skipQuestionsTcp (resp : Bytes) : Nat → Nat → Nat
  | 0, pos => pos
  | count + 1, pos => skipQuestionsTcp resp count (skipNameTcp resp pos + 4)

/-- What is broken ends the loop. -/
def answerLoopTcp (resp : Bytes) : Nat → Nat → List Bytes → List Bytes
  | 0, _, ips => ips
  | count + 1, pos, ips =>
      let pos := skipNameTcp resp pos
      if resp.length < pos + 10 then ips
      else
        let rtype := u16At resp pos
        let rdlen := u16At resp (pos + 8)
        let pos := pos + 10
        if resp.length < pos + rdlen then ips
        else if rtype = 1 ∧ rdlen = 4 ∨ rtype = 28 ∧ rdlen = 16 then
          answerLoopTcp resp count (pos + rdlen) (ips ++ [(resp.drop pos).take rdlen])
        else answerLoopTcp resp count (pos + rdlen) ips

def parseAnswerIps (resp : Bytes) (expectTx : UInt16) : List Bytes :=
  if resp.length < 12 then []
  else if u16At resp 0 ≠ expectTx.toNat ∨ resp.getD 2 0 &&& 0x80 = 0 then []
  else answerLoopTcp resp (u16At resp 6) (skipQuestionsTcp resp (u16At resp 4) 12) []

end Tcp

section Records

structure Record where
  rtype : Nat
  rclass : Nat
  ttl : Nat
  rdata : Bytes
  deriving DecidableEq

def recordAt (resp : Bytes) (pos : Nat) : Record where
  rtype := u16At resp pos
  rclass := u16At resp (pos + 2)
  ttl := u32At resp (pos + 4)
  rdata := (resp.drop (pos + 10)).take (u16At resp (pos + 8))

def Whole (resp : Bytes) (pos : Nat) : Prop := pos + 10 + u16At resp (pos + 8) ≤ resp.length

instance (resp : Bytes) (pos : Nat) : Decidable (Whole resp pos) :=
  inferInstanceAs (Decidable (_ ≤ _))

/-- The records of the answer section up to the first that is broken, and whether
they are all there. -/
def answers (skip : Nat → Option Nat) (resp : Bytes) : Nat → Nat → List Record × Bool
  | 0, _ => ([], true)
  | count + 1, pos =>
      match skip pos with
      | none => ([], false)
      | some pos =>
          if Whole resp pos then
            let rest := answers skip resp count (pos + 10 + u16At resp (pos + 8))
            (recordAt resp pos :: rest.1, rest.2)
          else ([], false)

def Record.isA (record : Record) : Bool := record.rtype = 1 && record.rdata.length = 4

def Record.isAddress (record : Record) : Bool :=
  record.isA || record.rtype = 28 && record.rdata.length = 16

def tunnelSkip (resp : Bytes) (pos : Nat) : Option Nat :=
  match skipName resp pos with
  | .ok pos => some pos
  | .error _ => none

def tunnelRecords (resp : Bytes) : List Record :=
  match skipQuestions resp (u16At resp 4) 12 with
  | .ok pos => (answers (tunnelSkip resp) resp (u16At resp 6) pos).1.filter Record.isA
  | .error _ => []

def tcpRecords (resp : Bytes) : List Record :=
  (answers (fun pos => some (skipNameTcp resp pos)) resp (u16At resp 6)
    (skipQuestionsTcp resp (u16At resp 4) 12)).1.filter Record.isAddress

variable {resp : Bytes}

theorem Record.isA_iff {record : Record} :
    record.isA = true ↔ record.rtype = 1 ∧ record.rdata.length = 4 := by
  simp [isA]

theorem Record.isAddress_iff {record : Record} : record.isAddress = true ↔
    record.rtype = 1 ∧ record.rdata.length = 4 ∨
      record.rtype = 28 ∧ record.rdata.length = 16 := by
  simp [isAddress, isA]

theorem recordAt_size {pos : Nat} (whole : Whole resp pos) :
    (recordAt resp pos).rdata.length = u16At resp (pos + 8) := by
  unfold Whole at whole
  rw [recordAt, List.length_take, List.length_drop]
  omega

theorem answerLoop_ok (count pos : Nat) (ips : List Bytes) (minTtl : Nat)
    {found : List Bytes × Nat} (read : answerLoop resp count pos ips minTtl = .ok found) :
    let used := (answers (tunnelSkip resp) resp count pos).1.filter Record.isA
    found = (ips ++ used.map Record.rdata, (used.map Record.ttl).foldl min minTtl) := by
  induction count generalizing pos ips minTtl with
  | zero =>
      cases read
      simp [answers]
  | succ count ih =>
      rw [answerLoop] at read
      rw [answers]
      cases skipped : skipName resp pos with
      | error message =>
          rw [skipped] at read
          cases read
      | ok pos =>
          rw [skipped] at read
          rw [tunnelSkip, skipped]
          dsimp only [Except.bind] at read ⊢
          split at read
          · cases read
          · split at read
            · cases read
            · rename_i header data
              have whole : Whole resp pos := by
                unfold Whole
                omega
              have size := recordAt_size whole
              rw [if_pos whole]
              dsimp only
              split at read
              · rename_i address
                have isA : (recordAt resp pos).isA = true :=
                  Record.isA_iff.mpr ⟨address.1, size.trans address.2⟩
                rw [List.filter_cons_of_pos isA, ih _ _ _ read]
                simp [recordAt, List.append_assoc]
              · rename_i other
                have notA : ¬ (recordAt resp pos).isA = true := by
                  rw [Record.isA_iff, size]
                  exact other
                rw [List.filter_cons_of_neg notA]
                exact ih _ _ _ read

theorem answerLoopTcp_eq (count pos : Nat) (ips : List Bytes) :
    answerLoopTcp resp count pos ips =
      ips ++ ((answers (fun pos => some (skipNameTcp resp pos)) resp count pos).1.filter
        Record.isAddress).map Record.rdata := by
  induction count generalizing pos ips with
  | zero => simp [answerLoopTcp, answers]
  | succ count ih =>
      rw [answerLoopTcp, answers]
      dsimp only
      by_cases header : resp.length < skipNameTcp resp pos + 10
      · have broken : ¬ Whole resp (skipNameTcp resp pos) := by
          unfold Whole
          omega
        rw [if_pos header, if_neg broken]
        simp
      by_cases data : resp.length < skipNameTcp resp pos + 10 +
          u16At resp (skipNameTcp resp pos + 8)
      · have broken : ¬ Whole resp (skipNameTcp resp pos) := by
          unfold Whole
          omega
        rw [if_neg header, if_pos data, if_neg broken]
        simp
      have whole : Whole resp (skipNameTcp resp pos) := Nat.not_lt.mp data
      have size := recordAt_size whole
      rw [if_neg header, if_neg data, if_pos whole]
      split
      · rename_i address
        have used : (recordAt resp (skipNameTcp resp pos)).isAddress = true := by
          rw [Record.isAddress_iff, size]
          exact address
        rw [List.filter_cons_of_pos used, ih]
        simp [recordAt, List.append_assoc]
      · rename_i other
        have unused : ¬ (recordAt resp (skipNameTcp resp pos)).isAddress = true := by
          rw [Record.isAddress_iff, size]
          exact other
        rw [List.filter_cons_of_neg unused, ih]

end Records

end Mirage.Resolver
