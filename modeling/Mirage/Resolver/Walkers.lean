import Mirage.Dns.Answers
import Mirage.Resolver.Genuine

/-!
The walkers of answers in dns/server.rs, proxy/wg/dns.rs and proxy/resolver.rs
side by side: none of them reads outside of a message, and on a message with one
question and all its records they find the same records at the same places. A
read past the end panics, which is `none` here.
-/

namespace Mirage.Resolver
open Word Dns

section Panics
variable {data : Bytes} {pos : Nat}

/-- `msg[pos..pos + len]`. -/
def slice? (data : Bytes) (pos len : Nat) : Option Bytes :=
  if pos + len ≤ data.length then some ((data.drop pos).take len) else none

def questionEnd? (data : Bytes) : Option Nat :=
  if data.length < 12 then some data.length
  else (u16At? data 4).map fun qdcount => questionsEnd data qdcount 12

def minTtlFrom? (resp : Bytes) : Nat → Nat → Option Nat → Option (Option (Option Nat))
  | 0, _, least => some (some least)
  | count + 1, pos, least =>
      match Dns.skipName resp pos with
      | none => some none
      | some pos =>
          if resp.length < pos + 10 then some (some least)
          else do
            let ttl ← u32At? resp (pos + 4)
            let rdlen ← u16At? resp (pos + 8)
            minTtlFrom? resp count (pos + 10 + rdlen)
              (some (match least with
                | some m => min m ttl
                | none => ttl))

def minAnswerTtl? (resp : Bytes) : Option (Option Nat) :=
  if resp.length < 12 then some none
  else do
    let ancount ← u16At? resp 6
    if ancount = 0 then some none
    else
      let pos ← questionEnd? resp
      (minTtlFrom? resp ancount pos none).map Option.join

def soaTtlFrom? (resp : Bytes) : Nat → Nat → Option (Option Nat)
  | 0, _ => some none
  | count + 1, pos =>
      match Dns.skipName resp pos with
      | none => some none
      | some afterName =>
          let rdlenAt := afterName + 8
          if resp.length < rdlenAt + 2 then some none
          else do
            let rrtype ← u16At? resp afterName
            let ttl ← u32At? resp (afterName + 4)
            let rdlen ← u16At? resp rdlenAt
            let rdataEnd := rdlenAt + 2 + rdlen
            if resp.length < rdataEnd then some none
            else if rrtype = 6 then
              if rdlen < 22 then some none
              else do
                let minimum ← u32At? resp (rdataEnd - 4)
                some (some (min (max (min ttl minimum) 1) 300))
            else soaTtlFrom? resp count rdataEnd

def negativeTtl? (resp : Bytes) : Option (Option Nat) :=
  if resp.length < 12 then some none
  else do
    let ancount ← u16At? resp 6
    let nscount ← u16At? resp 8
    if nscount = 0 then some none
    else
      let pos ← questionEnd? resp
      match skipMany (skipRr resp) ancount pos with
      | none => some none
      | some pos => soaTtlFrom? resp nscount pos

def answerLoop? (resp : Bytes) :
    Nat → Nat → List Bytes → Nat → Option (Except String (List Bytes × Nat))
  | 0, _, ips, minTtl => some (.ok (ips, minTtl))
  | count + 1, pos, ips, minTtl =>
      match skipName resp pos with
      | .error message => some (.error message)
      | .ok pos =>
          if resp.length < pos + 10 then some (.error "DNS answer section truncated")
          else do
            let rtype ← u16At? resp pos
            let ttl ← u32At? resp (pos + 4)
            let rdlen ← u16At? resp (pos + 8)
            let pos := pos + 10
            if resp.length < pos + rdlen then some (.error "DNS record data truncated")
            else if rtype = 1 ∧ rdlen = 4 then do
              let ip ← slice? resp pos 4
              answerLoop? resp count (pos + rdlen) (ips ++ [ip]) (min minTtl ttl)
            else answerLoop? resp count (pos + rdlen) ips minTtl

def parseARecords? (resp : Bytes) (wantId : UInt16) :
    Option (Except String (List Bytes × Nat)) :=
  if resp.length < 12 then some (.error "DNS response too short")
  else do
    let id ← u16At? resp 0
    let flags ← resp[2]?
    let code ← resp[3]?
    let qd ← u16At? resp 4
    let an ← u16At? resp 6
    if id ≠ wantId.toNat then
      some (.error "DNS response ID mismatch (possible out-of-order packet)")
    else if flags &&& 0x80 = 0 then
      some (.error "DNS response QR bit indicates query, not response")
    else if code &&& 0x0F = 3 then some (.error "domain does not exist (NXDOMAIN)")
    else if code &&& 0x0F ≠ 0 then
      some (.error ("DNS server returned error RCODE=" ++ toString (code &&& 0x0F).toNat))
    else
      match skipQuestions resp qd 12 with
      | .error message => some (.error message)
      | .ok pos =>
          (answerLoop? resp an pos [] ttlMax).map fun found => found.bind fun found =>
            if found.1.isEmpty then .error "no A record in DNS response"
            else .ok (found.1, max ttlMin (min found.2 ttlMax))

def answerLoopTcp? (resp : Bytes) : Nat → Nat → List Bytes → Option (List Bytes)
  | 0, _, ips => some ips
  | count + 1, pos, ips =>
      let pos := skipNameTcp resp pos
      if resp.length < pos + 10 then some ips
      else do
        let rtype ← u16At? resp pos
        let rdlen ← u16At? resp (pos + 8)
        let pos := pos + 10
        if resp.length < pos + rdlen then some ips
        else if rtype = 1 ∧ rdlen = 4 ∨ rtype = 28 ∧ rdlen = 16 then do
          let ip ← slice? resp pos rdlen
          answerLoopTcp? resp count (pos + rdlen) (ips ++ [ip])
        else answerLoopTcp? resp count (pos + rdlen) ips

def parseAnswerIps? (resp : Bytes) (expectTx : UInt16) : Option (List Bytes) :=
  if resp.length < 12 then some []
  else do
    let id ← u16At? resp 0
    let flags ← resp[2]?
    if id ≠ expectTx.toNat ∨ flags &&& 0x80 = 0 then some []
    else do
      let qd ← u16At? resp 4
      let an ← u16At? resp 6
      answerLoopTcp? resp an (skipQuestionsTcp resp qd 12) []

theorem byte?_inside (inside : pos < data.length) : data[pos]? = some (data.getD pos 0) := by
  rw [List.getElem?_eq_getElem inside, List.getD_eq_getElem _ _ inside]

theorem u16At?_inside (inside : pos + 2 ≤ data.length) :
    u16At? data pos = some (u16At data pos) := by
  rw [u16At?, byte?_inside (by omega), byte?_inside (by omega)]
  rfl

theorem u32At?_inside (inside : pos + 4 ≤ data.length) :
    u32At? data pos = some (u32At data pos) := by
  rw [u32At?, byte?_inside (by omega), byte?_inside (by omega), byte?_inside (by omega),
    byte?_inside (by omega)]
  rfl

theorem questionEnd?_eq (data : Bytes) : questionEnd? data = some (questionEnd data) := by
  rw [questionEnd?, questionEnd]
  split
  · rfl
  · rw [u16At?_inside (by omega)]
    rfl

theorem minTtlFrom?_eq (resp : Bytes) (count pos : Nat) (least : Option Nat) :
    minTtlFrom? resp count pos least = some (minTtlFrom resp count pos least) := by
  induction count generalizing pos least with
  | zero => rfl
  | succ count ih =>
      rw [minTtlFrom?, minTtlFrom]
      cases Dns.skipName resp pos with
      | none => rfl
      | some pos =>
          dsimp only [Option.bind_eq_bind, Option.bind_some]
          split
          · rfl
          · rw [u32At?_inside (by omega), u16At?_inside (by omega)]
            exact ih _ _

theorem minAnswerTtl?_eq (resp : Bytes) : minAnswerTtl? resp = some (minAnswerTtl resp) := by
  rw [minAnswerTtl?, minAnswerTtl]
  by_cases short : resp.length < 12
  · rw [if_pos short, if_pos (.inl short)]
  · rw [if_neg short, u16At?_inside (by omega), questionEnd?_eq]
    dsimp only [Option.bind_eq_bind, Option.bind_some]
    by_cases empty : u16At resp 6 = 0
    · rw [if_pos empty, if_pos (.inr empty)]
    · rw [if_neg empty, if_neg (by omega), minTtlFrom?_eq]
      rfl

theorem soaTtlFrom?_eq (resp : Bytes) (count pos : Nat) :
    soaTtlFrom? resp count pos = some (soaTtlFrom resp count pos) := by
  induction count generalizing pos with
  | zero => rfl
  | succ count ih =>
      rw [soaTtlFrom?, soaTtlFrom]
      cases Dns.skipName resp pos with
      | none => rfl
      | some afterName =>
          dsimp only [Option.bind_eq_bind, Option.bind_some]
          split
          · rfl
          · rw [u16At?_inside (by omega), u32At?_inside (by omega), u16At?_inside (by omega)]
            dsimp only [Option.bind_some]
            split
            · rfl
            · split
              · split
                · rfl
                · rw [u32At?_inside (by omega)]
                  rfl
              · exact ih _

theorem negativeTtl?_eq (resp : Bytes) : negativeTtl? resp = some (negativeTtl resp) := by
  rw [negativeTtl?, negativeTtl]
  by_cases short : resp.length < 12
  · rw [if_pos short, if_pos (.inl short)]
  · rw [if_neg short, u16At?_inside (by omega), u16At?_inside (by omega), questionEnd?_eq]
    dsimp only [Option.bind_eq_bind, Option.bind_some]
    by_cases empty : u16At resp 8 = 0
    · rw [if_pos empty, if_pos (.inr empty)]
    · rw [if_neg empty, if_neg (by omega)]
      cases skipMany (skipRr resp) (u16At resp 6) (questionEnd resp) with
      | none => rfl
      | some pos => exact soaTtlFrom?_eq resp _ pos

theorem answerLoop?_eq (resp : Bytes) (count pos : Nat) (ips : List Bytes) (minTtl : Nat) :
    answerLoop? resp count pos ips minTtl = some (answerLoop resp count pos ips minTtl) := by
  induction count generalizing pos ips minTtl with
  | zero => rfl
  | succ count ih =>
      rw [answerLoop?, answerLoop]
      cases skipName resp pos with
      | error message => rfl
      | ok pos =>
          dsimp only [Except.bind]
          split
          · rfl
          · rw [u16At?_inside (by omega), u32At?_inside (by omega), u16At?_inside (by omega)]
            dsimp only [Option.bind_eq_bind, Option.bind_some]
            split
            · rfl
            · split
              · next address =>
                  rw [slice?, if_pos (by omega), address.2]
                  exact ih _ _ _
              · exact ih _ _ _

theorem parseARecords?_eq (resp : Bytes) (wantId : UInt16) :
    parseARecords? resp wantId = some (parseARecords resp wantId) := by
  rw [parseARecords?, parseARecords]
  by_cases short : resp.length < 12
  · rw [if_pos short, if_pos short]
  · rw [if_neg short, if_neg short, u16At?_inside (by omega), byte?_inside (by omega),
      byte?_inside (by omega), u16At?_inside (by omega), u16At?_inside (by omega)]
    dsimp only [Option.bind_eq_bind, Option.bind_some]
    split
    · rfl
    · split
      · rfl
      · split
        · rfl
        · split
          · rfl
          · cases skipQuestions resp (u16At resp 4) 12 with
            | error message => rfl
            | ok pos =>
                dsimp only [Except.bind]
                rw [answerLoop?_eq]
                rfl

theorem answerLoopTcp?_eq (resp : Bytes) (count pos : Nat) (ips : List Bytes) :
    answerLoopTcp? resp count pos ips = some (answerLoopTcp resp count pos ips) := by
  induction count generalizing pos ips with
  | zero => rfl
  | succ count ih =>
      rw [answerLoopTcp?, answerLoopTcp]
      dsimp only
      split
      · rfl
      · rw [u16At?_inside (by omega), u16At?_inside (by omega)]
        dsimp only [Option.bind_eq_bind, Option.bind_some]
        split
        · rfl
        · split
          · rw [slice?, if_pos (by omega)]
            exact ih _ _
          · exact ih _ _

theorem parseAnswerIps?_eq (resp : Bytes) (expectTx : UInt16) :
    parseAnswerIps? resp expectTx = some (parseAnswerIps resp expectTx) := by
  rw [parseAnswerIps?, parseAnswerIps]
  by_cases short : resp.length < 12
  · rw [if_pos short, if_pos short]
  · rw [if_neg short, if_neg short, u16At?_inside (by omega), byte?_inside (by omega),
      u16At?_inside (by omega), u16At?_inside (by omega)]
    dsimp only [Option.bind_eq_bind, Option.bind_some]
    split
    · rfl
    · exact answerLoopTcp?_eq _ _ _ _

end Panics

section Messages

/-- A name of labels that ends at the root or with a pointer. -/
structure WireName where
  labels : List Bytes
  pointer : Option (UInt8 × UInt8)
  fits : ∀ label ∈ labels, LabelFits label
  points : ∀ high low, pointer = some (high, low) → high &&& 0xC0 = 0xC0

def WireName.stop (name : WireName) : Bytes :=
  match name.pointer with
  | some (high, low) => [high, low]
  | none => [0]

def WireName.bytes (name : WireName) : Bytes := name.labels.flatMap encodeLabel ++ name.stop

structure Rr where
  name : WireName
  rtype : UInt16
  rclass : UInt16
  ttl : UInt32
  rdata : Bytes
  short : rdata.length < 65536

namespace Rr

def fixed (rr : Rr) : Bytes :=
  be16 rr.rtype.toNat ++ be16 rr.rclass.toNat ++ toBe 4 rr.ttl.toNat ++ be16 rr.rdata.length

def bytes (rr : Rr) : Bytes := rr.name.bytes ++ (rr.fixed ++ rr.rdata)

def record (rr : Rr) : Record := ⟨rr.rtype.toNat, rr.rclass.toNat, rr.ttl.toNat, rr.rdata⟩

end Rr

structure Message where
  id : UInt16
  flags : UInt8
  code : UInt8
  question : WireName
  qtype : UInt16
  qclass : UInt16
  answers : List Rr
  authority : List Rr
  additional : List Rr
  counted : answers.length < 65536 ∧ authority.length < 65536 ∧ additional.length < 65536

def recordsBytes (records : List Rr) : Bytes := records.flatMap Rr.bytes

namespace Message

def header (message : Message) : Bytes :=
  be16 message.id.toNat ++ [message.flags, message.code] ++ be16 1 ++
    be16 message.answers.length ++ be16 message.authority.length ++
    be16 message.additional.length

def bytes (message : Message) : Bytes :=
  message.header ++ (message.question.bytes ++ (be16 message.qtype.toNat ++
    be16 message.qclass.toNat ++ (recordsBytes message.answers ++
      (recordsBytes message.authority ++ recordsBytes message.additional))))

def answersAt (message : Message) : Nat := 12 + message.question.bytes.length + 4

end Message

/-- Where the type of each record stands, behind its name. -/
def places : Nat → List Rr → List Nat
  | _, [] => []
  | pos, rr :: rest => (pos + rr.name.bytes.length) :: places (pos + rr.bytes.length) rest

/-- Where a walker with its own way past a name finds the records. -/
def offsets (skip : Nat → Option Nat) (resp : Bytes) : Nat → Nat → List Nat
  | 0, _ => []
  | count + 1, pos =>
      match skip pos with
      | none => []
      | some pos =>
          if Whole resp pos then
            pos :: offsets skip resp count (pos + 10 + u16At resp (pos + 8))
          else []

end Messages

section Names
variable {data tail : Bytes} {pos : Nat}

theorem here_of_drop {b : UInt8} (here : data.drop pos = b :: tail) :
    ∃ bound : pos < data.length, data[pos] = b ∧ data.drop (pos + 1) = tail := by
  have bound : pos < data.length := by
    by_contra outside
    rw [List.drop_eq_nil_of_le (Nat.not_lt.mp outside)] at here
    cases here
  rw [List.drop_eq_getElem_cons bound] at here
  exact ⟨bound, List.cons.inj here⟩

/-- What a walk over a name does at a label, at the root and at a pointer, it
does over the whole name. -/
theorem WireName.walk {End : Nat → Nat → Prop} (name : WireName)
    (root : ∀ pos, (bound : pos < data.length) → data[pos] = 0 → End pos (pos + 1))
    (pointer : ∀ pos, (bound : pos < data.length) → pos + 1 < data.length → data[pos] ≠ 0 →
      data[pos] &&& 0xC0 = 0xC0 → End pos (pos + 2))
    (label : ∀ pos stop, (bound : pos < data.length) → data[pos] ≠ 0 → data[pos] &&& 0xC0 = 0 →
      End (pos + 1 + data[pos].toNat) stop → End pos stop)
    (here : data.drop pos = name.bytes ++ tail) : End pos (pos + name.bytes.length) := by
  obtain ⟨labels, stop, fits, points⟩ := name
  unfold WireName.bytes at here ⊢
  dsimp only at here ⊢
  induction labels generalizing pos with
  | nil =>
      cases stop with
      | none =>
          obtain ⟨bound, zero, _⟩ := here_of_drop here
          exact root pos bound zero
      | some ends =>
          obtain ⟨high, low⟩ := ends
          obtain ⟨bound, first, behind⟩ := here_of_drop here
          obtain ⟨more, _, _⟩ := here_of_drop behind
          have marked := points high low rfl
          rw [← first] at marked
          refine pointer pos bound more ?_ marked
          intro zero
          rw [zero] at marked
          exact absurd marked (by decide)
  | cons first rest ih =>
      rw [List.forall_mem_cons] at fits
      obtain ⟨size, nonzero, small⟩ := length_byte fits.1
      rw [List.flatMap_cons, encodeLabel, List.cons_append, List.cons_append,
        List.cons_append] at here
      obtain ⟨bound, byte, behind⟩ := here_of_drop here
      -- A label is shorter than 64, so that its length is not taken for a pointer.
      have plain : data[pos] &&& 0xC0 = 0 := by
        rw [byte]
        exact not_not.mp fun set => small ((pointer_iff _).mp set)
      have further : data.drop (pos + 1 + data[pos].toNat) =
          rest.flatMap encodeLabel ++ WireName.stop ⟨rest, stop, fits.2, points⟩ ++ tail := by
        rw [← List.drop_drop, behind, byte, size, List.append_assoc, List.append_assoc,
          List.drop_left, List.append_assoc]
        rfl
      have later := ih fits.2 further
      refine label pos _ bound (byte ▸ nonzero) plain ?_
      have total : pos + 1 + data[pos].toNat + (rest.flatMap encodeLabel ++
            WireName.stop ⟨rest, stop, fits.2, points⟩).length =
          pos + ((first :: rest).flatMap encodeLabel ++ WireName.stop
            ⟨first :: rest, stop, List.forall_mem_cons.mpr fits, points⟩).length := by
        rw [byte, size, List.flatMap_cons, List.append_assoc,
          @List.length_append _ (encodeLabel first), length_encodeLabel]
        change _ = pos + (first.length + 1 + (rest.flatMap encodeLabel ++
          WireName.stop ⟨rest, stop, fits.2, points⟩).length)
        omega
      exact total ▸ later

theorem skipName_name (name : WireName) (here : data.drop pos = name.bytes ++ tail) :
    Dns.skipName data pos = some (pos + name.bytes.length) := by
  refine @WireName.walk data tail pos (fun pos stop => Dns.skipName data pos = some stop) name
    ?_ ?_ ?_ here
  · intro pos bound zero
    rw [Dns.skipName, dif_pos bound]
    exact if_pos zero
  · intro pos bound _ nonzero marked
    rw [Dns.skipName, dif_pos bound]
    exact (if_neg nonzero).trans (if_pos marked)
  · intro pos stop bound nonzero plain later
    rw [Dns.skipName, dif_pos bound]
    refine (if_neg nonzero).trans ((if_neg ?_).trans ((if_neg (not_not.mpr plain)).trans later))
    rw [plain]
    decide

theorem nameEnd_name (name : WireName) (here : data.drop pos = name.bytes ++ tail) :
    nameEnd data pos = pos + name.bytes.length := by
  refine @WireName.walk data tail pos (fun pos stop => nameEnd data pos = stop) name ?_ ?_ ?_
    here
  · intro pos bound zero
    rw [nameEnd, dif_pos bound]
    exact if_pos zero
  · intro pos bound _ nonzero marked
    rw [nameEnd, dif_pos bound]
    refine (if_neg nonzero).trans (if_pos ?_)
    rw [marked]
    decide
  · intro pos stop bound nonzero plain later
    rw [nameEnd, dif_pos bound]
    exact (if_neg nonzero).trans ((if_neg (not_not.mpr plain)).trans later)

theorem tunnelName_name (name : WireName) (here : data.drop pos = name.bytes ++ tail) :
    skipName data pos = .ok (pos + name.bytes.length) := by
  refine @WireName.walk data tail pos (fun pos stop => skipName data pos = .ok stop) name ?_ ?_ ?_
    here
  · intro pos bound zero
    rw [skipName, dif_pos bound]
    exact if_pos zero
  · intro pos bound more nonzero marked
    rw [skipName, dif_pos bound]
    exact (if_neg nonzero).trans ((if_pos marked).trans (if_neg (Nat.not_le_of_lt more)))
  · intro pos stop bound nonzero plain later
    rw [skipName, dif_pos bound]
    refine (if_neg nonzero).trans ((if_neg ?_).trans later)
    rw [plain]
    decide

theorem skipNameTcp_name (name : WireName) (here : data.drop pos = name.bytes ++ tail) :
    skipNameTcp data pos = pos + name.bytes.length := by
  refine @WireName.walk data tail pos (fun pos stop => skipNameTcp data pos = stop) name ?_ ?_ ?_
    here
  · intro pos bound zero
    rw [skipNameTcp, dif_pos bound]
    exact if_pos zero
  · intro pos bound _ nonzero marked
    rw [skipNameTcp, dif_pos bound]
    exact (if_neg nonzero).trans (if_pos marked)
  · intro pos stop bound nonzero plain later
    rw [skipNameTcp, dif_pos bound]
    refine (if_neg nonzero).trans ((if_neg ?_).trans later)
    rw [plain]
    decide

end Names

section Sections
variable {data tail : Bytes} {pos : Nat}

@[simp] theorem length_fixed (rr : Rr) : rr.fixed.length = 10 := rfl

theorem length_bytes (rr : Rr) : rr.bytes.length = rr.name.bytes.length + 10 + rr.rdata.length := by
  rw [Rr.bytes, List.length_append, List.length_append, length_fixed, Nat.add_assoc]

theorem fixed_here {rr : Rr} (here : data.drop pos = rr.fixed ++ (rr.rdata ++ tail)) :
    u16At data (pos + 8) = rr.rdata.length ∧ Whole data pos ∧ recordAt data pos = rr.record ∧
      data.drop (pos + 10 + rr.rdata.length) = tail := by
  have behind : data.drop (pos + 10) = rr.rdata ++ tail := by
    rw [← List.drop_drop, here]
    exact List.drop_left' (length_fixed rr)
  have rdlen : u16At data (pos + 8) = rr.rdata.length := by
    rw [u16At_drop, here]
    exact fromBe16_be16 rr.short
  have rtype : u16At data pos = rr.rtype.toNat := by
    have start := u16At_drop data pos 0
    rw [here] at start
    exact start.trans (fromBe16_be16 rr.rtype.toNat_lt)
  have rclass : u16At data (pos + 2) = rr.rclass.toNat := by
    rw [u16At_drop, here]
    exact fromBe16_be16 rr.rclass.toNat_lt
  have ttl : u32At data (pos + 4) = rr.ttl.toNat := by
    rw [u32At_drop, here]
    exact u32At_toBe rr.ttl.toNat_lt
  have inside : pos + 10 + rr.rdata.length ≤ data.length := by
    have size := congrArg List.length behind
    have all := congrArg List.length here
    simp only [List.length_drop, List.length_append, length_fixed] at size all
    omega
  refine ⟨rdlen, ?_, ?_, ?_⟩
  · rw [Whole, rdlen]
    exact inside
  · rw [recordAt, rtype, rclass, ttl, rdlen, behind, List.take_left]
    rfl
  · rw [← List.drop_drop, behind, List.drop_left]

/-- A way past names leads over the records of a section, each at its place. -/
theorem answers_records {skip : Nat → Option Nat}
    (passes : ∀ (name : WireName) pos tail, data.drop pos = name.bytes ++ tail →
      skip pos = some (pos + name.bytes.length))
    (records : List Rr) (here : data.drop pos = recordsBytes records ++ tail) :
    answers skip data records.length pos = (records.map Rr.record, true) ∧
      offsets skip data records.length pos = places pos records := by
  induction records generalizing pos with
  | nil => exact ⟨rfl, rfl⟩
  | cons rr rest ih =>
      rw [recordsBytes, List.flatMap_cons, Rr.bytes, List.append_assoc, List.append_assoc,
        List.append_assoc] at here
      have behind : data.drop (pos + rr.name.bytes.length) =
          rr.fixed ++ (rr.rdata ++ (recordsBytes rest ++ tail)) := by
        rw [← List.drop_drop, here, List.drop_left]
        rfl
      obtain ⟨rdlen, whole, record, further⟩ := fixed_here behind
      have next : pos + rr.bytes.length = pos + rr.name.bytes.length + 10 + rr.rdata.length := by
        rw [length_bytes]
        omega
      obtain ⟨read, placed⟩ := ih further
      rw [List.length_cons, answers, offsets, passes rr.name pos _ here]
      dsimp only
      rw [if_pos whole, if_pos whole, rdlen, read, placed, record, places, next]
      exact ⟨rfl, rfl⟩

theorem answerLoop_whole (count pos : Nat) (ips : List Bytes) (minTtl : Nat)
    (whole : (answers (tunnelSkip data) data count pos).2 = true) :
    answerLoop data count pos ips minTtl =
      let used := (answers (tunnelSkip data) data count pos).1.filter Record.isA
      .ok (ips ++ used.map Record.rdata, (used.map Record.ttl).foldl min minTtl) := by
  cases read : answerLoop data count pos ips minTtl with
  | ok found => exact congrArg Except.ok (answerLoop_ok count pos ips minTtl read)
  | error message =>
      exfalso
      induction count generalizing pos ips minTtl with
      | zero => cases read
      | succ count ih =>
          rw [answerLoop] at read
          rw [answers, tunnelSkip] at whole
          cases skipped : skipName data pos with
          | error message =>
              rw [skipped] at whole
              cases whole
          | ok pos =>
              rw [skipped] at whole read
              dsimp only [Except.bind] at whole read
              by_cases here : Whole data pos
              · rw [if_pos here] at whole
                unfold Whole at here
                rw [if_neg (by omega), if_neg (by omega)] at read
                split at read
                · exact ih _ _ _ whole read
                · exact ih _ _ _ whole read
              · rw [if_neg here] at whole
                cases whole

theorem minTtlFrom_whole (count pos : Nat) (least : Option Nat)
    (whole : (answers (Dns.skipName data) data count pos).2 = true) :
    minTtlFrom data count pos least =
      some (((answers (Dns.skipName data) data count pos).1.map Record.ttl).foldl
        (fun least ttl => some (least.elim ttl (min · ttl))) least) := by
  induction count generalizing pos least with
  | zero => rfl
  | succ count ih =>
      rw [answers] at whole
      rw [minTtlFrom, answers]
      cases skipped : Dns.skipName data pos with
      | none =>
          rw [skipped] at whole
          cases whole
      | some pos =>
          rw [skipped] at whole
          dsimp only [Option.bind_eq_bind, Option.bind_some] at whole ⊢
          by_cases here : Whole data pos
          · rw [if_pos here] at whole ⊢
            unfold Whole at here
            rw [if_neg (by omega), ih _ _ whole]
            cases least <;> rfl
          · rw [if_neg here] at whole
            cases whole

/-- The walk over the answers to the authority section. -/
theorem skipMany_records (records : List Rr) (here : data.drop pos = recordsBytes records ++ tail) :
    skipMany (skipRr data) records.length pos = some (pos + (recordsBytes records).length) := by
  induction records generalizing pos with
  | nil => rfl
  | cons rr rest ih =>
      rw [recordsBytes, List.flatMap_cons, Rr.bytes, List.append_assoc, List.append_assoc,
        List.append_assoc] at here
      have behind : data.drop (pos + rr.name.bytes.length) =
          rr.fixed ++ (rr.rdata ++ (recordsBytes rest ++ tail)) := by
        rw [← List.drop_drop, here, List.drop_left]
        rfl
      obtain ⟨rdlen, whole, _, further⟩ := fixed_here behind
      unfold Whole at whole
      have one : skipRr data pos =
          some (pos + rr.name.bytes.length + 10 + rr.rdata.length) := by
        rw [skipRr, skipName_name rr.name here]
        dsimp only [Option.bind_eq_bind, Option.bind_some]
        rw [u16At?_inside (by omega), rdlen]
        rfl
      rw [List.length_cons, skipMany, one, Option.bind_some, ih further, recordsBytes,
        recordsBytes, List.flatMap_cons, List.length_append, length_bytes]
      congr 1
      omega

end Sections

section Authority
variable {data tail : Bytes} {pos : Nat}

structure Soa where
  mname : WireName
  rname : WireName
  serial : UInt32
  refresh : UInt32
  retry : UInt32
  expire : UInt32
  minimum : UInt32

namespace Soa

def front (soa : Soa) : Bytes :=
  soa.mname.bytes ++ soa.rname.bytes ++ toBe 4 soa.serial.toNat ++ toBe 4 soa.refresh.toNat ++
    toBe 4 soa.retry.toNat ++ toBe 4 soa.expire.toNat

def rdata (soa : Soa) : Bytes := soa.front ++ toBe 4 soa.minimum.toNat

end Soa

theorem WireName.bytes_pos (name : WireName) : 0 < name.bytes.length := by
  have some_ : 0 < name.stop.length := by
    unfold WireName.stop
    split <;> exact Nat.succ_pos _
  rw [WireName.bytes, List.length_append]
  omega

theorem Soa.front_long (soa : Soa) : 18 ≤ soa.front.length := by
  have first := soa.mname.bytes_pos
  have second := soa.rname.bytes_pos
  simp only [Soa.front, List.length_append, toBe_length]
  omega

theorem soaTtlFrom_cons (rr : Rr) (rest : List Rr)
    (here : data.drop pos = recordsBytes (rr :: rest) ++ tail) :
    data.drop (pos + rr.bytes.length) = recordsBytes rest ++ tail ∧
      data.drop (pos + rr.name.bytes.length + 10) = rr.rdata ++ (recordsBytes rest ++ tail) ∧
      soaTtlFrom data (rest.length + 1) pos =
        if rr.rtype.toNat = 6 then
          if rr.rdata.length < 22 then none
          else some (min (max (min rr.ttl.toNat
            (u32At data (pos + rr.name.bytes.length + 10 + rr.rdata.length - 4))) 1) 300)
        else soaTtlFrom data rest.length (pos + rr.bytes.length) := by
  rw [recordsBytes, List.flatMap_cons, Rr.bytes, List.append_assoc, List.append_assoc,
    List.append_assoc] at here
  have behind : data.drop (pos + rr.name.bytes.length) =
      rr.fixed ++ (rr.rdata ++ (recordsBytes rest ++ tail)) := by
    rw [← List.drop_drop, here, List.drop_left]
    rfl
  obtain ⟨rdlen, whole, record, further⟩ := fixed_here behind
  have next : pos + rr.bytes.length = pos + rr.name.bytes.length + 10 + rr.rdata.length := by
    rw [length_bytes]
    omega
  have rtype := congrArg Record.rtype record
  have ttl := congrArg Record.ttl record
  dsimp only [recordAt, Rr.record] at rtype ttl
  unfold Whole at whole
  refine ⟨next ▸ further, ?_, ?_⟩
  · rw [← List.drop_drop, behind]
    exact List.drop_left' (length_fixed rr)
  · rw [soaTtlFrom, skipName_name rr.name here]
    dsimp only [Option.bind_eq_bind, Option.bind_some]
    rw [if_neg (by omega), if_neg (by omega), rtype, ttl, rdlen, next]

theorem soaTtlFrom_first {before after : List Rr} {rr : Rr} {soa : Soa}
    (here : data.drop pos = recordsBytes (before ++ rr :: after) ++ tail)
    (others : ∀ other ∈ before, other.rtype ≠ 6) (typed : rr.rtype = 6)
    (held : rr.rdata = soa.rdata) :
    soaTtlFrom data (before ++ rr :: after).length pos =
      some (min (max (min rr.ttl.toNat soa.minimum.toNat) 1) 300) := by
  induction before generalizing pos with
  | nil =>
      obtain ⟨_, data_, step⟩ := soaTtlFrom_cons rr after here
      have long : 22 ≤ rr.rdata.length := by
        have front := soa.front_long
        rw [held, Soa.rdata, List.length_append, toBe_length]
        omega
      have minimum : u32At data (pos + rr.name.bytes.length + 10 + rr.rdata.length - 4) =
          soa.minimum.toNat := by
        rw [held, Soa.rdata, List.append_assoc] at data_
        have at_ : pos + rr.name.bytes.length + 10 + rr.rdata.length - 4 =
            pos + rr.name.bytes.length + 10 + soa.front.length + 0 := by
          rw [held, Soa.rdata, List.length_append, toBe_length]
          omega
        rw [at_, u32At_drop, ← List.drop_drop, data_, List.drop_left]
        exact u32At_toBe soa.minimum.toNat_lt
      have is6 : rr.rtype.toNat = 6 := congrArg UInt16.toNat typed
      rw [List.nil_append, List.length_cons, step, if_pos is6, if_neg (by omega), minimum]
  | cons other rest ih =>
      rw [List.forall_mem_cons] at others
      obtain ⟨further, _, step⟩ := soaTtlFrom_cons other (rest ++ rr :: after) here
      have differs : other.rtype.toNat ≠ 6 := fun same =>
        others.1 (UInt16.toNat_inj.mp same)
      rw [List.cons_append, List.length_cons, step, if_neg differs]
      exact ih further others.2

theorem soaTtlFrom_none {records : List Rr} (here : data.drop pos = recordsBytes records ++ tail)
    (others : ∀ other ∈ records, other.rtype ≠ 6) :
    soaTtlFrom data records.length pos = none := by
  induction records generalizing pos with
  | nil => rfl
  | cons other rest ih =>
      rw [List.forall_mem_cons] at others
      obtain ⟨further, _, step⟩ := soaTtlFrom_cons other rest here
      have differs : other.rtype.toNat ≠ 6 := fun same =>
        others.1 (UInt16.toNat_inj.mp same)
      rw [List.length_cons, step, if_neg differs]
      exact ih further others.2

end Authority

section Agreement
variable {message : Message}

namespace Message

theorem header_length (message : Message) : message.header.length = 12 := rfl

theorem header_reads (message : Message) :
    u16At message.bytes 0 = message.id.toNat ∧ message.bytes.getD 2 0 = message.flags ∧
      message.bytes.getD 3 0 = message.code ∧ u16At message.bytes 4 = 1 ∧
      u16At message.bytes 6 = message.answers.length ∧
      u16At message.bytes 8 = message.authority.length := by
  have id := fromBe16_be16 message.id.toNat_lt
  have one := @fromBe16_be16 1 (by decide)
  have answers := fromBe16_be16 message.counted.1
  have authority := fromBe16_be16 message.counted.2.1
  rw [bytes, header]
  simp only [be16, List.cons_append, List.nil_append] at *
  exact ⟨id, rfl, rfl, one, answers, authority⟩

theorem behind_header (message : Message) : message.bytes.drop 12 =
    message.question.bytes ++ (be16 message.qtype.toNat ++ be16 message.qclass.toNat ++
      (recordsBytes message.answers ++
        (recordsBytes message.authority ++ recordsBytes message.additional))) :=
  List.drop_left' message.header_length

theorem answers_here (message : Message) : message.bytes.drop message.answersAt =
    recordsBytes message.answers ++
      (recordsBytes message.authority ++ recordsBytes message.additional) := by
  rw [answersAt, Nat.add_assoc, ← List.drop_drop, ← List.drop_drop, behind_header,
    List.drop_left]
  rfl

theorem authority_here (message : Message) :
    message.bytes.drop (message.answersAt + (recordsBytes message.answers).length) =
      recordsBytes message.authority ++ recordsBytes message.additional := by
  rw [← List.drop_drop, answers_here, List.drop_left]

theorem answersAt_le (message : Message) : message.answersAt ≤ message.bytes.length := by
  rw [bytes, List.length_append, header_length, List.length_append, List.length_append,
    answersAt]
  change _ ≤ 12 + (message.question.bytes.length + (4 + _))
  omega

end Message

theorem questionEnd_message (message : Message) :
    questionEnd message.bytes = message.answersAt := by
  obtain ⟨_, _, _, one, _, _⟩ := message.header_reads
  have inside := message.answersAt_le
  have name := nameEnd_name message.question message.behind_header
  rw [questionEnd_one (by unfold Message.answersAt at inside; omega) one, name]
  exact Nat.min_eq_left inside

theorem skipQuestions_message (message : Message) :
    skipQuestions message.bytes 1 12 = .ok message.answersAt := by
  rw [skipQuestions, tunnelName_name message.question message.behind_header]
  rfl

theorem skipQuestionsTcp_message (message : Message) :
    skipQuestionsTcp message.bytes 1 12 = message.answersAt := by
  rw [skipQuestionsTcp, skipNameTcp_name message.question message.behind_header]
  rfl

/-- Where each of the three finds the answer records of a message. -/
def serverOffsets (resp : Bytes) : List Nat :=
  offsets (Dns.skipName resp) resp (u16At resp 6) (questionEnd resp)

def tunnelOffsets (resp : Bytes) : List Nat :=
  match skipQuestions resp (u16At resp 4) 12 with
  | .ok pos => offsets (tunnelSkip resp) resp (u16At resp 6) pos
  | .error _ => []

def tcpOffsets (resp : Bytes) : List Nat :=
  offsets (fun pos => some (skipNameTcp resp pos)) resp (u16At resp 6)
    (skipQuestionsTcp resp (u16At resp 4) 12)

theorem tunnelSkip_name {data tail : Bytes} (name : WireName) (pos : Nat)
    (here : data.drop pos = name.bytes ++ tail) :
    tunnelSkip data pos = some (pos + name.bytes.length) := by
  rw [tunnelSkip, tunnelName_name name here]

theorem offsets_agree (message : Message) :
    serverOffsets message.bytes = places message.answersAt message.answers ∧
      tunnelOffsets message.bytes = places message.answersAt message.answers ∧
      tcpOffsets message.bytes = places message.answersAt message.answers := by
  obtain ⟨_, _, _, one, count, _⟩ := message.header_reads
  have here := message.answers_here
  refine ⟨?_, ?_, ?_⟩
  · rw [serverOffsets, count, questionEnd_message]
    exact (answers_records (fun name _ _ => skipName_name name) _ here).2
  · rw [tunnelOffsets, one, count, skipQuestions_message]
    exact (answers_records (fun name pos _ => tunnelSkip_name name pos) _ here).2
  · rw [tcpOffsets, one, count, skipQuestionsTcp_message]
    exact (answers_records (fun name _ _ found => congrArg some (skipNameTcp_name name found))
      _ here).2

theorem foldl_least (ttls : List Nat) :
    ttls.foldl (fun least ttl => some (least.elim ttl (min · ttl))) none = ttls.min? := by
  cases ttls with
  | nil => rfl
  | cons first rest =>
      rw [List.min?_cons', List.foldl_cons, Option.elim_none]
      induction rest generalizing first with
      | nil => rfl
      | cons second rest ih => exact ih (min first second)

theorem minAnswerTtl_message (message : Message) :
    minAnswerTtl message.bytes = (message.answers.map fun rr => rr.ttl.toNat).min? := by
  obtain ⟨_, _, _, _, count, _⟩ := message.header_reads
  have size := message.answersAt_le
  rw [minAnswerTtl, count, questionEnd_message]
  obtain ⟨read, _⟩ := answers_records (fun name _ _ => skipName_name name) message.answers
    message.answers_here
  by_cases empty : message.answers.length = 0
  · rw [if_pos (.inr empty), List.eq_nil_of_length_eq_zero empty]
    rfl
  · rw [if_neg (by unfold Message.answersAt at size; omega), minTtlFrom_whole _ _ _ (by rw [read]),
      read, Option.join_some, foldl_least, List.map_map]
    rfl

/-- The records of the answer section that the tunnel's reader and the one over
TCP take. -/
def Message.aRecords (message : Message) : List Record :=
  (message.answers.map Rr.record).filter Record.isA

def Message.addressRecords (message : Message) : List Record :=
  (message.answers.map Rr.record).filter Record.isAddress

theorem parseARecords_message (message : Message) (response : message.flags &&& 0x80 ≠ 0)
    (success : message.code &&& 0x0F = 0) :
    (message.aRecords = [] →
      parseARecords message.bytes message.id = .error "no A record in DNS response") ∧
    (message.aRecords ≠ [] → ∃ ttl, Lifetime message.aRecords ttl ∧
      parseARecords message.bytes message.id = .ok (message.aRecords.map Record.rdata, ttl)) := by
  obtain ⟨id, flags, code, one, count, _⟩ := message.header_reads
  have size := message.answersAt_le
  obtain ⟨read, _⟩ := answers_records (fun name pos _ => tunnelSkip_name name pos)
    message.answers message.answers_here
  have parsed : parseARecords message.bytes message.id =
      if (message.aRecords.map Record.rdata).isEmpty then .error "no A record in DNS response"
      else .ok (message.aRecords.map Record.rdata,
        max ttlMin (min ((message.aRecords.map Record.ttl).foldl min ttlMax) ttlMax)) := by
    have notNx : ¬ message.code &&& 0x0F = 3 := by
      rw [success]
      decide
    rw [parseARecords, if_neg (by unfold Message.answersAt at size; omega), id, flags, code, one,
      count, if_neg (not_not.mpr rfl), if_neg response, if_neg notNx,
      if_neg (not_not.mpr success), skipQuestions_message]
    dsimp only [Except.bind]
    rw [answerLoop_whole _ _ _ _ (by rw [read]), read]
    rfl
  constructor
  · intro none_
    rw [parsed, none_]
    rfl
  · intro some_
    refine ⟨_, lifetime_of_foldl some_, ?_⟩
    rw [parsed, if_neg]
    rw [List.isEmpty_iff, List.map_eq_nil_iff]
    exact some_

theorem parseAnswerIps_message (message : Message) (response : message.flags &&& 0x80 ≠ 0) :
    parseAnswerIps message.bytes message.id = message.addressRecords.map Record.rdata := by
  obtain ⟨id, flags, _, one, count, _⟩ := message.header_reads
  have size := message.answersAt_le
  obtain ⟨read, _⟩ := answers_records
    (fun name _ _ found => congrArg some (skipNameTcp_name name found)) message.answers
    message.answers_here
  rw [parseAnswerIps, if_neg (by unfold Message.answersAt at size; omega), id, flags, one, count,
    if_neg (not_or.mpr ⟨not_not.mpr rfl, response⟩), skipQuestionsTcp_message, answerLoopTcp_eq,
    read]
  rfl

theorem negativeTtl_message (message : Message) :
    negativeTtl message.bytes = soaTtlFrom message.bytes message.authority.length
      (message.answersAt + (recordsBytes message.answers).length) := by
  obtain ⟨_, _, _, _, count, authority⟩ := message.header_reads
  have size := message.answersAt_le
  rw [negativeTtl, count, authority, questionEnd_message]
  by_cases empty : message.authority.length = 0
  · rw [if_pos (.inr empty), empty]
    rfl
  · rw [if_neg (by unfold Message.answersAt at size; omega),
      skipMany_records _ message.answers_here]
    rfl

def zone : WireName where
  labels := [utf8 "io"]
  pointer := none
  fits := by decide
  points := fun _ _ none_ => absurd none_ (by simp)

def zoneSoa : Soa := ⟨zone, zone, 1, 7200, 900, 86400, 60⟩

def missing : Message where
  id := 7
  flags := 0x81
  code := 0x83
  question := { zone with
    labels := [utf8 "a", utf8 "io"]
    fits := by decide }
  qtype := 1
  qclass := 1
  answers := []
  authority := [{
    name := { zone with
      labels := []
      pointer := some (0xC0, 0x0E)
      fits := by decide
      points := by
        rintro _ _ ⟨⟩
        decide }
    rtype := 6
    rclass := 1
    ttl := 300
    rdata := zoneSoa.rdata
    short := by decide }]
  additional := []
  counted := by decide

example : missing.bytes.length = 62 ∧ negativeTtl missing.bytes = some 60 := by
  decide +kernel

/-- No walker reads outside of any message; and on a message with one question
and all its records they find the answer records at the same places and report
what stands there, and the first SOA of the authority section gives the negative
TTL. -/
theorem walkers_agree :
    (∀ resp, minAnswerTtl? resp = some (minAnswerTtl resp) ∧
      negativeTtl? resp = some (negativeTtl resp) ∧
      ∀ id, parseARecords? resp id = some (parseARecords resp id) ∧
        parseAnswerIps? resp id = some (parseAnswerIps resp id)) ∧
    ∀ message : Message,
      (serverOffsets message.bytes = places message.answersAt message.answers ∧
        tunnelOffsets message.bytes = places message.answersAt message.answers ∧
        tcpOffsets message.bytes = places message.answersAt message.answers) ∧
      minAnswerTtl message.bytes = (message.answers.map fun rr => rr.ttl.toNat).min? ∧
      (message.flags &&& 0x80 ≠ 0 → message.code &&& 0x0F = 0 →
        (message.aRecords = [] →
          parseARecords message.bytes message.id = .error "no A record in DNS response") ∧
        (message.aRecords ≠ [] → ∃ ttl, Lifetime message.aRecords ttl ∧
          parseARecords message.bytes message.id =
            .ok (message.aRecords.map Record.rdata, ttl))) ∧
      (message.flags &&& 0x80 ≠ 0 →
        parseAnswerIps message.bytes message.id = message.addressRecords.map Record.rdata) ∧
      (∀ before rr after (soa : Soa), message.authority = before ++ rr :: after →
        (∀ other ∈ before, other.rtype ≠ 6) → rr.rtype = 6 → rr.rdata = soa.rdata →
        negativeTtl message.bytes =
          some (min (max (min rr.ttl.toNat soa.minimum.toNat) 1) 300)) ∧
      ((∀ other ∈ message.authority, other.rtype ≠ 6) → negativeTtl message.bytes = none) := by
  constructor
  · exact fun resp => ⟨minAnswerTtl?_eq resp, negativeTtl?_eq resp, fun id =>
      ⟨parseARecords?_eq resp id, parseAnswerIps?_eq resp id⟩⟩
  · intro message
    refine ⟨offsets_agree message, minAnswerTtl_message message,
      parseARecords_message message, parseAnswerIps_message message, ?_, ?_⟩
    · intro before rr after soa split others typed held
      have here := message.authority_here
      rw [negativeTtl_message]
      rw [split] at here ⊢
      exact soaTtlFrom_first here others typed held
    · intro others
      rw [negativeTtl_message]
      exact soaTtlFrom_none message.authority_here others

end Agreement

end Mirage.Resolver
