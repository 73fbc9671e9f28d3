import Mirage.Lib.Text

/-!
The DNS message walkers of dns/server.rs over the bytes of one message. Reads
that the source guards by a length check use `u16At` and `u32At`; reads that
it makes with `get(..)?` are the ones with an option.
-/

namespace Mirage.Dns
open Word Text

section Reads

def fromBe32 (a b c d : UInt8) : Nat :=
  a.toNat * 2 ^ 24 + b.toNat * 2 ^ 16 + c.toNat * 2 ^ 8 + d.toNat

def u16At (data : Bytes) (pos : Nat) : Nat := fromBe16 (data.getD pos 0) (data.getD (pos + 1) 0)

def u32At (data : Bytes) (pos : Nat) : Nat :=
  fromBe32 (data.getD pos 0) (data.getD (pos + 1) 0) (data.getD (pos + 2) 0) (data.getD (pos + 3) 0)

def u16At? (data : Bytes) (pos : Nat) : Option Nat := do
  return fromBe16 (← data[pos]?) (← data[pos + 1]?)

def u32At? (data : Bytes) (pos : Nat) : Option Nat := do
  return fromBe32 (← data[pos]?) (← data[pos + 1]?) (← data[pos + 2]?) (← data[pos + 3]?)

end Reads

section Question

/-- The labels of `extract_domain`; a label that is no UTF-8 fails the whole. -/
def extractLabels (table : CaseTable) (data : Bytes) (offset : Nat) : Option (List String) :=
  if bound : offset < data.length then
    let n := data[offset]
    if n = 0 then some []
    -- Pointer compression is not expected in a question.
    else if n &&& 0xC0 ≠ 0 then some []
    else if data.length < offset + 1 + n.toNat then some []
    else
      match fromUtf8 ((data.drop (offset + 1)).take n.toNat) with
      | none => none
      | some label =>
          (extractLabels table data (offset + 1 + n.toNat)).map (toLowercase table label :: ·)
  else some []
termination_by data.length - offset

def extractDomain (table : CaseTable) (data : Bytes) : Option String :=
  if data.length < 12 then none
  else
    match extractLabels table data 12 with
    | none | some [] => none
    | some labels => some (join '.' labels)

/-- The name walk of `question_end`, which may step past the end. -/
def nameEnd (data : Bytes) (pos : Nat) : Nat :=
  if bound : pos < data.length then
    let n := data[pos]
    if n = 0 then pos + 1
    else if n &&& 0xC0 ≠ 0 then pos + 2
    else nameEnd data (pos + 1 + n.toNat)
  else pos
termination_by data.length - pos

/-- Names with QTYPE and QCLASS, up to the end of the message. -/
def questionsEnd (data : Bytes) : Nat → Nat → Nat
  | 0, pos => pos
  | count + 1, pos =>
      let next := nameEnd data pos + 4
      if data.length < next then data.length else questionsEnd data count next

def questionEnd (data : Bytes) : Nat :=
  if data.length < 12 then data.length else questionsEnd data (u16At data 4) 12

def getQclass (data : Bytes) : Option Nat :=
  let stop := questionEnd data
  if data.length < stop ∨ stop < 14 then none else some (u16At data (stop - 2))

def getQtype (data : Bytes) : Option Nat :=
  let stop := questionEnd data
  if data.length < stop ∨ stop < 4 then none else some (u16At data (stop - 4))

def isWellformedQuery (req : Bytes) : Bool :=
  12 ≤ req.length && u16At req 4 = 1 && 12 < questionEnd req

theorem questionsEnd_le {data : Bytes} {count pos : Nat} (inside : pos ≤ data.length) :
    questionsEnd data count pos ≤ data.length := by
  induction count generalizing pos with
  | zero => exact inside
  | succ count ih =>
      rw [questionsEnd]
      split
      · exact Nat.le_refl _
      · exact ih (by omega)

theorem questionEnd_le (data : Bytes) : questionEnd data ≤ data.length := by
  rw [questionEnd]
  split
  · exact Nat.le_refl _
  · exact questionsEnd_le (by omega)

end Question

section Records

def skipName (data : Bytes) (pos : Nat) : Option Nat :=
  if bound : pos < data.length then
    let len := data[pos]
    if len = 0 then some (pos + 1)
    else if len &&& 0xC0 = 0xC0 then some (pos + 2)
    else if len &&& 0xC0 ≠ 0 then none
    else skipName data (pos + 1 + len.toNat)
  else none
termination_by data.length - pos

def skipRr (data : Bytes) (pos : Nat) : Option Nat := do
  let afterName ← skipName data pos
  let rdlenAt := afterName + 8
  let rdlen ← u16At? data rdlenAt
  return rdlenAt + 2 + rdlen

def skipMany (skip : Nat → Option Nat) : Nat → Nat → Option Nat
  | 0, pos => some pos
  | count + 1, pos => (skip pos).bind (skipMany skip count)

end Records

section Edns

structure EdnsInfo where
  doBit : Bool
  cdBit : Bool
  maxUdp : Nat
  hasOpt : Bool
  hasOptions : Bool
  deriving DecidableEq

def dnsUdpBuf : Nat := 4096

def cdBit (req : Bytes) : Bool :=
  match req[3]? with
  | some b => b &&& 0x10 != 0
  | none => false

def findOpt (req : Bytes) : Nat → Nat → Option EdnsInfo
  | 0, _ => none
  | count + 1, pos => do
      let rrtypeAt ← skipName req pos
      let rrtype ← u16At? req rrtypeAt
      let payload ← u16At? req (rrtypeAt + 2)
      let ttl ← u32At? req (rrtypeAt + 4)
      if rrtype = 41 then
        let rdlen ← u16At? req (rrtypeAt + 8)
        return {
          doBit := ttl &&& 0x8000 != 0
          cdBit := cdBit req
          maxUdp := min (max payload 512) dnsUdpBuf
          hasOpt := true
          hasOptions := 0 < rdlen }
      else
        findOpt req count (← skipRr req pos)

def parseOpt (req : Bytes) : Option EdnsInfo :=
  if req.length < 12 then none
  else do
    let pos ← skipMany (fun pos => (skipName req pos).map (· + 4)) (u16At req 4) 12
    let pos ← skipMany (skipRr req) (u16At req 6 + u16At req 8) pos
    findOpt req (u16At req 10) pos

def ednsInfo (req : Bytes) : EdnsInfo :=
  (parseOpt req).getD ⟨false, cdBit req, 512, false, false⟩

def udpBucket (maxUdp : Nat) : Nat :=
  if maxUdp ≤ 512 then 0 else if maxUdp ≤ 1232 then 1 else 2

def EdnsInfo.bucket (self : EdnsInfo) : Nat := if self.hasOpt then udpBucket self.maxUdp else 3

/-- Bucket 3 stands for a query without OPT and no other. -/
theorem EdnsInfo.hasOpt_eq_of_bucket {first second : EdnsInfo}
    (same : first.bucket = second.bucket) : first.hasOpt = second.hasOpt := by
  have bound : ∀ size, udpBucket size ≠ 3 := by
    intro size
    rw [udpBucket]
    split
    · decide
    · split <;> decide
  cases one : first.hasOpt <;> cases two : second.hasOpt <;>
    simp only [bucket, one, two, Bool.false_eq_true, if_true, if_false] at same
  · rfl
  · exact absurd same.symm (bound _)
  · exact absurd same (bound _)
  · rfl

end Edns

section Names

/-- How a name on the wire stops: at the root, at a pointer or reserved length
byte, or at the end of the message. -/
inductive NameStop where
  | root
  | pointer (bytes : Bytes)
  | cut (rest : Bytes)
  deriving DecidableEq

def nameAt (data : Bytes) (offset : Nat) : List Bytes × NameStop :=
  if bound : offset < data.length then
    let n := data[offset]
    if n = 0 then ([], .root)
    else if n &&& 0xC0 ≠ 0 then ([], .pointer ((data.drop offset).take 2))
    else if data.length < offset + 1 + n.toNat then ([], .cut (data.drop offset))
    else
      let (labels, stop) := nameAt data (offset + 1 + n.toNat)
      ((data.drop (offset + 1)).take n.toNat :: labels, stop)
  else ([], .cut [])
termination_by data.length - offset

def questionName (data : Bytes) : List Bytes × NameStop := nameAt data 12

/-- The names are equal label by label, in any ASCII case, and stop alike. -/
def SameName (first second : Bytes) : Prop :=
  (questionName first).1.map (·.map toAsciiLowercase) =
      (questionName second).1.map (·.map toAsciiLowercase) ∧
    (questionName first).2 = (questionName second).2

/-- The labels as texts, before their case is folded. -/
def decodeLabels : List Bytes → Option (List String)
  | [] => some []
  | label :: rest =>
      match fromUtf8 label with
      | none => none
      | some text => (decodeLabels rest).map (text :: ·)

theorem extractLabels_eq (table : CaseTable) (data : Bytes) (offset : Nat) :
    extractLabels table data offset =
      (decodeLabels (nameAt data offset).1).map (·.map (toLowercase table)) := by
  induction offset using nameAt.induct data with
  | case1 offset bound n zero =>
      rw [extractLabels, nameAt, dif_pos bound, dif_pos bound]
      simp only [n] at zero
      simp [zero, decodeLabels]
  | case2 offset bound n nonzero pointer =>
      rw [extractLabels, nameAt, dif_pos bound, dif_pos bound]
      simp only [n] at nonzero pointer
      simp [nonzero, pointer, decodeLabels]
  | case3 offset bound n nonzero label short =>
      rw [extractLabels, nameAt, dif_pos bound, dif_pos bound]
      simp only [n] at nonzero label short
      simp [nonzero, label, short, decodeLabels]
  | case4 offset bound n nonzero label fits labels stop rest ih =>
      rw [extractLabels, nameAt, dif_pos bound, dif_pos bound]
      simp only [n] at nonzero label fits rest ih
      simp only [nonzero, label, fits, if_false, ih, rest, decodeLabels]
      cases fromUtf8 ((data.drop (offset + 1)).take data[offset].toNat) with
      | none => rfl
      | some text => simp [Function.comp_def]
  | case5 offset bound =>
      rw [extractLabels, nameAt, dif_neg bound, dif_neg bound]
      rfl

theorem decodeLabels_utf8 {labels : List Bytes} {texts : List String}
    (decoded : decodeLabels labels = some texts) : texts.map utf8 = labels := by
  induction labels generalizing texts with
  | nil =>
      cases decoded
      rfl
  | cons label rest ih =>
      rw [decodeLabels] at decoded
      split at decoded
      · cases decoded
      next text found =>
        obtain ⟨tail, parsed, rfl⟩ := Option.map_eq_some_iff.mp decoded
        rw [List.map_cons, ih parsed, utf8_of_fromUtf8 found]

end Names

end Mirage.Dns
