import Mirage.Tunnel.Setup

/-!
The pairs of key and nonce that a writer seals with, over any sequence of its
operations, and those its receiver opens with. A write to the socket may fail
at any record; the nonce is spent by then, and the writer can be used again.
-/

namespace Mirage.Tunnel
open Word

/-- A key of the suite is bound to its algorithm. -/
def AeadCrate.KeysByCipher (crate : AeadCrate) : Prop :=
  ∀ master info other, crate.expandKey master info .chaCha20Poly1305 ≠
    crate.expandKey master other .aes256Gcm

def formatNonce (n : Nat) : Bytes := List.replicate 4 0 ++ be64 n

structure Pair (crate : AeadCrate) where
  key : crate.Key
  nonce : Bytes

/-- What a peer that follows the writer sees. -/
inductive Mark (crate : AeadCrate) where
  | sealed (pair : Pair crate) (record : Bytes)
  | rekeyed (cipher : Cipher)

inductive SendError where
  | nonceExhausted
  | io
  deriving DecidableEq

variable {crate : AeadCrate}

/-- The result of an operation: its marks, what it returns, the writer after it. -/
structure Done (crate : AeadCrate) where
  marks : List (Mark crate)
  result : Except SendError Unit
  writer : CryptoWriter crate

namespace CryptoWriter

/-- A record was shaped, but there is no nonce for it. -/
def passOver (self : CryptoWriter crate) : CryptoWriter crate :=
  { self with
    rng := fun i => self.rng (i + 1)
    recordsSent := saturatingAddU32 self.recordsSent 1 }

def pair (self : CryptoWriter crate) : Pair crate := ⟨self.key, formatNonce self.nonce⟩

/-- `send_data` on a socket with `room` for so many writes; the flush at the end
is one more. -/
def sealData (self : CryptoWriter crate) (plaintext : Bytes) (room : Option Nat) : Done crate :=
  if plaintext = [] then ⟨[], if room = some 0 then .error .io else .ok (), self⟩
  else if maxU64 ≤ self.nonce then ⟨[], .error .nonceExhausted, self.passOver⟩
  else
    let mark := .sealed self.pair (self.record (plaintext.take self.shape.capacity))
    if room = some 0 then ⟨[mark], .error .io, self.advance⟩
    else
      let rest := self.advance.sealData (plaintext.drop self.shape.capacity) (room.map (· - 1))
      { rest with marks := mark :: rest.marks }
termination_by maxU64 - self.nonce
decreasing_by
  simp only [advance]
  omega

/-- `send_control_record`. -/
def sealControl (self : CryptoWriter crate) (body : Bytes) (innerType : UInt8) (broken : Bool) :
    Done crate :=
  match self.sendControlRecord body innerType with
  | none => ⟨[], .error .nonceExhausted, self⟩
  | some (record, next) =>
      ⟨[.sealed self.pair record], if broken then .error .io else .ok (), next⟩

end CryptoWriter

inductive Operation where
  | sendData (plaintext : Bytes) (room : Option Nat)
  | sendCloseNotify (broken : Bool)
  | sendTargetUnreachable (reason : UInt8) (broken : Bool)
  | rekey (cipher : Cipher)

namespace CryptoWriter

def perform (self : CryptoWriter crate) : Operation → Done crate
  | .sendData plaintext room => self.sealData plaintext room
  | .sendCloseNotify broken => self.sealControl [0x01, 0x00] 0x15 broken
  | .sendTargetUnreachable reason broken => self.sealControl [reason, 0x00] 0x18 broken
  | .rekey cipher => ⟨[.rekeyed cipher], .ok (), self.rekey cipher⟩

/-- All marks of a sequence of operations, whatever they return. -/
def performAll (self : CryptoWriter crate) : List Operation → List (Mark crate) × CryptoWriter crate
  | [] => ([], self)
  | operation :: rest =>
      let done := self.perform operation
      let later := done.writer.performAll rest
      (done.marks ++ later.1, later.2)

end CryptoWriter

def Mark.pair : Mark crate → Option (Pair crate)
  | .sealed pair _ => some pair
  | .rekeyed _ => none

def pairs (marks : List (Mark crate)) : List (Pair crate) := marks.filterMap Mark.pair

namespace CryptoReader

/-- `recv_data_borrowed` on the bytes of one record: the pair it opens with, and
the reader it leaves also on an error. -/
def recvBorrowed (self : CryptoReader crate) (wire : Bytes) :
    Except RecvError Bytes × Option (Pair crate) × CryptoReader crate :=
  match wire with
  | first :: second :: third :: high :: low :: rest =>
      if first ≠ 0x17 ∨ second ≠ 0x03 ∨ third ≠ 0x03 then (.error .badMagic, none, self)
      else
        let len := fromBe16 high low
        if maxRecordSize + 1 + tagSize < len then (.error .tooLong, none, self)
        else if rest.length < len then (.error .unexpectedEof, none, self)
        else if maxU64 ≤ self.nonce then (.error .nonceExhausted, none, self)
        else
          (match crate.openInPlace self.key self.nonce (rest.take len) with
            | none => .error .decryptionFailed
            | some plaintext => processPlaintext plaintext,
            some ⟨self.key, formatNonce self.nonce⟩, { self with nonce := self.nonce + 1 })
  | _ => (.error .unexpectedEof, none, self)

/-- The pairs used to follow a writer's marks, and the reader after them. -/
def follows (self : CryptoReader crate) :
    List (Mark crate) → List (Pair crate) × CryptoReader crate
  | [] => ([], self)
  | .sealed _ record :: rest =>
      let (_, used, next) := self.recvBorrowed record
      let later := next.follows rest
      (used.toList ++ later.1, later.2)
  | .rekeyed cipher :: rest => (self.rekey cipher).follows rest

end CryptoReader

section Records

def Mark.record : Mark crate → Option Bytes
  | .sealed _ record => some record
  | .rekeyed _ => none

/-- On a socket that takes every write the records are those of `sendData`. -/
theorem sealData_records (writer : CryptoWriter crate) (plaintext : Bytes) :
    (writer.sealData plaintext none).marks.filterMap Mark.record =
      (writer.sendData plaintext).1 := by
  induction writer, plaintext using CryptoWriter.sendData.induct with
  | case1 writer => simp [CryptoWriter.sealData]
  | case2 writer plaintext nonempty spent =>
      rw [CryptoWriter.sendData_spent nonempty spent, CryptoWriter.sealData, if_neg nonempty,
        if_pos spent]
      rfl
  | case3 writer plaintext nonempty left ih =>
      rw [CryptoWriter.sendData_record nonempty (Nat.not_le.mp left), CryptoWriter.sealData,
        if_neg nonempty, if_neg left, ← ih]
      rfl

theorem recvBorrowed_result (reader : CryptoReader crate) (wire : Bytes) :
    (reader.recvBorrowed wire).1 = (reader.recvData wire).map Prod.fst := by
  match wire with
  | [] | [_] | [_, _] | [_, _, _] | [_, _, _, _] => rfl
  | first :: second :: third :: high :: low :: rest =>
      simp only [CryptoReader.recvBorrowed, CryptoReader.recvData]
      split
      · rfl
      split
      · rfl
      split
      · rfl
      split
      · rfl
      cases crate.openInPlace reader.key reader.nonce (rest.take (fromBe16 high low)) with
      | none => rfl
      | some plaintext =>
          dsimp only
          cases CryptoReader.processPlaintext plaintext <;> rfl

end Records

section Nonces

theorem be64_injective {first second : Nat} (small : first ≤ maxU64) (smallToo : second ≤ maxU64)
    (same : be64 first = be64 second) : first = second := by
  simp only [maxU64] at small smallToo
  have digits : ∀ i < 8, first / 256 ^ i % 256 = second / 256 ^ i % 256 := by
    intro i within
    have at_i := congrArg (fun bytes => bytes[7 - i]?) same
    have place : 7 - i < 8 := by omega
    have back : 7 - (7 - i) = i := by omega
    simp only [be64, List.getElem?_map, List.getElem?_range place, Option.map_some, back] at at_i
    have bytes := congrArg UInt8.toNat (Option.some.inj at_i)
    simpa only [UInt8.toNat_ofNat'] using bytes
  exact @eq_of_digits 256 8 first second (by omega) (by omega) digits

theorem formatNonce_injective {first second : Nat} (small : first ≤ maxU64)
    (smallToo : second ≤ maxU64) (same : formatNonce first = formatNonce second) :
    first = second :=
  be64_injective small smallToo (List.append_cancel_left same)

@[simp] theorem pairs_nil : pairs ([] : List (Mark crate)) = [] := rfl

@[simp] theorem pairs_sealed (pair : Pair crate) (record : Bytes) (marks : List (Mark crate)) :
    pairs (.sealed pair record :: marks) = pair :: pairs marks := rfl

@[simp] theorem pairs_rekeyed (cipher : Cipher) (marks : List (Mark crate)) :
    pairs (.rekeyed cipher :: marks) = pairs marks := rfl

@[simp] theorem pairs_append (first second : List (Mark crate)) :
    pairs (first ++ second) = pairs first ++ pairs second :=
  List.filterMap_append

/-- What the pairs used so far leave to the writer: under its key every nonce
from the counter on, and another key as long as it has the first one. -/
structure Unused (past : List (Pair crate)) (writer : CryptoWriter crate) : Prop where
  nodup : past.Nodup
  counted : writer.nonce ≤ maxU64
  derived : writer.key = directionKey crate writer.master writer.isInitiator writer.cipherKind
  below : ∀ pair ∈ past, pair.key = writer.key → ∃ n < writer.nonce, pair.nonce = formatNonce n
  first : writer.cipherKind = .chaCha20Poly1305 → ∀ pair ∈ past, pair.key = writer.key

variable {past : List (Pair crate)} {writer : CryptoWriter crate}

theorem new_unused (crate : AeadCrate) (master : Bytes) (isInitiator : Bool) (rng : Nat → Nat)
    (padding : Bool) (scheme : PaddingScheme) :
    Unused [] (CryptoWriter.new crate master isInitiator rng padding scheme) :=
  ⟨List.nodup_nil, Nat.zero_le _, rfl, nofun, nofun⟩

/-- Sealing takes the pair under the counter and moves the counter on; nothing
else of the writer matters. -/
theorem Unused.seal (unused : Unused past writer) (left : writer.nonce < maxU64)
    {next : CryptoWriter crate} (nonce : next.nonce = writer.nonce + 1)
    (key : next.key = writer.key) (master : next.master = writer.master)
    (cipherKind : next.cipherKind = writer.cipherKind)
    (isInitiator : next.isInitiator = writer.isInitiator) :
    Unused (past ++ [writer.pair]) next where
  nodup := by
    refine List.nodup_append.mpr ⟨unused.nodup, by simp, ?_⟩
    intro pair member other now
    rw [List.mem_singleton.mp now]
    rintro rfl
    obtain ⟨n, earlier, same⟩ := unused.below writer.pair member rfl
    have counter : writer.nonce = n :=
      formatNonce_injective unused.counted (by omega) same
    omega
  counted := by omega
  derived := by rw [key, master, cipherKind, isInitiator, unused.derived]
  below := by
    intro pair member same
    rw [nonce]
    rcases List.mem_append.mp member with before | now
    · obtain ⟨n, earlier, nonce⟩ := unused.below pair before (same.trans key)
      exact ⟨n, by omega, nonce⟩
    · rw [List.mem_singleton.mp now]
      exact ⟨writer.nonce, by omega, rfl⟩
  first := by
    intro bootstrap pair member
    rw [key]
    rcases List.mem_append.mp member with before | now
    · exact unused.first (cipherKind ▸ bootstrap) pair before
    · rw [List.mem_singleton.mp now]
      rfl

/-- The only key change leaves the bootstrap key for good. -/
theorem Unused.rekey (bound : crate.KeysByCipher) (unused : Unused past writer) (cipher : Cipher) :
    Unused past (writer.rekey cipher) := by
  unfold CryptoWriter.rekey
  split
  · exact unused
  next changes =>
  have aes : cipher = .aes256Gcm := by
    cases cipher with
    | chaCha20Poly1305 => exact absurd (.inr rfl) changes
    | aes256Gcm => rfl
  have bootstrap : writer.cipherKind = .chaCha20Poly1305 := by
    cases kind : writer.cipherKind with
    | chaCha20Poly1305 => rfl
    | aes256Gcm => exact absurd (.inl (aes.trans kind.symm)) changes
  refine ⟨unused.nodup, Nat.zero_le _, rfl, ?_, ?_⟩
  · intro pair member same
    have old := unused.first bootstrap pair member
    rw [unused.derived, bootstrap] at old
    rw [old, aes] at same
    exact absurd same (bound _ _ _)
  · intro other
    cases aes.symm.trans other

theorem sealData_unused (plaintext : Bytes) (room : Option Nat) (unused : Unused past writer) :
    Unused (past ++ pairs (writer.sealData plaintext room).marks)
      (writer.sealData plaintext room).writer := by
  induction writer, plaintext, room using CryptoWriter.sealData.induct generalizing past with
  | case1 writer room =>
      rw [CryptoWriter.sealData, if_pos rfl]
      simpa using unused
  | case2 writer plaintext room nonempty spent =>
      rw [CryptoWriter.sealData, if_neg nonempty, if_pos spent]
      simpa using ⟨unused.nodup, unused.counted, unused.derived, unused.below, unused.first⟩
  | case3 writer plaintext nonempty left =>
      rw [CryptoWriter.sealData, if_neg nonempty, if_neg left, if_pos rfl]
      exact unused.seal (Nat.not_le.mp left) rfl rfl rfl rfl rfl
  | case4 writer plaintext room nonempty left full ih =>
      rw [CryptoWriter.sealData, if_neg nonempty, if_neg left, if_neg full]
      have later := ih (unused.seal (Nat.not_le.mp left) rfl rfl rfl rfl rfl)
      rwa [List.append_assoc] at later

theorem sealControl_unused (body : Bytes) (innerType : UInt8) (broken : Bool)
    (unused : Unused past writer) :
    Unused (past ++ pairs (writer.sealControl body innerType broken).marks)
      (writer.sealControl body innerType broken).writer := by
  unfold CryptoWriter.sealControl CryptoWriter.sendControlRecord
  by_cases spent : maxU64 ≤ writer.nonce
  · simpa [spent] using unused
  · have sealed : Unused (past ++ [writer.pair]) { writer with nonce := writer.nonce + 1 } :=
      unused.seal (Nat.not_le.mp spent) rfl rfl rfl rfl rfl
    simpa [spent] using sealed

theorem perform_unused (bound : crate.KeysByCipher) (operation : Operation)
    (unused : Unused past writer) :
    Unused (past ++ pairs (writer.perform operation).marks) (writer.perform operation).writer := by
  cases operation with
  | sendData plaintext room => exact sealData_unused plaintext room unused
  | sendCloseNotify broken => exact sealControl_unused _ _ broken unused
  | sendTargetUnreachable reason broken => exact sealControl_unused _ _ broken unused
  | rekey cipher => simpa [CryptoWriter.perform] using unused.rekey bound cipher

theorem performAll_unused (bound : crate.KeysByCipher) (operations : List Operation)
    (unused : Unused past writer) :
    Unused (past ++ pairs (writer.performAll operations).1) (writer.performAll operations).2 := by
  induction operations generalizing past writer with
  | nil => simpa [CryptoWriter.performAll] using unused
  | cons operation rest ih =>
      have later := ih (perform_unused bound operation unused)
      simpa [CryptoWriter.performAll] using later

end Nonces

section Receiver
variable {writer : CryptoWriter crate} {reader : CryptoReader crate}

theorem follows_append (reader : CryptoReader crate) (first second : List (Mark crate)) :
    reader.follows (first ++ second) =
      ((reader.follows first).1 ++ ((reader.follows first).2.follows second).1,
        ((reader.follows first).2.follows second).2) := by
  induction first generalizing reader with
  | nil => simp [CryptoReader.follows]
  | cons mark rest ih =>
      cases mark with
      | sealed pair record => simp [CryptoReader.follows, ih]
      | rekeyed cipher => simp [CryptoReader.follows, ih]

/-- A framed body of legal size costs the receiver one nonce, whatever is in it. -/
theorem recvBorrowed_frame (paired : Paired writer reader) (left : writer.nonce < maxU64)
    {body : Bytes} (fits : body.length ≤ maxRecordSize + 1 + tagSize) :
    (reader.recvBorrowed (CryptoWriter.frame body)).2 =
      (some writer.pair, { reader with nonce := reader.nonce + 1 }) := by
  have len : fromBe16 (UInt8.ofNat (body.length / 256)) (UInt8.ofNat body.length) =
      body.length := by
    apply fromBe16_be16
    simp only [maxRecordSize, tagSize] at fits
    omega
  have unexhausted : ¬ maxU64 ≤ writer.nonce := Nat.not_le.mpr left
  simp [CryptoWriter.frame, be16, CryptoReader.recvBorrowed, len, Nat.not_lt.mpr fits,
    paired.nonce, paired.key, unexhausted, CryptoWriter.pair]

/-- The receiver has used the pairs of these marks and is at the writer's side
again. -/
def Keeps (reader : CryptoReader crate) (marks : List (Mark crate)) (writer : CryptoWriter crate) :
    Prop :=
  (reader.follows marks).1 = pairs marks ∧ Paired writer (reader.follows marks).2

theorem Keeps.cons {last : CryptoWriter crate} {record : Bytes} {marks : List (Mark crate)}
    (received : (reader.recvBorrowed record).2 =
      (some writer.pair, { reader with nonce := reader.nonce + 1 }))
    (rest : Keeps { reader with nonce := reader.nonce + 1 } marks last) :
    Keeps reader (.sealed writer.pair record :: marks) last := by
  obtain ⟨used, paired⟩ := rest
  simp only [Keeps, CryptoReader.follows, received, pairs_sealed, used]
  exact ⟨rfl, paired⟩

/-- A data record is of legal size however it is shaped. -/
theorem recvBorrowed_record (paired : Paired writer reader) (left : writer.nonce < maxU64)
    (plaintext : Bytes) :
    (reader.recvBorrowed (writer.record (plaintext.take writer.shape.capacity))).2 =
      (some writer.pair, { reader with nonce := reader.nonce + 1 }) := by
  apply recvBorrowed_frame paired left
  have short : (plaintext.take writer.shape.capacity).length ≤ writer.shape.capacity := by
    rw [List.length_take]
    exact Nat.min_le_left _ _
  have fits := writer.fill_length short
  rw [crate.seal_length]
  omega

theorem sealData_keeps (plaintext : Bytes) (room : Option Nat) (paired : Paired writer reader) :
    Keeps reader (writer.sealData plaintext room).marks (writer.sealData plaintext room).writer := by
  induction writer, plaintext, room using CryptoWriter.sealData.induct generalizing reader with
  | case1 writer room =>
      rw [CryptoWriter.sealData, if_pos rfl]
      exact ⟨rfl, paired⟩
  | case2 writer plaintext room nonempty spent =>
      rw [CryptoWriter.sealData, if_neg nonempty, if_pos spent]
      exact ⟨rfl, paired.key, paired.nonce, paired.master, paired.cipherKind, paired.direction⟩
  | case3 writer plaintext nonempty left =>
      rw [CryptoWriter.sealData, if_neg nonempty, if_neg left, if_pos rfl]
      exact .cons (recvBorrowed_record paired (Nat.not_le.mp left) plaintext)
        ⟨rfl, paired.advance⟩
  | case4 writer plaintext room nonempty left full ih =>
      rw [CryptoWriter.sealData, if_neg nonempty, if_neg left, if_neg full]
      exact .cons (recvBorrowed_record paired (Nat.not_le.mp left) plaintext) (ih paired.advance)

theorem sealControl_keeps {body : Bytes} (short : body.length ≤ 2) (innerType : UInt8)
    (broken : Bool) (paired : Paired writer reader) :
    Keeps reader (writer.sealControl body innerType broken).marks
      (writer.sealControl body innerType broken).writer := by
  unfold CryptoWriter.sealControl CryptoWriter.sendControlRecord
  by_cases spent : maxU64 ≤ writer.nonce
  · rw [if_pos spent]
    exact ⟨rfl, paired⟩
  · rw [if_neg spent]
    have fits : (crate.sealInPlace writer.key writer.nonce (body ++ [innerType])).length ≤
        maxRecordSize + 1 + tagSize := by
      rw [crate.seal_length, List.length_append, List.length_singleton, maxRecordSize]
      omega
    refine .cons (recvBorrowed_frame paired (Nat.not_le.mp spent) fits) ⟨rfl, ?_⟩
    exact ⟨paired.key, congrArg (· + 1) paired.nonce, paired.master, paired.cipherKind,
      paired.direction⟩

theorem perform_keeps (operation : Operation) (paired : Paired writer reader) :
    Keeps reader (writer.perform operation).marks (writer.perform operation).writer := by
  cases operation with
  | sendData plaintext room => exact sealData_keeps plaintext room paired
  | sendCloseNotify broken => exact sealControl_keeps le_rfl _ broken paired
  | sendTargetUnreachable reason broken => exact sealControl_keeps le_rfl _ broken paired
  | rekey cipher => exact ⟨rfl, paired.rekey cipher⟩

theorem performAll_keeps (operations : List Operation) (paired : Paired writer reader) :
    Keeps reader (writer.performAll operations).1 (writer.performAll operations).2 := by
  induction operations generalizing reader writer with
  | nil => exact ⟨rfl, paired⟩
  | cons operation rest ih =>
      obtain ⟨used, next⟩ := perform_keeps operation paired
      obtain ⟨usedLater, last⟩ := ih next
      refine ⟨?_, ?_⟩
      · rw [CryptoWriter.performAll, follows_append, pairs_append, used, usedLater]
      · rw [CryptoWriter.performAll, follows_append]
        exact last

end Receiver

section Exhaustion
variable {writer : CryptoWriter crate}

def Operation.Seals : Operation → Prop
  | .sendData plaintext _ => plaintext ≠ []
  | .sendCloseNotify _ | .sendTargetUnreachable _ _ => True
  | .rekey _ => False

/-- At the last counter value nothing is sealed, and the counter stays. -/
structure Refuses (writer : CryptoWriter crate) (operation : Operation) : Prop where
  silent : pairs (writer.perform operation).marks = []
  error : (writer.perform operation).result = .error .nonceExhausted
  stays : (writer.perform operation).writer.nonce = writer.nonce

theorem spent_refuses (spent : writer.nonce = maxU64) {operation : Operation}
    (seals : operation.Seals) : Refuses writer operation := by
  have reached : maxU64 ≤ writer.nonce := Nat.le_of_eq spent.symm
  cases operation with
  | sendData plaintext room =>
      have done : writer.sealData plaintext room =
          ⟨[], .error .nonceExhausted, writer.passOver⟩ := by
        rw [CryptoWriter.sealData, if_neg seals, if_pos reached]
      constructor <;> simp [CryptoWriter.perform, done, CryptoWriter.passOver]
  | sendCloseNotify broken | sendTargetUnreachable reason broken =>
      constructor <;>
        simp [CryptoWriter.perform, CryptoWriter.sealControl, CryptoWriter.sendControlRecord,
          reached]
  | rekey cipher => exact seals.elim

end Exhaustion

/-- What a run of a writer leaves behind, and the receiver that follows it. -/
structure Disciplined (reader : CryptoReader crate) (marks : List (Mark crate))
    (writer : CryptoWriter crate) : Prop where
  distinct : (pairs marks).Nodup
  followed : (reader.follows marks).1 = pairs marks
  counted : writer.nonce ≤ maxU64
  exhausted : writer.nonce = maxU64 → ∀ operation : Operation, operation.Seals →
    Refuses writer operation

/-- No pair seals twice, the receiver opens with the same pairs in the same
order, and the last counter value is never used. -/
theorem nonces_never_reused (crate : AeadCrate) (bound : crate.KeysByCipher) (master : Bytes)
    (isInitiator : Bool) (rng : Nat → Nat) (padding : Bool) (scheme : PaddingScheme)
    (operations : List Operation) :
    Disciplined (CryptoReader.new crate master (!isInitiator))
      ((CryptoWriter.new crate master isInitiator rng padding scheme).performAll operations).1
      ((CryptoWriter.new crate master isInitiator rng padding scheme).performAll operations).2 := by
  have unused := performAll_unused bound operations
    (new_unused crate master isInitiator rng padding scheme)
  have keeps := performAll_keeps operations (new_paired crate master isInitiator rng padding scheme)
  exact ⟨unused.nodup, keeps.1, unused.counted, fun spent _ seals => spent_refuses spent seals⟩

/-- Data on either side of a change of cipher, a write that fails, a reason and a
close. -/
def mixedOperations : List Operation :=
  [.sendData [1, 2, 3] none, .rekey .aes256Gcm, .sendData [4] (some 0),
    .sendTargetUnreachable 1 false, .sendCloseNotify false]

theorem nonces_never_reused_mixed :
    Disciplined (CryptoReader.new plainCrate [1] (!true))
      ((CryptoWriter.new plainCrate [1] true id true defaultPadScheme).performAll
        mixedOperations).1
      ((CryptoWriter.new plainCrate [1] true id true defaultPadScheme).performAll
        mixedOperations).2 :=
  nonces_never_reused plainCrate (fun _ _ _ same => by cases same) [1] true id true
    defaultPadScheme mixedOperations

end Mirage.Tunnel
