import Mirage.Tunnel.Cipher

/-!
`CryptoWriter` and `CryptoReader` of crypto/aead.rs. The cipher suite is the
ring crate: a parameter with its documented round trip and tag length (it only
refuses inputs far beyond a record). The random generator is the list of its
draws, one for each record.
-/

namespace Mirage.Tunnel
open Word

structure AeadCrate where
  Key : Type
  expandKey : Bytes → Bytes → Cipher → Key
  sealInPlace : Key → Nat → Bytes → Bytes
  openInPlace : Key → Nat → Bytes → Option Bytes
  open_seal : ∀ key nonce plaintext,
    openInPlace key nonce (sealInPlace key nonce plaintext) = some plaintext
  seal_length : ∀ key nonce plaintext,
    (sealInPlace key nonce plaintext).length = plaintext.length + tagSize

/-- A stand-in for the cipher suite to run the model with: the plaintext in
clear, and the nonce as its tag. -/
def plainCrate : AeadCrate where
  Key := Bytes × Bytes × Cipher
  expandKey master info cipher := (master, info, cipher)
  sealInPlace _ nonce plaintext := plaintext ++ List.replicate tagSize (UInt8.ofNat nonce)
  openInPlace _ nonce body :=
    if body.drop (body.length - tagSize) = List.replicate tagSize (UInt8.ofNat nonce) then
      some (body.take (body.length - tagSize))
    else none
  open_seal key nonce plaintext := by simp
  seal_length key nonce plaintext := by simp

variable {crate : AeadCrate}

/-- The HKDF info of the key for one direction. -/
def directionKey (crate : AeadCrate) (master : Bytes) (fromInitiator : Bool) (cipher : Cipher) :
    crate.Key :=
  crate.expandKey master
    (utf8 (if fromInitiator then "c2s" else "s2c") ++ cipher.hkdfSuffix) cipher

/-- The size of the next record: a padded target, or a limit on its data. -/
inductive Shape where
  | padded (target : Nat)
  | plain (limit : Nat)

namespace Shape

def capacity : Shape → Nat
  | padded target => target - 1
  | plain limit => limit

/-- Content type and zero padding behind the data. -/
def fill (shape : Shape) (data : Bytes) : Bytes :=
  match shape with
  | padded target => data ++ 0x17 :: List.replicate (target - (data.length + 1)) 0
  | plain _ => data ++ [0x17]

end Shape

structure CryptoWriter (crate : AeadCrate) where
  key : crate.Key
  nonce : Nat
  master : Bytes
  cipherKind : Cipher
  isInitiator : Bool
  rng : Nat → Nat
  padding : Bool
  recordsSent : Nat
  scheme : PaddingScheme

namespace CryptoWriter

def new (crate : AeadCrate) (master : Bytes) (isInitiator : Bool) (rng : Nat → Nat)
    (padding : Bool) (scheme : PaddingScheme) : CryptoWriter crate where
  key := directionKey crate master isInitiator .chaCha20Poly1305
  nonce := 0
  master := master
  cipherKind := .chaCha20Poly1305
  isInitiator := isInitiator
  rng := rng
  padding := padding
  recordsSent := 0
  scheme := scheme

def rekey (self : CryptoWriter crate) (cipher : Cipher) : CryptoWriter crate :=
  if cipher = self.cipherKind ∨ cipher = .chaCha20Poly1305 then self
  else { self with
    key := directionKey crate self.master self.isInitiator cipher
    cipherKind := cipher
    nonce := 0 }

/-- The three throughput buckets of an unpadded record. -/
def bucket (draw : Nat) : Nat :=
  if draw % 3 = 0 then 16384 else if draw % 3 = 1 then 8192 else 4096

def shape (self : CryptoWriter crate) : Shape :=
  match if self.padding then self.scheme.ranges[self.recordsSent]? else none with
  | some range => .padded (range.lo + self.rng 0 % (range.hi - range.lo + 1))
  | none => .plain (bucket (self.rng 0))

def advance (self : CryptoWriter crate) : CryptoWriter crate :=
  { self with
    nonce := self.nonce + 1
    rng := fun i => self.rng (i + 1)
    recordsSent := saturatingAddU32 self.recordsSent 1 }

def frame (body : Bytes) : Bytes := [0x17, 0x03, 0x03] ++ be16 body.length ++ body

def record (self : CryptoWriter crate) (data : Bytes) : Bytes :=
  frame (crate.sealInPlace self.key self.nonce (self.shape.fill data))

/-- The records of one `send_data`, and the writer unless the nonce ran out. A
nonce is a u64, so it is exhausted from the last value on. -/
def sendData (self : CryptoWriter crate) (plaintext : Bytes) :
    List Bytes × Option (CryptoWriter crate) :=
  if plaintext = [] then ([], some self)
  else if maxU64 ≤ self.nonce then ([], none)
  else
    let rest := self.advance.sendData (plaintext.drop self.shape.capacity)
    (self.record (plaintext.take self.shape.capacity) :: rest.1, rest.2)
termination_by maxU64 - self.nonce
decreasing_by
  simp only [advance]
  omega

def sendAll (self : CryptoWriter crate) : List Bytes → List Bytes × Option (CryptoWriter crate)
  | [] => ([], some self)
  | payload :: rest =>
      match self.sendData payload with
      | (records, none) => (records, none)
      | (records, some writer) =>
          let (later, result) := writer.sendAll rest
          (records ++ later, result)

def sendControlRecord (self : CryptoWriter crate) (body : Bytes) (innerType : UInt8) :
    Option (Bytes × CryptoWriter crate) :=
  if maxU64 ≤ self.nonce then none
  else some (frame (crate.sealInPlace self.key self.nonce (body ++ [innerType])),
    { self with nonce := self.nonce + 1 })

def sendCloseNotify (self : CryptoWriter crate) : Option (Bytes × CryptoWriter crate) :=
  self.sendControlRecord [0x01, 0x00] 0x15

end CryptoWriter

inductive RecvError where
  | unexpectedEof
  | badMagic
  | tooLong
  | nonceExhausted
  | decryptionFailed
  | emptyPlaintext
  | paddingOnly
  | peerCloseNotify
  | peerTargetUnreachable (reason : UInt8)
  | unknownType (innerType : UInt8)
  deriving DecidableEq

structure CryptoReader (crate : AeadCrate) where
  key : crate.Key
  nonce : Nat
  master : Bytes
  cipherKind : Cipher
  isInitiator : Bool

namespace CryptoReader

def new (crate : AeadCrate) (master : Bytes) (isInitiator : Bool) : CryptoReader crate where
  key := directionKey crate master (!isInitiator) .chaCha20Poly1305
  nonce := 0
  master := master
  cipherKind := .chaCha20Poly1305
  isInitiator := isInitiator

def rekey (self : CryptoReader crate) (cipher : Cipher) : CryptoReader crate :=
  if cipher = self.cipherKind ∨ cipher = .chaCha20Poly1305 then self
  else { self with
    key := directionKey crate self.master (!self.isInitiator) cipher
    cipherKind := cipher
    nonce := 0 }

/-- Scan back over the zeros to the inner content type. -/
def processPlaintext (plaintext : Bytes) : Except RecvError Bytes :=
  if plaintext = [] then .error .emptyPlaintext
  else match plaintext.reverse.dropWhile (· = 0) with
    | [] => .error .paddingOnly
    | innerType :: rest =>
        if innerType = 0x17 then .ok rest.reverse
        else if innerType = 0x15 then .error .peerCloseNotify
        else if innerType = 0x18 then .error (.peerTargetUnreachable (rest.reverse.headD 0x01))
        else .error (.unknownType innerType)

/-- One record off the front of the bytes that have arrived: its content, the
reader after it and what is left. -/
def recvData (self : CryptoReader crate) (wire : Bytes) :
    Except RecvError (Bytes × CryptoReader crate × Bytes) :=
  match wire with
  | first :: second :: third :: high :: low :: rest =>
      if first ≠ 0x17 ∨ second ≠ 0x03 ∨ third ≠ 0x03 then .error .badMagic
      else
        let len := fromBe16 high low
        if maxRecordSize + 1 + tagSize < len then .error .tooLong
        else if rest.length < len then .error .unexpectedEof
        else if maxU64 ≤ self.nonce then .error .nonceExhausted
        else match crate.openInPlace self.key self.nonce (rest.take len) with
          | none => .error .decryptionFailed
          | some plaintext =>
              match processPlaintext plaintext with
              | .error e => .error e
              | .ok content => .ok (content, { self with nonce := self.nonce + 1 }, rest.drop len)
  | _ => .error .unexpectedEof

theorem recvData_shorter {self next : CryptoReader crate} {wire content rest : Bytes}
    (received : self.recvData wire = .ok (content, next, rest)) : rest.length < wire.length := by
  match wire with
  | [] | [_] | [_, _] | [_, _, _] | [_, _, _, _] => cases received
  | first :: second :: third :: high :: low :: body =>
      simp only [recvData] at received
      repeat' split at received
      all_goals cases received
      simp only [List.length_drop, List.length_cons]
      omega

/-- Read until an error, which is the end of the stream at best. -/
def recvAll (self : CryptoReader crate) (wire : Bytes) : List Bytes × RecvError :=
  match _received : self.recvData wire with
  | .error e => ([], e)
  | .ok (content, next, rest) =>
      let (contents, e) := next.recvAll rest
      (content :: contents, e)
termination_by wire.length
decreasing_by exact recvData_shorter _received

end CryptoReader

section Specification

theorem CryptoWriter.bucket_bounds (draw : Nat) :
    4096 ≤ CryptoWriter.bucket draw ∧ CryptoWriter.bucket draw ≤ maxRecordSize := by
  simp only [CryptoWriter.bucket, maxRecordSize]
  split
  · omega
  · split <;> omega

theorem CryptoWriter.fill_length (self : CryptoWriter crate) {data : Bytes}
    (fits : data.length ≤ self.shape.capacity) :
    (self.shape.fill data).length ≤ maxRecordSize + 1 := by
  cases shape : self.shape with
  | plain limit =>
      have bounds := bucket_bounds (self.rng 0)
      have limitEq : limit = bucket (self.rng 0) := by
        rw [CryptoWriter.shape] at shape
        split at shape <;> cases shape
        rfl
      rw [shape, Shape.capacity] at fits
      simp only [Shape.fill, List.length_append, List.length_singleton]
      omega
  | padded target =>
      have bounds : 1 ≤ target ∧ target ≤ maxRecordSize := by
        rw [CryptoWriter.shape] at shape
        split at shape <;> cases shape
        rename_i range _
        have within : self.rng 0 % (range.hi - range.lo + 1) < range.hi - range.lo + 1 :=
          Nat.mod_lt _ (Nat.succ_pos _)
        have := range.positive
        have := range.ordered
        have := range.fits
        omega
      rw [shape, Shape.capacity] at fits
      simp only [Shape.fill, List.length_append, List.length_cons, List.length_replicate]
      omega

/-- Stripping the zeros stops at the content type, so zeros of the data stay. -/
theorem CryptoReader.processPlaintext_fill (shape : Shape) (data : Bytes) :
    CryptoReader.processPlaintext (shape.fill data) = .ok data := by
  have zeros : ∀ (n : Nat) (rest : Bytes),
      (List.replicate n (0 : UInt8) ++ 0x17 :: rest).dropWhile (· = 0) = 0x17 :: rest := by
    intro n rest
    induction n with
    | zero => simp
    | succ n ih => simp
  cases shape with
  | plain limit => simp [Shape.fill, processPlaintext]
  | padded target =>
      have stripped := zeros (target - (data.length + 1)) data.reverse
      simp [Shape.fill, processPlaintext, stripped]

/-- Sender and receiver of one direction agree on cipher, key and counter. -/
structure Paired (writer : CryptoWriter crate) (reader : CryptoReader crate) : Prop where
  key : reader.key = writer.key
  nonce : reader.nonce = writer.nonce
  master : reader.master = writer.master
  cipherKind : reader.cipherKind = writer.cipherKind
  direction : writer.isInitiator = !reader.isInitiator

theorem new_paired (crate : AeadCrate) (master : Bytes) (isInitiator : Bool) (rng : Nat → Nat)
    (padding : Bool) (scheme : PaddingScheme) :
    Paired (CryptoWriter.new crate master isInitiator rng padding scheme)
      (CryptoReader.new crate master (!isInitiator)) :=
  ⟨by simp [CryptoReader.new, CryptoWriter.new], rfl, rfl, rfl, by
    simp [CryptoReader.new, CryptoWriter.new]⟩

theorem Paired.rekey {writer : CryptoWriter crate} {reader : CryptoReader crate}
    (paired : Paired writer reader) (cipher : Cipher) :
    Paired (writer.rekey cipher) (reader.rekey cipher) := by
  obtain ⟨key, nonce, master, cipherKind, direction⟩ := paired
  rw [CryptoWriter.rekey, CryptoReader.rekey, cipherKind]
  split
  · exact ⟨key, nonce, master, cipherKind, direction⟩
  · exact ⟨by rw [master, direction], rfl, master, rfl, direction⟩

theorem recvData_record {writer : CryptoWriter crate} {reader : CryptoReader crate}
    (paired : Paired writer reader) (left : writer.nonce < maxU64) {data : Bytes}
    (fits : data.length ≤ writer.shape.capacity) (rest : Bytes) :
    reader.recvData (writer.record data ++ rest) =
      .ok (data, { reader with nonce := reader.nonce + 1 }, rest) := by
  have short := writer.fill_length fits
  have sealed := crate.seal_length writer.key writer.nonce (writer.shape.fill data)
  have len : fromBe16
      (UInt8.ofNat ((crate.sealInPlace writer.key writer.nonce (writer.shape.fill data)).length / 256))
      (UInt8.ofNat (crate.sealInPlace writer.key writer.nonce (writer.shape.fill data)).length) =
      (crate.sealInPlace writer.key writer.nonce (writer.shape.fill data)).length := by
    apply fromBe16_be16
    simp only [maxRecordSize, tagSize] at short sealed ⊢
    omega
  have accepted : ¬ maxRecordSize + 1 + tagSize <
      (crate.sealInPlace writer.key writer.nonce (writer.shape.fill data)).length := by omega
  have unexhausted : ¬ maxU64 ≤ writer.nonce := Nat.not_le.mpr left
  simp only [CryptoWriter.record, CryptoWriter.frame, be16, List.cons_append, List.nil_append,
    CryptoReader.recvData, len, accepted, if_false, unexhausted, List.length_append,
    List.take_left, List.drop_left, paired.key, paired.nonce, crate.open_seal,
    CryptoReader.processPlaintext_fill, ne_eq, not_true_eq_false, or_self]
  rw [if_neg (Nat.not_lt.mpr (Nat.le_add_right _ _))]

theorem Paired.advance {writer : CryptoWriter crate} {reader : CryptoReader crate}
    (paired : Paired writer reader) :
    Paired writer.advance { reader with nonce := reader.nonce + 1 } := by
  obtain ⟨key, nonce, master, cipherKind, direction⟩ := paired
  exact ⟨key, by rw [CryptoWriter.advance, nonce], master, cipherKind, direction⟩

end Specification

end Mirage.Tunnel
