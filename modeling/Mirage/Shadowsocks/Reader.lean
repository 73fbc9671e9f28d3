import Mirage.Lib.Word

/-!
`SsReader` of proxy/shadowsocks.rs. `read_chunk` asks its socket for one field
after the other, each with a `read_exact`; here the field it is waiting for is
part of the reader, so that every way the socket cuts the stream is a run of
`feed`. The cipher suites and key derivations are parameters.
-/

namespace Mirage.Shadowsocks
open Word

inductive Method where
  | aes128Gcm
  | aes256Gcm
  | chacha20IetfPoly1305
  | ss2022Aes128Gcm
  | ss2022Aes256Gcm
  | ss2022Chacha20Poly1305
  deriving DecidableEq, Repr

namespace Method

def is2022 : Method → Bool
  | ss2022Aes128Gcm | ss2022Aes256Gcm | ss2022Chacha20Poly1305 => true
  | _ => false

/-- A salt has the same length. -/
def keyLen : Method → Nat
  | aes128Gcm | ss2022Aes128Gcm => 16
  | _ => 32

end Method

def maxChunk : Nat := 0x3FFF

def tagLen : Nat := 16

structure Suite where
  Key : Type
  unboundKey : Method → Bytes → Key
  hkdfSubkey : Bytes → Bytes → Nat → Bytes
  blake3SessionKey : Bytes → Bytes → Nat → Bytes
  sealInPlace : Key → Nat → Bytes → Bytes
  openInPlace : Key → Nat → Bytes → Option Bytes
  open_seal : ∀ key nonce plaintext,
    openInPlace key nonce (sealInPlace key nonce plaintext) = some plaintext
  seal_length : ∀ key nonce plaintext,
    (sealInPlace key nonce plaintext).length = plaintext.length + tagLen
  open_length : ∀ {key nonce body plaintext}, openInPlace key nonce body = some plaintext →
    body.length = plaintext.length + tagLen

/-- A stand-in to run the model with: the plaintext in clear, and the nonce as
its tag. -/
def plainSuite : Suite where
  Key := Bytes
  unboundKey _ subkey := subkey
  hkdfSubkey master salt _ := master ++ salt
  blake3SessionKey psk salt _ := psk ++ salt
  sealInPlace _ nonce plaintext := plaintext ++ List.replicate tagLen (UInt8.ofNat nonce)
  openInPlace _ nonce body :=
    if tagLen ≤ body.length ∧
        body.drop (body.length - tagLen) = List.replicate tagLen (UInt8.ofNat nonce) then
      some (body.take (body.length - tagLen))
    else none
  open_seal key nonce plaintext := by simp
  seal_length key nonce plaintext := by simp
  open_length {key nonce body plaintext} opened := by
    split at opened
    · next whole =>
      cases opened
      rw [List.length_take]
      omega
    · cases opened

variable {suite : Suite}

/-- One direction: the nonce is a 96-bit counter that every call moves on. -/
structure Crypter (suite : Suite) where
  key : suite.Key
  nonce : Nat

namespace Crypter

def new (suite : Suite) (method : Method) (subkey : Bytes) : Crypter suite :=
  ⟨suite.unboundKey method subkey, 0⟩

def bump (self : Crypter suite) : Crypter suite := { self with nonce := (self.nonce + 1) % 2 ^ 96 }

def openInPlace (self : Crypter suite) (buf : Bytes) : Option (Bytes × Crypter suite) :=
  (suite.openInPlace self.key self.nonce buf).map fun plain => (plain, self.bump)

end Crypter

inductive ReadError where
  | io
  | unexpectedEof
  | decryptionFailed
  | headerSize (size : Nat)
  | headerType (kind : UInt8)
  | headerTimestamp (peer now : Nat)
  | headerSalt
  | chunkLength (size : Nat)
  deriving DecidableEq

def ss2022TypeServer : UInt8 := 1

def ss2022TsTolerance : Nat := 30

def parse2022ResponseHeader (plain ourSalt : Bytes) (now : Nat) : Except ReadError Nat :=
  let klen := ourSalt.length
  if plain.length ≠ 1 + 8 + klen + 2 then .error (.headerSize plain.length)
  else if plain.headD 0 ≠ ss2022TypeServer then .error (.headerType (plain.headD 0))
  else
    let ts := ofBe ((plain.drop 1).take 8)
    if ss2022TsTolerance < max now ts - min now ts then .error (.headerTimestamp ts now)
    else if (plain.drop 9).take klen ≠ ourSalt then .error .headerSalt
    else .ok (ofBe (plain.drop (9 + klen)))

/-- What the next `read_exact` is to fill. -/
inductive Field (suite : Suite) where
  | salt
  | header (crypter : Crypter suite)
  | firstBody (crypter : Crypter suite) (size : Nat) (positive : 0 < size)
  | length (crypter : Crypter suite)
  | body (crypter : Crypter suite) (size : Nat) (positive : 0 < size)

structure SsReader (suite : Suite) where
  method : Method
  master : Bytes
  reqSalt : Bytes
  field : Field suite
  got : Bytes

inductive Progress (suite : Suite) where
  | more (reader : SsReader suite)
  | chunk (payload : Bytes) (reader : SsReader suite)
  | failed (error : ReadError)

namespace SsReader

def new (suite : Suite) (method : Method) (master reqSalt : Bytes) : SsReader suite :=
  ⟨method, master, reqSalt, .salt, []⟩

def wanted (self : SsReader suite) : Nat :=
  match self.field with
  | .salt => self.method.keyLen
  | .header _ => 1 + 8 + self.method.keyLen + 2 + tagLen
  | .firstBody _ size _ => size + tagLen
  | .length _ => 2 + tagLen
  | .body _ size _ => size + tagLen

def await (self : SsReader suite) (field : Field suite) : SsReader suite :=
  { self with field, got := [] }

def complete (self : SsReader suite) (buf : Bytes) (now : Nat) : Progress suite :=
  match self.field with
  | .salt =>
      let klen := self.method.keyLen
      if self.method.is2022 then
        .more (self.await (.header (.new suite self.method
          (suite.blake3SessionKey self.master buf klen))))
      else .more (self.await (.length (.new suite self.method
        (suite.hkdfSubkey self.master buf klen))))
  | .header crypter =>
      match crypter.openInPlace buf with
      | none => .failed .decryptionFailed
      | some (plain, crypter) =>
          match parse2022ResponseHeader plain self.reqSalt now with
          | .error e => .failed e
          | .ok size =>
              if positive : 0 < size then .more (self.await (.firstBody crypter size positive))
              -- an empty chunk, although the stream goes on
              else .chunk [] (self.await (.length crypter))
  | .length crypter =>
      match crypter.openInPlace buf with
      | none => .failed .decryptionFailed
      | some (plain, crypter) =>
          let size := ofBe plain
          if bounds : 0 < size ∧ size ≤ maxChunk then
            .more (self.await (.body crypter size bounds.1))
          else .failed (.chunkLength size)
  | .firstBody crypter _ _ | .body crypter _ _ =>
      match crypter.openInPlace buf with
      | none => .failed .decryptionFailed
      | some (plain, crypter) => .chunk plain (self.await (.length crypter))

/-- The socket gave these bytes, no more than the field wants. -/
def feed (self : SsReader suite) (bytes : Bytes) (now : Nat) : Progress suite :=
  let got := self.got ++ bytes
  if got.length < self.wanted then .more { self with got }
  else self.complete got now

/-- The socket gave no bytes: the empty chunk wherever a new field may begin,
however much of it has come. -/
def atEnd (self : SsReader suite) : Except ReadError Bytes :=
  match self.field with
  | .salt | .header _ | .length _ => .ok []
  | .firstBody _ _ _ | .body _ _ _ => .error .unexpectedEof

/-- These bytes complete a response header that announces a first chunk of no
bytes. -/
def AnnouncesEmpty (self : SsReader suite) (bytes : Bytes) (now : Nat) : Prop :=
  ∃ crypter plain next, self.field = .header crypter ∧
    crypter.openInPlace (self.got ++ bytes) = some (plain, next) ∧
    parse2022ResponseHeader plain self.reqSalt now = .ok 0

/-- A whole body is as long as its length field said, which was not zero. -/
theorem body_ne_nil {crypter next : Crypter suite} {size : Nat} {buf payload : Bytes}
    (positive : 0 < size) (whole : size + tagLen ≤ buf.length)
    (opened : crypter.openInPlace buf = some (payload, next)) : payload ≠ [] := by
  obtain ⟨plain, clear, same⟩ := Option.map_eq_some_iff.mp opened
  cases same
  have sized := suite.open_length clear
  apply List.ne_nil_of_length_pos
  omega

theorem feed_empty {self next : SsReader suite} {bytes : Bytes} {now : Nat}
    (empty : self.feed bytes now = .chunk [] next) : self.AnnouncesEmpty bytes now := by
  dsimp only [feed] at empty
  split at empty
  · cases empty
  next whole =>
  unfold wanted at whole
  unfold complete at empty
  cases field : self.field with
  | salt =>
      rw [field] at empty
      dsimp only at empty
      split at empty <;> cases empty
  | header crypter =>
      rw [field] at empty
      dsimp only at empty
      split at empty
      · cases empty
      next plain following opened =>
      split at empty
      · cases empty
      next size parsed =>
      split at empty
      · cases empty
      next zero =>
      rw [Nat.eq_zero_of_not_pos zero] at parsed
      exact ⟨crypter, plain, following, field, opened, parsed⟩
  | length crypter =>
      rw [field] at empty
      dsimp only at empty
      split at empty
      · cases empty
      · split at empty <;> cases empty
  | firstBody crypter size positive | body crypter size positive =>
      rw [field] at empty whole
      dsimp only at empty
      split at empty
      · cases empty
      next payload following opened =>
      cases empty
      exact absurd rfl (body_ne_nil positive (not_lt.mp whole) opened)

end SsReader
end Mirage.Shadowsocks
