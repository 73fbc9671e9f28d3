import Mirage.Lib.NumberText
import Mirage.Shadowsocks.Reader

/-!
`SsWriter` of proxy/shadowsocks.rs and the two handshakes that make a reader and
a writer. A writer is modelled with the bytes it sends. The salt and the padding
are random and given here, as are the clock and the key that is derived from the
password.
-/

namespace Mirage.Shadowsocks
open NumberText Text Word

variable {suite : Suite}

/-- `seal`: in place, with the tag at the end. -/
def Crypter.sealInPlace (self : Crypter suite) (buf : Bytes) : Bytes × Crypter suite :=
  (suite.sealInPlace self.key self.nonce buf, self.bump)

inductive HandshakeError where
  | missingPort (target : String)
  | invalidPort (port : String)
  | domainLength (host : String)
  | headerTooLong (size : Nat)
  | unsupported
  deriving DecidableEq

def encodeSocksAddr (target : String) : Except HandshakeError Bytes :=
  match rsplitOnce ':' target.toList with
  | none => .error (.missingPort target)
  | some (host, portText) =>
      match parseUnsigned (2 ^ 16) (String.ofList portText) with
      | none => .error (.invalidPort (String.ofList portText))
      | some port =>
          let host := String.ofList (trimMatches '[' ']' host)
          match parseIpv4 host, parseIpv6 host with
          | some v4, _ => .ok (0x01 :: toBe 4 v4.toNat ++ be16 port)
          | none, some v6 => .ok (0x04 :: toBe 16 v6.toNat ++ be16 port)
          | none, none =>
              if (utf8 host).length = 0 ∨ 255 < (utf8 host).length then .error (.domainLength host)
              else .ok (0x03 :: UInt8.ofNat (utf8 host).length :: utf8 host ++ be16 port)

def ss2022TypeClient : UInt8 := 0

/-- The fixed and the variable header; padding is sent without a first payload. -/
def build2022Request (target : String) (initialPayload padding : Bytes) (now : Nat) :
    Except HandshakeError (Bytes × Bytes) := do
  let addr ← encodeSocksAddr target
  let var :=
    if initialPayload = [] then addr ++ be16 padding.length ++ padding
    else addr ++ be16 0 ++ initialPayload
  if 65535 < var.length then .error (.headerTooLong var.length)
  else .ok (ss2022TypeClient :: toBe 8 now ++ be16 var.length, var)

/-- `data.chunks(MAX_CHUNK)`, in at most `count` chunks. -/
def chunks (count : Nat) (data : Bytes) : List Bytes :=
  match count with
  | 0 => []
  | count + 1 =>
      if data = [] then [] else data.take maxChunk :: chunks count (data.drop maxChunk)

structure SsWriter (suite : Suite) where
  crypter : Crypter suite
  pendingSalt : Option Bytes

namespace SsWriter

def sealInto (self : SsWriter suite) (plain : Bytes) : Bytes × SsWriter suite :=
  let (sealed, crypter) := self.crypter.sealInPlace plain
  (sealed, { self with crypter })

/-- The length and the payload, each with a tag and a nonce of its own. -/
def sealChunkInto (self : SsWriter suite) (chunk : Bytes) : Bytes × SsWriter suite :=
  let (length, crypter) := self.crypter.sealInPlace (be16 chunk.length)
  let (body, crypter) := crypter.sealInPlace chunk
  (length ++ body, { self with crypter })

/-- The salt goes out with the first chunk there is. -/
def writeChunks (self : SsWriter suite) : List Bytes → Bytes × SsWriter suite
  | [] => ([], self)
  | chunk :: rest =>
      let (sealed, next) := self.sealChunkInto chunk
      let (more, last) := writeChunks { next with pendingSalt := none } rest
      (self.pendingSalt.getD [] ++ sealed ++ more, last)

def writeAll (self : SsWriter suite) (data : Bytes) : Bytes × SsWriter suite :=
  self.writeChunks (chunks data.length data)

def writeCalls (self : SsWriter suite) : List Bytes → Bytes
  | [] => []
  | data :: rest =>
      let (sent, next) := self.writeAll data
      sent ++ writeCalls next rest

end SsWriter

def sessionKey (suite : Suite) (method : Method) (master salt : Bytes) : Bytes :=
  if method.is2022 then suite.blake3SessionKey master salt method.keyLen
  else suite.hkdfSubkey master salt method.keyLen

def buildHandshake (writer : SsWriter suite) (method : Method) (salt : Bytes) (target : String)
    (padding : Bytes) (now : Nat) : Except HandshakeError (Bytes × SsWriter suite) :=
  if method.is2022 then do
    let (fixed, var) ← build2022Request target [] padding now
    let (sealedFixed, writer) := writer.sealInto fixed
    let (sealedVar, writer) := writer.sealInto var
    .ok (salt ++ sealedFixed ++ sealedVar, writer)
  else do
    let addr ← encodeSocksAddr target
    let (sealed, writer) := writer.sealChunkInto addr
    .ok (salt ++ sealed, writer)

/-- The bytes of the handshake, and the reader and writer it leaves. -/
def clientHandshakeOver (suite : Suite) (method : Method) (master salt : Bytes) (target : String)
    (padding : Bytes) (now : Nat) :
    Except HandshakeError (Bytes × SsReader suite × SsWriter suite) := do
  let writer : SsWriter suite := ⟨.new suite method (sessionKey suite method master salt), none⟩
  let (handshake, writer) ← buildHandshake writer method salt target padding now
  .ok (handshake, .new suite method master salt, writer)

/-- The salt of the server waits for its first chunk. -/
def serverHandshake (suite : Suite) (method : Method) (master salt : Bytes) :
    Except HandshakeError (SsReader suite × SsWriter suite) :=
  if method.is2022 then .error .unsupported
  else
    .ok (.new suite method master [],
      ⟨.new suite method (suite.hkdfSubkey master salt method.keyLen), some salt⟩)

end Mirage.Shadowsocks
