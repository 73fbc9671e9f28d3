import Mirage.Lib.Duplex
import Mirage.Tunnel.RoundTrip

/-!
Connection setup: `connect_upstream` of proxy/pool.rs with the openers that
follow it, and `dispatch_authenticated` of proxy/mirage_server/control.rs, as
two programs over a reliable stream. A message is one record as framed. Time
limits are left out: a receive fails when the peer is gone.
-/

namespace Mirage.Tunnel
open Word Duplex

section Frames

/-- `u64::to_be_bytes`. -/
def be64 (n : Nat) : Bytes := (List.range 8).map fun i => UInt8.ofNat (n / 256 ^ (7 - i))

def protoVerLegacy : UInt8 := 0x01

def protoVerAgility : UInt8 := 0x02

def timeSyncFrame (cipherAgility : Bool) (now : Nat) : Bytes :=
  [0x01, if cipherAgility then protoVerAgility else protoVerLegacy] ++ be64 now

/-- Whether the server speaks cipher agility. -/
def processTimeSyncFrame (data : Bytes) : Option Bool :=
  match data with
  | kind :: version :: _ =>
      if data.length = 10 ∧ kind = 0x01 ∧
          (version = protoVerLegacy ∨ version = protoVerAgility) then
        some (version = protoVerAgility)
      else none
  | _ => none

def clientInfoSentinel : UInt8 := 0xC1

def ownVersion : String := "0.17.9"

def buildFrame (version : String) : Bytes := clientInfoSentinel :: utf8 version

/-- The version of a CLIENT_INFO frame, cut to 32 bytes. -/
def parseFrame (frame : Bytes) : Option String :=
  if frame.head? ≠ some clientInfoSentinel ∨ frame.length < 2 then none
  else (fromUtf8 ((frame.take 33).drop 1)).map fun version => String.ofList (trim version.toList)

def muxSentinel : UInt8 := 0x01

def parseTcpTarget (firstChunk : Bytes) : Except String (String × Option Bytes) :=
  match firstChunk with
  | high :: low :: rest =>
      let targetLen := fromBe16 high low
      if firstChunk.length < 2 + targetLen then .error "first_chunk too short for target_len"
      else match fromUtf8 (rest.take targetLen) with
        | none => .error "target UTF-8 parsing failed"
        | some target =>
            .ok (target,
              if 2 + targetLen < firstChunk.length then some (rest.drop targetLen) else none)
  | _ => .error "first_chunk too short to be valid"

/-- What the server takes a tunnel for. -/
inductive Mode where
  | tcp (target : String)
  | udp
  | mux
  deriving DecidableEq

/-- A target string within the limits that the client checks. -/
structure Target where
  name : String
  nonempty : utf8 name ≠ []
  short : (utf8 name).length ≤ 512

inductive Opening where
  | tcp (target : Target)
  | udp
  | mux

namespace Opening

def mode : Opening → Mode
  | tcp target => .tcp target.name
  | udp => .udp
  | mux => .mux

def header : Opening → Bytes
  | tcp target => be16 (utf8 target.name).length ++ utf8 target.name
  | udp => [0x00]
  | mux => [muxSentinel]

end Opening

end Frames

section Records
variable {crate : AeadCrate} {Out : Type}

def recv (reader : CryptoReader crate) (ok : Bytes → CryptoReader crate → Program Bytes Out)
    (fail : Program Bytes Out) : Program Bytes Out :=
  .receive fun
    | none => fail
    | some record =>
        match reader.recvData record with
        | .ok (content, next, _) => ok content next
        | .error _ => fail

def sendFrame (writer : CryptoWriter crate) (frame : Bytes)
    (ok : CryptoWriter crate → Program Bytes Out) (fail : Program Bytes Out) :
    Program Bytes Out :=
  Program.sendAll
    (match (writer.sendData frame).2 with
      | some next => ok next
      | none => fail)
    (writer.sendData frame).1

/-- Both directions change over, unless they already use the cipher. -/
def rekeyBoth (reader : CryptoReader crate) (writer : CryptoWriter crate) (final : Cipher) :
    CryptoReader crate × CryptoWriter crate :=
  if final ≠ writer.cipherKind then (reader.rekey final, writer.rekey final) else (reader, writer)

end Records

section Server

structure Server where
  cipherAgility : Bool
  supportsAes : Bool
  clientInfo : Bool
  blockUdp : Bool
  now : Nat
  credRevoked : Bool
  user : String
  hasLimit : Bool

inductive ServerEnd (crate : AeadCrate) where
  | dispatched (mode : Mode) (payload : Option Bytes) (reader : CryptoReader crate)
      (writer : CryptoWriter crate)
  | closed

variable {crate : AeadCrate}

def refuse (writer : CryptoWriter crate) : Program Bytes (ServerEnd crate) :=
  match writer.sendCloseNotify with
  | some (record, _) => .send record (.halt .closed)
  | none => .halt .closed

namespace Server

def dispatch (server : Server) (reader : CryptoReader crate) (writer : CryptoWriter crate)
    (firstChunk : Bytes) : Program Bytes (ServerEnd crate) :=
  if server.credRevoked then refuse writer
  else if server.user ≠ "default" ∧ server.hasLimit = false then refuse writer
  else if firstChunk = [0x00] then
    if server.blockUdp then refuse writer else .halt (.dispatched .udp none reader writer)
  else if firstChunk = [muxSentinel] then
    if server.blockUdp then refuse writer else .halt (.dispatched .mux none reader writer)
  else if 2 ≤ firstChunk.length then
    match parseTcpTarget firstChunk with
    | .ok (target, payload) => .halt (.dispatched (.tcp target) payload reader writer)
    | .error _ => .halt .closed
  else .halt .closed

/-- A CLIENT_INFO frame is read over, and the next chunk takes its place. -/
def identifyClient (server : Server) (reader : CryptoReader crate) (writer : CryptoWriter crate)
    (firstChunk : Bytes) : Program Bytes (ServerEnd crate) :=
  if server.clientInfo then
    match parseFrame firstChunk with
    | some _ =>
        recv reader (fun chunk next => server.dispatch next writer chunk) (.halt .closed)
    | none => server.dispatch reader writer firstChunk
  else server.dispatch reader writer firstChunk

def acceptCipher (server : Server) (reader : CryptoReader crate) (writer : CryptoWriter crate)
    (firstChunk : Bytes) : Program Bytes (ServerEnd crate) :=
  if server.cipherAgility then
    match parseCipherNego firstChunk with
    | some clientAes =>
        let final := negotiate clientAes server.supportsAes
        sendFrame writer (buildCipherAck final)
          (fun writer =>
            let (reader, writer) := rekeyBoth reader writer final
            recv reader (fun chunk next => server.identifyClient next writer chunk)
              (.halt .closed))
          (.halt .closed)
    | none => server.identifyClient reader writer firstChunk
  else server.identifyClient reader writer firstChunk

def dispatchAuthenticated (server : Server) (reader : CryptoReader crate)
    (writer : CryptoWriter crate) : Program Bytes (ServerEnd crate) :=
  sendFrame writer (timeSyncFrame server.cipherAgility server.now)
    (fun writer =>
      recv reader (fun chunk next => server.acceptCipher next writer chunk) (.halt .closed))
    (.halt .closed)

end Server

end Server

section Client

structure Client where
  supportsAes : Bool
  clientInfo : Bool
  opening : Opening
  payload : Bytes

inductive ClientEnd (crate : AeadCrate) where
  | established (reader : CryptoReader crate) (writer : CryptoWriter crate)
  | failed

variable {crate : AeadCrate}

namespace Client

/-- The header, and the first payload in records of its own. -/
def openStream (client : Client) (reader : CryptoReader crate) (writer : CryptoWriter crate) :
    Program Bytes (ClientEnd crate) :=
  sendFrame writer client.opening.header
    (fun writer =>
      sendFrame writer client.payload (fun writer => .halt (.established reader writer))
        (.halt .failed))
    (.halt .failed)

/-- The source goes on when this send fails. It can only fail with the nonce
exhausted, and then the header fails too. -/
def sayVersion (client : Client) (reader : CryptoReader crate) (writer : CryptoWriter crate) :
    Program Bytes (ClientEnd crate) :=
  if client.clientInfo then
    sendFrame writer (buildFrame ownVersion) (client.openStream reader) (.halt .failed)
  else client.openStream reader writer

def offerCipher (client : Client) (serverAgility : Bool) (reader : CryptoReader crate)
    (writer : CryptoWriter crate) : Program Bytes (ClientEnd crate) :=
  if serverAgility then
    sendFrame writer (buildCipherNego client.supportsAes)
      (fun writer =>
        recv reader
          (fun ack reader =>
            match parseCipherAck ack with
            | some final =>
                let (reader, writer) := rekeyBoth reader writer final
                client.sayVersion reader writer
            | none => .halt .failed)
          (.halt .failed))
      (.halt .failed)
  else client.sayVersion reader writer

def connectUpstream (client : Client) (reader : CryptoReader crate)
    (writer : CryptoWriter crate) : Program Bytes (ClientEnd crate) :=
  recv reader
    (fun data reader =>
      match processTimeSyncFrame data with
      | some serverAgility => client.offerCipher serverAgility reader writer
      | none => .halt .failed)
    (.halt .failed)

end Client

end Client

end Mirage.Tunnel
