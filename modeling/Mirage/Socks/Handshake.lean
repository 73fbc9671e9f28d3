import Mirage.HttpProxy.Request
import Mirage.Lib.Exchange
import Mirage.Shadowsocks.Address

/-!
The inbound side of SOCKS5 in proxy/socks5.rs: the choice of a method, the login and the
request, with what is answered to each. A `Conversation` is what a client says that is
let in.
-/

namespace Mirage.Socks
open HttpProxy (InboundAuth)
open Exchange NumberText Shadowsocks Text Vectors Word

inductive SocksCommand where
  | tcpConnect (target : String)
  | udpAssociate
  deriving DecidableEq

inductive Failure where
  | io
  | fromUtf8
  | message (text : String)
  deriving DecidableEq

abbrev Inbound := Session Failure

def verifyUserpass (cred : InboundAuth) : Inbound Unit := do
  let ver ← readExact .io 1
  if ver.getD 0 0 ≠ 0x01 then
    throw (.message ("unsupported auth subnegotiation version: " ++ (ver.getD 0 0).toNat.repr))
  else
    let ulen ← readExact .io 1
    let username ← readExact .io (ulen.getD 0 0).toNat
    let plen ← readExact .io 1
    let password ← readExact .io (plen.getD 0 0).toNat
    if cred.verify username password then
      writeAll .io [0x01, 0x00]
    else
      writeLast .io [0x01, 0x01]
      throw (.message "socks5 auth failed")

/-- With credentials configured the method without a login is not accepted. -/
def chooseMethod (auth : Option InboundAuth) (methods : Bytes) : Inbound Unit :=
  match auth with
  | some cred =>
      if methods.contains 0x02 then do
        writeAll .io [0x05, 0x02]
        verifyUserpass cred
      else do
        writeLast .io [0x05, 0xFF]
        throw (.message "client does not support username/password auth")
  | none =>
      if methods.contains 0x00 then
        writeAll .io [0x05, 0x00]
      else do
        writeLast .io [0x05, 0xFF]
        throw (.message "No supported auth methods")

def readTarget (atyp : UInt8) : Inbound String :=
  if atyp = 0x01 then do
    let ip ← readExact .io 4
    let port ← readExact .io 2
    pure (ipv4Text (BitVec.ofNat 32 (ofBe ip)) ++ ":" ++ (ofBe port).repr)
  else if atyp = 0x03 then do
    let len ← readExact .io 1
    let domain ← readExact .io (len.getD 0 0).toNat
    let port ← readExact .io 2
    match fromUtf8 domain with
    | none => throw .fromUtf8
    | some domain => pure (domain ++ ":" ++ (ofBe port).repr)
  else if atyp = 0x04 then do
    let ip ← readExact .io 16
    let port ← readExact .io 2
    pure ("[" ++ ipv6Text (BitVec.ofNat 128 (ofBe ip)) ++ "]" ++ ":" ++ (ofBe port).repr)
  else throw (.message "Unsupported address type")

def connected : Bytes := [0x05, 0x00, 0x00, 0x01, 0x00, 0x00, 0x00, 0x00, 0x00, 0x00]

def readRequest : Inbound SocksCommand := do
  let header ← readExact .io 4
  if header.getD 0 0 ≠ 0x05 then
    throw (.message "Unsupported version in request")
  else
    let cmd := header.getD 1 0
    if cmd ≠ 0x01 ∧ cmd ≠ 0x03 then
      throw (.message "Unsupported command (only CONNECT and UDP ASSOCIATE supported)")
    else
      let target ← readTarget (header.getD 3 0)
      if cmd = 0x01 then
        writeAll .io connected
        pure (.tcpConnect target)
      -- The caller answers, once it has bound a port.
      else pure .udpAssociate

def handshake (auth : Option InboundAuth) : Inbound SocksCommand := do
  let header ← readExact .io 2
  if header.getD 0 0 ≠ 0x05 then
    throw (.message ("Unsupported SOCKS version: " ++ (header.getD 0 0).toNat.repr))
  else
    let methods ← readExact .io (header.getD 1 0).toNat
    chooseMethod auth methods
    readRequest

/-- A length of one byte and what is that long. -/
def counted (bytes : Bytes) : Bytes := UInt8.ofNat bytes.length :: bytes

inductive Command where
  | connect
  | associate
  deriving DecidableEq

def Command.byte : Command → UInt8
  | connect => 0x01
  | associate => 0x03

def Command.result (destination : Destination) : Command → SocksCommand
  | connect => .tcpConnect destination.text
  | associate => .udpAssociate

def Command.replies : Command → List Bytes
  | connect => [connected]
  | associate => []

def methodOf : Option InboundAuth → UInt8
  | some _ => 0x02
  | none => 0x00

def loginOf : Option InboundAuth → Bytes
  | some cred => 0x01 :: (counted (utf8 cred.username) ++ counted (utf8 cred.password))
  | none => []

def welcome : Option InboundAuth → List Bytes
  | some _ => [[0x05, 0x02], [0x01, 0x00]]
  | none => [[0x05, 0x00]]

/-- Credentials that a login has room for. -/
def Typeable (auth : Option InboundAuth) : Prop :=
  ∀ cred ∈ auth, (utf8 cred.username).length ≤ 255 ∧ (utf8 cred.password).length ≤ 255

/-- What a client says that is let in. -/
structure Conversation (auth : Option InboundAuth) where
  methods : Bytes
  command : Command
  reserved : UInt8
  destination : Destination
  few : methods.length ≤ 255
  offered : methodOf auth ∈ methods
  typeable : Typeable auth
  fits : destination.host.Fits

namespace Conversation
variable {auth : Option InboundAuth} (talk : Conversation auth)

def bytes : Bytes :=
  0x05 :: counted talk.methods ++ loginOf auth ++
    (0x05 :: talk.command.byte :: talk.reserved :: talk.destination.wire)

def replies : List Bytes := welcome auth ++ talk.command.replies

def result : SocksCommand := talk.command.result talk.destination

end Conversation

def plainTalk : Conversation none where
  methods := [0x00]
  command := .connect
  reserved := 0
  destination := ⟨.domain "a.io", 80⟩
  few := by decide
  offered := by decide
  typeable := fun _ none_ => absurd none_ (Option.not_mem_none _)
  fits := by
    unfold Host.Fits
    decide

example : plainTalk.bytes =
    [5, 1, 0, 5, 1, 0, 3, 4] ++ utf8 "a.io" ++ [0, 80] ∧ plainTalk.result = .tcpConnect "a.io:80" := by
  decide

section Parts
variable {auth : Option InboundAuth} {bytes : Bytes} {n : Nat}

theorem counted_eq {byte : UInt8} (sized : bytes.length = byte.toNat) :
    counted bytes = byte :: bytes := by
  rw [counted, sized, UInt8.ofNat_toNat]

theorem counted_size (few : bytes.length ≤ 255) :
    (UInt8.ofNat bytes.length).toNat = bytes.length :=
  UInt8.toNat_ofNat_of_lt' (Nat.lt_succ_of_le few)

theorem takes_counted {α : Type} {next : Bytes → Inbound α}
    {talk : Bytes → α → Bytes → List Bytes → Prop}
    (takes : ∀ bytes, Takes (next bytes) (talk bytes)) :
    Takes (do
      let len ← readExact .io 1
      let bytes ← readExact .io (len.getD 0 0).toNat
      next bytes) fun value heard replies =>
        ∃ bytes rest, bytes.length ≤ 255 ∧ talk bytes value rest replies ∧
          heard = counted bytes ++ rest := by
  refine takes_of_iff (takes_bind (takes_readExact Failure.io 1) fun len =>
    takes_bind (takes_readExact Failure.io (len.getD 0 0).toNat) takes) ?_
  intro value heard replies
  constructor
  · rintro ⟨_, len, _, _, _, ⟨one, rfl, rfl⟩,
      ⟨_, bytes, _, rest, _, ⟨sized, rfl, rfl⟩, said, rfl, rfl⟩, rfl, rfl⟩
    obtain ⟨byte, rfl⟩ := List.length_eq_one_iff.mp one
    refine ⟨bytes, rest, ?_, said, ?_⟩
    · rw [sized]
      exact Nat.le_of_lt_succ byte.toNat_lt
    · rw [counted_eq sized]
      rfl
  · rintro ⟨bytes, rest, few, said, rfl⟩
    exact ⟨[UInt8.ofNat bytes.length], _, _, _, _, ⟨rfl, rfl, rfl⟩,
      ⟨bytes, _, _, rest, replies, ⟨(counted_size few).symm, rfl, rfl⟩, said, rfl, rfl⟩, rfl, rfl⟩

theorem takes_verifyUserpass (cred : InboundAuth) :
    Takes (verifyUserpass cred) fun _ heard replies =>
      Typeable (some cred) ∧ heard = loginOf (some cred) ∧ replies = [[0x01, 0x00]] := by
  have answered : ∀ username password : Bytes, Takes (
      if cred.verify username password then writeAll Failure.io [0x01, 0x00]
      else do
        writeLast .io [0x01, 0x01]
        throw (.message "socks5 auth failed")) fun _ heard replies =>
      (username = utf8 cred.username ∧ password = utf8 cred.password) ∧
        heard = [] ∧ replies = [[0x01, 0x00]] := by
    intro username password
    refine takes_of_iff (takes_ite (takes_writeAll _ _) (takes_refuse _ _)) ?_
    -- Only the branch that checks out is left.
    simp [InboundAuth.verify]
  refine takes_of_iff (takes_bind (takes_readExact Failure.io 1) fun ver => takes_ite
    (takes_throw _) (takes_counted fun username => takes_counted (answered username))) ?_
  intro _ heard replies
  constructor
  · rintro ⟨ver, _, _, _, _, ⟨one, rfl, rfl⟩, ⟨_, nothing⟩ | ⟨version, _, _, shortName, ⟨_, _,
      shortWord, ⟨⟨rfl, rfl⟩, rfl, rfl⟩, rfl⟩, rfl⟩, rfl, rfl⟩
    · exact nothing.elim
    · obtain ⟨byte, rfl⟩ := List.length_eq_one_iff.mp one
      obtain rfl : byte = 0x01 := not_not.mp version
      refine ⟨?_, ?_, rfl⟩
      · rintro _ ⟨⟩
        exact ⟨shortName, shortWord⟩
      · rw [List.append_nil]
        rfl
  · rintro ⟨typeable, rfl, rfl⟩
    obtain ⟨shortName, shortWord⟩ := typeable cred rfl
    refine ⟨[0x01], _, [], _, _, ⟨rfl, rfl, rfl⟩, .inr ⟨not_not.mpr rfl, _, _, shortName,
      ⟨_, _, shortWord, ⟨⟨rfl, rfl⟩, rfl, rfl⟩, rfl⟩, rfl⟩, ?_, rfl⟩
    rw [List.append_nil]
    rfl

theorem takes_chooseMethod (auth : Option InboundAuth) (methods : Bytes) :
    Takes (chooseMethod auth methods) fun _ heard replies =>
      methodOf auth ∈ methods ∧ Typeable auth ∧ heard = loginOf auth ∧ replies = welcome auth := by
  cases auth with
  | some cred =>
      refine takes_of_iff (takes_ite (takes_bind (takes_writeAll Failure.io _) fun _ =>
        takes_verifyUserpass cred) (takes_refuse _ _)) ?_
      intro _ heard replies
      constructor
      · rintro (⟨offered, _, _, _, _, _, ⟨rfl, rfl⟩, ⟨typeable, rfl, rfl⟩, rfl, rfl⟩ | ⟨_, nothing⟩)
        · exact ⟨List.contains_iff_mem.mp offered, typeable, rfl, rfl⟩
        · exact nothing.elim
      · rintro ⟨offered, typeable, rfl, rfl⟩
        exact .inl ⟨List.contains_iff_mem.mpr offered, (), [], _, _, _, ⟨rfl, rfl⟩,
          ⟨typeable, rfl, rfl⟩, rfl, rfl⟩
  | none =>
      refine takes_of_iff (takes_ite (takes_writeAll Failure.io _) (takes_refuse _ _)) ?_
      intro _ heard replies
      constructor
      · rintro (⟨offered, rfl, rfl⟩ | ⟨_, nothing⟩)
        · exact ⟨List.contains_iff_mem.mp offered, nofun, rfl, rfl⟩
        · exact nothing.elim
      · rintro ⟨offered, _, rfl, rfl⟩
        exact .inl ⟨List.contains_iff_mem.mpr offered, rfl, rfl⟩

theorem port_bytes (two : bytes.length = 2) :
    ∃ port : UInt16, bytes = be16 port.toNat ∧ ofBe bytes = port.toNat := by
  have small : ofBe bytes < 2 ^ 16 := by
    have bound := ofBe_lt bytes
    rwa [two] at bound
  have number : (UInt16.ofNat (ofBe bytes)).toNat = ofBe bytes := UInt16.toNat_ofNat_of_lt' small
  have back := toBe_ofBe bytes
  rw [two] at back
  refine ⟨UInt16.ofNat (ofBe bytes), ?_, number.symm⟩
  rw [number, be16_eq_toBe, back]

theorem address_bytes {width : Nat} (sized : bytes.length = n) (wide : 256 ^ n = 2 ^ width) :
    toBe n (BitVec.ofNat width (ofBe bytes)).toNat = bytes := by
  subst sized
  have small := ofBe_lt bytes
  rw [wide] at small
  rw [BitVec.toNat_ofNat, Nat.mod_eq_of_lt small, toBe_ofBe]

theorem takes_port (host : String) :
    Takes (do
      let port ← readExact Failure.io 2
      pure (host ++ ":" ++ (ofBe port).repr)) fun target heard replies =>
        ∃ port : UInt16, target = host ++ ":" ++ port.toNat.repr ∧ heard = be16 port.toNat ∧
          replies = [] := by
  refine takes_of_iff (takes_bind (takes_readExact Failure.io 2) fun port => takes_pure _) ?_
  intro target heard replies
  constructor
  · rintro ⟨_, bytes, _, _, _, ⟨two, rfl, rfl⟩, ⟨rfl, rfl, rfl⟩, rfl, rfl⟩
    obtain ⟨port, whole, number⟩ := port_bytes two
    refine ⟨port, ?_, ?_, rfl⟩
    · rw [number]
    · rw [List.append_nil, whole]
  · rintro ⟨port, rfl, rfl, rfl⟩
    refine ⟨_, _, _, _, _, ⟨be16_length _, rfl, rfl⟩, ⟨?_, rfl, rfl⟩, (List.append_nil _).symm, rfl⟩
    rw [ofBe_be16 port.toNat_lt]

theorem takes_address {width : Nat} (wide : 256 ^ n = 2 ^ width) (text : BitVec width → String) :
    Takes (do
      let ip ← readExact Failure.io n
      let port ← readExact .io 2
      pure (text (BitVec.ofNat width (ofBe ip)) ++ ":" ++ (ofBe port).repr))
        fun target heard replies => ∃ (ip : BitVec width) (port : UInt16),
          target = text ip ++ ":" ++ port.toNat.repr ∧
            heard = toBe n ip.toNat ++ be16 port.toNat ∧ replies = [] := by
  refine takes_of_iff (takes_bind (takes_readExact Failure.io n) fun ip => takes_port _) ?_
  intro target heard replies
  constructor
  · rintro ⟨_, ip, _, _, _, ⟨sized, rfl, rfl⟩, ⟨port, rfl, rfl, rfl⟩, rfl, rfl⟩
    refine ⟨_, port, rfl, ?_, rfl⟩
    rw [address_bytes sized wide]
  · rintro ⟨ip, port, rfl, rfl, rfl⟩
    refine ⟨_, _, _, _, _, ⟨toBe_length _ _, rfl, rfl⟩, ⟨port, ?_, rfl, rfl⟩, rfl, rfl⟩
    have small : ip.toNat < 256 ^ n := by
      rw [wide]
      exact ip.isLt
    rw [ofBe_toBe small, BitVec.ofNat_toNat, BitVec.setWidth_eq]

theorem takes_domain : Takes (do
    let len ← readExact Failure.io 1
    let domain ← readExact .io (len.getD 0 0).toNat
    let port ← readExact .io 2
    match fromUtf8 domain with
    | none => throw .fromUtf8
    | some domain => pure (domain ++ ":" ++ (ofBe port).repr)) fun target heard replies =>
      ∃ (name : String) (port : UInt16), (utf8 name).length ≤ 255 ∧
        target = name ++ ":" ++ port.toNat.repr ∧
          heard = counted (utf8 name) ++ be16 port.toNat ∧ replies = [] := by
  have named : ∀ bytes, Takes (do
      let port ← readExact Failure.io 2
      match fromUtf8 bytes with
      | none => throw .fromUtf8
      | some domain => pure (domain ++ ":" ++ (ofBe port).repr)) fun target heard replies =>
        ∃ name, utf8 name = bytes ∧ ∃ port : UInt16, target = name ++ ":" ++ port.toNat.repr ∧
          heard = be16 port.toNat ∧ replies = [] := by
    intro bytes
    cases decoded : fromUtf8 bytes with
    | none =>
        refine takes_of_iff (takes_refuse _ _) fun _ _ _ => ⟨False.elim, ?_⟩
        rintro ⟨name, rfl, _⟩
        rw [fromUtf8_utf8] at decoded
        cases decoded
    | some name =>
        refine takes_of_iff (takes_port name) fun _ _ _ => ⟨?_, ?_⟩
        · rintro ⟨port, said⟩
          exact ⟨name, utf8_of_fromUtf8 decoded, port, said⟩
        · rintro ⟨other, rfl, port, said⟩
          rw [fromUtf8_utf8] at decoded
          cases decoded
          exact ⟨port, said⟩
  refine takes_of_iff (takes_counted named) ?_
  intro target heard replies
  constructor
  · rintro ⟨_, _, few, ⟨name, rfl, port, rfl, rfl, rfl⟩, rfl⟩
    exact ⟨name, port, few, rfl, rfl, rfl⟩
  · rintro ⟨name, port, few, rfl, rfl, rfl⟩
    exact ⟨_, _, few, ⟨name, rfl, port, rfl, rfl, rfl⟩, rfl⟩

theorem takes_readTarget (atyp : UInt8) :
    Takes (readTarget atyp) fun target heard replies =>
      ∃ destination : Destination, destination.host.Fits ∧ target = destination.text ∧
        destination.wire = atyp :: heard ∧ replies = [] := by
  have four : 256 ^ 4 = 2 ^ 32 := rfl
  have sixteen : 256 ^ 16 = 2 ^ 128 := rfl
  refine takes_of_iff (takes_ite (takes_address four ipv4Text) (takes_ite takes_domain
    (takes_ite (takes_address sixteen fun ip => "[" ++ ipv6Text ip ++ "]") (takes_throw _)))) ?_
  intro target heard replies
  constructor
  · rintro (⟨kind, ip, port, said, sent, none'⟩ | ⟨_, ⟨kind, name, port, few, said, sent, none'⟩ |
      ⟨_, ⟨kind, ip, port, said, sent, none'⟩ | ⟨_, nothing⟩⟩⟩)
    · exact ⟨⟨.ipv4 ip, port⟩, trivial, said, by rw [kind, sent]; rfl, none'⟩
    · exact ⟨⟨.domain name, port⟩, few, said, by rw [kind, sent]; rfl, none'⟩
    · exact ⟨⟨.ipv6 ip, port⟩, trivial, said, by rw [kind, sent]; rfl, none'⟩
    · exact nothing.elim
  · rintro ⟨⟨host, port⟩, fits, rfl, wire, rfl⟩
    cases host with
    | ipv4 ip =>
        cases wire
        exact .inl ⟨rfl, ip, port, rfl, rfl, rfl⟩
    | domain name =>
        cases wire
        exact .inr ⟨by decide, .inl ⟨rfl, name, port, fits, rfl, rfl, rfl⟩⟩
    | ipv6 ip =>
        cases wire
        exact .inr ⟨by decide, .inr ⟨by decide, .inl ⟨rfl, ip, port, rfl, rfl, rfl⟩⟩⟩

theorem four_bytes (four : bytes.length = 4) : ∃ a b c d, bytes = [a, b, c, d] := by
  cases bytes with
  | nil => cases four
  | cons a rest =>
      obtain ⟨b, c, d, rfl⟩ := List.length_eq_three.mp (Nat.succ.inj four)
      exact ⟨a, b, c, d, rfl⟩

theorem wire_cons (destination : Destination) :
    ∃ atyp rest, destination.wire = atyp :: rest := by
  obtain ⟨host, port⟩ := destination
  cases host with
  | ipv4 ip => exact ⟨_, _, rfl⟩
  | ipv6 ip => exact ⟨_, _, rfl⟩
  | domain name => exact ⟨_, _, rfl⟩

theorem takes_readRequest :
    Takes readRequest fun result heard replies =>
      ∃ (command : Command) (reserved : UInt8) (destination : Destination),
        destination.host.Fits ∧ heard = 0x05 :: command.byte :: reserved :: destination.wire ∧
        result = command.result destination ∧ replies = command.replies := by
  refine takes_of_iff (takes_bind (takes_readExact Failure.io 4) fun header => takes_ite
    (takes_throw _) (takes_ite (takes_throw _) (takes_bind (takes_readTarget _) fun target =>
      takes_ite (takes_bind (takes_writeAll Failure.io connected) fun _ => takes_pure _)
        (takes_pure _)))) ?_
  intro result heard replies
  constructor
  · rintro ⟨_, header, _, _, _, ⟨four, rfl, rfl⟩, ⟨_, nothing⟩ | ⟨version, ⟨_, nothing⟩ | ⟨known,
      target, _, _, _, _, ⟨destination, fits, rfl, wire, rfl⟩, answered, rfl, rfl⟩⟩, rfl, rfl⟩
    · exact nothing.elim
    · exact nothing.elim
    · obtain ⟨ver, cmd, reserved, atyp, rfl⟩ := four_bytes four
      obtain rfl : ver = 0x05 := not_not.mp version
      rcases answered with ⟨same, _, _, _, _, _, ⟨rfl, rfl⟩, ⟨rfl, rfl, rfl⟩, rfl, rfl⟩ |
        ⟨other, rfl, rfl, rfl⟩
      · obtain rfl : cmd = 0x01 := same
        refine ⟨.connect, reserved, destination, fits, ?_, rfl, rfl⟩
        rw [wire, List.append_nil, List.append_nil]
        rfl
      · obtain rfl : cmd = 0x03 := by
          by_contra unknown
          exact known ⟨other, unknown⟩
        refine ⟨.associate, reserved, destination, fits, ?_, rfl, rfl⟩
        rw [wire, List.append_nil]
        rfl
  · rintro ⟨command, reserved, destination, fits, rfl, rfl, rfl⟩
    -- The first byte of the address is read with the header.
    obtain ⟨atyp, rest, wire⟩ := wire_cons destination
    have target : ∃ given : Destination, given.host.Fits ∧ destination.text = given.text ∧
        given.wire = atyp :: rest ∧ ([] : List Bytes) = [] :=
      ⟨destination, fits, rfl, wire, rfl⟩
    refine ⟨[0x05, command.byte, reserved, atyp], _, _, rest, _, ⟨rfl, rfl, rfl⟩,
      .inr ⟨not_not.mpr rfl, .inr ⟨?_, _, _, _, [], _, target, ?_, (List.append_nil _).symm, rfl⟩⟩,
      ?_, rfl⟩
    · cases command with
      | connect => exact fun unknown => unknown.1 rfl
      | associate => exact fun unknown => unknown.2 rfl
    · cases command with
      | connect => exact .inl ⟨rfl, (), [], _, _, _, ⟨rfl, rfl⟩, ⟨rfl, rfl, rfl⟩, rfl, rfl⟩
      | associate => exact .inr ⟨(by decide : ¬ (0x03 : UInt8) = 0x01), rfl, rfl, rfl⟩
    · rw [wire]
      rfl

theorem takes_handshake (auth : Option InboundAuth) :
    Takes (handshake auth) fun result heard replies =>
      ∃ talk : Conversation auth, result = talk.result ∧ heard = talk.bytes ∧
        replies = talk.replies := by
  refine takes_of_iff (takes_bind (takes_readExact Failure.io 2) fun header => takes_ite
    (takes_throw _) (takes_bind (takes_readExact Failure.io _) fun methods =>
      takes_bind (takes_chooseMethod auth methods) fun _ => takes_readRequest)) ?_
  intro result heard replies
  constructor
  · rintro ⟨_, header, _, _, _, ⟨two, rfl, rfl⟩, ⟨_, nothing⟩ | ⟨version, _, methods, _, _, _,
      ⟨sized, rfl, rfl⟩, ⟨_, _, _, _, _, ⟨offered, typeable, rfl, rfl⟩, ⟨command, reserved,
        destination, fits, rfl, rfl, rfl⟩, rfl, rfl⟩, rfl, rfl⟩, rfl, rfl⟩
    · exact nothing.elim
    · obtain ⟨ver, nmethods, rfl⟩ := List.length_eq_two.mp two
      obtain rfl : ver = 0x05 := not_not.mp version
      have few : methods.length ≤ 255 := by
        rw [sized]
        exact Nat.le_of_lt_succ nmethods.toNat_lt
      refine ⟨⟨methods, command, reserved, destination, few, offered, typeable, fits⟩, rfl, ?_, rfl⟩
      rw [Conversation.bytes, counted_eq sized, List.append_assoc]
      rfl
  · rintro ⟨talk, rfl, rfl, rfl⟩
    refine ⟨[0x05, UInt8.ofNat talk.methods.length], _, _, _, _, ⟨rfl, rfl, rfl⟩,
      .inr ⟨not_not.mpr rfl, talk.methods, _, _, _, _, ⟨(counted_size talk.few).symm, rfl, rfl⟩,
        ⟨(), _, _, _, _, ⟨talk.offered, talk.typeable, rfl, rfl⟩,
          ⟨talk.command, talk.reserved, talk.destination, talk.fits, rfl, rfl, rfl⟩, rfl, rfl⟩,
        rfl, rfl⟩, ?_, rfl⟩
    rw [Conversation.bytes, List.append_assoc]
    rfl

end Parts

section Refusals
variable {auth : Option InboundAuth} {told : List Bytes → Prop}

theorem fails_verifyUserpass (cred : InboundAuth) (nothing : told [])
    (refusal : told [[0x01, 0x01]]) : Fails (verifyUserpass cred) told := by
  refine fails_read nothing fun ver => fails_ite (fails_throw _ nothing) ?_
  refine fails_read nothing fun ulen => fails_read nothing fun username => ?_
  refine fails_read nothing fun plen => fails_read nothing fun password => ?_
  exact fails_ite (fails_writeAll _ _ nothing) (fails_refuse _ _ _ nothing refusal)

theorem fails_readTarget (atyp : UInt8) (nothing : told []) : Fails (readTarget atyp) told := by
  refine fails_ite ?_ (fails_ite ?_ (fails_ite ?_ (fails_throw _ nothing)))
  · exact fails_read nothing fun ip => fails_read nothing fun port => fails_pure _
  · refine fails_read nothing fun len => fails_read nothing fun domain => ?_
    refine fails_read nothing fun port => ?_
    split
    · exact fails_throw _ nothing
    · exact fails_pure _
  · exact fails_read nothing fun ip => fails_read nothing fun port => fails_pure _

/-- The reply to a connect is the last thing that can go wrong. -/
theorem fails_readRequest (nothing : told []) : Fails readRequest told := by
  refine fails_read nothing fun header => fails_ite (fails_throw _ nothing) ?_
  refine fails_ite (fails_throw _ nothing) ?_
  refine fails_bind (fails_readTarget _ nothing) (takes_readTarget _) ?_
  rintro target _ _ ⟨_, _, _, _, rfl⟩
  refine fails_ite ?_ (fails_pure _)
  exact fails_bind (fails_writeAll _ _ nothing) (takes_writeAll _ _) fun _ _ _ _ => fails_pure _

def refusals : Option InboundAuth → List (List Bytes)
  | some _ => [[], [[0x05, 0xFF]], [[0x05, 0x02]], [[0x05, 0x02], [0x01, 0x01]],
      [[0x05, 0x02], [0x01, 0x00]]]
  | none => [[], [[0x05, 0xFF]], [[0x05, 0x00]]]

theorem fails_chooseMethod (methods : Bytes) :
    Fails (chooseMethod auth methods) fun replies => replies ∈ refusals auth := by
  cases auth with
  | some cred =>
      refine fails_ite ?_ (fails_refuse _ _ _ (by simp [refusals]) (by simp [refusals]))
      refine fails_bind (fails_writeAll _ _ (by simp [refusals])) (takes_writeAll _ _) ?_
      rintro _ _ _ ⟨-, rfl⟩
      exact fails_verifyUserpass cred (by simp [refusals]) (by simp [refusals])
  | none =>
      exact fails_ite (fails_writeAll _ _ (by decide)) (fails_refuse _ _ _ (by decide) (by decide))

theorem fails_handshake (auth : Option InboundAuth) :
    Fails (handshake auth) fun replies => replies ∈ refusals auth := by
  have nothing : [] ∈ refusals auth := by
    cases auth with
    | some cred => exact List.mem_cons_self
    | none => exact List.mem_cons_self
  have welcomed : welcome auth ++ [] ∈ refusals auth := by
    cases auth with
    | some cred => simp [welcome, refusals]
    | none => decide
  refine fails_read nothing fun header => fails_ite (fails_throw _ nothing) ?_
  refine fails_read nothing fun methods => ?_
  refine fails_bind (fails_chooseMethod methods) (takes_chooseMethod auth methods) ?_
  rintro _ _ _ ⟨_, _, _, rfl⟩
  exact fails_readRequest welcomed

end Refusals

/-- A session returns exactly after a conversation of a client that is let in, with
what that client has asked for. It was answered as the conversation says, and what it
sent behind its request is still to be read. A client that is not let in was answered
no more than a refusal: never that it is connected. -/
theorem socks_requests_iff (auth : Option InboundAuth) (stream left : Stream) :
    (∀ command, handshake auth stream = .ok command left ↔
      ∃ talk : Conversation auth, command = talk.result ∧
        stream.sent = talk.bytes ++ left.sent ∧
        stream.room = talk.replies.length + left.room ∧
        left.written = stream.written ++ talk.replies.flatten) ∧
    ∀ failure, handshake auth stream = .error failure left →
      ∃ replies ∈ refusals auth, left.written = stream.written ++ replies.flatten := by
  refine ⟨fun command => ?_, fun failure => fails_handshake auth stream failure left⟩
  rw [takes_handshake auth stream command left]
  constructor
  · rintro ⟨_, _, ⟨talk, rfl, rfl, rfl⟩, sent, room, written⟩
    exact ⟨talk, rfl, sent, room, written⟩
  · rintro ⟨talk, rfl, sent, room, written⟩
    exact ⟨_, _, ⟨talk, rfl, rfl, rfl⟩, sent, room, written⟩

end Mirage.Socks
