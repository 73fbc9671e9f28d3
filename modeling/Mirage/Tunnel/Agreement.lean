import Mirage.Tunnel.Setup

/-!
When the two programs of connection setup agree. The receivers take one record
for one frame, so everything turns on whether each frame fits in the record
that the padding schedule has for it. The stages of the setup are followed
from the last to the first; a frame that is cut leaves one side with a program
that can only fail.
-/

namespace Mirage.Tunnel
open Word Duplex

variable {crate : AeadCrate}

section Chunks

/-- What the server makes of a whole first chunk. -/
def modeOf (chunk : Bytes) : Option (Mode × Option Bytes) :=
  if chunk = [0x00] then some (.udp, none)
  else if chunk = [muxSentinel] then some (.mux, none)
  else match parseTcpTarget chunk with
    | .ok (target, payload) => some (.tcp target, payload)
    | .error _ => none

/-- The session is one that the server serves. -/
def Server.Admits (server : Server) (mode : Mode) : Prop :=
  server.credRevoked = false ∧ (server.user = "default" ∨ server.hasLimit = true) ∧
    (server.blockUdp = false ∨ ∃ target, mode = .tcp target)

/-- The server ends without the mode that the client opened. -/
def Misses (mode : Mode) : ServerEnd crate → Prop
  | .dispatched found _ _ _ => found ≠ mode
  | .closed => True

def Fails : ClientEnd crate → Prop
  | .established _ _ => False
  | .failed => True

theorem parseTcpTarget_short {chunk : Bytes} (short : chunk.length < 2) :
    parseTcpTarget chunk = .error "first_chunk too short to be valid" := by
  match chunk with
  | [] | [_] => rfl
  | _ :: _ :: _ =>
      simp only [List.length_cons] at short
      omega

theorem refuse_misses {mode : Mode} (writer : CryptoWriter crate) :
    (refuse writer).Ends (Misses mode) := by
  rw [refuse]
  split <;> exact trivial

theorem dispatch_misses {server : Server} {reader : CryptoReader crate}
    {writer : CryptoWriter crate} {chunk : Bytes} {mode : Mode}
    (other : ∀ payload, modeOf chunk ≠ some (mode, payload)) :
    (server.dispatch reader writer chunk).Ends (Misses mode) := by
  rw [Server.dispatch]
  split
  · exact refuse_misses writer
  split
  · exact refuse_misses writer
  split
  next udp =>
    split
    · exact refuse_misses writer
    · intro same
      exact other none (by rw [modeOf, if_pos udp, same])
  next notUdp =>
    split
    next mux =>
      split
      · exact refuse_misses writer
      · intro same
        exact other none (by rw [modeOf, if_neg notUdp, if_pos mux, same])
    next notMux =>
      split
      · cases parsed : parseTcpTarget chunk with
        | error _ => exact trivial
        | ok found =>
            intro same
            exact other found.2 (by simp only [modeOf, if_neg notUdp, if_neg notMux, parsed, ← same])
      · exact trivial

theorem dispatch_admitted {server : Server} {reader : CryptoReader crate}
    {writer : CryptoWriter crate} {chunk : Bytes} {mode : Mode} {payload : Option Bytes}
    (read : modeOf chunk = some (mode, payload)) (admits : server.Admits mode) :
    server.dispatch reader writer chunk = .halt (.dispatched mode payload reader writer) := by
  obtain ⟨valid, known, policy⟩ := admits
  have served : ¬ (server.user ≠ "default" ∧ server.hasLimit = false) := by
    rintro ⟨other, missing⟩
    rcases known with same | limited
    · exact other same
    · rw [limited] at missing
      cases missing
  simp only [Server.dispatch, valid, Bool.false_eq_true, if_false, if_neg served]
  rw [modeOf] at read
  split at read
  next udp =>
    cases read
    have unblocked : server.blockUdp = false := policy.resolve_right (by rintro ⟨_, same⟩; cases same)
    simp [udp, unblocked]
  next notUdp =>
    split at read
    next mux =>
      cases read
      have unblocked : server.blockUdp = false :=
        policy.resolve_right (by rintro ⟨_, same⟩; cases same)
      simp [mux, unblocked, muxSentinel]
    next notMux =>
      cases parsed : parseTcpTarget chunk with
      | error _ =>
          rw [parsed] at read
          cases read
      | ok found =>
          rw [parsed] at read
          cases read
          have long : 2 ≤ chunk.length := by
            by_contra short
            rw [parseTcpTarget_short (Nat.not_le.mp short)] at parsed
            cases parsed
          simp only [if_neg notUdp, if_neg notMux, if_pos long]

theorem dispatch_refused {server : Server} {reader : CryptoReader crate}
    {writer : CryptoWriter crate} {chunk : Bytes} {mode : Mode} {payload : Option Bytes}
    (read : modeOf chunk = some (mode, payload)) (refused : ¬ server.Admits mode) :
    (server.dispatch reader writer chunk).Ends (Misses mode) := by
  rw [Server.dispatch]
  split
  · exact refuse_misses writer
  next valid =>
    split
    · exact refuse_misses writer
    next served =>
      -- Only the policy against UDP is left to refuse for.
      have blocked : server.blockUdp = true ∧ ∀ target, mode ≠ .tcp target := by
        simp only [Server.Admits, not_and_or, not_or, not_exists] at refused
        rcases refused with revoked | ⟨other, unlimited⟩ | ⟨blocks, udp⟩
        · exact absurd (Bool.not_eq_false _ ▸ revoked) valid
        · exact absurd ⟨other, Bool.not_eq_true _ ▸ unlimited⟩ served
        · exact ⟨by simpa using blocks, udp⟩
      rw [modeOf] at read
      split at read
      next udp => simpa [udp, blocked.1] using refuse_misses writer
      next notUdp =>
        split at read
        next mux => simpa [mux, muxSentinel, blocked.1] using refuse_misses writer
        next notMux =>
          cases parsed : parseTcpTarget chunk with
          | error _ =>
              rw [parsed] at read
              cases read
          | ok found =>
              rw [parsed] at read
              cases read
              exact absurd rfl (blocked.2 found.1)

theorem Opening.header_ne_nil (opening : Opening) : opening.header ≠ [] := by
  cases opening <;> simp [Opening.header, be16]

theorem parseTcpTarget_cut (target : Target) {cut : Nat}
    (short : cut < 2 + (utf8 target.name).length) :
    ∃ e, parseTcpTarget ((Opening.tcp target).header.take cut) = .error e := by
  match cut with
  | 0 => exact ⟨_, rfl⟩
  | 1 => exact ⟨_, rfl⟩
  | cut + 2 =>
      have fits : (utf8 target.name).length < 2 ^ 16 := Nat.lt_of_le_of_lt target.short (by decide)
      refine ⟨"first_chunk too short for target_len", ?_⟩
      simp only [Opening.header, be16, List.cons_append, List.nil_append, List.take_succ_cons,
        parseTcpTarget, fromBe16_be16 fits]
      rw [if_pos]
      simp only [List.length_cons, List.length_take]
      omega

/-- A header that lost its tail is not taken for what was opened. The first
byte of a short target alone is the UDP sentinel. -/
theorem modeOf_cut (opening : Opening) {cut : Nat} (short : cut < opening.header.length)
    (payload : Option Bytes) : modeOf (opening.header.take cut) ≠ some (opening.mode, payload) := by
  cases opening with
  | tcp target =>
      obtain ⟨e, failed⟩ := parseTcpTarget_cut target (by
        simpa [Opening.header, Nat.add_comm] using short)
      rw [modeOf]
      split
      · intro same
        cases same
      · split
        · intro same
          cases same
        · rw [failed]
          intro same
          cases same
  | udp =>
      obtain rfl : cut = 0 := by simpa [Opening.header] using short
      intro same
      cases same
  | mux =>
      obtain rfl : cut = 0 := by simpa [Opening.header] using short
      intro same
      cases same

theorem modeOf_header (opening : Opening) : modeOf opening.header = some (opening.mode, none) := by
  cases opening with
  | udp => rfl
  | mux => rfl
  | tcp target =>
      have fits : (utf8 target.name).length < 2 ^ 16 := Nat.lt_of_le_of_lt target.short (by decide)
      have long : (utf8 target.name).length ≠ 0 := by
        simpa using target.nonempty
      have whole : parseTcpTarget (Opening.tcp target).header = .ok (target.name, none) := by
        have size : 1 + (1 + (utf8 target.name).length) = 2 + (utf8 target.name).length := by omega
        simp [Opening.header, be16, parseTcpTarget, fromBe16_be16 fits, Nat.add_comm, size]
      have notSentinel : ∀ b : UInt8, (Opening.tcp target).header ≠ [b] := by
        intro b same
        have := congrArg List.length same
        simp only [Opening.header, List.length_append, be16_length, List.length_singleton] at this
        omega
      simp only [modeOf, if_neg (notSentinel _), whole, Opening.mode]

/-- What is left of a CIPHER_NEGO frame is no other frame. -/
theorem nego_cut (aes : Bool) {cut : Nat} (short : cut < (buildCipherNego aes).length) :
    parseCipherNego ((buildCipherNego aes).take cut) = none ∧
      parseFrame ((buildCipherNego aes).take cut) = none ∧
      modeOf ((buildCipherNego aes).take cut) = none := by
  rw [buildCipherNego] at short ⊢
  match cut with
  | 0 | 1 | 2 => exact ⟨rfl, rfl, rfl⟩
  | cut + 3 =>
      simp only [List.length_cons, List.length_nil] at short
      omega

theorem ack_cut (final : Cipher) {cut : Nat} (short : cut < (buildCipherAck final).length) :
    parseCipherAck ((buildCipherAck final).take cut) = none := by
  rw [buildCipherAck] at short ⊢
  cases cut with
  | zero => rfl
  | succ cut =>
      cases cut with
      | zero => rfl
      | succ cut =>
          simp only [List.length_cons, List.length_nil] at short
          omega

theorem time_sync_cut (cipherAgility : Bool) (now : Nat) {cut : Nat}
    (short : cut < (timeSyncFrame cipherAgility now).length) :
    processTimeSyncFrame ((timeSyncFrame cipherAgility now).take cut) = none := by
  have size : (timeSyncFrame cipherAgility now).length = 10 := by simp [timeSyncFrame, be64]
  cases read : (timeSyncFrame cipherAgility now).take cut with
  | nil => rfl
  | cons kind rest =>
      cases rest with
      | nil => rfl
      | cons version clock =>
          have length := congrArg List.length read
          rw [List.length_take, size] at length
          rw [processTimeSyncFrame, if_neg]
          intro accepted
          omega

@[simp] theorem processTimeSyncFrame_build (cipherAgility : Bool) (now : Nat) :
    processTimeSyncFrame (timeSyncFrame cipherAgility now) = some cipherAgility := by
  cases cipherAgility <;>
    simp [processTimeSyncFrame, timeSyncFrame, be64, protoVerLegacy, protoVerAgility]

theorem parseFrame_own : parseFrame (buildFrame ownVersion) = some ownVersion := by
  decide

/-- The rest of a version is no mode, wherever the frame was cut. -/
theorem info_cut {cut : Nat} (short : cut < (buildFrame ownVersion).length) (next : Nat) :
    (parseFrame ((buildFrame ownVersion).take cut) = none →
        modeOf ((buildFrame ownVersion).take cut) = none) ∧
      modeOf (((buildFrame ownVersion).drop cut).take next) = none := by
  have size : (buildFrame ownVersion).length = 7 := by decide
  have small : ∀ cut < 7, ∀ next ≤ 7,
      (parseFrame ((buildFrame ownVersion).take cut) = none →
          modeOf ((buildFrame ownVersion).take cut) = none) ∧
        modeOf (((buildFrame ownVersion).drop cut).take next) = none := by decide
  rw [size] at short
  rcases Nat.le_total next 7 with within | beyond
  · exact small cut short next within
  · obtain ⟨first, rest⟩ := small cut short 7 (Nat.le_refl 7)
    refine ⟨first, ?_⟩
    rw [List.take_of_length_le (by rw [List.length_drop, size]; omega)] at rest ⊢
    exact rest

end Chunks

section Moves
variable {Left Right : Type} {writer : CryptoWriter crate} {reader : CryptoReader crate}

theorem left_sendFrame (frame : Bytes) (ok : CryptoWriter crate → Program Bytes Left)
    (fail : Program Bytes Left) (right : Program Bytes Right) (toLeft toRight : List Bytes) :
    ∃ n next, Runs Step n ⟨sendFrame writer frame ok fail, right, toLeft, toRight⟩
      ⟨next, right, toLeft, toRight ++ (writer.sendData frame).1⟩ :=
  ⟨_, _, left_sends _ _ _ _ _⟩

theorem right_sendFrame (frame : Bytes) (left : Program Bytes Left)
    (ok : CryptoWriter crate → Program Bytes Right) (fail : Program Bytes Right)
    (toLeft toRight : List Bytes) :
    ∃ n next, Runs Step n ⟨left, sendFrame writer frame ok fail, toLeft, toRight⟩
      ⟨left, next, toLeft ++ (writer.sendData frame).1, toRight⟩ :=
  ⟨_, _, right_sends _ _ _ _ _⟩

theorem sendData_whole {frame : Bytes} (nonempty : frame ≠ [])
    (fits : frame.length ≤ writer.shape.capacity) (left : writer.nonce < maxU64) :
    writer.sendData frame = ([writer.record frame], some writer.advance) := by
  rw [CryptoWriter.sendData_record nonempty left, List.take_of_length_le fits,
    List.drop_eq_nil_of_le fits, CryptoWriter.sendData_nil]

theorem left_sendWhole {frame : Bytes} (nonempty : frame ≠ [])
    (fits : frame.length ≤ writer.shape.capacity) (left : writer.nonce < maxU64)
    (ok : CryptoWriter crate → Program Bytes Left) (fail : Program Bytes Left)
    (right : Program Bytes Right) (toLeft toRight : List Bytes) :
    Runs Step 1 ⟨sendFrame writer frame ok fail, right, toLeft, toRight⟩
      ⟨ok writer.advance, right, toLeft, toRight ++ [writer.record frame]⟩ := by
  rw [sendFrame, sendData_whole nonempty fits left]
  exact left_sends [writer.record frame] _ _ _ _

theorem right_sendWhole {frame : Bytes} (nonempty : frame ≠ [])
    (fits : frame.length ≤ writer.shape.capacity) (unspent : writer.nonce < maxU64)
    (left : Program Bytes Left) (ok : CryptoWriter crate → Program Bytes Right)
    (fail : Program Bytes Right) (toLeft toRight : List Bytes) :
    Runs Step 1 ⟨left, sendFrame writer frame ok fail, toLeft, toRight⟩
      ⟨left, ok writer.advance, toLeft ++ [writer.record frame], toRight⟩ := by
  rw [sendFrame, sendData_whole nonempty fits unspent]
  exact right_sends [writer.record frame] _ _ _ _

theorem recv_record (paired : Paired writer reader) (left : writer.nonce < maxU64) {data : Bytes}
    (fits : data.length ≤ writer.shape.capacity) {Out : Type}
    (ok : Bytes → CryptoReader crate → Program Bytes Out) (fail : Program Bytes Out) :
    ∃ next, recv reader ok fail = .receive next ∧
      next (some (writer.record data)) = ok data { reader with nonce := reader.nonce + 1 } := by
  refine ⟨_, rfl, ?_⟩
  have received := recvData_record paired left fits []
  rw [List.append_nil] at received
  simp only [received]

theorem left_recv (paired : Paired writer reader) (unspent : writer.nonce < maxU64) {data : Bytes}
    (fits : data.length ≤ writer.shape.capacity)
    (ok : Bytes → CryptoReader crate → Program Bytes Left) (fail : Program Bytes Left)
    (right : Program Bytes Right) (toLeft toRight : List Bytes) :
    Runs Step 1 ⟨recv reader ok fail, right, writer.record data :: toLeft, toRight⟩
      ⟨ok data { reader with nonce := reader.nonce + 1 }, right, toLeft, toRight⟩ := by
  obtain ⟨next, program, result⟩ := recv_record paired unspent fits ok fail
  rw [program, ← result]
  exact left_receives

theorem left_recv_to (paired : Paired writer reader) (unspent : writer.nonce < maxU64)
    {data : Bytes} (fits : data.length ≤ writer.shape.capacity)
    {ok : Bytes → CryptoReader crate → Program Bytes Left} {fail next : Program Bytes Left}
    (goes : ok data { reader with nonce := reader.nonce + 1 } = next)
    {right : Program Bytes Right} {toLeft toRight : List Bytes} :
    Runs Step 1 ⟨recv reader ok fail, right, writer.record data :: toLeft, toRight⟩
      ⟨next, right, toLeft, toRight⟩ :=
  goes ▸ left_recv paired unspent fits ok fail right toLeft toRight

theorem right_recv (paired : Paired writer reader) (unspent : writer.nonce < maxU64) {data : Bytes}
    (fits : data.length ≤ writer.shape.capacity) (left : Program Bytes Left)
    (ok : Bytes → CryptoReader crate → Program Bytes Right) (fail : Program Bytes Right)
    (toLeft toRight : List Bytes) :
    Runs Step 1 ⟨left, recv reader ok fail, toLeft, writer.record data :: toRight⟩
      ⟨left, ok data { reader with nonce := reader.nonce + 1 }, toLeft, toRight⟩ := by
  obtain ⟨next, program, result⟩ := recv_record paired unspent fits ok fail
  rw [program, ← result]
  exact right_receives

end Moves

section Payload

/-- What the next records can hold. -/
def CryptoWriter.room (self : CryptoWriter crate) : Nat → Nat
  | 0 => 0
  | n + 1 => self.shape.capacity + self.advance.room n

theorem sendData_isSome_iff (writer : CryptoWriter crate) (plaintext : Bytes) :
    (writer.sendData plaintext).2.isSome = true ↔
      plaintext.length ≤ writer.room (maxU64 - writer.nonce) := by
  induction writer, plaintext using CryptoWriter.sendData.induct with
  | case1 writer => simp
  | case2 writer plaintext nonempty spent =>
      have positive := List.length_pos_iff.mpr nonempty
      rw [CryptoWriter.sendData_spent nonempty spent, Nat.sub_eq_zero_of_le spent]
      simp [CryptoWriter.room, nonempty]
  | case3 writer plaintext nonempty unspent ih =>
      have left := Nat.not_le.mp unspent
      obtain ⟨records, more⟩ : ∃ records, maxU64 - writer.nonce = records + 1 :=
        ⟨maxU64 - writer.nonce - 1, by omega⟩
      have later : maxU64 - writer.advance.nonce = records := by
        rw [show writer.advance.nonce = writer.nonce + 1 from rfl]
        omega
      rw [later, List.length_drop] at ih
      rw [CryptoWriter.sendData_record nonempty left, more, CryptoWriter.room, ih]
      omega

theorem sendData_cipherKind {writer next : CryptoWriter crate} {plaintext : Bytes}
    (sent : (writer.sendData plaintext).2 = some next) : next.cipherKind = writer.cipherKind := by
  induction writer, plaintext using CryptoWriter.sendData.induct with
  | case1 writer =>
      rw [CryptoWriter.sendData_nil] at sent
      cases sent
      rfl
  | case2 writer plaintext nonempty spent =>
      rw [CryptoWriter.sendData_spent nonempty spent] at sent
      cases sent
  | case3 writer plaintext nonempty unspent ih =>
      rw [CryptoWriter.sendData_record nonempty (Nat.not_le.mp unspent)] at sent
      exact ih sent

end Payload

section Agreement

/-- Both sides are ready to relay: mode and target have arrived, what the
server has and what is in flight is the payload, and once it is read the
ciphers, keys and counters of the two directions agree. -/
def Agreed (opening : Opening) (payload : Bytes)
    (config : Config Bytes (ClientEnd crate) (ServerEnd crate)) : Prop :=
  ∃ clientReader clientWriter serverReader serverWriter first contents last,
    config.left = .halt (.established clientReader clientWriter) ∧
    config.right = .halt (.dispatched opening.mode first serverReader serverWriter) ∧
    config.toLeft = [] ∧
    Delivers serverReader config.toRight contents last ∧
    first.getD [] ++ contents.flatten = payload ∧
    Paired clientWriter last ∧ Paired serverWriter clientReader ∧
    clientWriter.cipherKind = serverWriter.cipherKind

theorem not_agreed_of_misses {opening : Opening} {payload : Bytes}
    (config : Config Bytes (ClientEnd crate) (ServerEnd crate))
    (ends : config.right.Ends (Misses opening.mode)) : ¬ Agreed opening payload config := by
  rintro ⟨_, _, _, _, _, _, _, _, right, _⟩
  rw [right] at ends
  exact ends rfl

theorem not_agreed_of_fails {opening : Opening} {payload : Bytes}
    (config : Config Bytes (ClientEnd crate) (ServerEnd crate))
    (ends : config.left.Ends Fails) : ¬ Agreed opening payload config := by
  rintro ⟨_, _, _, _, _, _, _, left, _⟩
  rw [left] at ends
  exact ends

/-- The two ends of both directions, on one cipher. -/
structure Lines (clientReader : CryptoReader crate) (clientWriter : CryptoWriter crate)
    (serverReader : CryptoReader crate) (serverWriter : CryptoWriter crate) : Prop where
  up : Paired clientWriter serverReader
  down : Paired serverWriter clientReader
  cipher : clientWriter.cipherKind = serverWriter.cipherKind

variable {client : Client} {server : Server} {clientReader serverReader : CryptoReader crate}
  {clientWriter serverWriter : CryptoWriter crate}

/-- The header fits, the server admits its mode, and the nonce lasts for the
payload. -/
def Opens (client : Client) (server : Server) (writer : CryptoWriter crate) : Prop :=
  client.opening.header.length ≤ writer.shape.capacity ∧
    server.Admits client.opening.mode ∧
    client.payload.length ≤ writer.advance.room (maxU64 - writer.advance.nonce)

theorem capacity_take (writer : CryptoWriter crate) (data : Bytes) :
    (data.take writer.shape.capacity).length ≤ writer.shape.capacity := by
  rw [List.length_take]
  exact Nat.min_le_left _ _

theorem open_agrees_iff (lines : Lines clientReader clientWriter serverReader serverWriter)
    (unspent : clientWriter.nonce < maxU64) :
    Always Step
        ⟨client.openStream clientReader clientWriter,
          recv serverReader (fun chunk next => server.dispatch next serverWriter chunk)
            (.halt .closed), [], []⟩
        (Agreed client.opening client.payload) ↔ Opens client server clientWriter := by
  by_cases fits : client.opening.header.length ≤ clientWriter.shape.capacity
  case neg =>
    -- The server takes the first piece for the whole header.
    refine iff_of_false ?_ fun opens => fits opens.1
    obtain ⟨n, rest, sent⟩ := left_sendFrame client.opening.header _ _ _ [] []
    rw [Client.openStream, always_run step_commutes sent, List.nil_append,
      CryptoWriter.sendData_record client.opening.header_ne_nil unspent,
      always_run step_commutes
        (right_recv lines.up unspent (capacity_take _ _) _ _ _ _ _)]
    exact not_always_right
      (dispatch_misses fun payload => modeOf_cut _ (Nat.not_le.mp fits) payload)
      not_agreed_of_misses
  case pos =>
    rw [Client.openStream, always_run step_commutes
        (left_sendWhole client.opening.header_ne_nil fits unspent _ _ _ _ _),
      List.nil_append,
      always_run step_commutes (right_recv lines.up unspent fits _ _ _ _ _)]
    by_cases admits : server.Admits client.opening.mode
    case neg =>
      refine iff_of_false ?_ fun opens => admits opens.2.1
      exact not_always_right (dispatch_refused (modeOf_header _) admits) not_agreed_of_misses
    case pos =>
      have sent := sendData_isSome_iff clientWriter.advance client.payload
      obtain ⟨contents, last, outcome⟩ := sendData_sent lines.up.advance client.payload
      rw [dispatch_admitted (modeOf_header _) admits, sendFrame,
        always_run step_commutes (left_sends _ _ _ _ _)]
      cases result : (clientWriter.advance.sendData client.payload).2 with
      | none =>
          refine iff_of_false ?_ fun opens => ?_
          · exact not_always_left (show Program.Ends Fails _ from trivial) not_agreed_of_fails
          · rw [result] at sent
            exact absurd (sent.mpr opens.2.2) (by simp)
      | some final =>
          rw [result] at outcome sent
          obtain ⟨all, paired, _⟩ := outcome.complete final rfl
          refine iff_of_true ?_ ⟨fits, admits, sent.mp rfl⟩
          rw [always_terminal step_commutes terminal_of_halted]
          refine ⟨_, _, _, _, none, contents, last, rfl, rfl, rfl, ?_, ?_, paired, lines.down, ?_⟩
          · exact outcome.delivered
          · exact all
          · rw [sendData_cipherKind result]
            exact lines.cipher

/-- The conditions from the client's version on. -/
def Identifies (client : Client) (server : Server) (writer : CryptoWriter crate) : Prop :=
  if client.clientInfo then
    (buildFrame ownVersion).length ≤ writer.shape.capacity ∧ Opens client server writer.advance
  else Opens client server writer

theorem identify_agrees_iff (lines : Lines clientReader clientWriter serverReader serverWriter)
    (unspent : clientWriter.nonce + 1 < maxU64) (shared : client.clientInfo = server.clientInfo) :
    Always Step
        ⟨client.sayVersion clientReader clientWriter,
          recv serverReader (fun chunk next => server.identifyClient next serverWriter chunk)
            (.halt .closed), [], []⟩
        (Agreed client.opening client.payload) ↔ Identifies client server clientWriter := by
  have left : clientWriter.nonce < maxU64 := Nat.lt_of_succ_lt unspent
  have frame : buildFrame ownVersion ≠ [] := by simp [buildFrame]
  cases enabled : client.clientInfo with
  | false =>
      rw [enabled] at shared
      simp only [Client.sayVersion, Server.identifyClient, Identifies, enabled, ← shared,
        Bool.false_eq_true, if_false]
      exact open_agrees_iff lines left
  | true =>
      rw [enabled] at shared
      simp only [Client.sayVersion, Server.identifyClient, Identifies, enabled, ← shared, if_true]
      by_cases fits : (buildFrame ownVersion).length ≤ clientWriter.shape.capacity
      case pos =>
        rw [always_run step_commutes (left_sendWhole frame fits left _ _ _ _ _), List.nil_append,
          always_run step_commutes (right_recv lines.up left fits _ _ _ _ _), parseFrame_own,
          and_iff_right fits]
        exact open_agrees_iff ⟨lines.up.advance, lines.down, lines.cipher⟩ unspent
      case neg =>
        have cut := info_cut (Nat.not_le.mp fits)
        have more : (buildFrame ownVersion).drop clientWriter.shape.capacity ≠ [] := by
          rw [ne_eq, List.drop_eq_nil_iff]
          exact fits
        refine iff_of_false ?_ fun identifies => fits identifies.1
        obtain ⟨n, rest, sent⟩ := left_sendFrame (buildFrame ownVersion) _ _ _ [] []
        rw [always_run step_commutes sent, List.nil_append,
          CryptoWriter.sendData_record frame left, CryptoWriter.sendData_record more unspent,
          always_run step_commutes (right_recv lines.up left (capacity_take _ _) _ _ _ _ _)]
        cases parsed : parseFrame ((buildFrame ownVersion).take clientWriter.shape.capacity) with
        | none =>
            have unread := (cut 0).1 parsed
            exact not_always_right
              (dispatch_misses fun payload => by rw [unread]; exact Option.some_ne_none _ |>.symm)
              not_agreed_of_misses
        | some version =>
            -- A piece of the version is taken for all of it, and the rest for a header.
            have unread := (cut clientWriter.advance.shape.capacity).2
            dsimp only
            rw [always_run step_commutes
              (right_recv lines.up.advance unspent (capacity_take _ _) _ _ _ _ _)]
            exact not_always_right
              (dispatch_misses fun payload => by rw [unread]; exact Option.some_ne_none _ |>.symm)
              not_agreed_of_misses

theorem rekeyBoth_eq {reader : CryptoReader crate} {writer : CryptoWriter crate}
    (same : reader.cipherKind = writer.cipherKind) (final : Cipher) :
    rekeyBoth reader writer final = (reader.rekey final, writer.rekey final) := by
  rw [rekeyBoth]
  split
  · rfl
  next unchanged =>
    have kept : final = writer.cipherKind := not_not.mp unchanged
    rw [CryptoReader.rekey, CryptoWriter.rekey, if_pos (Or.inl (kept.trans same.symm)),
      if_pos (Or.inl kept)]

theorem rekey_cipherKind {first second : CryptoWriter crate}
    (same : first.cipherKind = second.cipherKind) (final : Cipher) :
    (first.rekey final).cipherKind = (second.rekey final).cipherKind := by
  rw [CryptoWriter.rekey, CryptoWriter.rekey, same]
  split
  · exact same
  · rfl

theorem rekey_nonce_le (writer : CryptoWriter crate) (final : Cipher) :
    (writer.rekey final).nonce ≤ writer.nonce := by
  rw [CryptoWriter.rekey]
  split
  · exact Nat.le_refl _
  · exact Nat.zero_le _

theorem Lines.rekey (lines : Lines clientReader clientWriter serverReader serverWriter)
    (final : Cipher) :
    Lines (clientReader.rekey final) (clientWriter.rekey final) (serverReader.rekey final)
      (serverWriter.rekey final) :=
  ⟨lines.up.rekey final, lines.down.rekey final, rekey_cipherKind lines.cipher final⟩

/-- The conditions from the offer of a cipher on. -/
def Negotiates (client : Client) (server : Server) (clientWriter serverWriter : CryptoWriter crate) :
    Prop :=
  if server.cipherAgility then
    let final := negotiate client.supportsAes server.supportsAes
    (buildCipherNego client.supportsAes).length ≤ clientWriter.shape.capacity ∧
      (buildCipherAck final).length ≤ serverWriter.shape.capacity ∧
      Identifies client server (clientWriter.advance.rekey final)
  else Identifies client server clientWriter

theorem negotiate_agrees_iff (lines : Lines clientReader clientWriter serverReader serverWriter)
    (unspent : clientWriter.nonce + 2 < maxU64) (serverUnspent : serverWriter.nonce < maxU64)
    (shared : client.clientInfo = server.clientInfo) :
    Always Step
        ⟨client.offerCipher server.cipherAgility clientReader clientWriter,
          recv serverReader (fun chunk next => server.acceptCipher next serverWriter chunk)
            (.halt .closed), [], []⟩
        (Agreed client.opening client.payload) ↔
      Negotiates client server clientWriter serverWriter := by
  have left : clientWriter.nonce < maxU64 := by omega
  cases agility : server.cipherAgility with
  | false =>
      simp only [Client.offerCipher, Server.acceptCipher, Negotiates, agility, Bool.false_eq_true,
        if_false]
      exact identify_agrees_iff lines (Nat.lt_of_succ_lt unspent) shared
  | true =>
      simp only [Client.offerCipher, Server.acceptCipher, Negotiates, agility, if_true]
      by_cases fits : (buildCipherNego client.supportsAes).length ≤ clientWriter.shape.capacity
      case neg =>
        -- What the server gets is neither an offer, nor a version, nor a header.
        obtain ⟨noNego, noFrame, noMode⟩ := nego_cut client.supportsAes (Nat.not_le.mp fits)
        refine iff_of_false ?_ fun negotiates => fits negotiates.1
        obtain ⟨n, rest, sent⟩ := left_sendFrame (buildCipherNego client.supportsAes) _ _ _ [] []
        rw [always_run step_commutes sent, List.nil_append,
          CryptoWriter.sendData_record (by simp [buildCipherNego]) left,
          always_run step_commutes (right_recv lines.up left (capacity_take _ _) _ _ _ _ _), noNego]
        refine not_always_right ?_ not_agreed_of_misses
        simp only [Server.identifyClient, noFrame, ite_self]
        exact dispatch_misses fun payload => by rw [noMode]; exact (Option.some_ne_none _).symm
      case pos =>
        rw [always_run step_commutes
            (left_sendWhole (by simp [buildCipherNego]) fits left _ _ _ _ _),
          List.nil_append,
          always_run step_commutes (right_recv lines.up left fits _ _ _ _ _), parseCipherNego_build,
          and_iff_right fits]
        dsimp only
        by_cases acked : (buildCipherAck
            (negotiate client.supportsAes server.supportsAes)).length ≤ serverWriter.shape.capacity
        case neg =>
          refine iff_of_false ?_ fun negotiates => acked negotiates.1
          obtain ⟨n, rest, sent⟩ := right_sendFrame
            (buildCipherAck (negotiate client.supportsAes server.supportsAes)) _ _ _ [] []
          rw [always_run step_commutes sent, List.nil_append,
            CryptoWriter.sendData_record (by simp [buildCipherAck]) serverUnspent,
            always_run step_commutes
              (left_recv lines.down serverUnspent (capacity_take _ _) _ _ _ _ _),
            ack_cut _ (Nat.not_le.mp acked)]
          exact not_always_left (show Program.Ends Fails _ from trivial) not_agreed_of_fails
        case pos =>
          rw [always_run step_commutes
              (right_sendWhole (by simp [buildCipherAck]) acked serverUnspent _ _ _ _ _),
            List.nil_append,
            always_run step_commutes (left_recv lines.down serverUnspent acked _ _ _ _ _),
            parseCipherAck_build, and_iff_right acked]
          have moved : Lines { clientReader with nonce := clientReader.nonce + 1 }
              clientWriter.advance { serverReader with nonce := serverReader.nonce + 1 }
              serverWriter.advance := ⟨lines.up.advance, lines.down.advance, lines.cipher⟩
          dsimp only
          rw [rekeyBoth_eq (moved.down.cipherKind.trans moved.cipher.symm),
            rekeyBoth_eq (moved.up.cipherKind.trans moved.cipher)]
          have spent := rekey_nonce_le clientWriter.advance
            (negotiate client.supportsAes server.supportsAes)
          rw [show clientWriter.advance.nonce = clientWriter.nonce + 1 from rfl] at spent
          have room : (clientWriter.advance.rekey
              (negotiate client.supportsAes server.supportsAes)).nonce + 1 < maxU64 := by omega
          exact identify_agrees_iff (moved.rekey _) room shared

end Agreement

section Whole

/-- One connection: what both sides know, their settings and their draws. -/
structure Setup (crate : AeadCrate) where
  master : Bytes
  client : Client
  server : Server
  shared : client.clientInfo = server.clientInfo
  clientRng : Nat → Nat
  clientPadding : Bool
  clientScheme : PaddingScheme
  serverRng : Nat → Nat
  serverPadding : Bool
  serverScheme : PaddingScheme

namespace Setup

def clientWriter (setup : Setup crate) : CryptoWriter crate :=
  .new crate setup.master true setup.clientRng setup.clientPadding setup.clientScheme

def serverWriter (setup : Setup crate) : CryptoWriter crate :=
  .new crate setup.master false setup.serverRng setup.serverPadding setup.serverScheme

def start (setup : Setup crate) : Config Bytes (ClientEnd crate) (ServerEnd crate) where
  left := setup.client.connectUpstream (.new crate setup.master true) setup.clientWriter
  right := setup.server.dispatchAuthenticated (.new crate setup.master false) setup.serverWriter
  toLeft := []
  toRight := []

/-- Every frame fits in the record that its writer makes for it, the server
admits the mode, and the nonce lasts for the payload. -/
def Uncut (setup : Setup crate) : Prop :=
  (timeSyncFrame setup.server.cipherAgility setup.server.now).length ≤
      setup.serverWriter.shape.capacity ∧
    Negotiates setup.client setup.server setup.clientWriter setup.serverWriter.advance

section Start
variable (setup : Setup crate)

theorem up : Paired setup.clientWriter (.new crate setup.master false) :=
  new_paired crate setup.master true _ _ _

theorem down : Paired setup.serverWriter (.new crate setup.master true) :=
  new_paired crate setup.master false _ _ _

theorem unspent : setup.serverWriter.nonce < maxU64 := show 0 < maxU64 by decide

theorem timeSync_ne_nil : timeSyncFrame setup.server.cipherAgility setup.server.now ≠ [] := by
  simp [timeSyncFrame]

/-- The client has the server's time, and offers a cipher next. -/
def synced : Config Bytes (ClientEnd crate) (ServerEnd crate) where
  left := setup.client.offerCipher setup.server.cipherAgility
    { CryptoReader.new crate setup.master true with nonce := 1 } setup.clientWriter
  right := recv (.new crate setup.master false)
    (fun chunk next => setup.server.acceptCipher next setup.serverWriter.advance chunk)
    (.halt .closed)
  toLeft := []
  toRight := []

theorem start_synced
    (fits : (timeSyncFrame setup.server.cipherAgility setup.server.now).length ≤
      setup.serverWriter.shape.capacity) : Runs Step (1 + 1) setup.start setup.synced := by
  have sent := right_sendWhole setup.timeSync_ne_nil fits setup.unspent
    (setup.client.connectUpstream (.new crate setup.master true) setup.clientWriter)
    (fun writer => recv (.new crate setup.master false)
      (fun chunk next => setup.server.acceptCipher next writer chunk) (.halt .closed))
    (.halt .closed) [] []
  refine sent.trans ?_
  rw [List.nil_append, Client.connectUpstream]
  apply left_recv_to setup.down setup.unspent fits
  simp only [processTimeSyncFrame_build]
  rfl

theorem synced_agrees_iff :
    Always Step setup.synced (Agreed setup.client.opening setup.client.payload) ↔
      Negotiates setup.client setup.server setup.clientWriter setup.serverWriter.advance :=
  negotiate_agrees_iff ⟨setup.up, setup.down.advance, rfl⟩ (show 0 + 2 < maxU64 by decide)
    (show 0 + 1 < maxU64 by decide) setup.shared

end Start

/-- In every schedule the two sides agree, if and only if no frame is cut. -/
theorem setup_agrees_iff (setup : Setup crate) :
    Always Step setup.start (Agreed setup.client.opening setup.client.payload) ↔ setup.Uncut := by
  by_cases fits : (timeSyncFrame setup.server.cipherAgility setup.server.now).length ≤
      setup.serverWriter.shape.capacity
  case pos =>
    rw [always_run step_commutes (setup.start_synced fits), synced_agrees_iff, Uncut,
      and_iff_right fits]
  case neg =>
    -- The client has a piece of the frame, and gives up.
    refine iff_of_false ?_ fun uncut => fits uncut.1
    obtain ⟨n, rest, sent⟩ := right_sendFrame
      (timeSyncFrame setup.server.cipherAgility setup.server.now) _ _ _ [] []
    rw [start, Client.connectUpstream, Server.dispatchAuthenticated,
      always_run step_commutes sent, List.nil_append,
      CryptoWriter.sendData_record setup.timeSync_ne_nil setup.unspent,
      always_run step_commutes
        (left_recv setup.down setup.unspent (capacity_take _ _) _ _ _ _ _),
      time_sync_cut _ _ (Nat.not_le.mp fits)]
    exact not_always_left (show Program.Ends Fails _ from trivial) not_agreed_of_fails

/-- The default padding scheme, a target of 66 bytes, and a first draw of the
smallest record. -/
def longTarget : Setup plainCrate where
  master := []
  client := {
    supportsAes := false
    clientInfo := false
    opening := .tcp
      ⟨"orders-api.checkout.eu-west-3.production.internal.example.org:8443", by decide, by decide⟩
    payload := [] }
  server := {
    cipherAgility := false
    supportsAes := false
    clientInfo := false
    blockUdp := false
    now := 1700000000
    credRevoked := false
    user := "default"
    hasLimit := false }
  shared := rfl
  clientRng := fun _ => 0
  clientPadding := true
  clientScheme := defaultPadScheme
  serverRng := fun _ => 0
  serverPadding := false
  serverScheme := defaultPadScheme

theorem long_target_cut :
    ¬ Always Step longTarget.start (Agreed longTarget.client.opening longTarget.client.payload) := by
  rw [always_run step_commutes (longTarget.start_synced (by decide)), synced_agrees_iff]
  intro negotiates
  have fits : longTarget.client.opening.header.length ≤ longTarget.clientWriter.shape.capacity :=
    negotiates.1
  exact absurd fits (by decide)

end Setup

end Whole

end Mirage.Tunnel
