import Mathlib.Data.List.Basic

/-!
What is known of a TCP socket of smoltcp: its states, what the segments of the peer
do to them, and its calls. The library itself is a parameter, and `Documented` what
it promises. What a peer has done to a socket is kept in a ledger beside it.
-/

namespace Mirage.Wg

inductive TcpState where
  | closed
  | listen
  | synSent
  | synReceived
  | established
  | finWait1
  | finWait2
  | closeWait
  | closing
  | lastAck
  | timeWait
  deriving DecidableEq

/-- What a segment does that is processed. One that does several things is several
signals; the last is the end of TIME-WAIT. -/
inductive Signal where
  | syn
  | synAck
  | ack
  | data (bytes : List UInt8)
  | fin
  | rst
  | expired
  deriving DecidableEq

namespace TcpState

/-- The receiving half of the connection is open. -/
def receives : TcpState → Bool
  | .established | .finWait1 | .finWait2 => true
  | _ => false

/-- The sending half of the connection is open. -/
def sends : TcpState → Bool
  | .established | .closeWait => true
  | _ => false

def synchronised : TcpState → Bool
  | .closed | .listen | .synSent | .synReceived => false
  | _ => true

/-- The states a signal may lead to. There is more than one where it matters what
has been acknowledged. -/
def after (state : TcpState) : Signal → List TcpState
  | .syn => match state with
    | .listen | .synSent => [.synReceived]
    | _ => [state]
  | .synAck => match state with
    | .synSent => [.established]
    | _ => [state]
  | .ack => match state with
    | .synReceived => [.established]
    | .finWait1 => [.finWait1, .finWait2]
    | .closing => [.closing, .timeWait]
    | .lastAck => [.lastAck, .closed]
    | _ => [state]
  | .data _ => [state]
  | .fin => match state with
    | .synReceived | .established => [.closeWait]
    | .finWait1 => [.closing, .timeWait]
    | .finWait2 => [.timeWait]
    | _ => [state]
  | .rst => match state with
    | .listen => [.listen]
    | .synReceived => [.listen, .closed]
    | _ => [.closed]
  | .expired => match state with
    | .timeWait => [.closed]
    | _ => [state]

def afterClose : TcpState → TcpState
  | .listen | .synSent => .closed
  | .synReceived | .established => .finWait1
  | .closeWait => .lastAck
  | state => state

/-- What the receive buffer takes in. -/
def accepted (state : TcpState) : Signal → List UInt8
  | .data bytes => if state.receives then bytes else []
  | _ => []

end TcpState

/-- The calls of a socket. Errors are given by their debug texts, and `buffered` is
what the receive buffer holds. -/
structure Smoltcp (Socket Address : Type) where
  new : Nat → Nat → Socket
  connect : Socket → Address → UInt16 → Except String Socket
  state : Socket → TcpState
  buffered : Socket → List UInt8
  canRecv : Socket → Bool
  mayRecv : Socket → Bool
  canSend : Socket → Bool
  maySend : Socket → Bool
  recvSlice : Socket → Nat → Except String (List UInt8 × Socket)
  sendSlice : Socket → List UInt8 → Except String (Nat × Socket)
  registerRecvWaker : Socket → Socket
  registerSendWaker : Socket → Socket
  close : Socket → Socket
  abort : Socket → Socket
  process : Socket → Signal → Socket

namespace Smoltcp
variable {Socket Address : Type}

structure Documented (tcp : Smoltcp Socket Address) : Prop where
  connect : ∀ {rx tx remote port socket}, tcp.connect (tcp.new rx tx) remote port = .ok socket →
    tcp.state socket = .synSent ∧ tcp.buffered socket = []
  process : ∀ socket signal,
    tcp.state (tcp.process socket signal) ∈ (tcp.state socket).after signal ∧
    tcp.buffered (tcp.process socket signal) =
      tcp.buffered socket ++ (tcp.state socket).accepted signal
  mayRecv : ∀ socket, tcp.mayRecv socket = true ↔
    (tcp.state socket).receives = true ∨ tcp.buffered socket ≠ []
  canRecv : ∀ socket, tcp.canRecv socket = true ↔ tcp.buffered socket ≠ []
  recvSlice : ∀ socket room, tcp.mayRecv socket = true → ∃ next,
    tcp.recvSlice socket room = .ok ((tcp.buffered socket).take room, next) ∧
    tcp.state next = tcp.state socket ∧ tcp.buffered next = (tcp.buffered socket).drop room
  sendSlice : ∀ {socket data n next}, tcp.sendSlice socket data = .ok (n, next) →
    tcp.state next = tcp.state socket ∧ tcp.buffered next = tcp.buffered socket
  recvWaker : ∀ socket, tcp.state (tcp.registerRecvWaker socket) = tcp.state socket ∧
    tcp.buffered (tcp.registerRecvWaker socket) = tcp.buffered socket
  sendWaker : ∀ socket, tcp.state (tcp.registerSendWaker socket) = tcp.state socket ∧
    tcp.buffered (tcp.registerSendWaker socket) = tcp.buffered socket
  close : ∀ socket, tcp.state (tcp.close socket) = (tcp.state socket).afterClose ∧
    tcp.buffered (tcp.close socket) = tcp.buffered socket
  abort : ∀ socket, tcp.state (tcp.abort socket) = .closed ∧
    tcp.buffered (tcp.abort socket) = tcp.buffered socket

end Smoltcp

/-- What has happened to a connection: the handshake, the peer's FIN, a reset by the
peer after the handshake, an abort on this side, what the peer has sent in order and
what of it was read. -/
structure Ledger where
  opened : Bool
  finished : Bool
  reset : Bool
  aborted : Bool
  sent : List UInt8
  read : List UInt8
  deriving DecidableEq

namespace Ledger

def empty : Ledger := ⟨false, false, false, false, [], []⟩

def process (ledger : Ledger) (before : TcpState) (signal : Signal) (after : TcpState) : Ledger :=
  { ledger with
    opened := ledger.opened || after.synchronised
    finished := ledger.finished ||
      (decide (signal = .fin) && (before.receives || decide (before = .synReceived)))
    reset := ledger.reset || (decide (signal = .rst) && before.synchronised)
    sent := ledger.sent ++ before.accepted signal }

/-- The state of a socket says what the ledger says. -/
def Fits (ledger : Ledger) : TcpState → Prop
  | .listen | .synSent | .synReceived =>
      ledger.opened = false ∧ ledger.finished = false ∧ ledger.reset = false ∧
        ledger.aborted = false
  | .established | .finWait1 | .finWait2 =>
      ledger.opened = true ∧ ledger.finished = false ∧ ledger.reset = false ∧
        ledger.aborted = false
  | .closeWait | .closing | .lastAck | .timeWait =>
      ledger.opened = true ∧ ledger.finished = true ∧ ledger.reset = false ∧
        ledger.aborted = false
  | .closed => ledger.opened = true →
      ledger.finished = true ∨ ledger.reset = true ∨ ledger.aborted = true

/-- Nothing was done on this side since the connection was asked for. -/
def Untouched (ledger : Ledger) : TcpState → Prop
  | .listen | .synSent | .synReceived | .established | .closeWait => True
  | .closed => ledger.opened = true → ledger.reset = true
  | .finWait1 | .finWait2 | .closing | .lastAck | .timeWait => False

end Ledger

section Signals
variable {ledger : Ledger} {before after : TcpState} {signal : Signal}

/-- By cases on the state before and the signal, and on what was acknowledged. -/
theorem fits_process (fits : ledger.Fits before) (follows : after ∈ before.after signal) :
    (ledger.process before signal after).Fits after := by
  cases before <;> cases signal <;>
    simp only [TcpState.after, List.mem_cons, List.not_mem_nil, or_false] at follows <;>
    rcases follows with rfl | rfl <;>
    simp_all [Ledger.Fits, Ledger.process, TcpState.receives, TcpState.synchronised]

theorem untouched_process (fits : ledger.Fits before) (untouched : ledger.Untouched before)
    (follows : after ∈ before.after signal) :
    (ledger.process before signal after).Untouched after := by
  cases before <;> cases signal <;>
    simp only [TcpState.after, List.mem_cons, List.not_mem_nil, or_false] at follows <;>
    rcases follows with rfl | rfl <;>
    simp_all [Ledger.Fits, Ledger.Untouched, Ledger.process, TcpState.receives,
      TcpState.synchronised]

end Signals

end Mirage.Wg
