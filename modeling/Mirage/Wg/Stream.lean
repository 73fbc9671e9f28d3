import Mirage.Lib.Adapter
import Mirage.Wg.Ports
import Mirage.Wg.Smoltcp

/-!
A TCP stream over a WireGuard tunnel: a socket in the set that all streams of the
tunnel share, behind one lock. An event is one section under the lock; the polls of
the interface, also those a call makes when it has left its section, are events of
their own and bring what the peers have sent, in any order. A slot that has become
free is used again.
-/

namespace Mirage.Wg

namespace SocketSet
variable {α : Type}

/-- The handle that `add` gives. -/
def vacant : SocketSet α → Nat
  | [] => 0
  | none :: _ => 0
  | some _ :: rest => vacant rest + 1

def find (handle : Nat) (sockets : SocketSet α) : Option α := (sockets[handle]?).join

def put (handle : Nat) (socket : α) (sockets : SocketSet α) : SocketSet α :=
  sockets.set handle (some socket)

end SocketSet

namespace Stream
open Adapter

variable {Socket Address : Type}

def sockBuf : Nat := 64 * 1024

def connectTimeout : Nat := 15

inductive ErrorKind where
  | connectionReset
  | brokenPipe
  deriving DecidableEq

structure IoError where
  kind : ErrorKind
  text : Option String
  deriving DecidableEq

namespace WgTcpStream
variable (tcp : Smoltcp Socket Address)

def initiate (remote : Address) (localPort : UInt16) : Except String Socket :=
  (tcp.connect (tcp.new sockBuf sockBuf) remote localPort).mapError fun e =>
    "WireGuard: failed to initiate TCP connection: " ++ e

def waitConnected (sock : Socket) : Poll (Except String Unit) × Socket :=
  match tcp.state sock with
  | .established => (.ready (.ok ()), sock)
  | .closed => (.ready (.error "WireGuard: target rejected connection (TCP closed)"), sock)
  | _ => (.pending, tcp.registerSendWaker (tcp.registerRecvWaker sock))

/-- The wait under its timeout, which asks the wait once more when the time is up. -/
def connected [ToString Address] (remote : Address) (elapsed : Bool) (sock : Socket) :
    Poll (Except String Unit) × Socket :=
  match waitConnected tcp sock with
  | (.ready answer, sock) => (.ready answer, sock)
  | (.pending, sock) =>
      if elapsed then
        (.ready (.error ("WireGuard: connection to " ++ toString remote ++
          " through tunnel timed out (" ++ toString connectTimeout ++ "s)")), sock)
      else (.pending, sock)

/-- No bytes are the end of file, if there was room for any. -/
def pollRead (room : Nat) (sock : Socket) : Poll (Except IoError (List UInt8)) × Socket :=
  if tcp.canRecv sock then
    match tcp.recvSlice sock room with
    | .ok (bytes, next) => (.ready (.ok bytes), next)
    | .error e => (.ready (.error ⟨.connectionReset, some e⟩), sock)
  else if !tcp.mayRecv sock then (.ready (.ok []), sock)
  else (.pending, tcp.registerRecvWaker sock)

def received : Poll (Except IoError (List UInt8)) → List UInt8
  | .ready (.ok bytes) => bytes
  | _ => []

def pollWrite (data : List UInt8) (sock : Socket) : Poll (Except IoError Nat) × Socket :=
  if !tcp.maySend sock then (.ready (.error ⟨.brokenPipe, none⟩), sock)
  else if !tcp.canSend sock then (.pending, tcp.registerSendWaker sock)
  else
    match tcp.sendSlice sock data with
    | .ok (n, next) => (.ready (.ok n), next)
    | .error e => (.ready (.error ⟨.brokenPipe, some e⟩), sock)

end WgTcpStream

/-- A TCP socket in the set, with the call of connect that has added it and what has
happened on it; no code looks at these two. -/
structure Held (Socket : Type) where
  owner : Nat
  socket : Socket
  ledger : Ledger

inductive Entry (Socket : Type) where
  | tcp (held : Held Socket)
  | udp

def Entry.asTcp : Entry Socket → Option (Held Socket)
  | .tcp held => some held
  | .udp => none

/-- A stream that failed is one that connect is about to drop, with its error. -/
inductive Stage where
  | connecting
  | failed (error : String)
  | open
  | closing
  | gone
  deriving DecidableEq

structure WgTcpStream (Address : Type) where
  remote : Address
  handle : Nat
  alive : Bool
  stage : Stage
  refused : Option String

/-- The streams by the calls of connect they are from, and the calls whose sockets
have been removed. -/
structure Tunnel (Socket Address : Type) where
  sockets : SocketSet (Entry Socket)
  nextPort : UInt32
  streams : List (WgTcpStream Address)
  removed : List Nat
  panicked : Bool

inductive Event (Address : Type) where
  | connect (remote : Address)
  | waitConnected (index : Nat) (elapsed : Bool)
  | pollRead (index room : Nat)
  | pollWrite (index : Nat) (data : List UInt8)
  | pollShutdown (index : Nat)
  | abort (index : Nat)
  | dropClose (index : Nat)
  | dropRemove (index : Nat)
  | bindUdp
  | removeUdp (handle : Nat)
  | poll (signals : List (Nat × Signal))

namespace Tunnel

def start (port : UInt32) : Tunnel Socket Address := ⟨[], port, [], [], false⟩

def get (self : Tunnel Socket Address) (handle : Nat) : Option (Held Socket) :=
  (self.sockets.find handle).bind Entry.asTcp

/-- A handle that finds no socket of the kind makes the set panic. -/
def getMut (self : Tunnel Socket Address) (handle : Nat)
    (use : Held Socket → Tunnel Socket Address) : Tunnel Socket Address :=
  (self.get handle).elim { self with panicked := true } use

def put (self : Tunnel Socket Address) (handle : Nat) (held : Held Socket) :
    Tunnel Socket Address :=
  { self with sockets := self.sockets.put handle (.tcp held) }

def setStage (self : Tunnel Socket Address) (index : Nat) (stage : Stage) :
    Tunnel Socket Address :=
  { self with streams := self.streams.modify index fun stream => { stream with stage } }

variable (tcp : Smoltcp Socket Address)

/-- The first section of connect. A call whose socket does not take the address is
over at once, and is refused. -/
def connect (self : Tunnel Socket Address) (remote : Address) : Tunnel Socket Address :=
  let handle := self.sockets.vacant
  let index := self.streams.length
  let added := fun socket => self.sockets.add (.tcp ⟨index, socket, .empty⟩)
  match WgTcpStream.initiate tcp remote (portOf self.nextPort) with
  | .error error =>
      { self with
        sockets := (added (tcp.new sockBuf sockBuf)).remove handle
        nextPort := self.nextPort + 1
        streams := self.streams ++ [⟨remote, handle, false, .gone, some error⟩]
        removed := self.removed ++ [index] }
  | .ok sock =>
      { self with
        sockets := added sock
        nextPort := self.nextPort + 1
        streams := self.streams ++ [⟨remote, handle, true, .connecting, none⟩] }

def waitConnected [ToString Address] (self : Tunnel Socket Address) (index : Nat)
    (stream : WgTcpStream Address) (elapsed : Bool) : Tunnel Socket Address :=
  self.getMut stream.handle fun held =>
    let (answer, socket) := WgTcpStream.connected tcp stream.remote elapsed held.socket
    let self := self.put stream.handle { held with socket }
    match answer with
    | .ready (.ok _) => self.setStage index .open
    | .ready (.error error) => self.setStage index (.failed error)
    | .pending => self

def pollRead (self : Tunnel Socket Address) (stream : WgTcpStream Address) (room : Nat) :
    Tunnel Socket Address :=
  self.getMut stream.handle fun held =>
    let (answer, socket) := WgTcpStream.pollRead tcp room held.socket
    let read := held.ledger.read ++ WgTcpStream.received answer
    self.put stream.handle { held with socket, ledger := { held.ledger with read } }

def pollWrite (self : Tunnel Socket Address) (stream : WgTcpStream Address)
    (data : List UInt8) : Tunnel Socket Address :=
  self.getMut stream.handle fun held =>
    self.put stream.handle
      { held with socket := (WgTcpStream.pollWrite tcp data held.socket).2 }

def pollShutdown (self : Tunnel Socket Address) (stream : WgTcpStream Address) :
    Tunnel Socket Address :=
  self.getMut stream.handle fun held =>
    self.put stream.handle { held with socket := tcp.close held.socket }

/-- `WgStreamCloser::abort`, on any clone and at any time after connect. -/
def abort (self : Tunnel Socket Address) (stream : WgTcpStream Address) :
    Tunnel Socket Address :=
  if !stream.alive then self
  else
    self.getMut stream.handle fun held =>
      self.put stream.handle
        { held with
          socket := tcp.abort held.socket
          ledger := { held.ledger with aborted := true } }

/-- The first section of drop; the poll that sends the FIN comes between the two. -/
def dropClose (self : Tunnel Socket Address) (index : Nat) (stream : WgTcpStream Address) :
    Tunnel Socket Address :=
  let closed := if stream.alive then
      self.getMut stream.handle fun held =>
        self.put stream.handle { held with socket := tcp.close held.socket }
    else self
  closed.setStage index .closing

def dropRemove (self : Tunnel Socket Address) (index : Nat) (stream : WgTcpStream Address) :
    Tunnel Socket Address :=
  let swapped : Tunnel Socket Address :=
    { self with
      streams := self.streams.modify index fun stream =>
        { stream with alive := false, stage := .gone } }
  if stream.alive then
    swapped.getMut stream.handle fun held =>
      { swapped with
        sockets := swapped.sockets.remove stream.handle
        removed := swapped.removed ++ [held.owner] }
  else swapped

def deliver (self : Tunnel Socket Address) (signal : Nat × Signal) : Tunnel Socket Address :=
  match self.get signal.1 with
  | none => self
  | some held =>
      let socket := tcp.process held.socket signal.2
      let ledger := held.ledger.process (tcp.state held.socket) signal.2 (tcp.state socket)
      self.put signal.1 { held with socket, ledger }

def poll (self : Tunnel Socket Address) (signals : List (Nat × Signal)) :
    Tunnel Socket Address :=
  signals.foldl (deliver tcp) self

/-- A call on a stream, when it is at a stage at which it can be made. -/
def turn (self : Tunnel Socket Address) (index : Nat) (may : Stage → Bool)
    (call : WgTcpStream Address → Tunnel Socket Address) : Option (Tunnel Socket Address) :=
  (self.streams[index]?).bind fun stream => if may stream.stage then some (call stream) else none

def step [ToString Address] (self : Tunnel Socket Address) :
    Event Address → Option (Tunnel Socket Address)
  | .connect remote => some (self.connect tcp remote)
  | .waitConnected index elapsed =>
      self.turn index (· = .connecting) fun stream => self.waitConnected tcp index stream elapsed
  | .pollRead index room => self.turn index (· = .open) fun stream => self.pollRead tcp stream room
  | .pollWrite index data =>
      self.turn index (· = .open) fun stream => self.pollWrite tcp stream data
  | .pollShutdown index => self.turn index (· = .open) (self.pollShutdown tcp)
  | .abort index =>
      self.turn index (fun stage => stage = .open ∨ stage = .closing ∨ stage = .gone)
        (self.abort tcp)
  | .dropClose index =>
      self.turn index (fun stage => stage ≠ .closing ∧ stage ≠ .gone) (self.dropClose tcp index)
  | .dropRemove index => self.turn index (· = .closing) (self.dropRemove index)
  | .bindUdp =>
      some { self with
        sockets := self.sockets.add .udp
        nextPort := self.nextPort + 1 }
  | .removeUdp handle =>
      match self.sockets.find handle with
      | some .udp => some { self with sockets := self.sockets.remove handle }
      | _ => none
  | .poll signals => some (self.poll tcp signals)

end Tunnel

section Slots
variable {α : Type} {sockets : SocketSet α} {handle : Nat} {socket old : α}

theorem find_vacant (sockets : SocketSet α) : sockets.find sockets.vacant = none := by
  induction sockets with
  | nil => rfl
  | cons slot rest ih =>
      cases slot with
      | none => rfl
      | some other => exact ih

theorem find_add (sockets : SocketSet α) (socket : α) (handle : Nat) :
    (sockets.add socket).find handle =
      if handle = sockets.vacant then some socket else sockets.find handle := by
  induction sockets generalizing handle with
  | nil => cases handle <;> rfl
  | cons slot rest ih =>
      cases slot with
      | none => cases handle <;> rfl
      | some other =>
          cases handle with
          | zero => rfl
          | succ handle =>
              simp only [SocketSet.vacant, Nat.add_right_cancel_iff]
              exact ih handle

theorem find_put (found : sockets.find handle = some old) (other : Nat) :
    (sockets.put handle socket).find other =
      if other = handle then some socket else sockets.find other := by
  have inside : handle < sockets.length := by
    by_contra beyond
    rw [SocketSet.find, List.getElem?_eq_none (Nat.le_of_not_lt beyond)] at found
    cases found
  unfold SocketSet.find SocketSet.put
  split
  · subst other
    rw [List.getElem?_set_self inside]
    rfl
  · rw [List.getElem?_set_ne (Ne.symm ‹_›)]

theorem find_remove (sockets : SocketSet α) (handle other : Nat) :
    (sockets.remove handle).find other = if other = handle then none else sockets.find other := by
  unfold SocketSet.find SocketSet.remove
  split
  · subst other
    rw [List.getElem?_set, if_pos rfl]
    split
    · rfl
    · rfl
  · rw [List.getElem?_set_ne (Ne.symm ‹_›)]

end Slots

section Calls
variable {tcp : Smoltcp Socket Address} {sock : Socket}

theorem initiate_ok {remote : Address} {localPort : UInt16}
    (taken : WgTcpStream.initiate tcp remote localPort = .ok sock) :
    tcp.connect (tcp.new sockBuf sockBuf) remote localPort = .ok sock := by
  unfold WgTcpStream.initiate at taken
  cases called : tcp.connect (tcp.new sockBuf sockBuf) remote localPort with
  | error e =>
      rw [called] at taken
      cases taken
  | ok given =>
      rw [called] at taken
      exact taken

/-- A call leaves the state of the socket and what it has received alone. -/
def Spares (tcp : Smoltcp Socket Address) (before after : Socket) : Prop :=
  tcp.state after = tcp.state before ∧ tcp.buffered after = tcp.buffered before

theorem connected_spares [ToString Address] (documented : tcp.Documented) (remote : Address) (elapsed : Bool)
    (sock : Socket) : Spares tcp sock (WgTcpStream.connected tcp remote elapsed sock).2 := by
  have hooked : Spares tcp sock (tcp.registerSendWaker (tcp.registerRecvWaker sock)) := by
    have first := documented.recvWaker sock
    have second := documented.sendWaker (tcp.registerRecvWaker sock)
    exact ⟨second.1.trans first.1, second.2.trans first.2⟩
  unfold WgTcpStream.connected WgTcpStream.waitConnected
  cases tcp.state sock <;> first | exact ⟨rfl, rfl⟩ | (cases elapsed <;> exact hooked)

theorem connected_ok_iff [ToString Address] (remote : Address) (elapsed : Bool) :
    (WgTcpStream.connected tcp remote elapsed sock).1 = .ready (.ok ()) ↔
      tcp.state sock = .established := by
  unfold WgTcpStream.connected WgTcpStream.waitConnected
  cases tcp.state sock <;> cases elapsed <;> simp

theorem pollRead_cases (documented : tcp.Documented) (room : Nat) (sock : Socket) :
    (tcp.buffered sock ≠ [] ∧ ∃ next,
      WgTcpStream.pollRead tcp room sock =
        (.ready (.ok ((tcp.buffered sock).take room)), next) ∧
      tcp.state next = tcp.state sock ∧ tcp.buffered next = (tcp.buffered sock).drop room) ∨
    (tcp.buffered sock = [] ∧ (tcp.state sock).receives = false ∧
      WgTcpStream.pollRead tcp room sock = (.ready (.ok []), sock)) ∨
    (tcp.buffered sock = [] ∧ (tcp.state sock).receives = true ∧
      WgTcpStream.pollRead tcp room sock = (.pending, tcp.registerRecvWaker sock)) := by
  unfold WgTcpStream.pollRead
  by_cases empty : tcp.buffered sock = []
  · have cannot : tcp.canRecv sock = false := by
      rw [Bool.eq_false_iff, ne_eq, documented.canRecv]
      exact fun filled => filled empty
    cases open' : (tcp.state sock).receives with
    | true =>
        have may : tcp.mayRecv sock = true := (documented.mayRecv sock).mpr (.inl open')
        simp [cannot, may, empty]
    | false =>
        have never : tcp.mayRecv sock = false := by
          rw [Bool.eq_false_iff, ne_eq, documented.mayRecv]
          simp [open', empty]
        simp [cannot, never, empty]
  · have can : tcp.canRecv sock = true := (documented.canRecv sock).mpr empty
    have may : tcp.mayRecv sock = true := (documented.mayRecv sock).mpr (.inr empty)
    obtain ⟨next, taken, state, rest⟩ := documented.recvSlice sock room may
    refine .inl ⟨empty, next, ?_, state, rest⟩
    rw [if_pos can, taken]

theorem pollWrite_spares (documented : tcp.Documented) (data : List UInt8) (sock : Socket) :
    Spares tcp sock (WgTcpStream.pollWrite tcp data sock).2 := by
  unfold WgTcpStream.pollWrite
  split
  · exact ⟨rfl, rfl⟩
  · split
    · exact documented.sendWaker sock
    · cases sent : tcp.sendSlice sock data with
      | error e => exact ⟨rfl, rfl⟩
      | ok result => exact documented.sendSlice sent

end Calls

end Stream
end Mirage.Wg
