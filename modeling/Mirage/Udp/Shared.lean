import Mirage.Lib.Assoc
import Mirage.Lib.Trace
import Mirage.Udp.PerFlow

/-!
One shared tunnel of proxy/udp_mux.rs with its flows, and the relay of
proxy/mirage_server/udp_relay.rs at its other end. Each task takes one move from
one await, or one lock, to the next. Records are cut at will. What a name
resolves to, who may send and what the buckets let pass is up to the event.
`pushed`, `replied`, `sent`, `received` and `early` are only remembered.
-/

namespace Mirage.Udp.Shared
open Assoc Word
open PerFlow (FlowTarget)

def maxSids : Nat := 512

def coalesceCap : Nat := 16 * 1024

def flowQueue : Nat := 256

inductive Stage where
  | allocated
  | registered
  | gone
  deriving DecidableEq

/-- The task of a flow. Its socket takes what is `pushed`, as far as the queue
has room, and what is `replied`. -/
structure Flow where
  sid : UInt32
  target : FlowTarget
  port : UInt16
  stage : Stage
  rx : List Bytes
  pushed : List Bytes
  replied : List Bytes

inductive Pump where
  | running
  | leaving
  | ended
  | aborted
  deriving DecidableEq

/-- A socket to one target, with the task that reads it; `early` once that task
was gone before the session was in the table. -/
structure SidEgress where
  sid : UInt32
  host : String
  port : UInt16
  addr : SocketAddr
  pump : Pump
  early : Bool

inductive Job where
  | reading
  | counting (uf : UplinkFrame)
  | opening (uf : UplinkFrame)
  | spawned (uf : UplinkFrame) (egress : Nat)
  | sending (egress : Nat) (uf : UplinkFrame)
  | over_

structure Mux where
  tasks : List Flow
  nextSid : UInt32
  flows : List (UInt32 × Nat)
  uplink : List Bytes
  up : Bytes
  buffer : Bytes
  job : Job
  sessions : List (UInt32 × Nat)
  egresses : List SidEgress
  sent : List UplinkFrame
  received : List UplinkFrame
  tx : List Bytes
  down : Bytes
  acc : Bytes

inductive Verdict where
  | pass
  | drop
  | stop

inductive Event where
  | allocSid (target : FlowTarget) (port : UInt16)
  | tryRegister (task : Nat)
  | push (task : Nat) (pkt : Bytes)
  | pump (task more : Nat)
  | unregister (task : Nat)
  | write (more : Nat)
  | carryUp (n : Nat)
  | handle (verdict : Verdict)
  | count
  | opened (addr : Option SocketAddr)
  | insert
  | send (done : Bool)
  | stop
  | recv (egress : Nat) (pkt : Bytes) (pass : Bool)
  | leave (egress : Nat)
  | remove (egress : Nat)
  | reply
  | carryDown (n : Nat)
  | demux

namespace Flow

/-- `mk_frame` -/
def mkFrame (flow : Flow) (pkt : Bytes) : Option Bytes :=
  match flow.target with
  | .domain d => frameMuxDomain flow.sid d flow.port pkt
  | .ip ip => frameMuxIpv4 flow.sid ip flow.port pkt

/-- What a datagram of this flow is to the server. -/
def datagram (flow : Flow) (pkt : Bytes) : UplinkFrame :=
  ⟨flow.sid, flow.target.target.text, flow.port, pkt⟩

def goTo (flow : Flow) (stage : Stage) : Flow := { flow with stage }

def push (flow : Flow) (pkt : Bytes) : Flow :=
  { flow with
    rx := flow.rx ++ [pkt]
    pushed := flow.pushed ++ [pkt] }

def leaveQueue (flow : Flow) (rx : List Bytes) : Flow := { flow with rx }

def reply (flow : Flow) (pkt : Bytes) : Flow := { flow with replied := flow.replied ++ [pkt] }

end Flow

namespace SidEgress

def datagram (self : SidEgress) (pkt : Bytes) : UplinkFrame :=
  ⟨self.sid, self.host, self.port, pkt⟩

def setPump (self : SidEgress) (pump : Pump) : SidEgress := { self with pump }

/-- `AbortOnDrop`; a task that has left its loop has no await before its end. -/
def abort (self : SidEgress) : SidEgress :=
  if self.pump = .running then self.setPump .aborted else self

def settle (self : SidEgress) : SidEgress :=
  { self with early := decide (self.pump ≠ .running ∧ self.pump ≠ .leaving) }

end SidEgress

/-- More packets join a batch for as long as it is short. -/
def coalesce (frame : Bytes → Option Bytes) : Nat → Bytes → List Bytes → Bytes × List Bytes
  | more + 1, batch, pkt :: rest =>
      if batch.length < coalesceCap then
        coalesce frame more (batch ++ (frame pkt).getD []) rest
      else (batch, pkt :: rest)
  | _, batch, rest => (batch, rest)

namespace Mux

def start : Mux := ⟨[], 1, [], [], [], [], .reading, [], [], [], [], [], [], []⟩

def setFlow (self : Mux) (task : Nat) (flow : Flow) : Mux :=
  { self with tasks := self.tasks.set task flow }

def setEgress (self : Mux) (egress : Nat) (to_ : SidEgress) : Mux :=
  { self with egresses := self.egresses.set egress to_ }

def goTo (self : Mux) (job : Job) : Mux := { self with job }

/-- A session that leaves the table takes its task along. -/
def abort (self : Mux) (egress : Nat) : Mux :=
  { self with egresses := self.egresses.modify egress SidEgress.abort }

def allocSid (self : Mux) (target : FlowTarget) (port : UInt16) : Mux :=
  { self with
    tasks := self.tasks ++ [⟨self.nextSid, target, port, .allocated, [], [], []⟩]
    nextSid := self.nextSid + 1 }

def tryRegister (self : Mux) (task : Nat) (flow : Flow) : Mux :=
  if self.flows.length ≥ maxSids then self.setFlow task (flow.goTo .gone)
  else
    { self.setFlow task (flow.goTo .registered) with flows := put self.flows flow.sid task }

def push (self : Mux) (task : Nat) (flow : Flow) (pkt : Bytes) : Mux :=
  if flow.rx.length < flowQueue then self.setFlow task (flow.push pkt) else self

def pump (self : Mux) (task : Nat) (flow : Flow) (more : Nat) : Option Mux :=
  match flow.rx with
  | [] => none
  | pkt :: rest =>
      match flow.mkFrame pkt with
      | none => some (self.setFlow task (flow.leaveQueue rest))
      | some batch =>
          let filled := coalesce flow.mkFrame more batch rest
          some { self.setFlow task (flow.leaveQueue filled.2) with
            uplink := self.uplink ++ [filled.1] }

def unregister (self : Mux) (task : Nat) (flow : Flow) : Mux :=
  { self.setFlow task (flow.goTo .gone) with flows := erase self.flows flow.sid }

/-- One turn of the writer, whose batches join in the same way. -/
def write (self : Mux) (more : Nat) : Option Mux :=
  match self.uplink with
  | [] => none
  | batch :: rest =>
      let filled := coalesce some more batch rest
      some { self with
        uplink := filled.2
        up := self.up ++ filled.1 }

/-- The read loop takes a chunk once its buffer holds no whole frame. -/
def carryUp (self : Mux) (n : Nat) : Option Mux :=
  match self.job with
  | .reading =>
      if parseMuxUplink self.buffer = none then
        some { self with
          up := self.up.drop n
          buffer := self.buffer ++ self.up.take n }
      else none
  | _ => none

def stop (self : Mux) : Mux :=
  { self with
    job := .over_
    sessions := []
    egresses := self.egresses.mapIdx fun egress found =>
      if egress ∈ self.sessions.map Prod.snd then found.abort else found }

def handle (self : Mux) (verdict : Verdict) : Option Mux :=
  match self.job, parseMuxUplink self.buffer with
  | .reading, some (consumed, read) =>
      let self := { self with buffer := self.buffer.drop consumed }
      match read, verdict with
      -- A frame that is malformed, or over the rate limit.
      | none, _ | some _, .drop => some self
      -- The quota is used up, or the user is gone.
      | some _, .stop => some self.stop
      | some uf, .pass =>
          match self.sessions.lookup uf.sid with
          | some egress => some (self.goTo (.sending egress uf))
          | none => some (self.goTo (.counting uf))
  | _, _ => none

def count (self : Mux) : Option Mux :=
  match self.job with
  | .counting uf =>
      -- The frame is lost; the client only sees that nothing comes back.
      if self.sessions.length ≥ maxSids then some (self.goTo .reading)
      else some (self.goTo (.opening uf))
  | _ => none

/-- Routing, the resolver and the socket give an egress, or the frame is
dropped; its task is spawned at once. -/
def opened (self : Mux) (addr : Option SocketAddr) : Option Mux :=
  match self.job, addr with
  | .opening _, none => some (self.goTo .reading)
  | .opening uf, some addr =>
      some { self with
        job := .spawned uf self.egresses.length
        egresses := self.egresses ++ [⟨uf.sid, uf.target, uf.port, addr, .running, false⟩] }
  | _, _ => none

def insert (self : Mux) : Option Mux :=
  match self.job with
  | .spawned uf egress =>
      let cleared := (self.sessions.lookup uf.sid).elim self self.abort
      some { cleared with
        job := .sending egress uf
        sessions := put self.sessions uf.sid egress
        egresses := cleared.egresses.modify egress SidEgress.settle }
  | _ => none

def send (self : Mux) (done : Bool) : Option Mux :=
  match self.job with
  | .sending egress uf =>
      self.egresses[egress]?.map fun found =>
        { self with
          job := .reading
          sent := if done then self.sent ++ [found.datagram uf.payload] else self.sent }
  | _ => none

def recv (self : Mux) (found : SidEgress) (pkt : Bytes) (pass : Bool) : Option Mux :=
  if found.pump = .running then
    some { self with
      received := self.received ++ [found.datagram pkt]
      tx := if pass then self.tx ++ (frameMuxAddr found.sid found.addr pkt).toList else self.tx }
  else none

def leave (self : Mux) (egress : Nat) (found : SidEgress) : Option Mux :=
  if found.pump = .running then some (self.setEgress egress (found.setPump .leaving)) else none

def remove (self : Mux) (egress : Nat) (found : SidEgress) : Option Mux :=
  if found.pump = .leaving then
    let self := self.setEgress egress (found.setPump .ended)
    some { (self.sessions.lookup found.sid).elim self self.abort with
      sessions := erase self.sessions found.sid }
  else none

def reply (self : Mux) : Option Mux :=
  match self.tx with
  | [] => none
  | pkt :: rest =>
      some { self with
        tx := rest
        down := self.down ++ pkt }

def carryDown (self : Mux) (n : Nat) : Option Mux :=
  match parseMuxFrame self.acc with
  | .incomplete =>
      some { self with
        down := self.down.drop n
        acc := self.acc ++ self.down.take n }
  | _ => none

/-- The client hands a datagram to the flow that is registered for its session. -/
def demux (self : Mux) : Option Mux :=
  match parseMuxFrame self.acc with
  | .incomplete => none
  | .malformed consumed => some { self with acc := self.acc.drop consumed }
  | .frame sid payload consumed =>
      let self := { self with acc := self.acc.drop consumed }
      some (((self.flows.lookup sid).bind fun task =>
        self.tasks[task]?.map fun flow => self.setFlow task (flow.reply payload)).getD self)

def withFlow (self : Mux) (task : Nat) (stage : Stage) (move : Flow → Option Mux) : Option Mux :=
  self.tasks[task]?.bind fun flow => if flow.stage = stage then move flow else none

def step (self : Mux) : Event → Option Mux
  | .allocSid target port => some (self.allocSid target port)
  | .tryRegister task =>
      self.withFlow task .allocated fun flow => some (self.tryRegister task flow)
  | .push task pkt => self.withFlow task .registered fun flow => some (self.push task flow pkt)
  | .pump task more => self.withFlow task .registered fun flow => self.pump task flow more
  | .unregister task =>
      self.withFlow task .registered fun flow => some (self.unregister task flow)
  | .write more => self.write more
  | .carryUp n => self.carryUp n
  | .handle verdict => self.handle verdict
  | .count => self.count
  | .opened addr => self.opened addr
  | .insert => self.insert
  | .send done => self.send done
  | .stop => match self.job with
    | .reading => some self.stop
    | _ => none
  | .recv egress pkt pass => self.egresses[egress]?.bind fun found => self.recv found pkt pass
  | .leave egress => self.egresses[egress]?.bind fun found => self.leave egress found
  | .remove egress => self.egresses[egress]?.bind fun found => self.remove egress found
  | .reply => self.reply
  | .carryDown n => self.carryDown n
  | .demux => self.demux

end Mux

end Mirage.Udp.Shared
