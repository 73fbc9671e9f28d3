import Mirage.Lib.Assoc
import Mirage.Lib.Trace

/-!
The flow table of proxy/transparent_udp.rs: the receive loop's decision, the
tasks of `setup_flow` and their `FlowGuard`. A task takes one move from one
await, or one lock, to the next; what it waits for may fail at each. Datagrams,
rate limits and log lines are left out.
-/

namespace Mirage.Udp.Transparent
open Assoc

structure SocketAddrV4 where
  ip : BitVec 32
  port : UInt16
  deriving DecidableEq

structure FlowKey where
  client : SocketAddrV4
  origDst : SocketAddrV4
  deriving DecidableEq

def maxFlows : Nat := 4096

inductive FlowSink where
  | direct
  | mirage
  | wireguard
  deriving DecidableEq

inductive FlowSlot where
  | setting
  | ready (id : UInt64) (sink : FlowSink)
  deriving DecidableEq

/-- A reply socket is known by a number of its own. -/
structure ReplyEntry where
  sock : Nat
  refs : Nat
  deriving DecidableEq

/-- The ways a flow leaves; `mux` and `legacy` are those of a Mirage outbound. -/
inductive Leg where
  | direct
  | wireguard
  | mux
  | legacy
  deriving DecidableEq

/-- What a leg needs before it takes its reply socket, each with its early exit. -/
inductive Preparation where
  | target
  | resolve
  | bind
  | connect
  | wgTunnel
  | ipv4Target
  | domainFits
  | udpSupported
  | muxTunnel
  | permit
  | poolTunnel
  | sentinel
  deriving DecidableEq

namespace Leg

def sink : Leg → FlowSink
  | direct => .direct
  | wireguard => .wireguard
  | mux | legacy => .mirage

def preparations : Leg → List Preparation
  | direct => [.target, .resolve, .bind, .connect]
  | wireguard => [.wgTunnel, .target, .resolve, .ipv4Target, .bind]
  | mux => [.target, .domainFits, .udpSupported, .muxTunnel]
  | legacy => [.target, .domainFits, .udpSupported, .permit, .poolTunnel, .sentinel]

end Leg

inductive Stage where
  | start
  /-- In `resolve_query` of the hijacked DNS. -/
  | query
  | answered
  | reply
  | prepare (leg : Leg) (id : UInt64) (left : List Preparation)
  | acquired (leg : Leg) (id : UInt64)
  | serve
  /-- In the guard's `drop`, before its first and before its second part. -/
  | dropSlot
  | dropReply
  | gone
  deriving DecidableEq

/-- A task and its guard; `reply` is the socket it acquired. -/
structure Task where
  key : FlowKey
  stage : Stage
  committedId : Option UInt64
  reply : Option Nat

namespace Task

def spawn (key : FlowKey) : Task := ⟨key, .start, none, none⟩

def origDst (task : Task) : SocketAddrV4 := task.key.origDst

def goTo (task : Task) (stage : Stage) : Task := { task with stage }

/-- Its slot has not been given back. -/
def live (task : Task) : Bool :=
  match task.stage with
  | .dropReply | .gone => false
  | _ => true

def acquiredAt (task : Task) (addr : SocketAddrV4) : Bool :=
  task.origDst = addr && task.reply.isSome

/-- An early exit, or the end of the flow. A leg but the mux one goes from its
reply socket straight to its commit. -/
def mayExit (task : Task) : Bool :=
  match task.stage with
  | .start | .query | .reply | .serve => true
  | .prepare _ _ left => !left.isEmpty
  | .acquired leg _ => leg = .mux
  | .answered | .dropSlot | .dropReply | .gone => false

end Task

structure Proxy where
  sessions : List (FlowKey × FlowSlot)
  replies : List (SocketAddrV4 × ReplyEntry)
  tasks : List Task
  nextFlowId : UInt64
  nextSock : Nat

inductive Move where
  | hijack
  | answer
  | route (leg : Leg)
  | pass
  | acquire (built : Bool)
  | commit
  | exit
  | dropSlot
  | dropReply

inductive Event where
  | recv (key : FlowKey)
  | task (id : Nat) (move : Move)

inductive Decision where
  | forward (sink : FlowSink)
  | settingUp
  | atCap
  | setup

namespace Proxy

def start : Proxy := ⟨[], [], [], 1, 0⟩

def decision (proxy : Proxy) (key : FlowKey) : Decision :=
  match proxy.sessions.lookup key with
  | some (.ready _ sink) => .forward sink
  | some .setting => .settingUp
  | none => if maxFlows ≤ proxy.sessions.length then .atCap else .setup

def receive (proxy : Proxy) (key : FlowKey) : Proxy :=
  match proxy.decision key with
  | .setup =>
      { proxy with
        sessions := put proxy.sessions key .setting
        tasks := proxy.tasks ++ [.spawn key] }
  | .forward _ | .settingUp | .atCap => proxy

def setTask (proxy : Proxy) (id : Nat) (task : Task) : Proxy :=
  { proxy with tasks := proxy.tasks.set id task }

/-- `acquire_reply`; `built` says whether a new socket can be made. -/
def acquireReply (proxy : Proxy) (addr : SocketAddrV4) (built : Bool) : Option (Nat × Proxy) :=
  match proxy.replies.lookup addr with
  | some e =>
      some (e.sock, { proxy with replies := put proxy.replies addr { e with refs := e.refs + 1 } })
  | none =>
      if built then
        some (proxy.nextSock,
          { proxy with
            replies := put proxy.replies addr ⟨proxy.nextSock, 1⟩
            nextSock := proxy.nextSock + 1 })
      else none

/-- The first part of the guard's `drop`. -/
def dropSlot (proxy : Proxy) (task : Task) : Proxy :=
  match task.committedId, proxy.sessions.lookup task.key with
  | none, some .setting => { proxy with sessions := erase proxy.sessions task.key }
  | some id, some (.ready cur _) =>
      if cur = id then { proxy with sessions := erase proxy.sessions task.key } else proxy
  | _, _ => proxy

/-- The second part. -/
def dropReply (proxy : Proxy) (task : Task) : Proxy :=
  if task.reply.isSome then
    match proxy.replies.lookup task.origDst with
    | some e =>
        if e.refs - 1 = 0 then { proxy with replies := erase proxy.replies task.origDst }
        else { proxy with replies := put proxy.replies task.origDst { e with refs := e.refs - 1 } }
    | none => proxy
  else proxy

/-- A task that acquires its reply socket goes to `next`, or ends. -/
def acquire (proxy : Proxy) (id : Nat) (task : Task) (next : Stage) (built : Bool) : Proxy :=
  match proxy.acquireReply task.origDst built with
  | some (sock, acquired) => acquired.setTask id { task with stage := next, reply := some sock }
  | none => proxy.setTask id (task.goTo .dropSlot)

section Steps
variable (hijackDns : Bool)

def hijacked (task : Task) : Bool := hijackDns && task.origDst.port = 53

def advance (proxy : Proxy) (id : Nat) (task : Task) : Move → Option Proxy
  | .hijack =>
      if task.stage = .start ∧ hijacked hijackDns task then
        some (proxy.setTask id (task.goTo .query))
      else none
  | .answer => if task.stage = .query then some (proxy.setTask id (task.goTo .answered)) else none
  | .route leg =>
      if task.stage = .start ∧ ¬ hijacked hijackDns task then
        some ({ proxy with nextFlowId := proxy.nextFlowId + 1 }.setTask id
          (task.goTo (.prepare leg proxy.nextFlowId leg.preparations)))
      else none
  | .pass =>
      match task.stage with
      | .prepare leg flow (_ :: left) => some (proxy.setTask id (task.goTo (.prepare leg flow left)))
      | _ => none
  | .acquire built =>
      match task.stage with
      | .answered => some (proxy.acquire id task .reply built)
      | .prepare leg flow [] => some (proxy.acquire id task (.acquired leg flow) built)
      | _ => none
  | .commit =>
      match task.stage with
      | .acquired leg flow =>
          some ({ proxy with
            sessions := put proxy.sessions task.key (.ready flow leg.sink) }.setTask id
            { task with stage := .serve, committedId := some flow })
      | _ => none
  | .exit => if task.mayExit then some (proxy.setTask id (task.goTo .dropSlot)) else none
  | .dropSlot =>
      if task.stage = .dropSlot then
        some ((proxy.dropSlot task).setTask id (task.goTo .dropReply))
      else none
  | .dropReply =>
      if task.stage = .dropReply then
        some ((proxy.dropReply task).setTask id { task with stage := .gone, reply := none })
      else none

def step (proxy : Proxy) : Event → Option Proxy
  | .recv key => some (proxy.receive key)
  | .task id move =>
      match proxy.tasks[id]? with
      | some task => proxy.advance hijackDns id task move
      | none => none

end Steps

end Proxy

end Mirage.Udp.Transparent
