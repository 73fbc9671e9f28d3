import Mirage.Egress.Filter
import Mirage.Lib.Trace
import Mirage.Udp.Uplinks

/-!
Where a server sends for its clients: what its streams dial and what its two UDP relays
send to. The snapshot of the machine's own addresses may be refreshed in between.
-/

namespace Mirage.Egress.Dialling
open Assoc Router Trace Word
open Udp (SocketAddr parseUplinkBody)
open Udp.PerFlow (parseRelayFrame)
open Udp.Uplinks (Decision Exit Relay RouteCache Routing Session Sids exitOf maxMuxSids muxSend)

section Paths

inductive SidEgress where
  | direct (addr : SocketAddr)
  | wireguard

def SidEgress.target : SidEgress → Option SocketAddr
  | .direct addr => some addr
  | .wireguard => none

structure Server where
  allowLocalTargets : Bool
  /-- Routing and the kind of direct socket, for each session. -/
  routing : Nat → Routing
  isDualStack : Nat → Bool

structure State where
  localIps : List IpAddr
  connecting : List Connecting
  plain : Nat → Relay RouteCache
  mux : Nat → Relay (Sids SidEgress)

inductive Event where
  | refreshLocalIps (ips : List IpAddr)
  /-- `handle_tcp_relay` or a QUIC stream, routed. -/
  | stream (decision : Decision) (target : String)
      (resolved : Except ErrorKind (List IpAddr))
  /-- A call of `connect_smart_filtered` goes on to its next address, which fails or not. -/
  | connect (call : Nat) (failed : Option ErrorKind)
  /-- A frame for `handle_udp_relay`. -/
  | plain (session : Nat) (body : Bytes) (resolved : Except ErrorKind (List IpAddr))
      (tunnel : Bool)
  /-- A frame for `handle_udp_mux_relay`. -/
  | mux (session : Nat) (frame : Bytes) (resolved : Except ErrorKind (List IpAddr))
      (bound tunnel : Bool)
  | idle (session : Nat) (sid : UInt32)
  /-- What else charges the sessions, or ends them. -/
  | charged (plain mux : Nat → Session → Session)

variable (server : Server)

def State.filter (state : State) (ip : IpAddr) : Bool :=
  egressAllowed state.localIps ip server.allowLocalTargets

/-- The plain relay's way out: the address as its one direct socket needs it. -/
def State.plainOpened (state : State) (session : Nat) (host : String) (port : UInt16)
    (resolved : Except ErrorKind (List IpAddr)) (tunnel : Bool) : Exit → Option SidEgress
  | .direct =>
      match resolveFirstFiltered host port (state.filter server) resolved with
      | .ok addr => (prepareTargetAddr addr (server.isDualStack session)).map .direct
      | .error _ => none
  | .tunnel => if tunnel then some .wireguard else none

/-- A sid's way out: a socket of its own, connected to the address. -/
def State.muxOpened (state : State) (host : String) (port : UInt16)
    (resolved : Except ErrorKind (List IpAddr)) (bound tunnel : Bool) : Exit → Option SidEgress
  | .direct =>
      match resolveFirstFiltered host port (state.filter server) resolved with
      | .ok addr => if bound then some (.direct addr) else none
      | .error _ => none
  | .tunnel => if tunnel then some .wireguard else none

/-- One event, and the address that something is sent to or dialled in it. -/
def step (state : State) : Event → Option SocketAddr × State
  | .refreshLocalIps ips => (none, { state with localIps := ips })
  | .stream decision target resolved =>
      match decision.target with
      | .direct =>
          (none, { state with connecting := state.connecting ++ [.start target resolved] })
      | _ => (none, state)
  | .connect call failed =>
      match state.connecting[call]? with
      | none => (none, state)
      | some connecting =>
          let (dialled, after) := connecting.next (state.filter server) failed
          (dialled, { state with connecting := state.connecting.set call after })
  | .plain session body resolved tunnel =>
      let relay := state.plain session
      match parseRelayFrame body with
      | none => (none, state)
      | some datagram =>
          if relay.session.running then
            let (sent, relay) := relay.plainFrame (server.routing session) body
              (state.plainOpened server session datagram.target datagram.port resolved tunnel)
            (sent.bind (·.target), { state with plain := Function.update state.plain session relay })
          else (none, state)
  | .mux session frame resolved bound tunnel =>
      let relay := state.mux session
      match parseUplinkBody frame with
      | none => (none, state)
      | some uf =>
          if relay.session.running then
            let (sent, relay) := relay.muxFrame (server.routing session) frame
              (state.muxOpened server uf.target uf.port resolved bound tunnel)
            (sent.bind (·.target), { state with mux := Function.update state.mux session relay })
          else (none, state)
  | .idle session sid =>
      let relay := state.mux session
      let relay := { relay with table := erase relay.table sid }
      (none, { state with mux := Function.update state.mux session relay })
  | .charged plain mux =>
      (none, { state with
        plain := fun session =>
          ⟨plain session (state.plain session).session, (state.plain session).table⟩
        mux := fun session => ⟨mux session (state.mux session).session, (state.mux session).table⟩ })

def start (localIps : List IpAddr) (plain mux : Nat → Session) : State where
  localIps := localIps
  connecting := []
  plain session := ⟨plain session, []⟩
  mux session := ⟨mux session, []⟩

end Paths

section Confined
variable (server : Server) {state : State}

/-- The event is a datagram of a sid that has its socket already. -/
def Reuses (state : State) : Event → Prop
  | .mux session frame _ _ _ => ∃ uf, parseUplinkBody frame = some uf ∧
      ((state.mux session).table.lookup uf.sid).isSome
  | _ => False

theorem plainOpened_passes {session : Nat} {host : String} {port : UInt16}
    {resolved : Except ErrorKind (List IpAddr)} {tunnel : Bool} {exit : Exit} {addr : SocketAddr}
    (opened : state.plainOpened server session host port resolved tunnel exit = some (.direct addr)) :
    state.filter server addr.ip = true := by
  cases exit with
  | tunnel =>
      cases tunnel with
      | false => cases opened
      | true => cases opened
  | direct =>
      unfold State.plainOpened at opened
      dsimp only at opened
      cases picked : resolveFirstFiltered host port (state.filter server) resolved with
      | error e =>
          rw [picked] at opened
          cases opened
      | ok found =>
          rw [picked] at opened
          obtain ⟨sent, prepared, same⟩ := Option.map_eq_some_iff.mp opened
          cases same
          have passes := resolveFirstFiltered_passes picked
          unfold State.filter egressAllowed at passes ⊢
          rw [prepareTargetAddr_unmapped prepared]
          exact passes

theorem muxOpened_passes {host : String} {port : UInt16} {resolved : Except ErrorKind (List IpAddr)}
    {bound tunnel : Bool} {exit : Exit} {addr : SocketAddr}
    (opened : state.muxOpened server host port resolved bound tunnel exit = some (.direct addr)) :
    state.filter server addr.ip = true := by
  cases exit with
  | tunnel =>
      cases tunnel with
      | false => cases opened
      | true => cases opened
  | direct =>
      unfold State.muxOpened at opened
      dsimp only at opened
      cases picked : resolveFirstFiltered host port (state.filter server) resolved with
      | error e =>
          rw [picked] at opened
          cases opened
      | ok found =>
          rw [picked] at opened
          cases bound with
          | false => cases opened
          | true =>
              cases opened
              exact resolveFirstFiltered_passes picked

section Relays
variable {routing : Routing} {plain : Relay RouteCache} {mux : Relay (Sids SidEgress)}
  {opened : Exit → Option SidEgress} {egress : SidEgress} {body frame : Bytes}
  {uf : Udp.UplinkFrame}

theorem plainFrame_sent (sent : (plain.plainFrame routing body opened).1 = some egress) :
    ∃ exit, opened exit = some egress := by
  unfold Relay.plainFrame at sent
  split at sent
  · cases sent
  · dsimp only at sent
    split at sent
    · cases sent
    · rename_i exit _
      dsimp only at sent
      split at sent
      · exact ⟨exit, sent⟩
      · cases sent

theorem muxSend_cases (routing : Routing) (sids : Sids SidEgress) (uf : Udp.UplinkFrame)
    (opened : Exit → Option SidEgress) :
    (∃ egress, sids.lookup uf.sid = some egress ∧
        muxSend routing sids uf opened = (some egress, sids)) ∨
      muxSend routing sids uf opened = (none, sids) ∨
      ∃ exit egress, opened exit = some egress ∧
        muxSend routing sids uf opened = (some egress, Assoc.put sids uf.sid egress) := by
  unfold muxSend
  cases found : sids.lookup uf.sid with
  | some egress => exact .inl ⟨egress, rfl, rfl⟩
  | none =>
      dsimp only
      split
      · exact .inr (.inl rfl)
      · split
        · exact .inr (.inl rfl)
        · rename_i exit _
          cases way : opened exit with
          | none => exact .inr (.inl rfl)
          | some egress => exact .inr (.inr ⟨exit, egress, way, rfl⟩)

/-- What is sent through and what is in the table afterwards was there or is opened now. -/
theorem muxFrame_spec (parsed : parseUplinkBody frame = some uf) :
    ((mux.muxFrame routing frame opened).1 = some egress →
        mux.table.lookup uf.sid = some egress ∨ ∃ exit, opened exit = some egress) ∧
      ∀ sid, (mux.muxFrame routing frame opened).2.table.lookup sid = some egress →
        mux.table.lookup sid = some egress ∨ ∃ exit, opened exit = some egress := by
  unfold Relay.muxFrame
  rw [parsed]
  dsimp only
  split
  · rcases muxSend_cases routing mux.table uf opened with
      ⟨other, found, same⟩ | same | ⟨exit, other, way, same⟩
    · rw [same]
      exact ⟨fun sent => .inl (found.trans sent), fun sid there => .inl there⟩
    · rw [same]
      exact ⟨fun sent => (nomatch sent), fun sid there => .inl there⟩
    · rw [same]
      refine ⟨fun sent => .inr ⟨exit, way.trans sent⟩, fun sid there => ?_⟩
      by_cases own : sid = uf.sid
      · rw [own, lookup_put_self] at there
        exact .inr ⟨exit, way.trans there⟩
      · rw [lookup_put_ne own] at there
        exact .inl there
  · exact ⟨fun sent => (nomatch sent), fun sid there => .inl there⟩

end Relays

/-- Something is sent only where the filter passes now, or on a sid that has its socket. -/
theorem step_target {event : Event} {addr : SocketAddr}
    (sent : (step server state event).1 = some addr) :
    state.filter server addr.ip = true ∨
      Reuses state event ∧ ∃ session sid, (state.mux session).table.lookup sid = some (.direct addr) := by
  cases event with
  | connect call failed =>
      unfold step at sent
      dsimp only at sent
      split at sent
      · cases sent
      · exact .inl (Connecting.next_passes sent)
  | plain session body resolved tunnel =>
      unfold step at sent
      dsimp only at sent
      split at sent
      · cases sent
      · split at sent
        · obtain ⟨egress, through, target⟩ := Option.bind_eq_some_iff.mp sent
          obtain ⟨exit, opened⟩ := plainFrame_sent through
          cases egress with
          | wireguard => cases target
          | direct other =>
              cases target
              exact .inl (plainOpened_passes server opened)
        · cases sent
  | mux session frame resolved bound tunnel =>
      unfold step at sent
      dsimp only at sent
      split at sent
      · cases sent
      · rename_i uf parsed
        split at sent
        · obtain ⟨egress, through, target⟩ := Option.bind_eq_some_iff.mp sent
          cases egress with
          | wireguard => cases target
          | direct other =>
              cases target
              rcases (muxFrame_spec parsed).1 through with there | ⟨exit, opened⟩
              · refine .inr ⟨⟨uf, parsed, ?_⟩, session, uf.sid, there⟩
                rw [there]
                rfl
              · exact .inl (muxOpened_passes server opened)
        · cases sent
  | stream decision target resolved =>
      unfold step at sent
      dsimp only at sent
      split at sent
      · cases sent
      · cases sent
  | _ => cases sent

/-- A sid's socket was there before, or the filter passes its address now. -/
theorem step_sid {event : Event} {session : Nat} {sid : UInt32} {addr : SocketAddr}
    (there : ((step server state event).2.mux session).table.lookup sid = some (.direct addr)) :
    (state.mux session).table.lookup sid = some (.direct addr) ∨ state.filter server addr.ip = true := by
  cases event with
  | mux other frame resolved bound tunnel =>
      unfold step at there
      dsimp only at there
      split at there
      · exact .inl there
      · rename_i uf parsed
        split at there
        · dsimp only at there
          by_cases own : session = other
          · rw [own, Function.update_self] at there
            rcases (muxFrame_spec parsed).2 sid there with kept | ⟨exit, opened⟩
            · rw [own]
              exact .inl kept
            · exact .inr (muxOpened_passes server opened)
          · rw [Function.update_of_ne own] at there
            exact .inl there
        · exact .inl there
  | idle other gone =>
      unfold step at there
      dsimp only at there
      by_cases own : session = other
      · rw [own, Function.update_self] at there
        by_cases same : sid = gone
        · rw [same, lookup_erase_self] at there
          cases there
        · rw [lookup_erase_ne same] at there
          rw [own]
          exact .inl there
      · rw [Function.update_of_ne own] at there
        exact .inl there
  | stream decision target resolved =>
      unfold step at there
      dsimp only at there
      split at there
      · exact .inl there
      · exact .inl there
  | connect call failed =>
      unfold step at there
      dsimp only at there
      split at there
      · exact .inl there
      · exact .inl there
  | plain other body resolved tunnel =>
      unfold step at there
      dsimp only at there
      split at there
      · exact .inl there
      · split at there
        · exact .inl there
        · exact .inl there
  | _ => exact .inl there

variable (localIps : List IpAddr) (plain mux : Nat → Session)

/-- The server after some events. -/
def after (past : List Event) : State := run (step server) (start localIps plain mux) past

/-- The filter passed the address at some time. -/
def Passed (past : List Event) (addr : SocketAddr) : Prop :=
  ∃ before, before <+: past ∧ (after server localIps plain mux before).filter server addr.ip = true

theorem sids_passed (past : List Event) : ∀ session sid addr,
    ((after server localIps plain mux past).mux session).table.lookup sid = some (.direct addr) →
      Passed server localIps plain mux past addr := by
  induction past using List.reverseRecOn with
  | nil =>
      intro session sid addr there
      cases there
  | append_singleton past event ih =>
      intro session sid addr there
      rw [after, run_append] at there
      rcases step_sid server there with kept | passes
      · obtain ⟨before, inside, passes⟩ := ih session sid addr kept
        exact ⟨before, inside.trans (List.prefix_append _ _), passes⟩
      · exact ⟨past, List.prefix_append _ _, passes⟩

/-- An address the server dials or sends to passes the filter as it does, and on a sid that
has its socket it did when the socket was connected. Never is it in a prefix that the
filter refuses, however it is written. -/
theorem egress_filtered (past : List Event) (event : Event) (addr : SocketAddr)
    (sent : (step server (after server localIps plain mux past) event).1 = some addr) :
    let state := after server localIps plain mux past
    (¬ Reuses state event →
        egressAllowed state.localIps addr.ip server.allowLocalTargets = true ∧
          (server.allowLocalTargets = false → unmapped addr.ip ∉ state.localIps)) ∧
      Passed server localIps plain mux past addr ∧
      (∀ net ∈ nonUnicast, net.contains (unmapped addr.ip) = false) ∧
      (server.allowLocalTargets = false → ∀ net ∈ internal, net.contains (unmapped addr.ip) = false) := by
  have passed : Passed server localIps plain mux past addr := by
    rcases step_target server sent with passes | ⟨_, session, sid, there⟩
    · exact ⟨past, List.prefix_rfl, passes⟩
    · exact sids_passed server localIps plain mux past session sid addr there
  have ⟨_, _, before⟩ := passed
  obtain ⟨unicast, outside⟩ := (egressAllowed_iff _ _ _).mp before
  refine ⟨fun fresh => ?_, passed, unicast, fun closed => (outside closed).1⟩
  rcases step_target server sent with passes | ⟨reused, _⟩
  · exact ⟨passes, fun closed => (((egressAllowed_iff _ _ _).mp passes).2 closed).2⟩
  · exact absurd reused fresh

/-- Everything goes out directly, with no limits. -/
def openServer : Server := ⟨false, fun _ _ => ⟨"direct", .direct⟩, fun _ => true⟩

def unlimited (_ : Nat) : Session := ⟨⟨none, none, none, false⟩, 0, true⟩

/-- Three bytes to 203.0.113.5:53 on the sid 7. -/
def datagram : Event :=
  .mux 0 (toBe 4 7 ++ [1, 203, 0, 113, 5, 0, 53, 1, 2, 3]) (.error .notFound) true false

def target : SocketAddr := ⟨.v4 0xcb007105#32, 53⟩

/-- The second datagram of the sid. -/
theorem egress_filtered_sid : Passed openServer [] unlimited unlimited [datagram] target ∧
    (∀ net ∈ internal, net.contains (unmapped target.ip) = false) := by
  have sent : (step openServer (after openServer [] unlimited unlimited [datagram]) datagram).1 =
      some target := by decide +kernel
  obtain ⟨_, passed, _, outside⟩ := egress_filtered openServer [] unlimited unlimited [datagram]
    datagram target sent
  exact ⟨passed, outside rfl⟩

/-- An address that becomes the machine's own is still sent to on a sid. -/
theorem own_address_reached :
    let past := [datagram, .refreshLocalIps [target.ip]]
    (step openServer (after openServer [] unlimited unlimited past) datagram).1 = some target ∧
      egressAllowed (after openServer [] unlimited unlimited past).localIps target.ip false = false := by
  decide +kernel

end Confined

end Mirage.Egress.Dialling
