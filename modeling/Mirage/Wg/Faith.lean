import Mirage.Lib.Trace
import Mirage.Wg.Handles

/-!
What a stream over a tunnel tells of its connection. Connect looks for one state
only, and a read takes every connection that is over for one that the peer has
finished; both are right as long as no connection breaks off unseen.
-/

namespace Mirage.Wg.Stream
open Adapter Trace

variable {Socket Address : Type}

/-- A stream that is not gone finds the socket that its own call of connect has added,
a closer of one that is gone takes no handle, and a socket was removed, once, exactly
if its stream is gone. -/
structure Handled (tunnel : Tunnel Socket Address) : Prop where
  calm : tunnel.panicked = false
  live : ∀ {index : Nat} {stream : WgTcpStream Address}, tunnel.streams[index]? = some stream →
    stream.stage ≠ .gone → stream.alive = true ∧
      ∃ held, tunnel.get stream.handle = some held ∧ held.owner = index
  gone : ∀ {index : Nat} {stream : WgTcpStream Address}, tunnel.streams[index]? = some stream →
    stream.stage = .gone → stream.alive = false
  once : tunnel.removed.Nodup
  removed : ∀ index, index ∈ tunnel.removed ↔
    ∃ stream, tunnel.streams[index]? = some stream ∧ stream.stage = .gone

def Tunnel.At (self : Tunnel Socket Address) (index : Nat) (stream : WgTcpStream Address)
    (held : Held Socket) : Prop :=
  self.streams[index]? = some stream ∧ self.get stream.handle = some held

section Faith
variable [ToString Address] (tcp : Smoltcp Socket Address)

/-- Connect gives the stream if the handshake is complete. Reads go on where the last
one ended, end of file comes after the FIN and after everything that was sent, and a
reset is an error. -/
def Fair (self : Tunnel Socket Address) : Event Address → Prop
  | .waitConnected index elapsed => ∀ stream held, self.At index stream held →
      held.ledger.opened = true →
        (WgTcpStream.connected tcp stream.remote elapsed held.socket).1 = .ready (.ok ())
  | .pollRead index room => ∀ stream held, self.At index stream held →
      let answer := (WgTcpStream.pollRead tcp room held.socket).1
      (∀ bytes, answer = .ready (.ok bytes) → held.ledger.read ++ bytes <+: held.ledger.sent) ∧
      (0 < room → answer = .ready (.ok []) →
        held.ledger.finished = true ∧ held.ledger.read = held.ledger.sent) ∧
      (0 < room → held.ledger.reset = true → held.ledger.finished = false →
        held.ledger.read = held.ledger.sent → ∃ error, answer = .ready (.error error))
  | _ => True

/-- Neither a FIN nor a reset has come by the time connect looks at a connection that
is complete, and nobody reads on, with everything read, from one that was reset or
aborted before its FIN. -/
def Unbroken (self : Tunnel Socket Address) : Event Address → Prop
  | .waitConnected index _ => ∀ stream held, self.At index stream held →
      held.ledger.opened = true → held.ledger.finished = false ∧ held.ledger.reset = false
  | .pollRead index room => ∀ stream held, self.At index stream held → 0 < room →
      held.ledger.reset = true ∨ held.ledger.aborted = true → held.ledger.finished = false →
        held.ledger.read ≠ held.ledger.sent
  | _ => True

end Faith

section Runs
variable {tcp : Smoltcp Socket Address} {self next : Tunnel Socket Address}

theorem Sound.handled (sound : Sound tcp self) : Handled self where
  calm := sound.calm
  live known alive := by
    obtain ⟨up, held, got, owner, -⟩ := sound.own known alive
    exact ⟨up, held, got, owner⟩
  gone := sound.gone
  once := by
    refine List.nodup_iff_count.mpr fun index => ?_
    rw [sound.once]
    split
    · exact Nat.le_refl _
    · exact Nat.zero_le _
  removed index := by
    rw [← List.count_pos_iff, sound.once]
    cases self.streams[index]? with
    | none => simp
    | some stream => by_cases went : stream.stage = .gone <;> simp [went]

theorem connects_iff [ToString Address] {held : Held Socket} (kept : held.Kept tcp .connecting)
    (opened : held.ledger.opened = true) (remote : Address) (elapsed : Bool) :
    (WgTcpStream.connected tcp remote elapsed held.socket).1 = .ready (.ok ()) ↔
      held.ledger.finished = false ∧ held.ledger.reset = false := by
  obtain ⟨-, fits, untouched⟩ := kept
  rw [connected_ok_iff]
  constructor
  · intro established
    rw [established] at fits
    exact ⟨fits.2.1, fits.2.2.1⟩
  · rintro ⟨unfinished, unreset⟩
    generalize tcp.state held.socket = state at fits untouched ⊢
    cases state with
    | established => rfl
    | closed => exact absurd (unreset.symm.trans (untouched opened)) Bool.false_ne_true
    | closeWait => exact absurd (unfinished.symm.trans fits.2.1) Bool.false_ne_true
    | listen | synSent | synReceived =>
        exact absurd (fits.1.symm.trans opened) Bool.false_ne_true
    | finWait1 | finWait2 | closing | lastAck | timeWait => exact untouched.elim

/-- A read that finds nothing more is at the end of a connection that has finished, was
reset or aborted. -/
theorem ended_iff {held : Held Socket} (kept : held.Kept tcp .open) :
    (tcp.state held.socket).receives = false ↔
      held.ledger.finished = true ∨ held.ledger.reset = true ∨ held.ledger.aborted = true := by
  obtain ⟨-, fits, opened⟩ := kept
  generalize tcp.state held.socket = state at fits ⊢
  cases state with
  | closed => exact ⟨fun _ => fits opened, fun _ => rfl⟩
  | established | finWait1 | finWait2 =>
      obtain ⟨-, unfinished, unreset, unaborted⟩ := fits
      simp [unfinished, unreset, unaborted, TcpState.receives]
  | listen | synSent | synReceived =>
      exact absurd (fits.1.symm.trans opened) Bool.false_ne_true
  | closeWait | closing | lastAck | timeWait => exact ⟨fun _ => .inl fits.2.1, fun _ => rfl⟩

/-- By cases on what is left in the buffer and whether more can come. -/
theorem fair_read_iff [ToString Address] (documented : tcp.Documented) {index room : Nat}
    (each : ∀ stream held, self.At index stream held → held.Kept tcp .open) :
    Fair tcp self (.pollRead index room) ↔ Unbroken self (.pollRead index room) := by
  refine forall_congr' fun stream => forall_congr' fun held => forall_congr' fun there => ?_
  have kept := each stream held there
  have ended := ended_iff kept
  have inOrder := kept.1
  rcases pollRead_cases documented room held.socket with
    ⟨filled, next, taken, -, -⟩ | ⟨empty, closed, last⟩ | ⟨empty, receives, waits⟩
  · have unread : held.ledger.read ≠ held.ledger.sent := by
      rw [← inOrder]
      exact fun same => filled (List.self_eq_append_right.mp same)
    simp only [taken]
    refine iff_of_true ⟨?_, ?_, fun _ _ _ same => absurd same unread⟩ fun _ _ _ => unread
    · intro bytes given
      cases given
      rw [← inOrder]
      exact (List.prefix_append_right_inj _).mpr (List.take_prefix _ _)
    · intro room_pos given
      have nothing := Except.ok.inj (Poll.ready.inj given)
      rcases List.take_eq_nil_iff.mp nothing with none' | empty
      · exact absurd none' (Nat.ne_of_gt room_pos)
      · exact absurd empty filled
  · have all : held.ledger.read = held.ledger.sent := by
      rw [← inOrder, empty, List.append_nil]
    have why := ended.mp closed
    simp only [last]
    constructor
    · rintro ⟨-, finishes, -⟩ room_pos broken unfinished
      exact absurd ((finishes room_pos trivial).1.symm.trans unfinished) Bool.noConfusion
    · intro unbroken
      have finished : 0 < room → held.ledger.finished = true := by
        intro room_pos
        rcases why with finished | broken
        · exact finished
        · by_contra unfinished
          exact unbroken room_pos broken (Bool.eq_false_iff.mpr unfinished) all
      refine ⟨?_, fun room_pos _ => ⟨finished room_pos, all⟩, ?_⟩
      · intro bytes given
        cases given
        exact ⟨[], by rw [List.append_nil, List.append_nil, all]⟩
      · intro room_pos _ unfinished
        exact absurd ((finished room_pos).symm.trans unfinished) Bool.noConfusion
  · have fine : ¬ (held.ledger.finished = true ∨ held.ledger.reset = true ∨
        held.ledger.aborted = true) := by
      rw [← ended, receives]
      exact Bool.noConfusion
    simp only [waits]
    refine iff_of_true ⟨nofun, fun _ => nofun, ?_⟩ fun _ broken => absurd (.inr broken) fine
    exact fun _ reset => absurd (.inr (.inl reset)) fine

/-- Only the wait and the reads can be unfair. -/
theorem fair_iff [ToString Address] (documented : tcp.Documented) (sound : Sound tcp self)
    {event : Event Address} (stepped : self.step tcp event = some next) :
    Fair tcp self event ↔ Unbroken self event := by
  have keptAt : ∀ {stage : Stage}, stage ≠ .gone → ∀ {index : Nat},
      (∀ stream, self.streams[index]? = some stream → stream.stage = stage) →
      ∀ stream held, self.At index stream held → held.Kept tcp stage := by
    intro stage live index there stream held found
    obtain rfl := there stream found.1
    obtain ⟨-, mine, got, -, kept⟩ := sound.own found.1 live
    cases found.2.symm.trans got
    exact kept
  cases event with
  | waitConnected index elapsed =>
      simp only [Tunnel.step] at stepped
      obtain ⟨stream, known, there, -⟩ := turn_cases stepped
      have kept : ∀ stream held, self.At index stream held → held.Kept tcp .connecting := by
        apply keptAt Stage.noConfusion
        intro other found
        cases known.symm.trans found
        exact of_decide_eq_true there
      refine forall_congr' fun stream => forall_congr' fun held => forall_congr' fun found => ?_
      exact forall_congr' fun opened => connects_iff (kept stream held found) opened _ _
  | pollRead index room =>
      simp only [Tunnel.step] at stepped
      obtain ⟨stream, known, there, -⟩ := turn_cases stepped
      apply fair_read_iff documented
      apply keptAt Stage.noConfusion
      intro other found
      cases known.symm.trans found
      exact of_decide_eq_true there
  | _ => exact Iff.rfl

end Runs

/-- In every run handles are used as they should be, and all answers are fair exactly
if no connection breaks off where the stream does not look. -/
theorem streams_faithful_iff [ToString Address] {tcp : Smoltcp Socket Address}
    (documented : tcp.Documented) (port : UInt32) (events : List (Event Address))
    (final : Tunnel Socket Address)
    (followed : follow (Tunnel.step tcp) (Tunnel.start port) events = some final) :
    Handled final ∧
      (Throughout (Tunnel.step tcp) (Fair tcp) (Tunnel.start port) events ↔
        Throughout (Tunnel.step tcp) Unbroken (Tunnel.start port) events) := by
  have initial := sound_start tcp port
  constructor
  · exact (follow_keeps (Sound tcp) (fun sound stepped => sound.step documented stepped) initial
      followed).handled
  · exact throughout_congr (Sound tcp) (fun sound stepped => sound.step documented stepped)
      (fun sound stepped => fair_iff documented sound stepped) initial followed

section Sample

/-- A socket that takes the first of the states a signal may lead to. -/
structure SampleSocket where
  state : TcpState
  buffered : List UInt8
  deriving DecidableEq

def sample : Smoltcp SampleSocket String where
  new _ _ := ⟨.closed, []⟩
  connect sock _ port :=
    if port = 0 then .error "Unaddressable" else .ok { sock with state := .synSent }
  state := SampleSocket.state
  buffered := SampleSocket.buffered
  canRecv sock := !sock.buffered.isEmpty
  mayRecv sock := sock.state.receives || !sock.buffered.isEmpty
  canSend sock := sock.state.sends
  maySend sock := sock.state.sends
  recvSlice sock room :=
    if sock.state.receives || !sock.buffered.isEmpty then
      .ok (sock.buffered.take room, { sock with buffered := sock.buffered.drop room })
    else .error (if sock.state.synchronised then "Finished" else "InvalidState")
  sendSlice sock data :=
    if sock.state.sends then .ok (data.length, sock) else .error "InvalidState"
  registerRecvWaker sock := sock
  registerSendWaker sock := sock
  close sock := { sock with state := sock.state.afterClose }
  abort sock := { sock with state := .closed }
  process sock signal :=
    ⟨(sock.state.after signal).headD sock.state, sock.buffered ++ sock.state.accepted signal⟩

theorem sample_documented : sample.Documented where
  connect taken := by
    simp only [sample] at taken
    split at taken
    · cases taken
    · cases taken
      exact ⟨rfl, rfl⟩
  process sock signal := by
    refine ⟨?_, rfl⟩
    obtain ⟨state, buffered⟩ := sock
    cases state <;> cases signal <;> exact List.mem_cons_self
  mayRecv sock := by simp [sample]
  canRecv sock := by simp [sample]
  recvSlice sock room may := ⟨_, if_pos may, rfl, rfl⟩
  sendSlice {sock data n next} sent := by
    simp only [sample] at sent
    split at sent
    · cases sent
      exact ⟨rfl, rfl⟩
    · cases sent
  recvWaker _ := ⟨rfl, rfl⟩
  sendWaker _ := ⟨rfl, rfl⟩
  close _ := ⟨rfl, rfl⟩
  abort _ := ⟨rfl, rfl⟩

/-- The second connection takes over the slot of the first. -/
def twoConnections : List (Event String) :=
  [.connect "10.0.0.1:80", .poll [(0, .synAck), (0, .data [1, 2, 3])], .waitConnected 0 false,
    .pollRead 0 2, .poll [(0, .fin)], .pollRead 0 9, .pollRead 0 9, .pollShutdown 0,
    .dropClose 0, .poll [], .dropRemove 0, .connect "10.0.0.2:80", .abort 0,
    .poll [(0, .synAck)], .waitConnected 1 true, .pollWrite 1 [4]]

theorem streams_faithful_twoConnections : ∃ final,
    follow (Tunnel.step sample) (Tunnel.start 0) twoConnections = some final ∧ Handled final ∧
      (Throughout (Tunnel.step sample) (Fair sample) (Tunnel.start 0) twoConnections ↔
        Throughout (Tunnel.step sample) Unbroken (Tunnel.start 0) twoConnections) :=
  ⟨_, rfl, streams_faithful_iff sample_documented 0 twoConnections _ rfl⟩

/-- The peer accepts, answers and closes before the wait is polled. -/
def answeredAtOnce : List (Event String) :=
  [.connect "10.0.0.1:80", .poll [(0, .synAck), (0, .data [1, 2]), (0, .fin)]]

/-- The peer resets a connection in the middle of a download. -/
def resetDownload : List (Event String) :=
  [.connect "10.0.0.1:80", .poll [(0, .synAck)], .waitConnected 0 false,
    .poll [(0, .data [1, 2]), (0, .rst)], .pollRead 0 9]

/-- Connect times out on the connection that was complete, and the download that was
reset ends like one that has come to its end. -/
theorem broken_connections :
    ((follow (Tunnel.step sample) (Tunnel.start 0) (answeredAtOnce ++ [.waitConnected 0 true])).map
      fun tunnel => tunnel.streams.map WgTcpStream.stage) =
      some [.failed "WireGuard: connection to 10.0.0.1:80 through tunnel timed out (15s)"] ∧
    ¬ Throughout (Tunnel.step sample) (Fair sample) (Tunnel.start 0)
      (answeredAtOnce ++ [.waitConnected 0 true]) ∧
    ¬ Throughout (Tunnel.step sample) (Fair sample) (Tunnel.start 0)
      (resetDownload ++ [.pollRead 0 9]) := by
  refine ⟨by decide, ?_, ?_⟩
  · intro all
    have fair := throughout_reached all rfl
    have returned := fair _ _ ⟨rfl, rfl⟩ rfl
    cases returned
  · intro all
    have fair := throughout_reached all rfl
    obtain ⟨-, ended, -⟩ := fair _ _ ⟨rfl, rfl⟩
    cases (ended (by decide) rfl).1

end Sample

end Mirage.Wg.Stream
