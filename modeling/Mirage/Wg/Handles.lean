import Mirage.Lib.Notify
import Mirage.Wg.Stream

/-!
The handles of a tunnel's streams over all runs: a stream that is not gone finds its
own socket in the set, in a state that its ledger tells, and the socket of one that
is gone was removed once.
-/

namespace Mirage.Wg.Stream
open Adapter

variable {Socket Address : Type}

/-- What is known of a socket whose stream is at a stage. -/
def Held.Kept (tcp : Smoltcp Socket Address) (held : Held Socket) (stage : Stage) : Prop :=
  held.ledger.read ++ tcp.buffered held.socket = held.ledger.sent ∧
    match stage with
    | .connecting => held.ledger.Fits (tcp.state held.socket) ∧
        held.ledger.Untouched (tcp.state held.socket)
    | .open => held.ledger.Fits (tcp.state held.socket) ∧ held.ledger.opened = true
    | _ => True

section Sockets
variable {tcp : Smoltcp Socket Address} {held : Held Socket} {stage : Stage}

theorem kept_spares {socket : Socket} (kept : held.Kept tcp stage)
    (spares : Spares tcp held.socket socket) :
    Held.Kept tcp { held with socket } stage := by
  unfold Held.Kept at kept ⊢
  rw [spares.1, spares.2]
  exact kept

theorem kept_process (documented : tcp.Documented) (kept : held.Kept tcp stage)
    (signal : Signal) :
    Held.Kept tcp { held with
      socket := tcp.process held.socket signal
      ledger := held.ledger.process (tcp.state held.socket) signal
        (tcp.state (tcp.process held.socket signal)) } stage := by
  obtain ⟨follows, buffered⟩ := documented.process held.socket signal
  obtain ⟨inOrder, known⟩ := kept
  refine ⟨?_, ?_⟩
  · rw [buffered, ← List.append_assoc]
    exact congrArg (· ++ _) inOrder
  · cases stage with
    | connecting => exact ⟨fits_process known.1 follows, untouched_process known.1 known.2 follows⟩
    | «open» =>
        refine ⟨fits_process known.1 follows, ?_⟩
        exact Bool.or_eq_true_iff.mpr (.inl known.2)
    | failed _ | closing | gone => trivial

theorem kept_abort (documented : tcp.Documented) (kept : held.Kept tcp stage)
    (later : stage ≠ .connecting) :
    Held.Kept tcp { held with
      socket := tcp.abort held.socket
      ledger := { held.ledger with aborted := true } } stage := by
  obtain ⟨state, buffered⟩ := documented.abort held.socket
  refine ⟨?_, ?_⟩
  · rw [buffered]
    exact kept.1
  · cases stage with
    | connecting => exact absurd rfl later
    | «open» =>
        refine ⟨?_, kept.2.2⟩
        rw [state]
        exact fun _ => .inr (.inr rfl)
    | failed _ | closing | gone => trivial

/-- Once the handshake is complete, closing this half leaves the peer's as it is. -/
theorem fits_afterClose {ledger : Ledger} {state : TcpState} (fits : ledger.Fits state)
    (opened : ledger.opened = true) : ledger.Fits state.afterClose := by
  cases state with
  | listen | synSent | synReceived => exact absurd (fits.1.symm.trans opened) Bool.false_ne_true
  | _ => exact fits

theorem kept_close (documented : tcp.Documented) (kept : held.Kept tcp .open) :
    Held.Kept tcp { held with socket := tcp.close held.socket } .open := by
  obtain ⟨state, buffered⟩ := documented.close held.socket
  obtain ⟨inOrder, fits, opened⟩ := kept
  refine ⟨?_, ?_, opened⟩
  · rw [buffered]
    exact inOrder
  · rw [state]
    exact fits_afterClose fits opened

theorem kept_closing (documented : tcp.Documented) (kept : held.Kept tcp stage) :
    Held.Kept tcp { held with socket := tcp.close held.socket } .closing := by
  refine ⟨?_, trivial⟩
  rw [(documented.close held.socket).2]
  exact kept.1

theorem kept_pollRead (documented : tcp.Documented) (kept : held.Kept tcp .open) (room : Nat) :
    Held.Kept tcp { held with
      socket := (WgTcpStream.pollRead tcp room held.socket).2
      ledger := { held.ledger with
        read := held.ledger.read ++
          WgTcpStream.received (WgTcpStream.pollRead tcp room held.socket).1 } } .open := by
  obtain ⟨inOrder, fits, opened⟩ := kept
  rcases pollRead_cases documented room held.socket with
    ⟨_, next, taken, state, rest⟩ | ⟨_, _, ended⟩ | ⟨_, _, waits⟩
  · rw [taken]
    refine ⟨?_, ?_, opened⟩
    · change held.ledger.read ++ _ ++ tcp.buffered next = held.ledger.sent
      rw [rest, List.append_assoc, ← inOrder]
      exact congrArg _ (List.take_append_drop room _)
    · rw [state]
      exact fits
  · rw [ended]
    refine ⟨?_, fits, opened⟩
    change held.ledger.read ++ [] ++ tcp.buffered held.socket = held.ledger.sent
    rw [List.append_nil, inOrder]
  · obtain ⟨state, same⟩ := documented.recvWaker held.socket
    rw [waits]
    refine ⟨?_, ?_, opened⟩
    · change held.ledger.read ++ [] ++ tcp.buffered _ = held.ledger.sent
      rw [List.append_nil, same, inOrder]
    · rw [state]
      exact fits

end Sockets

/-- The sockets in the set are those of the streams that are not gone, each under the
handle of its stream; those of the others were removed once. -/
structure Sound (tcp : Smoltcp Socket Address) (tunnel : Tunnel Socket Address) : Prop where
  calm : tunnel.panicked = false
  own : ∀ {index : Nat} {stream : WgTcpStream Address}, tunnel.streams[index]? = some stream →
    stream.stage ≠ .gone → stream.alive = true ∧ ∃ held,
      tunnel.get stream.handle = some held ∧ held.owner = index ∧ held.Kept tcp stream.stage
  gone : ∀ {index : Nat} {stream : WgTcpStream Address}, tunnel.streams[index]? = some stream →
    stream.stage = .gone → stream.alive = false
  held : ∀ {handle : Nat} {held : Held Socket}, tunnel.get handle = some held → ∃ stream,
    tunnel.streams[held.owner]? = some stream ∧ stream.handle = handle ∧ stream.stage ≠ .gone
  once : ∀ index, tunnel.removed.count index =
    if (tunnel.streams[index]?).any (fun stream => decide (stream.stage = .gone)) then 1 else 0

section Steps
variable {tcp : Smoltcp Socket Address} {self next : Tunnel Socket Address} {index : Nat}
  {stream : WgTcpStream Address} {held new : Held Socket} {stage : Stage}

theorem sound_start (tcp : Smoltcp Socket Address) (port : UInt32) :
    Sound tcp (Tunnel.start port) where
  calm := rfl
  own := nofun
  gone := nofun
  held := nofun
  once _ := rfl

theorem find_of_get {handle : Nat} (found : self.get handle = some held) :
    self.sockets.find handle = some (.tcp held) := by
  obtain ⟨entry, here, tcp⟩ := Option.bind_eq_some_iff.mp found
  cases entry with
  | tcp mine =>
      cases tcp
      exact here
  | udp => cases tcp

theorem get_put {handle : Nat} (found : self.get handle = some held) (other : Nat) :
    (self.put handle new).get other = if other = handle then some new else self.get other := by
  unfold Tunnel.get Tunnel.put
  simp only [find_put (find_of_get found)]
  split
  · rfl
  · rfl

/-- What is put under a handle is the socket that was there, and at its stage. -/
theorem Sound.put (sound : Sound tcp self) (known : self.streams[index]? = some stream)
    (live : stream.stage ≠ .gone) (found : self.get stream.handle = some held)
    (owner : new.owner = index) (kept : new.Kept tcp stream.stage) :
    Sound tcp (self.put stream.handle new) where
  calm := sound.calm
  own := by
    intro other found' there alive
    obtain ⟨still, held', got, owned, kept'⟩ := sound.own there alive
    refine ⟨still, ?_⟩
    rw [get_put found]
    by_cases same : found'.handle = stream.handle
    · obtain ⟨-, mine, gotMine, ownedMine, -⟩ := sound.own known live
      rw [same, gotMine] at got
      cases got
      obtain rfl : index = other := ownedMine.symm.trans owned
      cases known.symm.trans there
      exact ⟨new, if_pos rfl, owner, kept⟩
    · exact ⟨held', by rw [if_neg same]; exact got, owned, kept'⟩
  gone := sound.gone
  held := by
    intro handle other got
    rw [get_put found] at got
    split at got
    · cases got
      exact ⟨stream, by rw [owner]; exact known, Eq.symm ‹_›, live⟩
    · exact sound.held got
  once := sound.once

theorem modify_here {streams : List (WgTcpStream Address)} (known : streams[index]? = some stream)
    (f : WgTcpStream Address → WgTcpStream Address) :
    (streams.modify index f)[index]? = some (f stream) := by
  rw [List.getElem?_modify_eq, known]
  rfl

theorem Sound.setStage (sound : Sound tcp self) (known : self.streams[index]? = some stream)
    (live : stream.stage ≠ .gone) (still : stage ≠ .gone)
    (kept : ∀ held, self.get stream.handle = some held → held.Kept tcp stage) :
    Sound tcp (self.setStage index stage) := by
  have others : ∀ {other}, other ≠ index →
      (self.setStage index stage).streams[other]? = self.streams[other]? := fun differs =>
    List.getElem?_modify_ne _ _ (Ne.symm differs)
  have here : (self.setStage index stage).streams[index]? = some { stream with stage } :=
    modify_here known _
  refine ⟨sound.calm, ?_, ?_, ?_, ?_⟩
  · intro other found there alive
    by_cases same : other = index
    · subst same
      cases here.symm.trans there
      obtain ⟨up, held, got, owned, -⟩ := sound.own known live
      exact ⟨up, held, got, owned, kept held got⟩
    · rw [others same] at there
      exact sound.own there alive
  · intro other found there went
    by_cases same : other = index
    · subst same
      cases here.symm.trans there
      exact absurd went still
    · rw [others same] at there
      exact sound.gone there went
  · intro handle held got
    obtain ⟨found, there, same, alive⟩ := sound.held got
    by_cases mine : held.owner = index
    · rw [mine] at there ⊢
      cases known.symm.trans there
      exact ⟨_, here, same, still⟩
    · exact ⟨found, by rw [others mine]; exact there, same, alive⟩
  · intro other
    have before := sound.once other
    change self.removed.count other = _
    by_cases same : other = index
    · subst same
      rw [here]
      rw [known] at before
      simpa [still, live] using before
    · rw [others same]
      exact before

theorem Sound.deliver (documented : tcp.Documented) (sound : Sound tcp self)
    (signal : Nat × Signal) : Sound tcp (self.deliver tcp signal) := by
  obtain ⟨handle, signal⟩ := signal
  unfold Tunnel.deliver
  cases found : self.get handle with
  | none => exact sound
  | some held =>
      obtain ⟨stream, known, rfl, live⟩ := sound.held found
      obtain ⟨-, mine, got, -, kept⟩ := sound.own known live
      cases found.symm.trans got
      exact sound.put known live found rfl (kept_process documented kept signal)

/-- By induction over what the poll brings. -/
theorem Sound.poll (documented : tcp.Documented) (sound : Sound tcp self)
    (signals : List (Nat × Signal)) : Sound tcp (self.poll tcp signals) := by
  unfold Tunnel.poll
  induction signals generalizing self with
  | nil => exact sound
  | cons signal rest ih => exact ih (sound.deliver documented signal)

theorem get_eq_of_find {handle other : Nat} {sockets : SocketSet (Entry Socket)}
    (same : sockets.find other = self.sockets.find handle) :
    Tunnel.get { self with sockets } other = self.get handle := by
  unfold Tunnel.get
  simp only [same]

/-- Sockets that the streams do not see come and go. -/
theorem Sound.others (sound : Sound tcp self) (sockets : SocketSet (Entry Socket))
    (nextPort : UInt32)
    (same : ∀ handle, Tunnel.get { self with sockets } handle = self.get handle) :
    Sound tcp { self with sockets, nextPort } where
  calm := sound.calm
  own there live := by
    obtain ⟨alive, held, got, known⟩ := sound.own there live
    exact ⟨alive, held, (same _).trans got, known⟩
  gone := sound.gone
  held got := sound.held ((same _).symm.trans got)
  once := sound.once

theorem get_add (entry : Entry Socket) (handle : Nat) :
    Tunnel.get { self with sockets := self.sockets.add entry } handle =
      if handle = self.sockets.vacant then entry.asTcp else self.get handle := by
  unfold Tunnel.get
  simp only [find_add]
  split
  · rfl
  · rfl

theorem get_vacant (self : Tunnel Socket Address) : self.get self.sockets.vacant = none := by
  rw [Tunnel.get, find_vacant]
  rfl

section Opening
variable {sockets : SocketSet (Entry Socket)} {nextPort : UInt32} {remote : Address}
  {handle : Nat} {refused : Option String}

theorem uncounted (sound : Sound tcp self) : self.removed.count self.streams.length = 0 := by
  rw [sound.once, List.getElem?_eq_none (Nat.le_refl _)]
  rfl

theorem any_append_one (streams : List (WgTcpStream Address)) (added : WgTcpStream Address)
    (p : WgTcpStream Address → Bool) (other : Nat) :
    ((streams ++ [added])[other]?).any p =
      if other = streams.length then p added else (streams[other]?).any p := by
  split
  · subst other
    rw [List.getElem?_concat_length]
    rfl
  · rcases Nat.lt_or_gt_of_ne ‹_› with before | after
    · rw [List.getElem?_append_left before]
    · rw [List.getElem?_eq_none (Nat.le_of_lt after), List.getElem?_eq_none]
      rw [List.length_append]
      exact after

theorem kept_append (added : WgTcpStream Address) {other : Nat} {found : WgTcpStream Address}
    (there : self.streams[other]? = some found) :
    (self.streams ++ [added])[other]? = some found :=
  (List.getElem?_append_left (List.getElem?_eq_some_iff.mp there).1).trans there

/-- A call that ends at once leaves no socket behind. -/
theorem Sound.refuse (sound : Sound tcp self)
    (same : ∀ other, Tunnel.get { self with sockets } other = self.get other) :
    Sound tcp
      { self with
        sockets, nextPort
        streams := self.streams ++ [⟨remote, handle, false, .gone, refused⟩]
        removed := self.removed ++ [self.streams.length] } where
  calm := sound.calm
  own there live := by
    rcases Notify.getElem?_append_one_cases there with ⟨rfl, rfl⟩ | before
    · exact absurd rfl live
    · obtain ⟨alive, held, got, known⟩ := sound.own before live
      exact ⟨alive, held, (same _).trans got, known⟩
  gone there went := by
    rcases Notify.getElem?_append_one_cases there with ⟨rfl, rfl⟩ | before
    · rfl
    · exact sound.gone before went
  held got := by
    obtain ⟨found, there, known⟩ := sound.held ((same _).symm.trans got)
    exact ⟨found, kept_append _ there, known⟩
  once other := by
    rw [List.count_append, any_append_one]
    by_cases last : other = self.streams.length
    · subst last
      rw [uncounted sound]
      simp
    · rw [sound.once, if_neg last, List.count_singleton, beq_false_of_ne (Ne.symm last)]
      rfl

theorem Sound.admit (sound : Sound tcp self) (vacant : self.get handle = none)
    (owner : new.owner = self.streams.length) (kept : new.Kept tcp .connecting)
    (added : ∀ other, Tunnel.get { self with sockets } other =
      if other = handle then some new else self.get other) :
    Sound tcp
      { self with
        sockets, nextPort
        streams := self.streams ++ [⟨remote, handle, true, .connecting, refused⟩] } where
  calm := sound.calm
  own there live := by
    rcases Notify.getElem?_append_one_cases there with ⟨rfl, rfl⟩ | before
    · exact ⟨rfl, new, (added _).trans (if_pos rfl), owner, kept⟩
    · obtain ⟨alive, held, got, known⟩ := sound.own before live
      refine ⟨alive, held, ?_, known⟩
      refine (added _).trans ?_
      rw [if_neg, got]
      intro same
      rw [same, vacant] at got
      cases got
  gone there went := by
    rcases Notify.getElem?_append_one_cases there with ⟨rfl, rfl⟩ | before
    · cases went
    · exact sound.gone before went
  held {other held} got := by
    have got := (added other).symm.trans got
    split at got
    · cases got
      refine ⟨⟨remote, handle, true, .connecting, refused⟩, ?_, Eq.symm ‹_›, Stage.noConfusion⟩
      rw [owner]
      exact List.getElem?_concat_length
    · obtain ⟨found, there, known⟩ := sound.held got
      exact ⟨found, kept_append _ there, known⟩
  once other := by
    rw [any_append_one]
    split
    · subst other
      exact uncounted sound
    · exact sound.once other

end Opening

theorem Sound.connect (documented : tcp.Documented) (sound : Sound tcp self) (remote : Address) :
    Sound tcp (self.connect tcp remote) := by
  unfold Tunnel.connect
  dsimp only
  split
  · rename_i e taken
    refine sound.refuse fun handle => get_eq_of_find ?_
    rw [find_remove]
    split
    · subst handle
      rw [find_vacant]
    · rw [find_add, if_neg ‹_›]
  · rename_i sock taken
    obtain ⟨state, buffered⟩ := documented.connect (initiate_ok taken)
    refine sound.admit (get_vacant self) rfl ?_ fun handle => get_add _ handle
    refine ⟨buffered, ?_, ?_⟩
    · rw [state]
      exact ⟨rfl, rfl, rfl, rfl⟩
    · rw [state]
      trivial

theorem get_remove (handle other : Nat) :
    Tunnel.get { self with sockets := self.sockets.remove handle } other =
      if other = handle then none else self.get other := by
  unfold Tunnel.get
  simp only [find_remove]
  split
  · rfl
  · rfl

theorem Sound.dropRemove (sound : Sound tcp self) (known : self.streams[index]? = some stream)
    (closing : stream.stage = .closing) : Sound tcp (self.dropRemove index stream) := by
  have live : stream.stage ≠ .gone := by
    rw [closing]
    exact Stage.noConfusion
  obtain ⟨alive, held, got, owner, -⟩ := sound.own known live
  have result : self.dropRemove index stream = { self with
      sockets := self.sockets.remove stream.handle
      streams := self.streams.modify index fun stream =>
        { stream with alive := false, stage := .gone }
      removed := self.removed ++ [index] } := by
    rw [Tunnel.dropRemove, if_pos alive, Tunnel.getMut]
    change Option.elim (self.get stream.handle) _ _ = _
    rw [got, ← owner]
    rfl
  rw [result]
  have others : ∀ {other}, other ≠ index →
      (self.streams.modify index fun stream =>
        { stream with alive := false, stage := .gone })[other]? = self.streams[other]? :=
    fun differs => List.getElem?_modify_ne _ _ (Ne.symm differs)
  have here : (self.streams.modify index fun stream =>
      { stream with alive := false, stage := .gone })[index]? =
        some { stream with alive := false, stage := .gone } := modify_here known _
  refine ⟨sound.calm, ?_, ?_, ?_, ?_⟩
  · intro other found there still
    have differs : other ≠ index := by
      rintro rfl
      cases here.symm.trans there
      exact still rfl
    have there := (others differs).symm.trans there
    obtain ⟨up, held', got', owner', kept⟩ := sound.own there still
    refine ⟨up, held', ?_, owner', kept⟩
    refine (get_remove _ _).trans ?_
    rw [if_neg, got']
    intro same
    rw [same, got] at got'
    cases got'
    exact differs (owner'.symm.trans owner)
  · intro other found there went
    by_cases same : other = index
    · subst same
      cases here.symm.trans there
      rfl
    · exact sound.gone ((others same).symm.trans there) went
  · intro handle held' got'
    have got' := (get_remove _ _).symm.trans got'
    split at got'
    · cases got'
    · obtain ⟨found, there, same, up⟩ := sound.held got'
      refine ⟨found, (others ?_).trans there, same, up⟩
      intro mine
      rw [mine, known] at there
      cases there
      exact ‹¬handle = stream.handle› same.symm
  · intro other
    have before := sound.once other
    simp only [List.count_append]
    by_cases same : other = index
    · subst same
      rw [known] at before
      rw [here, before]
      simp [live]
    · rw [others same, before, List.count_singleton, beq_false_of_ne (Ne.symm same)]
      rfl

theorem turn_cases {may : Stage → Bool} {call : WgTcpStream Address → Tunnel Socket Address}
    (turned : self.turn index may call = some next) : ∃ stream,
      self.streams[index]? = some stream ∧ may stream.stage = true ∧ call stream = next := by
  obtain ⟨stream, known, taken⟩ := Option.bind_eq_some_iff.mp turned
  split at taken
  · exact ⟨stream, known, ‹_›, Option.some.inj taken⟩
  · cases taken

/-- A stream that is not gone finds its own socket. -/
theorem Sound.getMut (sound : Sound tcp self) (known : self.streams[index]? = some stream)
    (live : stream.stage ≠ .gone) : ∃ held, self.get stream.handle = some held ∧
      held.owner = index ∧ held.Kept tcp stream.stage ∧
      ∀ use, self.getMut stream.handle use = use held := by
  obtain ⟨-, held, got, owner, kept⟩ := sound.own known live
  refine ⟨held, got, owner, kept, fun use => ?_⟩
  rw [Tunnel.getMut, got]
  rfl

/-- A call that changes nothing but the socket of its stream. -/
theorem Sound.call (sound : Sound tcp self) (known : self.streams[index]? = some stream)
    (live : stream.stage ≠ .gone) (use : Held Socket → Held Socket)
    (owner : ∀ held, (use held).owner = held.owner)
    (kept : ∀ held : Held Socket, held.Kept tcp stream.stage →
      (use held).Kept tcp stream.stage) :
    Sound tcp (self.getMut stream.handle fun held => self.put stream.handle (use held)) := by
  obtain ⟨held, got, mine, before, found⟩ := sound.getMut known live
  rw [found]
  exact sound.put known live got ((owner held).trans mine) (kept held before)

/-- The stage changes, and the socket is put back. -/
theorem Sound.advance (sound : Sound tcp self) (known : self.streams[index]? = some stream)
    (live : stream.stage ≠ .gone) (still : stage ≠ .gone)
    (found : self.get stream.handle = some held) (owner : new.owner = index)
    (before : held.Kept tcp stage) (after : new.Kept tcp stage) :
    Sound tcp ((self.put stream.handle new).setStage index stage) := by
  have staged : Sound tcp (self.setStage index stage) := by
    apply sound.setStage known live still
    intro other got
    cases found.symm.trans got
    exact before
  have moved : (self.setStage index stage).streams[index]? = some { stream with stage } :=
    modify_here known _
  have result := staged.put moved still found owner after
  exact result

theorem Sound.waitConnected [ToString Address] (documented : tcp.Documented)
    (sound : Sound tcp self) (known : self.streams[index]? = some stream)
    (connecting : stream.stage = .connecting) (elapsed : Bool) :
    Sound tcp (self.waitConnected tcp index stream elapsed) := by
  have live : stream.stage ≠ .gone := by
    rw [connecting]
    exact Stage.noConfusion
  obtain ⟨held, got, owner, kept, use⟩ := sound.getMut known live
  rw [connecting] at kept
  have spares := connected_spares documented stream.remote elapsed held.socket
  have returned : (WgTcpStream.connected tcp stream.remote elapsed held.socket).1 =
      .ready (.ok ()) ↔ tcp.state held.socket = .established := connected_ok_iff _ _
  rw [Tunnel.waitConnected, use]
  rcases asked : WgTcpStream.connected tcp stream.remote elapsed held.socket with ⟨answer, socket⟩
  rw [asked] at spares returned
  cases answer with
  | pending =>
      refine sound.put known live got ?_ ?_
      · exact owner
      · rw [connecting]
        exact kept_spares kept spares
  | ready answer =>
      cases answer with
      | error error =>
          have failed : held.Kept tcp (.failed error) := ⟨kept.1, trivial⟩
          refine sound.advance known live Stage.noConfusion got ?_ failed ?_
          · exact owner
          · exact kept_spares failed spares
      | ok done =>
          have established := returned.mp rfl
          have opened : held.Kept tcp .open := by
            refine ⟨kept.1, kept.2.1, ?_⟩
            have fits := kept.2.1
            rw [established] at fits
            exact fits.1
          refine sound.advance known live Stage.noConfusion got ?_ opened ?_
          · exact owner
          · exact kept_spares opened spares

theorem open_of_decide (there : decide (stream.stage = .open) = true) :
    stream.stage = .open ∧ stream.stage ≠ .gone := by
  have opened := of_decide_eq_true there
  exact ⟨opened, opened ▸ Stage.noConfusion⟩

theorem Sound.step [ToString Address] (documented : tcp.Documented) (sound : Sound tcp self)
    {event : Event Address} (stepped : self.step tcp event = some next) : Sound tcp next := by
  cases event with
  | connect remote =>
      cases stepped
      exact sound.connect documented remote
  | waitConnected index elapsed =>
      simp only [Tunnel.step] at stepped
      obtain ⟨stream, known, there, rfl⟩ := turn_cases stepped
      exact sound.waitConnected documented known (of_decide_eq_true there) elapsed
  | pollRead index room =>
      simp only [Tunnel.step] at stepped
      obtain ⟨stream, known, there, rfl⟩ := turn_cases stepped
      obtain ⟨opened, live⟩ := open_of_decide there
      refine sound.call known live _ (fun _ => rfl) fun held kept => ?_
      rw [opened] at kept ⊢
      exact kept_pollRead documented kept room
  | pollWrite index data =>
      simp only [Tunnel.step] at stepped
      obtain ⟨stream, known, there, rfl⟩ := turn_cases stepped
      refine sound.call known (open_of_decide there).2 _ (fun _ => rfl) fun held kept => ?_
      exact kept_spares kept (pollWrite_spares documented data held.socket)
  | pollShutdown index =>
      simp only [Tunnel.step] at stepped
      obtain ⟨stream, known, there, rfl⟩ := turn_cases stepped
      obtain ⟨opened, live⟩ := open_of_decide there
      refine sound.call known live _ (fun _ => rfl) fun held kept => ?_
      rw [opened] at kept ⊢
      exact kept_close documented kept
  | abort index =>
      simp only [Tunnel.step] at stepped
      obtain ⟨stream, known, there, rfl⟩ := turn_cases stepped
      have later := of_decide_eq_true there
      unfold Tunnel.abort
      split
      · exact sound
      · rename_i alive
        have live : stream.stage ≠ .gone := by
          intro went
          rw [sound.gone known went] at alive
          exact alive rfl
        refine sound.call known live _ (fun _ => rfl) fun held kept => ?_
        apply kept_abort documented kept
        intro early
        rw [early] at later
        rcases later with same | same | same <;> cases same
  | dropClose index =>
      simp only [Tunnel.step] at stepped
      obtain ⟨stream, known, there, rfl⟩ := turn_cases stepped
      have live := (of_decide_eq_true there).2
      obtain ⟨held, got, owner, kept, use⟩ := sound.getMut known live
      rw [Tunnel.dropClose, if_pos (sound.own known live).1, use]
      refine sound.advance known live Stage.noConfusion got ?_ ⟨kept.1, trivial⟩ ?_
      · exact owner
      · exact kept_closing documented kept
  | dropRemove index =>
      simp only [Tunnel.step] at stepped
      obtain ⟨stream, known, there, rfl⟩ := turn_cases stepped
      exact sound.dropRemove known (of_decide_eq_true there)
  | bindUdp =>
      cases stepped
      apply sound.others
      intro handle
      rw [get_add]
      split
      · subst handle
        exact (get_vacant self).symm
      · rfl
  | removeUdp handle =>
      simp only [Tunnel.step] at stepped
      split at stepped
      · cases stepped
        apply sound.others _ self.nextPort
        intro other
        rw [get_remove]
        split
        · subst other
          rw [Tunnel.get, ‹self.sockets.find handle = _›]
          rfl
        · rfl
      · cases stepped
  | poll signals =>
      cases stepped
      exact sound.poll documented signals

end Steps

end Mirage.Wg.Stream
