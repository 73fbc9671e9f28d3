import Mirage.Lib.Trace
import Mirage.Relay.Socket
import Mirage.Tunnel.Aead

/-!
The client's TCP relay of proxy/handler.rs: `upload` from the local socket into
the tunnel and `download` back, joined in one task as on the server. A tunnel
that rides on another stream has no descriptor, and then its write side cannot
be shut down alone.
-/

namespace Mirage.Relay
open Word Trace Tunnel

namespace Client

inductive Upload where
  | reading
  | harvesting (buf : Bytes)
  | sending (buf : Bytes)
  | closing
  | draining
  | done
  deriving DecidableEq

inductive DownloadEndReason where
  | closeNotify
  | targetUnreachable
  | peerError
  | idleTimeout
  | localWriteErr
  deriving DecidableEq

inductive Download where
  | receiving
  | writing (data : Bytes)
  | draining (truncated : Bool) (endReason : DownloadEndReason)
  | done (endReason : DownloadEndReason)
  deriving DecidableEq

def Upload.going : Upload → Bool
  | .reading | .harvesting _ | .sending _ => true
  | _ => false

def Upload.held : Upload → Bytes
  | .harvesting buf | .sending buf => buf
  | _ => []

end Client

structure Client where
  activeFd : Bool
  source : Socket
  upload : Client.Upload
  download : Client.Download
  localAborted : Bool
  localEof : Bool
  forwarded : Bytes
  notified : Bool
  transportShut : Bool
  delivered : Bytes
  localFin : Bool
  deriving DecidableEq

namespace Client

inductive UpEvent where
  | read (seen : Read)
  | timeout
  | harvest (seen : Read)
  | send (ok : Bool)
  | closed
  | drain (seen : Read)
  | drainTimeout

inductive DownEvent where
  | recv (result : Except RecvError Bytes)
  | timeout
  | write (ok : Bool)
  | drained

inductive Event where
  | arrive (bytes : Bytes)
  | peerEnds (ending : Ending)
  | up (event : UpEvent)
  | down (event : DownEvent)

def start (activeFd : Bool) : Client :=
  ⟨activeFd, .connected, .reading, .receiving, false, false, [], false, false, [], false⟩

def harvestFrom (buf : Bytes) : Upload :=
  if buf.length < bufLen then .harvesting buf else .sending buf

/-- The local application has ended its stream, unless this side did. -/
def reachEof (self : Client) : Client :=
  if self.localAborted then { self with upload := .draining }
  else { self with upload := .closing, localEof := true, notified := true }

/-- A read error: close the tunnel's write side, or send close_notify where that
would not reach the server. -/
def reachError (self : Client) : Client :=
  if self.localAborted then { self with upload := .draining }
  else if self.activeFd then
    { self with upload := .closing, localEof := true, transportShut := true }
  else { self with upload := .closing, localEof := true, notified := true }

/-- The socket after the read is `source`. -/
def readLocal (self : Client) (source : Socket) : Read → Option Client
  | .data size =>
      if size ≤ bufLen then
        some { self with source, upload := harvestFrom (self.source.queued.take size) }
      else none
  | .zero => some (reachEof { self with source })
  | .failed => some (reachError { self with source })
  | .wouldBlock => none

def stepUp (self : Client) (event : UpEvent) : Option Client :=
  match self.upload, event with
  | .reading, .read seen =>
      (self.source.observe seen).bind fun source => self.readLocal source seen
  | .reading, .timeout => some { self with upload := .draining }
  | .harvesting buf, .harvest seen =>
      (self.source.observe seen).bind fun source =>
        match seen with
        | .data size =>
            if buf.length + size ≤ bufLen then
              some { self with
                source := source
                upload := harvestFrom (buf ++ self.source.queued.take size) }
            else none
        -- an error ends the harvest as an empty socket does
        | .zero | .wouldBlock | .failed => some { self with source, upload := .sending buf }
  | .sending buf, .send ok =>
      some (if ok then { self with upload := .reading, forwarded := self.forwarded ++ buf }
        else { self with upload := .draining })
  | .closing, .closed => some { self with upload := .draining }
  -- what is left in the socket is read and dropped
  | .draining, .drain seen =>
      (self.source.observe seen).bind fun source =>
        match seen with
        | .data _ => some { self with source }
        | .zero | .failed => some { self with source, upload := .done }
        | .wouldBlock => none
  | .draining, .drainTimeout => some { self with upload := .done }
  | _, _ => none

def endReason : RecvError → Bool × DownloadEndReason
  | .peerCloseNotify => (false, .closeNotify)
  | .peerTargetUnreachable _ => (true, .targetUnreachable)
  | _ => (true, .peerError)

/-- The local application sees a reset if the stream to it was cut short and it
has not ended its own. -/
def endDownload (self : Client) (truncated : Bool) (reason : DownloadEndReason) : Client :=
  if truncated && !self.localEof then
    { self with
      download := .done reason
      localAborted := true
      source := self.source.close .rst }
  else { self with download := .done reason, localFin := true }

def stepDown (self : Client) (event : DownEvent) : Option Client :=
  match self.download, event with
  | .receiving, .recv (.ok data) => some { self with download := .writing data }
  | .receiving, .recv (.error e) =>
      some { self with download := .draining (endReason e).1 (endReason e).2 }
  | .receiving, .timeout => some { self with download := .draining true .idleTimeout }
  | .writing data, .write ok =>
      some (if ok then { self with download := .receiving, delivered := self.delivered ++ data }
        else { self with
          source := self.source.writeFailed
          download := .draining false .localWriteErr })
  | .draining truncated reason, .drained => some (self.endDownload truncated reason)
  | _, _ => none

def step (self : Client) : Event → Option Client
  | .arrive bytes => (self.source.arrive bytes).map fun source => { self with source }
  | .peerEnds ending => (self.source.peerEnds ending).map fun source => { self with source }
  | .up event => self.stepUp event
  | .down event => self.stepDown event

/-- No harvest and no write takes the report of a reset. -/
def Steady (self : Client) : Event → Prop
  | .up (.harvest seen) => ¬ self.source.TakesReset seen
  | .down (.write ok) => ok = false → self.source.ending ≠ .reset
  | _ => True

structure Sound (client : Client) : Prop where
  carried : client.upload.going → client.source.taken = client.forwarded ++ client.upload.held
  told : client.notified → client.upload.going = false ∧ client.source.queued = [] ∧
    client.source.taken = client.forwarded ∧
    (client.source.ending = .fin ∨ client.activeFd = false ∧ client.source.ending = .spent)
  aborted : client.source.closed ≠ none → client.localAborted
  spent : client.source.ending = .spent → client.upload.going → client.localAborted

variable {self next : Client}

theorem start_sound (activeFd : Bool) : (start activeFd).Sound := by
  constructor <;> simp [start, Socket.connected, Upload.held]

theorem peer_sound (sound : self.Sound) {source : Socket} (live : self.source.ending = .live)
    (taken : source.taken = self.source.taken) (closed : source.closed = self.source.closed)
    (unspent : source.ending ≠ .spent) : Sound { self with source } where
  carried going := taken.trans (sound.carried going)
  told notified := by simpa [live] using (sound.told notified).2.2.2
  aborted shut := sound.aborted (closed ▸ shut)
  spent spent := absurd spent unspent

/-- Everything the upload has read is in its buffer or sent, as long as its loop
runs. -/
theorem advance_sound (sound : self.Sound) (going : self.upload.going) {source : Socket}
    {upload : Upload} {bytes : Bytes} (held : upload.held = self.upload.held ++ bytes)
    (ending : source.ending = self.source.ending) (closed : source.closed = self.source.closed)
    (taken : source.taken = self.source.taken ++ bytes) :
    Sound { self with source, upload } where
  carried _ := by
    show source.taken = self.forwarded ++ upload.held
    rw [taken, held, sound.carried going, List.append_assoc]
  told notified := by
    have stopped := (sound.told notified).1
    rw [going] at stopped
    cases stopped
  aborted shut := sound.aborted (closed ▸ shut)
  spent spent _ := sound.spent (ending ▸ spent) going

theorem leave_sound (sound : self.Sound) (going : self.upload.going) {source : Socket}
    (closed : source.closed = self.source.closed) {upload : Upload} (left : upload.going = false)
    (localEof transportShut : Bool) :
    Sound { self with source, upload, localEof, transportShut } where
  carried going := by
    rw [show upload.going = false from left] at going
    cases going
  told notified := by
    have stopped := (sound.told notified).1
    rw [going] at stopped
    cases stopped
  aborted shut := sound.aborted (closed ▸ shut)
  spent _ going := by
    rw [show upload.going = false from left] at going
    cases going

theorem reachEof_sound (sound : self.Sound) (going : self.upload.going)
    (held : self.upload.held = [])
    (eof : self.source.closed = none →
      self.source.queued = [] ∧ (self.source.ending = .fin ∨ self.source.ending = .spent)) :
    self.reachEof.Sound := by
  unfold reachEof
  split
  · exact leave_sound sound going rfl rfl self.localEof self.transportShut
  · next unaborted =>
    have unclosed : self.source.closed = none := by
      by_contra shut
      exact unaborted (sound.aborted shut)
    obtain ⟨empty, ended⟩ := eof unclosed
    have fin : self.source.ending = .fin := by
      obtain fin | spent := ended
      · exact fin
      · exact absurd (sound.spent spent going) unaborted
    have carried := sound.carried going
    rw [held, List.append_nil] at carried
    constructor
    · exact nofun
    · exact fun _ => ⟨rfl, empty, carried, .inl fin⟩
    · exact sound.aborted
    · exact nofun

theorem reachError_sound (sound : self.Sound) (going : self.upload.going)
    (held : self.upload.held = []) {source : Socket}
    (observed : self.source.observe .failed = some source) :
    (reachError { self with source }).Sound := by
  have closed := Socket.observe_closed observed
  obtain ⟨queued, taken, error⟩ := Socket.observe_failed observed
  unfold reachError
  split
  · exact leave_sound sound going closed rfl self.localEof self.transportShut
  · next unaborted =>
    split
    · exact leave_sound sound going closed rfl true true
    · next nested =>
      -- the reset goes out as a clean end: there is no write side to shut down
      have unclosed : self.source.closed = none := by
        by_contra shut
        exact unaborted (sound.aborted shut)
      obtain ⟨empty, spent⟩ := error unclosed
      have carried := sound.carried going
      rw [held, List.append_nil] at carried
      constructor
      · exact nofun
      · refine fun _ => ⟨rfl, queued.trans empty, taken.trans carried, .inr ⟨?_, spent⟩⟩
        simpa using nested
      · exact fun shut => sound.aborted (closed ▸ shut)
      · exact nofun

/-- Once close_notify is out there is nothing left to drop. -/
theorem drain_sound (sound : self.Sound) {seen : Read} {source : Socket} (observed : self.source.observe seen = some source) {upload : Upload}
    (stays : upload.going = false) : Sound { self with source, upload } where
  carried going := by
    rw [show upload.going = false from stays] at going
    cases going
  told notified := by
    obtain ⟨_, empty, taken, ended⟩ := sound.told notified
    have past : ¬ self.source.TakesReset seen := by
      cases seen with
      | failed =>
          rintro ⟨_, reset⟩
          simp [reset] at ended
      | _ => exact id
    have ending := Socket.observe_ending observed past
    refine ⟨stays, ?_, ?_, by simpa [ending] using ended⟩
    all_goals
      cases seen with
      | data size => exact absurd empty (Socket.observe_data observed).1
      | zero =>
          obtain ⟨rfl, _⟩ := Socket.observe_zero observed
          assumption
      | wouldBlock =>
          cases observed
          assumption
      | failed =>
          obtain ⟨queued, same, _⟩ := Socket.observe_failed observed
          simp only [queued, same, empty, taken]
  aborted shut := sound.aborted (Socket.observe_closed observed ▸ shut)
  spent _ going := by
    rw [show upload.going = false from stays] at going
    cases going

@[simp] theorem harvestFrom_held (buf : Bytes) : (harvestFrom buf).held = buf := by
  unfold harvestFrom
  split <;> rfl

theorem readLocal_sound (sound : self.Sound) (reading : self.upload = .reading) {seen : Read}
    {source : Socket} (observed : self.source.observe seen = some source)
    (read : self.readLocal source seen = some next) : next.Sound := by
  have going : self.upload.going := by rw [reading]; rfl
  have held : self.upload.held = [] := by rw [reading]; rfl
  cases seen with
  | data size =>
      simp only [readLocal, Option.ite_none_right_eq_some, Option.some.injEq] at read
      obtain ⟨_, rfl⟩ := read
      obtain ⟨_, rfl⟩ := Socket.observe_data observed
      refine advance_sound sound going ?_ rfl rfl rfl
      rw [harvestFrom_held, held, List.nil_append]
  | zero =>
      cases read
      obtain ⟨rfl, eof⟩ := Socket.observe_zero observed
      exact reachEof_sound sound going held eof
  | wouldBlock => cases read
  | failed =>
      cases read
      exact reachError_sound sound going held observed

theorem harvest_sound (sound : self.Sound) {buf : Bytes} (harvesting : self.upload = .harvesting buf)
    {seen : Read} (steady : self.Steady (.up (.harvest seen)))
    (stepped : self.stepUp (.harvest seen) = some next) : next.Sound := by
  have going : self.upload.going := by rw [harvesting]; rfl
  have held : self.upload.held = buf := by rw [harvesting]; rfl
  simp only [stepUp, harvesting] at stepped
  obtain ⟨source, observed, stepped⟩ := Option.bind_eq_some_iff.mp stepped
  have ending := Socket.observe_ending observed steady
  have closed := Socket.observe_closed observed
  have kept : (Upload.sending buf).held = self.upload.held ++ [] := by
    rw [held, List.append_nil]
    rfl
  cases seen with
  | data size =>
      simp only [Option.ite_none_right_eq_some, Option.some.injEq] at stepped
      obtain ⟨_, rfl⟩ := stepped
      obtain ⟨_, rfl⟩ := Socket.observe_data observed
      refine advance_sound sound going ?_ rfl rfl rfl
      rw [harvestFrom_held, held]
  | zero =>
      cases stepped
      obtain ⟨rfl, _⟩ := Socket.observe_zero observed
      exact advance_sound sound going kept rfl rfl (by simp)
  | wouldBlock =>
      cases stepped
      cases observed
      exact advance_sound sound going kept rfl rfl (by simp)
  | failed =>
      cases stepped
      have taken := (Socket.observe_failed observed).2.1
      exact advance_sound sound going kept ending closed (by simp [taken])

theorem sent_sound (sound : self.Sound) {buf : Bytes} (sending : self.upload = .sending buf) :
    Sound { self with upload := .reading, forwarded := self.forwarded ++ buf } where
  carried _ := by
    have carried := sound.carried (by rw [sending]; rfl)
    rw [sending] at carried
    simpa [Upload.held] using carried
  told notified := by
    have stopped := (sound.told notified).1
    rw [sending] at stopped
    cases stopped
  aborted := sound.aborted
  spent spent _ := sound.spent spent (by rw [sending]; rfl)

theorem stepUp_sound (sound : self.Sound) {event : UpEvent} (steady : self.Steady (.up event))
    (stepped : self.stepUp event = some next) : next.Sound := by
  unfold stepUp at stepped
  split at stepped
  case h_1 seen reading =>
    obtain ⟨source, observed, stepped⟩ := Option.bind_eq_some_iff.mp stepped
    exact readLocal_sound sound reading observed stepped
  case h_2 reading =>
    cases stepped
    exact leave_sound sound (by rw [reading]; rfl) rfl rfl self.localEof self.transportShut
  case h_3 buf seen harvesting =>
    exact harvest_sound sound harvesting steady (by simpa only [stepUp, harvesting] using stepped)
  case h_4 buf ok sending =>
    cases stepped
    split
    · exact sent_sound sound sending
    · exact leave_sound sound (by rw [sending]; rfl) rfl rfl self.localEof self.transportShut
  case h_5 closing =>
    cases stepped
    exact drain_sound sound (show self.source.observe .wouldBlock = some _ from rfl) rfl
  case h_6 seen draining =>
    have left : self.upload.going = false := by rw [draining]; rfl
    obtain ⟨source, observed, stepped⟩ := Option.bind_eq_some_iff.mp stepped
    split at stepped
    · cases stepped
      exact drain_sound sound observed left
    · cases stepped
      exact drain_sound sound observed rfl
    · cases stepped
      exact drain_sound sound observed rfl
    · cases stepped
  case h_7 draining =>
    cases stepped
    exact drain_sound sound (show self.source.observe .wouldBlock = some _ from rfl) rfl
  case h_8 => cases stepped

theorem download_sound (sound : self.Sound) (download : Download) (delivered : Bytes)
    (localFin : Bool) : Sound { self with download, delivered, localFin } :=
  ⟨sound.carried, sound.told, sound.aborted, sound.spent⟩

theorem endDownload_sound (sound : self.Sound) (truncated : Bool) (reason : DownloadEndReason) :
    (self.endDownload truncated reason).Sound := by
  unfold endDownload
  split
  · constructor
    · simpa using sound.carried
    · simpa using sound.told
    · exact fun _ => rfl
    · exact fun _ _ => rfl
  · exact download_sound sound _ _ _

theorem stepDown_sound (sound : self.Sound) {event : DownEvent}
    (steady : self.Steady (.down event)) (stepped : self.stepDown event = some next) :
    next.Sound := by
  unfold stepDown at stepped
  split at stepped
  case h_1 | h_2 | h_3 =>
    cases stepped
    exact download_sound sound _ _ _
  case h_4 data ok writing =>
    cases stepped
    split
    · exact download_sound sound _ _ _
    · next failed =>
      have kept : self.source.writeFailed = self.source := if_neg (steady (by simpa using failed))
      rw [kept]
      exact download_sound sound _ _ _
  case h_5 truncated reason draining =>
    cases stepped
    exact endDownload_sound sound truncated reason
  case h_6 => cases stepped

theorem step_sound (sound : self.Sound) {event : Event} (steady : self.Steady event)
    (stepped : self.step event = some next) : next.Sound := by
  cases event with
  | arrive bytes =>
      obtain ⟨source, arrived, rfl⟩ := Option.map_eq_some_iff.mp stepped
      obtain ⟨live, rfl⟩ := Socket.arrive_cases arrived
      exact peer_sound sound live rfl rfl (by simp [live])
  | peerEnds ending =>
      obtain ⟨source, ended, rfl⟩ := Option.map_eq_some_iff.mp stepped
      obtain ⟨live, unspent, rfl⟩ := Socket.peerEnds_cases ended
      exact peer_sound sound live rfl rfl unspent
  | up event => exact stepUp_sound sound steady stepped
  | down event => exact stepDown_sound sound steady stepped

end Client
end Mirage.Relay
