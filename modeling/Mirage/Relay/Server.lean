import Mirage.Lib.Trace
import Mirage.Relay.Socket
import Mirage.Shadowsocks.Reader
import Mirage.Tunnel.Aead

/-!
The server's TCP relay of proxy/mirage_server/tcp_relay.rs from the point where
its two halves start: `handle_tcp_relay` reads the target's socket itself and
`relay_via_shadowsocks` through an `SsReader`. The halves are joined in one
task, so what a half does between two awaits is one step, and the state says
which await each half stands at. What the rest of the program decides (quota and
revocation, the idle clock, the tunnel's reads and writes) comes with the event.
-/

namespace Mirage.Relay
open Word Trace Shadowsocks Tunnel

inductive UploadEnd where
  | closeNotify
  | writeFailed
  | other
  deriving DecidableEq

inductive Upload where
  | top
  | receiving
  | charging (data : Bytes)
  | writing (data : Bytes)
  | done (why : UploadEnd)
  deriving DecidableEq

inductive Download where
  | top
  | reading
  | harvesting (buf : Bytes)
  | charging (buf : Bytes)
  | sending (buf : Bytes)
  | closing
  | done (cleanEof : Bool)
  deriving DecidableEq

/-- What has been read and not sent on. -/
def Upload.held : Upload → Bytes
  | .charging data | .writing data => data
  | _ => []

def Download.held : Download → Bytes
  | .harvesting buf | .charging buf | .sending buf => buf
  | _ => []

def Download.Going (download : Download) : Prop :=
  download ≠ .closing ∧ ∀ clean, download ≠ .done clean

variable {suite : Suite}

/-- `stop_fd` is -1 once the socket is closed: the swap and the call after it are
one step. -/
structure Server (suite : Suite) where
  upstream : Socket
  upRead : Option (SsReader suite)
  upload : Upload
  download : Download
  received : Bytes
  forwarded : Bytes
  heard : Bytes
  written : Bytes
  notified : Bool

inductive UpEvent where
  | poll (stop : Bool)
  | recv (result : Except RecvError Bytes)
  | timeout
  | charge (stop : Bool)
  | write (ok : Bool)

inductive DownEvent where
  | poll (stop : Bool)
  | read (seen : Read) (now : Nat)
  | timeout
  | harvest (seen : Read)
  | charge (stop : Bool)
  | send (ok : Bool)
  | notify

inductive ServerEvent where
  | arrive (bytes : Bytes)
  | peerEnds (ending : Ending)
  | up (event : UpEvent)
  | down (event : DownEvent)

namespace Server

def start (upRead : Option (SsReader suite)) : Server suite :=
  ⟨.connected, upRead, .top, .top, [], [], [], [], false⟩

/-- The end of `upload`: the target sees a FIN only after a close_notify, or when
it no longer takes data. -/
def endUpload (self : Server suite) (why : UploadEnd) : Server suite :=
  { self with
    upload := .done why
    upstream := self.upstream.close
      (if why = .closeNotify ∨ why = .writeFailed then .fin else .rst) }

/-- The end of `download` without `clean_eof`. -/
def abandon (self : Server suite) : Server suite :=
  { self with download := .done false, upstream := self.upstream.close .rst }

/-- A read of nothing is the target's own end only while `stop_fd` is there. -/
def reachEof (self : Server suite) : Server suite :=
  if self.upstream.closed = none then { self with download := .closing, notified := true }
  else self.abandon

def stepUp (self : Server suite) (event : UpEvent) : Option (Server suite) :=
  match self.upload, event with
  | .top, .poll stop =>
      some (if stop then self.endUpload .other else { self with upload := .receiving })
  | .receiving, .recv (.ok data) =>
      some { self with upload := .charging data, heard := self.heard ++ data }
  | .receiving, .recv (.error e) =>
      some (self.endUpload (if e = .peerCloseNotify then .closeNotify else .other))
  | .receiving, .timeout => some (self.endUpload .other)
  | .charging data, .charge stop =>
      some (if stop then self.endUpload .other else { self with upload := .writing data })
  | .writing data, .write ok =>
      some (if ok then { self with upload := .top, written := self.written ++ data }
        else endUpload { self with upstream := self.upstream.writeFailed } .writeFailed)
  | _, _ => none

/-- `buf` is read on into while it has room. -/
def harvestFrom (buf : Bytes) : Download :=
  if buf.length < bufLen then .harvesting buf else .charging buf

def readDirect (self : Server suite) (upstream : Socket) : Read → Option (Server suite)
  | .data size =>
      if size ≤ bufLen then
        let bytes := self.upstream.queued.take size
        some { self with
          upstream := upstream
          download := harvestFrom bytes
          received := self.received ++ bytes }
      else none
  | .zero => some (reachEof { self with upstream })
  | .failed => some (abandon { self with upstream })
  | .wouldBlock => none

/-- The Shadowsocks path: one read of the `read_exact` under way. -/
def readChunk (self : Server suite) (reader : SsReader suite) (upstream : Socket) (now : Nat) :
    Read → Option (Server suite)
  | .data size =>
      if reader.got.length + size ≤ reader.wanted then
        match reader.feed (self.upstream.queued.take size) now with
        | .more next => some { self with upstream, upRead := some next }
        | .chunk [] next => some (reachEof { self with upstream, upRead := some next })
        | .chunk payload next => some { self with
            upstream := upstream
            upRead := some next
            download := .charging payload
            received := self.received ++ payload }
        | .failed _ => some (abandon { self with upstream })
      else none
  | .zero =>
      match reader.atEnd with
      | .ok _ => some (reachEof { self with upstream })
      | .error _ => some (abandon { self with upstream })
  | .failed => some (abandon { self with upstream })
  | .wouldBlock => none

def stepDown (self : Server suite) (event : DownEvent) : Option (Server suite) :=
  match self.download, event with
  | .top, .poll stop => some (if stop then self.abandon else { self with download := .reading })
  | .reading, .read seen now =>
      (self.upstream.observe seen).bind fun upstream =>
        match self.upRead with
        | none => self.readDirect upstream seen
        | some reader => self.readChunk reader upstream now seen
  | .reading, .timeout => some self.abandon
  | .harvesting buf, .harvest seen =>
      (self.upstream.observe seen).bind fun upstream =>
        match seen with
        | .data size =>
            if buf.length + size ≤ bufLen then
              let bytes := self.upstream.queued.take size
              some { self with
                upstream := upstream
                download := harvestFrom (buf ++ bytes)
                received := self.received ++ bytes }
            else none
        -- an error ends the harvest as an empty socket does
        | .zero | .wouldBlock | .failed => some { self with upstream, download := .charging buf }
  | .charging buf, .charge stop =>
      some (if stop then self.abandon else { self with download := .sending buf })
  | .sending buf, .send ok =>
      some (if ok then { self with download := .top, forwarded := self.forwarded ++ buf }
        else self.abandon)
  | .closing, .notify =>
      some { self with download := .done true, upstream := self.upstream.close .fin }
  | _, _ => none

def step (self : Server suite) : ServerEvent → Option (Server suite)
  | .arrive bytes => (self.upstream.arrive bytes).map fun upstream => { self with upstream }
  | .peerEnds ending => (self.upstream.peerEnds ending).map fun upstream => { self with upstream }
  | .up event => self.stepUp event
  | .down event => self.stepDown event

/-- No harvest takes the report of a reset, and no response header announces an
empty chunk. -/
def Steady (self : Server suite) : ServerEvent → Prop
  | .down (.harvest seen) => ¬ self.upstream.TakesReset seen
  | .down (.read (.data size) now) => ∀ reader, self.upRead = some reader →
      ¬ reader.AnnouncesEmpty (self.upstream.queued.take size) now
  | _ => True

structure Sound (server : Server suite) : Prop where
  carried : server.download ≠ .done false → server.received = server.forwarded ++ server.download.held
  direct : server.upRead = none → server.received = server.upstream.taken
  ended : server.download = .closing ∨ server.download = .done true →
    server.upstream.ending = .fin ∧ server.upstream.queued = []
  notified : server.notified → server.download = .closing ∨ server.download = .done true
  spent : server.upstream.ending = .spent → server.upstream.closed ≠ none
  fin : server.upstream.closed = some .fin → server.upload = .done .closeNotify ∨
    server.upload = .done .writeFailed ∨ server.download = .done true
  uploaded : (∀ why, server.upload = .done why → why = .closeNotify) →
    server.heard = server.written ++ server.upload.held

variable {self next : Server suite}

theorem start_sound (upRead : Option (SsReader suite)) : (start upRead).Sound := by
  constructor <;> simp [start, Socket.connected, Download.held, Upload.held]

theorem peer_sound (sound : self.Sound) {upstream : Socket} (live : self.upstream.ending = .live)
    (taken : upstream.taken = self.upstream.taken) (closed : upstream.closed = self.upstream.closed)
    (unspent : upstream.ending ≠ .spent) : Sound { self with upstream } where
  carried := sound.carried
  direct plain := (sound.direct plain).trans taken.symm
  ended stopped := by
    have past := (sound.ended stopped).1
    rw [live] at past
    cases past
  notified := sound.notified
  spent spent := absurd spent unspent
  fin done := sound.fin (closed ▸ done)
  uploaded := sound.uploaded

theorem endUpload_sound (sound : self.Sound) {upstream : Socket}
    (same : upstream = self.upstream ∨ upstream = self.upstream.writeFailed)
    (working : ∀ why, self.upload ≠ .done why) {why : UploadEnd}
    (whole : why = .closeNotify → self.heard = self.written) :
    (endUpload { self with upstream } why).Sound where
  carried := sound.carried
  direct plain := by
    rw [show self.received = self.upstream.taken from sound.direct plain]
    obtain rfl | rfl := same <;> simp [endUpload]
  ended stopped := by
    have past := sound.ended stopped
    obtain rfl | rfl := same <;> simpa [endUpload] using past
  notified := sound.notified
  spent _ := Socket.close_ne_none _
  fin done := by
    have before : upstream.closed = self.upstream.closed := by
      obtain rfl | rfl := same <;> simp
    obtain earlier | now := Socket.close_closed done
    · -- the download closed it, as upload was still at work
      obtain up | up | down := sound.fin (before ▸ earlier)
      · exact absurd up (working _)
      · exact absurd up (working _)
      · exact .inr (.inr down)
    · cases why with
      | closeNotify => exact .inl rfl
      | writeFailed => exact .inr (.inl rfl)
      | other => cases now
  uploaded finished := by
    simp only [endUpload, Upload.held, List.append_nil]
    exact whole (finished why rfl)

theorem abandon_sound (sound : self.Sound) (going : self.download.Going) {upstream : Socket}
    (taken : self.upRead = none → upstream.taken = self.upstream.taken)
    (closed : upstream.closed = self.upstream.closed) :
    (abandon { self with upstream }).Sound where
  carried unfinished := absurd rfl unfinished
  direct plain := by simpa [abandon, taken plain] using sound.direct plain
  ended stopped := by simp [abandon] at stopped
  notified notified := by
    obtain stopped | stopped := sound.notified notified
    · exact absurd stopped going.1
    · exact absurd stopped (going.2 _)
  spent _ := Socket.close_ne_none _
  fin done := by
    obtain earlier | now := Socket.close_closed done
    · obtain up | up | down := sound.fin (closed ▸ earlier)
      · exact .inl up
      · exact .inr (.inl up)
      · exact absurd down (going.2 _)
    · cases now
  uploaded := sound.uploaded

/-- A read or a turn of the download's loop: what is read is held until it is
sent. -/
theorem advance_sound (sound : self.Sound) (going : self.download.Going) {upstream : Socket}
    {upRead : Option (SsReader suite)} {download : Download} {bytes : Bytes}
    (goes : download.Going) (held : download.held = self.download.held ++ bytes)
    (ending : upstream.ending = self.upstream.ending)
    (closed : upstream.closed = self.upstream.closed)
    (direct : upRead = none →
      self.upRead = none ∧ upstream.taken = self.upstream.taken ++ bytes) :
    Sound { self with upstream, upRead, download, received := self.received ++ bytes } where
  carried _ := by
    show self.received ++ bytes = self.forwarded ++ download.held
    rw [held, sound.carried (going.2 false), List.append_assoc]
  direct plain := by
    obtain ⟨before, taken⟩ := direct plain
    show self.received ++ bytes = upstream.taken
    rw [taken, sound.direct before]
  ended stopped := by
    obtain stopped | stopped := stopped
    · exact absurd stopped goes.1
    · exact absurd stopped (goes.2 _)
  notified notified := by
    obtain stopped | stopped := sound.notified notified
    · exact absurd stopped going.1
    · exact absurd stopped (going.2 _)
  spent spent := by
    show upstream.closed ≠ none
    rw [closed]
    exact sound.spent (ending ▸ spent)
  fin done := by
    obtain up | up | down := sound.fin (closed ▸ done)
    · exact .inl up
    · exact .inr (.inl up)
    · exact absurd down (going.2 _)
  uploaded := sound.uploaded

theorem turn_sound (sound : self.Sound) (going : self.download.Going) {upstream : Socket}
    {download : Download} (goes : download.Going) (held : download.held = self.download.held)
    (ending : upstream.ending = self.upstream.ending)
    (closed : upstream.closed = self.upstream.closed)
    (taken : upstream.taken = self.upstream.taken) :
    Sound { self with upstream, download } := by
  have turned : Sound { self with upstream, download, received := self.received ++ [] } :=
    advance_sound sound going goes (by simpa using held) ending closed
      (fun plain => ⟨plain, by simpa using taken⟩)
  rwa [List.append_nil] at turned

/-- A read that leaves a field of the Shadowsocks stream unfinished. -/
theorem more_sound (sound : self.Sound) (going : self.download.Going) {upstream : Socket}
    {reader : SsReader suite} (ending : upstream.ending = self.upstream.ending)
    (closed : upstream.closed = self.upstream.closed) :
    Sound { self with upstream, upRead := some reader } := by
  have took : Sound { self with
      upstream := upstream
      upRead := some reader
      received := self.received ++ [] } :=
    advance_sound sound going going (by simp) ending closed nofun
  rwa [List.append_nil] at took

theorem reachEof_sound (sound : self.Sound) (reading : self.download = .reading)
    (eof : self.upstream.closed = none →
      self.upstream.queued = [] ∧ (self.upstream.ending = .fin ∨ self.upstream.ending = .spent)) :
    self.reachEof.Sound := by
  unfold reachEof
  split
  · next unclosed =>
    obtain ⟨empty, ended⟩ := eof unclosed
    have fin : self.upstream.ending = .fin := by
      obtain fin | spent := ended
      · exact fin
      · exact absurd unclosed (sound.spent spent)
    constructor
    · intro _
      have carried := sound.carried (by simp [reading])
      rwa [reading] at carried
    · exact sound.direct
    · exact fun _ => ⟨fin, empty⟩
    · exact fun _ => .inl rfl
    · exact sound.spent
    · intro done
      rw [show self.upstream.closed = none from unclosed] at done
      cases done
    · exact sound.uploaded
  · exact abandon_sound sound (by simp [reading, Download.Going]) (fun _ => rfl) rfl

theorem upload_sound (sound : self.Sound) (working : ∀ why, self.upload ≠ .done why)
    {upload : Upload} {heard written : Bytes} (whole : heard = written ++ upload.held) :
    Sound { self with upload, heard, written } where
  carried := sound.carried
  direct := sound.direct
  ended := sound.ended
  notified := sound.notified
  spent := sound.spent
  fin done := by
    obtain up | up | down := sound.fin done
    · exact absurd up (working _)
    · exact absurd up (working _)
    · exact .inr (.inr down)
  uploaded _ := whole

theorem stepUp_sound (sound : self.Sound) {event : UpEvent}
    (stepped : self.stepUp event = some next) : next.Sound := by
  by_cases finished : ∃ why, self.upload = .done why
  · obtain ⟨why, finished⟩ := finished
    simp [stepUp, finished] at stepped
  have working : ∀ why, self.upload ≠ .done why := fun why same => finished ⟨why, same⟩
  have whole : self.heard = self.written ++ self.upload.held :=
    sound.uploaded fun why same => absurd same (working why)
  unfold stepUp at stepped
  split at stepped
  case h_1 stop at_ =>
    rw [at_] at whole
    cases stepped
    split
    · exact endUpload_sound sound (.inl rfl) working nofun
    · exact upload_sound sound working whole
  case h_2 data at_ =>
    rw [at_] at whole
    cases stepped
    apply upload_sound sound working
    simp only [Upload.held, List.append_nil] at whole ⊢
    rw [whole]
  case h_3 e at_ =>
    rw [at_] at whole
    cases stepped
    apply endUpload_sound sound (.inl rfl) working
    intro _
    simpa [Upload.held] using whole
  case h_4 =>
    cases stepped
    exact endUpload_sound sound (.inl rfl) working nofun
  case h_5 data stop at_ =>
    rw [at_] at whole
    cases stepped
    split
    · exact endUpload_sound sound (.inl rfl) working nofun
    · exact upload_sound sound working whole
  case h_6 data ok at_ =>
    rw [at_] at whole
    cases stepped
    split
    · apply upload_sound sound working
      simpa [Upload.held] using whole
    · exact endUpload_sound sound (.inr rfl) working nofun
  case h_7 => cases stepped

theorem harvestFrom_going (buf : Bytes) : (harvestFrom buf).Going := by
  unfold harvestFrom
  split <;> simp [Download.Going]

@[simp] theorem harvestFrom_held (buf : Bytes) : (harvestFrom buf).held = buf := by
  unfold harvestFrom
  split <;> rfl

theorem readDirect_sound (sound : self.Sound) (reading : self.download = .reading)
    (plain : self.upRead = none) {seen : Read} {upstream : Socket}
    (observed : self.upstream.observe seen = some upstream)
    (read : self.readDirect upstream seen = some next) : next.Sound := by
  have going : self.download.Going := by simp [reading, Download.Going]
  cases seen with
  | data size =>
      simp only [readDirect, Option.ite_none_right_eq_some, Option.some.injEq] at read
      obtain ⟨_, rfl⟩ := read
      obtain ⟨_, rfl⟩ := Socket.observe_data observed
      refine advance_sound sound going (harvestFrom_going _) ?_ rfl rfl (fun _ => ⟨plain, rfl⟩)
      rw [harvestFrom_held, reading]
      rfl
  | zero =>
      cases read
      obtain ⟨rfl, eof⟩ := Socket.observe_zero observed
      exact reachEof_sound sound reading eof
  | wouldBlock => cases read
  | failed =>
      cases read
      exact abandon_sound sound going (fun _ => (Socket.observe_failed observed).2.1)
        (Socket.observe_closed observed)

theorem readChunk_sound (sound : self.Sound) (reading : self.download = .reading)
    {reader : SsReader suite} (framed : self.upRead = some reader) {seen : Read} {now : Nat}
    (steady : self.Steady (.down (.read seen now))) {upstream : Socket}
    (observed : self.upstream.observe seen = some upstream)
    (read : self.readChunk reader upstream now seen = some next) : next.Sound := by
  have going : self.download.Going := by simp [reading, Download.Going]
  have framed' : self.upRead = none → upstream.taken = self.upstream.taken := by simp [framed]
  cases seen with
  | data size =>
      obtain ⟨_, rfl⟩ := Socket.observe_data observed
      simp only [readChunk, Option.ite_none_right_eq_some] at read
      obtain ⟨_, read⟩ := read
      split at read
      · cases read
        exact more_sound sound going rfl rfl
      · next empty => exact absurd (SsReader.feed_empty empty) (steady reader framed)
      · cases read
        refine advance_sound sound going (by simp [Download.Going]) ?_ rfl rfl (by simp)
        simp [reading, Download.held]
      · cases read
        exact abandon_sound sound going framed' rfl
  | zero =>
      obtain ⟨rfl, eof⟩ := Socket.observe_zero observed
      simp only [readChunk] at read
      split at read
      · cases read
        exact reachEof_sound sound reading eof
      · cases read
        exact abandon_sound sound going framed' rfl
  | wouldBlock => cases read
  | failed =>
      cases read
      exact abandon_sound sound going framed' (Socket.observe_closed observed)

theorem harvest_sound (sound : self.Sound) {buf : Bytes} (at_ : self.download = .harvesting buf)
    {seen : Read} (steady : self.Steady (.down (.harvest seen)))
    (stepped : self.stepDown (.harvest seen) = some next) : next.Sound := by
  have going : self.download.Going := by simp [at_, Download.Going]
  simp only [stepDown, at_] at stepped
  obtain ⟨upstream, observed, stepped⟩ := Option.bind_eq_some_iff.mp stepped
  have ending := Socket.observe_ending observed steady
  have closed := Socket.observe_closed observed
  cases seen with
  | data size =>
      obtain ⟨_, rfl⟩ := Socket.observe_data observed
      simp only [Option.ite_none_right_eq_some, Option.some.injEq] at stepped
      obtain ⟨_, rfl⟩ := stepped
      refine advance_sound sound going (harvestFrom_going _) ?_ ending closed
        (fun plain => ⟨plain, rfl⟩)
      rw [harvestFrom_held, at_]
      rfl
  | zero =>
      cases stepped
      obtain ⟨rfl, _⟩ := Socket.observe_zero observed
      exact turn_sound sound going (by simp [Download.Going]) (by rw [at_]; rfl) rfl rfl rfl
  | wouldBlock =>
      cases stepped
      cases observed
      exact turn_sound sound going (by simp [Download.Going]) (by rw [at_]; rfl) rfl rfl rfl
  | failed =>
      cases stepped
      exact turn_sound sound going (by simp [Download.Going]) (by rw [at_]; rfl) ending closed
        (Socket.observe_failed observed).2.1

theorem sent_sound (sound : self.Sound) {buf : Bytes} (at_ : self.download = .sending buf) :
    Sound { self with download := .top, forwarded := self.forwarded ++ buf } where
  carried _ := by
    have carried := sound.carried (by simp [at_])
    rw [at_] at carried
    simpa [Download.held] using carried
  direct := sound.direct
  ended stopped := by simp at stopped
  notified notified := by simpa [at_] using sound.notified notified
  spent := sound.spent
  fin done := by simpa [at_] using sound.fin done
  uploaded := sound.uploaded

theorem closed_sound (sound : self.Sound) (at_ : self.download = .closing) :
    Sound { self with download := .done true, upstream := self.upstream.close .fin } where
  carried _ := by
    have carried := sound.carried (by simp [at_])
    rwa [at_] at carried
  direct plain := by simpa using sound.direct plain
  ended _ := by simpa using sound.ended (.inl at_)
  notified _ := .inr rfl
  spent _ := Socket.close_ne_none _
  fin _ := .inr (.inr rfl)
  uploaded := sound.uploaded

theorem stepDown_sound (sound : self.Sound) {event : DownEvent} (steady : self.Steady (.down event))
    (stepped : self.stepDown event = some next) : next.Sound := by
  unfold stepDown at stepped
  split at stepped
  case h_1 stop at_ =>
    have going : self.download.Going := by simp [at_, Download.Going]
    cases stepped
    split
    · exact abandon_sound sound going (fun _ => rfl) rfl
    · exact turn_sound sound going (by simp [Download.Going]) (by rw [at_]; rfl) rfl rfl rfl
  case h_2 seen now at_ =>
    obtain ⟨upstream, observed, stepped⟩ := Option.bind_eq_some_iff.mp stepped
    split at stepped
    · next plain => exact readDirect_sound sound at_ plain observed stepped
    · next reader framed => exact readChunk_sound sound at_ framed steady observed stepped
  case h_3 at_ =>
    cases stepped
    exact abandon_sound sound (by simp [at_, Download.Going]) (fun _ => rfl) rfl
  case h_4 buf seen at_ =>
    exact harvest_sound sound at_ steady (by simpa only [stepDown, at_] using stepped)
  case h_5 buf stop at_ =>
    have going : self.download.Going := by simp [at_, Download.Going]
    cases stepped
    split
    · exact abandon_sound sound going (fun _ => rfl) rfl
    · exact turn_sound sound going (by simp [Download.Going]) (by rw [at_]; rfl) rfl rfl rfl
  case h_6 buf ok at_ =>
    have going : self.download.Going := by simp [at_, Download.Going]
    cases stepped
    split
    · exact sent_sound sound at_
    · exact abandon_sound sound going (fun _ => rfl) rfl
  case h_7 at_ =>
    cases stepped
    exact closed_sound sound at_
  case h_8 => cases stepped

theorem step_sound (sound : self.Sound) {event : ServerEvent} (steady : self.Steady event)
    (stepped : self.step event = some next) : next.Sound := by
  cases event with
  | arrive bytes =>
      obtain ⟨upstream, arrived, rfl⟩ := Option.map_eq_some_iff.mp stepped
      obtain ⟨live, rfl⟩ := Socket.arrive_cases arrived
      exact peer_sound sound live rfl rfl (by simp [live])
  | peerEnds ending =>
      obtain ⟨upstream, ended, rfl⟩ := Option.map_eq_some_iff.mp stepped
      obtain ⟨live, unspent, rfl⟩ := Socket.peerEnds_cases ended
      exact peer_sound sound live rfl rfl unspent
  | up event => exact stepUp_sound sound stepped
  | down event => exact stepDown_sound sound steady stepped

end Server
end Mirage.Relay
