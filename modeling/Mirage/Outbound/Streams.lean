import Mirage.Lib.Adapter
import Mirage.Shadowsocks.Reader

/-!
The byte streams of proxy/mirage_stream.rs and proxy/ss_stream.rs. Both put a
connection that works by frames behind `AsyncRead` and `AsyncWrite`.
-/

namespace Mirage.Outbound
open Adapter Word

inductive ErrorKind where
  | permissionDenied
  | connectionRefused
  | other
  deriving DecidableEq

structure IoError where
  kind : ErrorKind
  text : String
  deriving DecidableEq

/-- How `recv_data` fails. -/
inductive RecvError where
  | closeNotify
  | targetUnreachable (reason : UInt8)
  | other (text : String)
  deriving DecidableEq

def targetUnreachableEgressBlocked : UInt8 := 0x02

def RecvError.toText : RecvError → String
  | .closeNotify => "peer sent TLS alert (close_notify)"
  | .targetUnreachable reason =>
      "peer reported target unreachable (reason=0x" ++
        String.ofList [Nat.digitChar (reason.toNat / 16), Nat.digitChar (reason.toNat % 16)] ++ ")"
  | .other text => text

/-- Only a close_notify, which is authenticated, is the end of the stream. -/
def recvErrToEofOrIo (e : RecvError) : Except IoError (Option Bytes) :=
  match e with
  | .closeNotify => .ok none
  | .targetUnreachable reason =>
      let kind := if reason = targetUnreachableEgressBlocked then .permissionDenied
        else .connectionRefused
      .error ⟨kind, e.toText⟩
  | .other _ => .error ⟨.other, e.toText⟩

section Mirage

/-- A record without content is no end of the stream. -/
def mirageIncoming (received : Except RecvError Bytes) : Incoming IoError :=
  let mapped : Except IoError (Option Bytes) :=
    match received with
    | .ok content => .ok (some content)
    | .error e => recvErrToEofOrIo e
  match mapped with
  | .ok none => .closed
  | .ok (some content) => if content.isEmpty then .nothing else .bytes content
  | .error e => .failed e

def mirageProtocol : Protocol IoError (Except RecvError Bytes) where
  incoming := mirageIncoming
  full frame content seen := by
    unfold mirageIncoming at seen
    dsimp only at seen
    split at seen
    · cases seen
    · split at seen
      · cases seen
      · next full =>
        cases seen
        exact fun empty => full (by rw [empty]; rfl)
    · cases seen

abbrev MirageStream := Framed IoError (Except RecvError Bytes)

namespace MirageStream

/-- A stream over a tunnel whose halves will answer as they are given. -/
def fromTunnel (received : List (Poll (Except RecvError Bytes)))
    (sends : List (Poll (Except IoError Unit))) : MirageStream :=
  new ⟨received, []⟩ ⟨sends, [], []⟩

def step (self : MirageStream) : Op → Option (Out IoError × MirageStream)
  | .read capacity =>
      (self.pollRead mirageProtocol capacity).map fun (result, woken, later) =>
        (.read result woken, later)
  | .write waker buf => (self.pollWrite waker buf).map fun (result, later) => (.write result, later)
  | .flush waker => (self.pollFlush waker).map fun (result, later) => (.unit result, later)
  -- the close_notify is left to the layer above
  | .shutdown waker => (self.pollFlush waker).map fun (result, later) => (.unit result, later)

end MirageStream

end Mirage

section Shadowsocks
variable {Err : Type}

/-- `read_chunk` gives the empty chunk at the end. -/
def ssIncoming : Except Err Bytes → Incoming Err
  | .ok content => if content.isEmpty then .closed else .bytes content
  | .error e => .failed e

def ssProtocol (Err : Type) : Protocol Err (Except Err Bytes) where
  incoming := ssIncoming
  full frame content seen := by
    unfold ssIncoming at seen
    split at seen
    · split at seen
      · cases seen
      · next full =>
        cases seen
        exact fun empty => full (by rw [empty]; rfl)
    · cases seen

structure SsStream (Err : Type) where
  halves : Framed Err (Except Err Bytes)
  shutdownDone : Bool

namespace SsStream

def new (received : List (Poll (Except Err Bytes))) (sends : List (Poll (Except Err Unit)))
    (shutdowns : List (Poll (Except Err Unit))) : SsStream Err :=
  ⟨Adapter.new ⟨received, []⟩ ⟨sends, shutdowns, []⟩, false⟩

def pollShutdown (self : SsStream Err) (waker : Nat) :
    Option (Poll (Except Err Unit) × SsStream Err) :=
  if self.shutdownDone then some (.ready (.ok ()), self)
  else
    (self.halves.pollShutdown waker).map fun (result, halves) =>
      (result, ⟨halves,
        match result with
        | .ready (.ok _) => true
        | _ => false⟩)

def step (self : SsStream Err) : Op → Option (Out Err × SsStream Err)
  | .read capacity =>
      (self.halves.pollRead (ssProtocol Err) capacity).map fun (result, woken, halves) =>
        (.read result woken, { self with halves })
  | .write waker buf =>
      (self.halves.pollWrite waker buf).map fun (result, halves) =>
        (.write result, { self with halves })
  | .flush waker =>
      (self.halves.pollFlush waker).map fun (result, halves) =>
        (.unit result, { self with halves })
  | .shutdown waker => (self.pollShutdown waker).map fun (result, later) => (.unit result, later)

end SsStream

end Shadowsocks

section Faithful
variable {Err Frame State : Type}

/-- What a call tells its caller beside what `Kept` says of all calls so far. The
stream is before and after the call; `silent` are calls that report nothing. -/
structure Told (closing : Frame) (silent : Prop) (before later : Framed Err Frame) (op : Op)
    (out : Out Err) : Prop where
  whole : ∀ waker buf n, op = .write waker buf → out = .write (.ready (.ok n)) → n = buf.length
  reports : ∀ e, before.writeErr = some e → (∀ capacity, op ≠ .read capacity) → ¬silent →
    reported (op, out) = [e]
  flushed : ∀ waker, op = .flush waker → out = .unit (.ready (.ok ())) →
    later.writeErr = none ∧ ∃ writer, later.write = .idle writer
  atEnd : ∀ capacity woken, op = .read capacity → 0 < capacity →
    out = .read (.ready (.ok [])) woken →
      ∃ reader received, later.read = .idle reader ∧ reader.log = received ++ [closing]

section Calls
variable {protocol : Protocol Err Frame} {trace : List (Op × Out Err)} {self : Framed Err Frame}
  {closing : Frame} {silent : Prop}

theorem told_read (only : ∀ frame, protocol.incoming frame = .closed → frame = closing)
    (capacity : Nat) (before : Kept protocol trace self) :
    ∃ result woken later, self.pollRead protocol capacity = some (result, woken, later) ∧
      Kept protocol (trace ++ [(.read capacity, .read result woken)]) later ∧
      Told closing silent self later (.read capacity) (.read result woken) := by
  obtain ⟨result, woken, later, polled, kept, atEnd⟩ := pollRead_kept capacity before
  refine ⟨result, woken, later, polled, kept, fun _ _ _ same => (nomatch same),
    fun _ _ other => absurd rfl (other capacity), fun _ same => (nomatch same), ?_⟩
  intro capacity' woken' sameOp room sameOut
  cases sameOp
  cases sameOut
  obtain ⟨reader, frame, received, state, log, closed⟩ := atEnd room rfl
  exact ⟨reader, received, state, only frame closed ▸ log⟩

theorem told_write (waker : Nat) (buf : Bytes) (before : Kept protocol trace self) :
    ∃ result later, self.pollWrite waker buf = some (result, later) ∧
      Kept protocol (trace ++ [(.write waker buf, .write result)]) later ∧
      Told closing silent self later (.write waker buf) (.write result) := by
  obtain ⟨result, later, polled, kept, whole, reports⟩ := pollWrite_kept waker buf before
  refine ⟨result, later, polled, kept, ?_, ?_, fun _ same => (nomatch same),
    fun _ _ same => (nomatch same)⟩
  · intro waker' buf' n sameOp sameOut
    cases sameOp
    cases sameOut
    exact whole n rfl
  · intro e isKept _ _
    rw [reports e isKept]
    rfl

theorem told_flush (waker : Nat) {op : Op} (isFlush : op = .flush waker ∨ op = .shutdown waker)
    (before : Kept protocol trace self) :
    ∃ result later, self.pollFlush waker = some (result, later) ∧
      Kept protocol (trace ++ [(op, .unit result)]) later ∧
      Told closing silent self later op (.unit result) := by
  have taken : ∀ out : Out Err, accepted (op, out) = [] := by
    rcases isFlush with rfl | rfl
    · exact fun _ => rfl
    · exact fun _ => rfl
  obtain ⟨result, later, polled, kept, flushed, reports⟩ := pollFlush_kept waker op taken before
  refine ⟨result, later, polled, kept, fun _ _ _ _ same => (nomatch same), ?_, ?_,
    fun _ _ _ _ same => (nomatch same)⟩
  · intro e isKept _ _
    rw [reports e isKept]
    rfl
  · intro _ _ sameOut
    cases sameOut
    exact flushed rfl

theorem told_shutdown (waker : Nat) (before : Kept protocol trace self) :
    ∃ result later, self.pollShutdown waker = some (result, later) ∧
      Kept protocol (trace ++ [(.shutdown waker, .unit result)]) later ∧
      Told closing silent self later (.shutdown waker) (.unit result) := by
  obtain ⟨result, later, polled, kept, reports⟩ := pollShutdown_kept waker before
  refine ⟨result, later, polled, kept, fun _ _ _ same => (nomatch same), ?_,
    fun _ same => (nomatch same), fun _ _ same => (nomatch same)⟩
  intro e isKept _ _
  rw [reports e isKept]
  rfl

end Calls

theorem mirageIncoming_closed (received : Except RecvError Bytes)
    (closed : mirageIncoming received = .closed) : received = .error .closeNotify := by
  cases received with
  | ok content =>
      rw [mirageIncoming] at closed
      split at closed
      · cases closed
      · cases closed
  | error e =>
      cases e with
      | closeNotify => rfl
      | targetUnreachable reason => cases closed
      | other text => cases closed

theorem ssIncoming_closed (received : Except Err Bytes) (closed : ssIncoming received = .closed) :
    received = .ok [] := by
  cases received with
  | error e => cases closed
  | ok content =>
      rw [ssIncoming] at closed
      split at closed
      · next empty => rw [List.isEmpty_iff.mp empty]
      · cases closed

theorem mirageStream_step {trace : List (Op × Out IoError)} (self : MirageStream) (op : Op)
    (before : Kept mirageProtocol trace self) :
    ∃ out later, self.step op = some (out, later) ∧
      Kept mirageProtocol (trace ++ [(op, out)]) later ∧
      Told (.error .closeNotify) False self later op out := by
  cases op with
  | read capacity =>
      obtain ⟨result, woken, later, polled, kept, told⟩ :=
        told_read mirageIncoming_closed capacity before
      refine ⟨_, later, ?_, kept, told⟩
      rw [MirageStream.step, polled]
      rfl
  | write waker buf =>
      obtain ⟨result, later, polled, kept, told⟩ := told_write waker buf before
      refine ⟨_, later, ?_, kept, told⟩
      rw [MirageStream.step, polled]
      rfl
  | flush waker =>
      obtain ⟨result, later, polled, kept, told⟩ := told_flush waker (.inl rfl) before
      refine ⟨_, later, ?_, kept, told⟩
      rw [MirageStream.step, polled]
      rfl
  | shutdown waker =>
      obtain ⟨result, later, polled, kept, told⟩ := told_flush waker (.inr rfl) before
      refine ⟨_, later, ?_, kept, told⟩
      rw [MirageStream.step, polled]
      rfl

theorem ssStream_step {trace : List (Op × Out Err)} (self : SsStream Err) (op : Op)
    (before : Kept (ssProtocol Err) trace self.halves) :
    ∃ out later, self.step op = some (out, later) ∧
      Kept (ssProtocol Err) (trace ++ [(op, out)]) later.halves ∧
      Told (.ok []) (self.shutdownDone = true ∧ ∃ waker, op = .shutdown waker) self.halves
        later.halves op out := by
  cases op with
  | read capacity =>
      obtain ⟨result, woken, later, polled, kept, told⟩ :=
        told_read ssIncoming_closed capacity before
      refine ⟨_, { self with halves := later }, ?_, kept, told⟩
      rw [SsStream.step, polled]
      rfl
  | write waker buf =>
      obtain ⟨result, later, polled, kept, told⟩ := told_write waker buf before
      refine ⟨_, { self with halves := later }, ?_, kept, told⟩
      rw [SsStream.step, polled]
      rfl
  | flush waker =>
      obtain ⟨result, later, polled, kept, told⟩ := told_flush waker (.inl rfl) before
      refine ⟨_, { self with halves := later }, ?_, kept, told⟩
      rw [SsStream.step, polled]
      rfl
  | shutdown waker =>
      rw [SsStream.step, SsStream.pollShutdown]
      by_cases done : self.shutdownDone = true
      · rw [if_pos done]
        exact ⟨_, self, rfl, ⟨before.write.quiet rfl rfl, before.read.quiet rfl⟩,
          fun _ _ _ same => (nomatch same), fun _ _ _ loud => absurd ⟨done, waker, rfl⟩ loud,
          fun _ same => (nomatch same), fun _ _ same => (nomatch same)⟩
      · rw [if_neg done]
        obtain ⟨result, later, polled, kept, told⟩ := told_shutdown waker before
        rw [polled]
        exact ⟨_, _, rfl, kept, told⟩

/-- Whatever is called in whatever order and however the halves answer: no call
finds a poisoned half, and `Kept` says of all calls that what was accepted was
sent, in order and once, that every failure was reported once, or is kept, and
that what was delivered are the frames; `Told` says what the last call told. -/
theorem streams_faithful :
    (∀ (received : List (Poll (Except RecvError Bytes))) (sends : List (Poll (Except IoError Unit)))
        (ops : List Op) (op : Op), ∃ trace stream out later,
      run MirageStream.step (MirageStream.fromTunnel received sends) ops = some (trace, stream) ∧
      stream.step op = some (out, later) ∧ Kept mirageProtocol (trace ++ [(op, out)]) later ∧
      Told (.error .closeNotify) False stream later op out) ∧
    ∀ (Err : Type) (received : List (Poll (Except Err Bytes)))
        (sends shutdowns : List (Poll (Except Err Unit))) (ops : List Op) (op : Op),
        ∃ trace stream out later,
      run SsStream.step (SsStream.new received sends shutdowns) ops = some (trace, stream) ∧
      stream.step op = some (out, later) ∧
      Kept (ssProtocol Err) (trace ++ [(op, out)]) later.halves ∧
      Told (.ok []) (stream.shutdownDone = true ∧ ∃ waker, op = .shutdown waker) stream.halves
        later.halves op out := by
  constructor
  · intro received sends ops op
    obtain ⟨trace, stream, ran, kept⟩ := run_kept (Kept mirageProtocol)
      (fun trace stream op before => by
        obtain ⟨out, later, stepped, kept, _⟩ := mirageStream_step stream op before
        exact ⟨out, later, stepped, kept⟩)
      ops (new_kept ⟨received, []⟩ ⟨sends, [], []⟩ rfl rfl)
    obtain ⟨out, later, stepped, after, told⟩ := mirageStream_step stream op kept
    exact ⟨trace, stream, out, later, ran, stepped, after, told⟩
  · intro Err received sends shutdowns ops op
    obtain ⟨trace, stream, ran, kept⟩ := @run_kept _ _ _
      (fun trace (stream : SsStream Err) => Kept (ssProtocol Err) trace stream.halves)
      (fun trace stream op before => by
        obtain ⟨out, later, stepped, kept, _⟩ := ssStream_step stream op before
        exact ⟨out, later, stepped, kept⟩)
      ops [] (SsStream.new received sends shutdowns)
      (new_kept ⟨received, []⟩ ⟨sends, shutdowns, []⟩ rfl rfl)
    obtain ⟨out, later, stepped, after, told⟩ := ssStream_step stream op kept
    exact ⟨trace, stream, out, later, ran, stepped, after, told⟩

end Faithful

section Unauthenticated
open Shadowsocks

/-- A Shadowsocks connection that is closed before anything was received: the
reader still waits for the salt and has no key to authenticate anything with, but
a read gives the end of the stream. -/
theorem ssStream_end_unauthenticated : ¬∀ (suite : Suite) (reader : SsReader suite)
    (capacity : Nat) (woken : Option Nat) (later : SsStream ReadError), 0 < capacity →
      (SsStream.new [.ready reader.atEnd] [] []).step (.read capacity) =
        some (.read (.ready (.ok [])) woken, later) → reader.field ≠ .salt := fun all =>
  all plainSuite (SsReader.new plainSuite .aes128Gcm [] []) 1 none _ (by decide) rfl rfl

end Unauthenticated

end Mirage.Outbound
