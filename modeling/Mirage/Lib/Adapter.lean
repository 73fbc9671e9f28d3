import Mathlib.Data.List.Basic
import Mirage.Lib.Word

/-!
A connection that sends and receives whole frames, behind a byte stream that is
polled. Each half is moved into a future while a call on it is under way and comes
back with the result. What the polls of these futures give is a script that the
half carries; what was asked of it is its log.
-/

namespace Mirage.Adapter
open Word

variable {Err Frame : Type}

inductive Poll (α : Type) where
  | pending
  | ready (value : α)
  deriving DecidableEq

section Halves

/-- A call on the writing half that has come back; of a send, how often it was
polled. -/
inductive Finished (Err : Type) where
  | send (data : Bytes) (polls : Nat) (result : Except Err Unit)
  | shutdown (result : Except Err Unit)

structure Writer (Err : Type) where
  sends : List (Poll (Except Err Unit))
  shutdowns : List (Poll (Except Err Unit))
  log : List (Finished Err)

/-- A send under way owns the half. -/
structure Sending (Err : Type) where
  writer : Writer Err
  data : Bytes
  polls : Nat

def Sending.poll (fut : Sending Err) : Sending Err ⊕ (Writer Err × Except Err Unit) :=
  match fut.writer.sends with
  | [] => .inl { fut with polls := fut.polls + 1 }
  | .pending :: rest =>
      .inl { fut with writer := { fut.writer with sends := rest }, polls := fut.polls + 1 }
  | .ready result :: rest =>
      .inr ({ fut.writer with
        sends := rest
        log := fut.writer.log ++ [.send fut.data (fut.polls + 1) result] }, result)

def Writer.pollShutdown (writer : Writer Err) : Poll (Except Err Unit) × Writer Err :=
  match writer.shutdowns with
  | [] => (.pending, writer)
  | .pending :: rest => (.pending, { writer with shutdowns := rest })
  | .ready result :: rest =>
      (.ready result, { writer with shutdowns := rest, log := writer.log ++ [.shutdown result] })

inductive WriteState (Err : Type) where
  | idle (writer : Writer Err)
  | busy (fut : Sending Err)
  | poisoned

structure Reader (Frame : Type) where
  script : List (Poll Frame)
  log : List Frame

inductive ReadState (Frame : Type) where
  | idle (reader : Reader Frame)
  | busy (reader : Reader Frame)
  | poisoned

inductive Incoming (Err : Type) where
  | closed
  | nothing
  | bytes (content : Bytes)
  | failed (error : Err)

structure Protocol (Err Frame : Type) where
  incoming : Frame → Incoming Err
  full : ∀ frame content, incoming frame = .bytes content → content ≠ []

end Halves

structure Framed (Err Frame : Type) where
  read : ReadState Frame
  write : WriteState Err
  readBuf : Bytes
  readPos : Nat
  writeErr : Option Err
  writeWaker : Option Nat

def new (reader : Reader Frame) (writer : Writer Err) : Framed Err Frame :=
  ⟨.idle reader, .idle writer, [], 0, none, none⟩

namespace Framed
variable (self : Framed Err Frame)

/-- A send under way is polled, and a writer that waits for it woken. -/
def driveWrite : Framed Err Frame × Option Nat :=
  match self.write with
  | .busy fut =>
      match fut.poll with
      | .inl fut => ({ self with write := .busy fut }, none)
      | .inr (writer, result) =>
          ({ self with
            write := .idle writer
            writeErr :=
              match result with
              | .error e => some e
              | .ok _ => self.writeErr
            writeWaker := none }, self.writeWaker)
  | _ => (self, none)

/-- Bytes of the last frame that are left. -/
def give (capacity : Nat) : Bytes × Framed Err Frame :=
  let out := (self.readBuf.drop self.readPos).take capacity
  (out, { self with readPos := self.readPos + out.length })

/-- The loop of `poll_read` behind the bytes that are left: frames are received
until one gives bytes, an end or an error, or there is none. -/
def readFrames (protocol : Protocol Err Frame) (capacity : Nat) :
    List (Poll Frame) → List Frame → Poll (Except Err Bytes) × Framed Err Frame
  | [], log => (.pending, { self with read := .busy ⟨[], log⟩ })
  | .pending :: rest, log => (.pending, { self with read := .busy ⟨rest, log⟩ })
  | .ready frame :: rest, log =>
      let reader : Reader Frame := ⟨rest, log ++ [frame]⟩
      match protocol.incoming frame with
      | .closed => (.ready (.ok []), { self with read := .idle reader })
      | .nothing => readFrames protocol capacity rest (log ++ [frame])
      | .bytes content =>
          let given := { self with
            read := .idle reader, readBuf := content, readPos := 0 }.give capacity
          (.ready (.ok given.1), given.2)
      | .failed e => (.ready (.error e), { self with read := .idle reader })

/-- No result stands for a poisoned half. -/
def pollRead (protocol : Protocol Err Frame) (capacity : Nat) :
    Option (Poll (Except Err Bytes) × Option Nat × Framed Err Frame) :=
  let driven := self.driveWrite
  let self := driven.1
  if self.readPos < self.readBuf.length then
    let given := self.give capacity
    some (.ready (.ok given.1), driven.2, given.2)
  else
    match self.read with
    | .idle reader | .busy reader =>
        let received := self.readFrames protocol capacity reader.script reader.log
        some (received.1, driven.2, received.2)
    | .poisoned => none

/-- A send of the whole buffer is begun, and polled once. -/
def beginSend (writer : Writer Err) (buf : Bytes) :
    Poll (Except Err Nat) × Framed Err Frame :=
  match (⟨writer, buf, 0⟩ : Sending Err).poll with
  | .inl fut => (.ready (.ok buf.length), { self with write := .busy fut })
  | .inr (writer, result) =>
      (.ready (result.map fun _ => buf.length), { self with write := .idle writer })

def pollWrite (waker : Nat) (buf : Bytes) : Option (Poll (Except Err Nat) × Framed Err Frame) :=
  match self.writeErr with
  | some e => some (.ready (.error e), { self with writeErr := none })
  | none =>
      match self.write with
      | .idle writer => some (self.beginSend writer buf)
      | .busy fut =>
          match fut.poll with
          | .inl fut => some (.pending, { self with write := .busy fut, writeWaker := some waker })
          | .inr (writer, .error e) =>
              some (.ready (.error e), { self with write := .idle writer, writeWaker := none })
          | .inr (writer, .ok _) =>
              some ({ self with write := .idle writer, writeWaker := none }.beginSend writer buf)
      | .poisoned => none

def pollFlush (waker : Nat) : Option (Poll (Except Err Unit) × Framed Err Frame) :=
  match self.writeErr with
  | some e => some (.ready (.error e), { self with writeErr := none })
  | none =>
      match self.write with
      | .idle writer => some (.ready (.ok ()), { self with write := .idle writer })
      | .busy fut =>
          match fut.poll with
          | .inl fut => some (.pending, { self with write := .busy fut, writeWaker := some waker })
          | .inr (writer, result) =>
              some (.ready result, { self with write := .idle writer, writeWaker := none })
      | .poisoned => none

def pollShutdown (waker : Nat) : Option (Poll (Except Err Unit) × Framed Err Frame) :=
  match self.writeErr with
  | some e => some (.ready (.error e), { self with writeErr := none })
  | none =>
      match self.write with
      | .idle writer =>
          let polled := writer.pollShutdown
          some (polled.1, { self with write := .idle polled.2 })
      | .busy fut =>
          match fut.poll with
          | .inl fut => some (.pending, { self with write := .busy fut, writeWaker := some waker })
          | .inr (writer, .error e) =>
              some (.ready (.error e), { self with write := .idle writer, writeWaker := none })
          | .inr (writer, .ok _) =>
              let polled := writer.pollShutdown
              some (polled.1, { self with write := .idle polled.2, writeWaker := none })
      | .poisoned => none

end Framed

section Traces

inductive Op where
  | read (capacity : Nat)
  | write (waker : Nat) (buf : Bytes)
  | flush (waker : Nat)
  | shutdown (waker : Nat)

inductive Out (Err : Type) where
  | read (result : Poll (Except Err Bytes)) (woken : Option Nat)
  | write (result : Poll (Except Err Nat))
  | unit (result : Poll (Except Err Unit))

def accepted : Op × Out Err → List Bytes
  | (.write _ buf, .write (.ready (.ok _))) => [buf]
  | _ => []

def reported : Op × Out Err → List Err
  | (_, .write (.ready (.error e))) => [e]
  | (_, .unit (.ready (.error e))) => [e]
  | _ => []

def delivered : Op × Out Err → Bytes
  | (_, .read (.ready (.ok bytes)) _) => bytes
  | _ => []

/-- The data of a send that did not fail at its first poll. -/
def Finished.taken : Finished Err → List Bytes
  | .send data _ (.ok _) => [data]
  | .send data polls (.error _) => if polls = 1 then [] else [data]
  | .shutdown _ => []

def Finished.errors : Finished Err → List Err
  | .send _ _ (.error e) => [e]
  | .shutdown (.error e) => [e]
  | _ => []

def Incoming.content : Incoming Err → Bytes
  | .bytes content => content
  | _ => []

/-- The writing half and what callers were told: what was accepted are the sends,
the last of them perhaps under way, and what failed was reported but for the
error that is kept. -/
def WriteKept (trace : List (Op × Out Err)) : WriteState Err → Option Err → Prop
  | .idle writer, kept =>
      trace.flatMap accepted = writer.log.flatMap Finished.taken ∧
        trace.flatMap reported ++ kept.toList = writer.log.flatMap Finished.errors
  | .busy fut, kept =>
      kept = none ∧ 0 < fut.polls ∧
        trace.flatMap accepted = fut.writer.log.flatMap Finished.taken ++ [fut.data] ∧
        trace.flatMap reported = fut.writer.log.flatMap Finished.errors
  | .poisoned, _ => False

/-- The frames that a half which is not poisoned has received. -/
def ReadState.received : ReadState Frame → Option (List Frame)
  | .idle reader | .busy reader => some reader.log
  | .poisoned => none

/-- The reading half: what was delivered and what is left are the frames. -/
def ReadKept (protocol : Protocol Err Frame) (trace : List (Op × Out Err))
    (state : ReadState Frame) (left : Bytes) : Prop :=
  ∃ log, state.received = some log ∧
    trace.flatMap delivered ++ left = log.flatMap fun frame => (protocol.incoming frame).content

structure Kept (protocol : Protocol Err Frame) (trace : List (Op × Out Err))
    (stream : Framed Err Frame) : Prop where
  write : WriteKept trace stream.write stream.writeErr
  read : ReadKept protocol trace stream.read (stream.readBuf.drop stream.readPos)

end Traces

section Writing
variable {trace : List (Op × Out Err)} {fut : Sending Err} {writer : Writer Err} {kept : Option Err}

theorem Sending.poll_cases (fut : Sending Err) :
    (∃ later, fut.poll = .inl later ∧ later.writer.log = fut.writer.log ∧
        later.data = fut.data ∧ later.polls = fut.polls + 1) ∨
      ∃ writer result, fut.poll = .inr (writer, result) ∧
        writer.log = fut.writer.log ++ [.send fut.data (fut.polls + 1) result] := by
  unfold Sending.poll
  split
  · exact .inl ⟨_, rfl, rfl, rfl, rfl⟩
  · exact .inl ⟨_, rfl, rfl, rfl, rfl⟩
  · exact .inr ⟨_, _, rfl, rfl⟩

def failure : Except Err Unit → List Err
  | .error e => [e]
  | .ok _ => []

theorem errors_send (data : Bytes) (polls : Nat) (result : Except Err Unit) :
    (Finished.send data polls result).errors = failure result := by
  cases result <;> rfl

theorem taken_later {data : Bytes} {polls : Nat} (before : 0 < polls) (result : Except Err Unit) :
    (Finished.send data (polls + 1) result).taken = [data] := by
  cases result with
  | ok _ => rfl
  | error e => exact if_neg (by omega)

theorem WriteKept.quiet {event : Op × Out Err} (taken : accepted event = [])
    (silent : reported event = []) {state : WriteState Err} (before : WriteKept trace state kept) :
    WriteKept (trace ++ [event]) state kept := by
  cases state with
  | poisoned => exact before
  | idle writer =>
      obtain ⟨data, errors⟩ := before
      simp only [WriteKept, List.flatMap_append, List.flatMap_singleton, taken, silent,
        List.append_nil]
      exact ⟨data, errors⟩
  | busy fut =>
      obtain ⟨none_, polled, data, errors⟩ := before
      simp only [WriteKept, List.flatMap_append, List.flatMap_singleton, taken, silent,
        List.append_nil]
      exact ⟨none_, polled, data, errors⟩

theorem WriteKept.pending {later : Sending Err} (before : WriteKept trace (.busy fut) kept)
    (log : later.writer.log = fut.writer.log) (data : later.data = fut.data)
    (polls : later.polls = fut.polls + 1) : WriteKept trace (.busy later) kept := by
  obtain ⟨none_, _, taken, errors⟩ := before
  refine ⟨none_, by omega, ?_, ?_⟩
  · rw [log, data]
    exact taken
  · rw [log]
    exact errors

theorem WriteKept.done {result : Except Err Unit} (before : WriteKept trace (.busy fut) kept)
    (log : writer.log = fut.writer.log ++ [.send fut.data (fut.polls + 1) result]) :
    trace.flatMap accepted = writer.log.flatMap Finished.taken ∧
      trace.flatMap reported ++ failure result = writer.log.flatMap Finished.errors := by
  obtain ⟨_, polled, taken, errors⟩ := before
  rw [log, List.flatMap_append, List.flatMap_append, List.flatMap_singleton, List.flatMap_singleton,
    taken_later polled, errors_send]
  exact ⟨taken, congrArg (· ++ failure result) errors⟩

theorem WriteKept.told {event : Op × Out Err} {result : Except Err Unit}
    (taken : accepted event = []) (tells : reported event = failure result)
    (done : trace.flatMap accepted = writer.log.flatMap Finished.taken ∧
      trace.flatMap reported ++ failure result = writer.log.flatMap Finished.errors) :
    WriteKept (trace ++ [event]) (.idle writer) none := by
  simp only [WriteKept, List.flatMap_append, List.flatMap_singleton, taken, tells, Option.toList_none,
    List.append_nil]
  exact done

theorem WriteKept.tell {event : Op × Out Err} {e : Err} {state : WriteState Err}
    (taken : accepted event = []) (tells : reported event = [e])
    (before : WriteKept trace state (some e)) : WriteKept (trace ++ [event]) state none := by
  cases state with
  | poisoned => exact before
  | busy fut => exact absurd before.1 (fun some_ => (nomatch some_))
  | idle writer =>
      obtain ⟨data, errors⟩ := before
      simp only [WriteKept, List.flatMap_append, List.flatMap_singleton, taken, tells,
        Option.toList_none, List.append_nil]
      exact ⟨data, errors⟩

end Writing

section Steps
variable {protocol : Protocol Err Frame} {trace : List (Op × Out Err)} {self : Framed Err Frame}

theorem driveWrite_kept (before : WriteKept trace self.write self.writeErr) :
    WriteKept trace self.driveWrite.1.write self.driveWrite.1.writeErr ∧
      self.driveWrite.1.read = self.read ∧ self.driveWrite.1.readBuf = self.readBuf ∧
      self.driveWrite.1.readPos = self.readPos := by
  obtain ⟨read, write, readBuf, readPos, writeErr, writeWaker⟩ := self
  cases write with
  | idle writer => exact ⟨before, rfl, rfl, rfl⟩
  | poisoned => exact absurd before id
  | busy fut =>
      rw [Framed.driveWrite]
      dsimp only
      rcases fut.poll_cases with ⟨later, polled, log, data, polls⟩ | ⟨writer, result, polled, log⟩
      · rw [polled]
        exact ⟨before.pending log data polls, rfl, rfl, rfl⟩
      · rw [polled]
        refine ⟨?_, rfl, rfl, rfl⟩
        have done := before.done log
        have none_ : writeErr = none := before.1
        cases result with
        | ok _ =>
            rw [none_]
            exact done
        | error e => exact done

theorem beginSend_kept (self : Framed Err Frame) (waker : Nat) (buf : Bytes) {writer : Writer Err}
    (before : WriteKept trace (.idle writer) none) :
    ∃ result write, self.beginSend writer buf = (result, { self with write := write }) ∧
      WriteKept (trace ++ [(.write waker buf, .write result)]) write none ∧
      ∀ n, result = .ready (.ok n) → n = buf.length := by
  obtain ⟨data, errors⟩ := before
  rw [Option.toList_none, List.append_nil] at errors
  rw [Framed.beginSend]
  rcases (⟨writer, buf, 0⟩ : Sending Err).poll_cases with
    ⟨later, polled, log, same, polls⟩ | ⟨writer', result, polled, log⟩
  · rw [polled]
    refine ⟨_, _, rfl, ⟨rfl, by omega, ?_, ?_⟩, fun n same => ?_⟩
    · rw [List.flatMap_append, List.flatMap_singleton, log, same, data]
      rfl
    · rw [List.flatMap_append, List.flatMap_singleton, log, errors]
      exact List.append_nil _
    · cases same
      rfl
  · rw [polled]
    refine ⟨_, _, rfl, ?_, fun n same => ?_⟩
    · simp only [WriteKept, log, List.flatMap_append, List.flatMap_singleton, data, errors,
        Option.toList_none, List.append_nil]
      cases result with
      | ok _ => exact ⟨rfl, rfl⟩
      | error e => exact ⟨rfl, rfl⟩
    · cases result with
      | ok _ =>
          cases same
          rfl
      | error e => cases same

theorem ReadKept.quiet {event : Op × Out Err} (silent : delivered event = [])
    {state : ReadState Frame} {left : Bytes} (before : ReadKept protocol trace state left) :
    ReadKept protocol (trace ++ [event]) state left := by
  obtain ⟨log, received, frames⟩ := before
  refine ⟨log, received, ?_⟩
  rw [List.flatMap_append, List.flatMap_singleton, silent, List.append_nil]
  exact frames

/-- Bytes that are left may be delivered later. -/
theorem ReadKept.deliver {event : Op × Out Err} {state : ReadState Frame} {left rest : Bytes}
    (given : delivered event ++ rest = left) (before : ReadKept protocol trace state left) :
    ReadKept protocol (trace ++ [event]) state rest := by
  obtain ⟨log, received, frames⟩ := before
  refine ⟨log, received, ?_⟩
  rw [List.flatMap_append, List.flatMap_singleton, List.append_assoc, given]
  exact frames

theorem pollWrite_kept (waker : Nat) (buf : Bytes) (before : Kept protocol trace self) :
    ∃ result later, self.pollWrite waker buf = some (result, later) ∧
      Kept protocol (trace ++ [(.write waker buf, .write result)]) later ∧
      (∀ n, result = .ready (.ok n) → n = buf.length) ∧
      ∀ e, self.writeErr = some e → result = .ready (.error e) := by
  obtain ⟨read, write, readBuf, readPos, writeErr, writeWaker⟩ := self
  obtain ⟨writeKept, readKept⟩ := before
  have quiet : ∀ result, ReadKept protocol (trace ++ [(.write waker buf, .write result)]) read
      (readBuf.drop readPos) := fun _ => readKept.quiet rfl
  rw [Framed.pollWrite]
  cases writeErr with
  | some e =>
      refine ⟨_, _, rfl, ⟨writeKept.tell rfl rfl, quiet _⟩, fun _ same => (by cases same),
        fun e' same => ?_⟩
      cases same
      rfl
  | none =>
      have noError : ∀ (result : Poll (Except Err Nat)) e, (none : Option Err) = some e →
          result = .ready (.error e) := fun _ _ same => (by cases same)
      cases write with
      | poisoned => exact absurd writeKept id
      | idle writer =>
          obtain ⟨result, write, begun, after, whole⟩ := beginSend_kept
            ⟨read, .idle writer, readBuf, readPos, none, writeWaker⟩ waker buf writeKept
          dsimp only
          rw [begun]
          exact ⟨_, _, rfl, ⟨after, quiet _⟩, whole, noError _⟩
      | busy fut =>
          dsimp only
          rcases fut.poll_cases with ⟨later, polled, log, data, polls⟩ | ⟨writer, result, polled, log⟩
          · rw [polled]
            exact ⟨_, _, rfl, ⟨(writeKept.pending log data polls).quiet rfl rfl, quiet _⟩,
              fun _ same => (by cases same), noError _⟩
          · rw [polled]
            have done := writeKept.done log
            cases result with
            | error e =>
                exact ⟨_, _, rfl, ⟨WriteKept.told rfl rfl done, quiet _⟩,
                  fun _ same => (by cases same), noError _⟩
            | ok _ =>
                obtain ⟨result, write, begun, after, whole⟩ := beginSend_kept
                  ⟨read, .idle writer, readBuf, readPos, none, none⟩ waker buf done
                dsimp only
                rw [begun]
                exact ⟨_, _, rfl, ⟨after, quiet _⟩, whole, noError _⟩

/-- A flush that succeeds leaves nothing under way. -/
theorem pollFlush_kept (waker : Nat) (op : Op) (taken : ∀ out : Out Err, accepted (op, out) = [])
    (before : Kept protocol trace self) :
    ∃ result later, self.pollFlush waker = some (result, later) ∧
      Kept protocol (trace ++ [(op, .unit result)]) later ∧
      (result = .ready (.ok ()) → later.writeErr = none ∧ ∃ writer, later.write = .idle writer) ∧
      ∀ e, self.writeErr = some e → result = .ready (.error e) := by
  obtain ⟨read, write, readBuf, readPos, writeErr, writeWaker⟩ := self
  obtain ⟨writeKept, readKept⟩ := before
  have quiet : ∀ result, ReadKept protocol (trace ++ [(op, .unit result)]) read
      (readBuf.drop readPos) := fun _ => readKept.quiet rfl
  rw [Framed.pollFlush]
  cases writeErr with
  | some e =>
      refine ⟨_, _, rfl, ⟨writeKept.tell (taken _) rfl, quiet _⟩, fun same => (by cases same),
        fun e' same => ?_⟩
      cases same
      rfl
  | none =>
      have noError : ∀ (result : Poll (Except Err Unit)) e, (none : Option Err) = some e →
          result = .ready (.error e) := fun _ _ same => (by cases same)
      cases write with
      | poisoned => exact absurd writeKept id
      | idle writer =>
          exact ⟨_, _, rfl, ⟨writeKept.quiet (taken _) rfl, quiet _⟩, fun _ => ⟨rfl, _, rfl⟩, noError _⟩
      | busy fut =>
          dsimp only
          rcases fut.poll_cases with ⟨later, polled, log, data, polls⟩ | ⟨writer, result, polled, log⟩
          · rw [polled]
            exact ⟨_, _, rfl, ⟨(writeKept.pending log data polls).quiet (taken _) rfl, quiet _⟩,
              fun same => (by cases same), noError _⟩
          · rw [polled]
            have tells : reported (op, .unit (.ready result)) = failure result := by
              cases result <;> rfl
            exact ⟨_, _, rfl, ⟨WriteKept.told (taken _) tells (writeKept.done log), quiet _⟩,
              fun _ => ⟨rfl, _, rfl⟩, noError _⟩

/-- What shutting down the half gives is told as it is. -/
theorem WriteKept.shutdown {waker : Nat} {writer : Writer Err}
    (before : WriteKept trace (.idle writer) none) :
    WriteKept (trace ++ [(.shutdown waker, .unit writer.pollShutdown.1)])
      (.idle writer.pollShutdown.2) none := by
  unfold Writer.pollShutdown
  split
  · exact before.quiet rfl rfl
  · exact @WriteKept.quiet _ _ _ _ rfl rfl (.idle _) before
  · next result rest _ =>
    obtain ⟨data, errors⟩ := before
    simp only [WriteKept, List.flatMap_append, List.flatMap_singleton, data, Option.toList_none,
      List.append_nil] at errors ⊢
    rw [errors]
    cases result with
    | ok _ => exact ⟨rfl, rfl⟩
    | error e => exact ⟨rfl, rfl⟩

theorem pollShutdown_kept (waker : Nat) (before : Kept protocol trace self) :
    ∃ result later, self.pollShutdown waker = some (result, later) ∧
      Kept protocol (trace ++ [(.shutdown waker, .unit result)]) later ∧
      ∀ e, self.writeErr = some e → result = .ready (.error e) := by
  obtain ⟨read, write, readBuf, readPos, writeErr, writeWaker⟩ := self
  obtain ⟨writeKept, readKept⟩ := before
  have quiet : ∀ result, ReadKept protocol (trace ++ [(.shutdown waker, .unit result)]) read
      (readBuf.drop readPos) := fun _ => readKept.quiet rfl
  rw [Framed.pollShutdown]
  cases writeErr with
  | some e =>
      refine ⟨_, _, rfl, ⟨writeKept.tell rfl rfl, quiet _⟩, fun e' same => ?_⟩
      cases same
      rfl
  | none =>
      have noError : ∀ (result : Poll (Except Err Unit)) e, (none : Option Err) = some e →
          result = .ready (.error e) := fun _ _ same => (by cases same)
      cases write with
      | poisoned => exact absurd writeKept id
      | idle writer => exact ⟨_, _, rfl, ⟨writeKept.shutdown, quiet _⟩, noError _⟩
      | busy fut =>
          dsimp only
          rcases fut.poll_cases with ⟨later, polled, log, data, polls⟩ | ⟨writer, result, polled, log⟩
          · rw [polled]
            exact ⟨_, _, rfl, ⟨(writeKept.pending log data polls).quiet rfl rfl, quiet _⟩, noError _⟩
          · rw [polled]
            have done := writeKept.done log
            cases result with
            | error e => exact ⟨_, _, rfl, ⟨WriteKept.told rfl rfl done, quiet _⟩, noError _⟩
            | ok _ => exact ⟨_, _, rfl, ⟨WriteKept.shutdown done, quiet _⟩, noError _⟩

/-- An empty read of a buffer with room is the end of the stream. -/
def AtEnd (protocol : Protocol Err Frame) (self : Framed Err Frame) : Prop :=
  ∃ reader frame before, self.read = .idle reader ∧ reader.log = before ++ [frame] ∧
    protocol.incoming frame = .closed

theorem give_left (self : Framed Err Frame) (capacity : Nat) :
    (self.give capacity).1 ++ (self.give capacity).2.readBuf.drop (self.give capacity).2.readPos =
      self.readBuf.drop self.readPos := by
  have front := List.take_prefix capacity (self.readBuf.drop self.readPos)
  have whole := List.prefix_iff_eq_append.mp front
  rw [List.drop_drop] at whole
  exact whole

theorem readFrames_kept (self : Framed Err Frame) (capacity : Nat) (op : Op) (woken : Option Nat)
    (script : List (Poll Frame)) (log : List Frame)
    (frames : trace.flatMap delivered =
      log.flatMap fun frame => (protocol.incoming frame).content)
    (nothingLeft : self.readBuf.drop self.readPos = []) :
    ∃ result later, self.readFrames protocol capacity script log = (result, later) ∧
      ReadKept protocol (trace ++ [(op, .read result woken)]) later.read
        (later.readBuf.drop later.readPos) ∧
      later.write = self.write ∧ later.writeErr = self.writeErr ∧
      (0 < capacity → result = .ready (.ok []) → AtEnd protocol later) := by
  -- where nothing is delivered the frames are those of before
  have silent : ∀ (state : ReadState Frame) (log' : List Frame) (event : Op × Out Err),
      state.received = some log' → delivered event = [] →
      log'.flatMap (fun frame => (protocol.incoming frame).content) = trace.flatMap delivered →
      ReadKept protocol (trace ++ [event]) state (self.readBuf.drop self.readPos) := by
    intro state log' event received none_ same
    refine ReadKept.quiet none_ ⟨log', received, ?_⟩
    rw [nothingLeft, List.append_nil]
    exact same.symm
  induction script generalizing log with
  | nil =>
      exact ⟨_, _, rfl, silent (.busy ⟨[], log⟩) log _ rfl rfl frames.symm, rfl, rfl,
        fun _ same => (by cases same)⟩
  | cons polled rest ih =>
      cases polled with
      | pending =>
          exact ⟨_, _, rfl, silent (.busy ⟨rest, log⟩) log _ rfl rfl frames.symm, rfl, rfl,
            fun _ same => (by cases same)⟩
      | ready frame =>
          have more : (log ++ [frame]).flatMap (fun frame => (protocol.incoming frame).content) =
              trace.flatMap delivered ++ (protocol.incoming frame).content := by
            rw [List.flatMap_append, List.flatMap_singleton, frames]
          rw [Framed.readFrames]
          cases seen : protocol.incoming frame with
          | closed =>
              rw [seen] at more
              refine ⟨_, _, rfl, silent (.idle ⟨rest, log ++ [frame]⟩) _ _ rfl rfl
                (more.trans (List.append_nil _)), rfl, rfl, fun _ _ => ?_⟩
              exact ⟨_, frame, log, rfl, rfl, seen⟩
          | nothing =>
              rw [seen] at more
              exact ih (log ++ [frame]) (more.trans (List.append_nil _)).symm
          | failed e =>
              rw [seen] at more
              exact ⟨_, _, rfl, silent (.idle ⟨rest, log ++ [frame]⟩) _ _ rfl rfl
                (more.trans (List.append_nil _)), rfl, rfl, fun _ same => (by cases same)⟩
          | bytes content =>
              rw [seen] at more
              refine ⟨_, _, rfl, ?_, rfl, rfl, fun room none_ => ?_⟩
              · exact ReadKept.deliver (give_left (⟨.idle ⟨rest, log ++ [frame]⟩, self.write, content,
                  0, self.writeErr, self.writeWaker⟩ : Framed Err Frame) capacity)
                  ⟨log ++ [frame], rfl, more.symm⟩
              · -- a frame with bytes gives one of them
                have full := protocol.full frame content seen
                have empty : content.take capacity = [] := Except.ok.inj (Poll.ready.inj none_)
                rcases List.take_eq_nil_iff.mp empty with zero | nil
                · omega
                · exact absurd nil full

theorem pollRead_kept (capacity : Nat) (before : Kept protocol trace self) :
    ∃ result woken later, self.pollRead protocol capacity = some (result, woken, later) ∧
      Kept protocol (trace ++ [(.read capacity, .read result woken)]) later ∧
      (0 < capacity → result = .ready (.ok []) → AtEnd protocol later) := by
  obtain ⟨writeKept, sameRead, sameBuf, samePos⟩ := driveWrite_kept before.write
  have readKept := before.read
  rw [← sameRead, ← sameBuf, ← samePos] at readKept
  rw [Framed.pollRead]
  generalize self.driveWrite.2 = woken
  generalize self.driveWrite.1 = driven at writeKept readKept
  dsimp only
  by_cases left : driven.readPos < driven.readBuf.length
  · rw [if_pos left]
    refine ⟨_, woken, _, rfl, ⟨writeKept.quiet rfl rfl, readKept.deliver (give_left driven capacity)⟩,
      fun room none_ => ?_⟩
    have empty : (driven.readBuf.drop driven.readPos).take capacity = [] :=
      Except.ok.inj (Poll.ready.inj none_)
    rcases List.take_eq_nil_iff.mp empty with zero | nil
    · omega
    · rw [List.drop_eq_nil_iff] at nil
      omega
  · rw [if_neg left]
    have nothingLeft : driven.readBuf.drop driven.readPos = [] :=
      List.drop_eq_nil_iff.mpr (by omega)
    obtain ⟨log, received, frames⟩ := readKept
    rw [nothingLeft, List.append_nil] at frames
    cases state : driven.read with
    | poisoned =>
        rw [state] at received
        cases received
    | idle reader =>
        rw [state] at received
        cases received
        obtain ⟨result, later, got, kept, write, err, atEnd⟩ := readFrames_kept driven capacity
          (.read capacity) woken reader.script reader.log frames nothingLeft
        dsimp only
        rw [got]
        exact ⟨result, woken, later, rfl, ⟨write ▸ err ▸ writeKept.quiet rfl rfl, kept⟩, atEnd⟩
    | busy reader =>
        rw [state] at received
        cases received
        obtain ⟨result, later, got, kept, write, err, atEnd⟩ := readFrames_kept driven capacity
          (.read capacity) woken reader.script reader.log frames nothingLeft
        dsimp only
        rw [got]
        exact ⟨result, woken, later, rfl, ⟨write ▸ err ▸ writeKept.quiet rfl rfl, kept⟩, atEnd⟩

theorem new_kept (reader : Reader Frame) (writer : Writer Err) (unread : reader.log = [])
    (unwritten : writer.log = []) : Kept protocol [] (new reader writer) where
  write := by
    refine ⟨?_, ?_⟩
    · rw [unwritten]
      rfl
    · rw [unwritten]
      rfl
  read := ⟨[], congrArg some unread, rfl⟩

end Steps

section Runs
variable {State : Type} (step : State → Op → Option (Out Err × State))

/-- What the calls were told, in order, and the state behind them. -/
def run : State → List Op → Option (List (Op × Out Err) × State)
  | state, [] => some ([], state)
  | state, op :: rest =>
      match step state op with
      | none => none
      | some (out, state) => (run state rest).map fun told => ((op, out) :: told.1, told.2)

variable {step}

theorem run_kept (Inv : List (Op × Out Err) → State → Prop)
    (keeps : ∀ trace state op, Inv trace state →
      ∃ out later, step state op = some (out, later) ∧ Inv (trace ++ [(op, out)]) later)
    (ops : List Op) {before : List (Op × Out Err)} {state : State} (start : Inv before state) :
    ∃ trace later, run step state ops = some (trace, later) ∧ Inv (before ++ trace) later := by
  induction ops generalizing before state with
  | nil => exact ⟨[], state, rfl, (List.append_nil before).symm ▸ start⟩
  | cons op rest ih =>
      obtain ⟨out, middle, stepped, kept⟩ := keeps before state op start
      obtain ⟨trace, later, ran, finish⟩ := ih kept
      refine ⟨(op, out) :: trace, later, ?_, ?_⟩
      · rw [run, stepped]
        dsimp only
        rw [ran]
        rfl
      · rw [List.append_assoc] at finish
        exact finish

end Runs

end Mirage.Adapter
