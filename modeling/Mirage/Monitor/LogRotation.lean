import Mirage.Lib.Places
import Mirage.Lib.Trace
import Mirage.Lib.Word

/-!
Log rotation, `RotatingFile` and `FileLogger` of monitor.rs. The writer holds a
lock, the compression threads do not, so each file operation of either is one
event. An archive file is known by a number of its own, which a rename keeps;
`compress` is the encoder of the gzip library.
-/

namespace Mirage.Monitor
open Word

structure Settings where
  rotateAt : Nat
  keepArchives : Nat

def logRotateBytes : Nat := 10 * 1024 * 1024

def logKeepArchives : Nat := 10

/-- `FileLogger::with_settings`. -/
def withSettings (rotateMb : Option UInt64) (keepArchives : Option Nat) : Settings :=
  { rotateAt :=
      match rotateMb with
      | some mb => if 0 < mb then (mb * 1024 * 1024).toNat else logRotateBytes
      | none => logRotateBytes
    keepArchives := keepArchives.getD logKeepArchives }

/-- How far the writer is in `rotate`; `left` counts the archive numbers that
are still to be moved up. -/
inductive Stage where
  | idle
  | remove
  | shift (left : Nat)
  | reopen (pending : Bytes)
  deriving DecidableEq

namespace Stage

/-- The file that was renamed and has no thread yet. -/
def pending : Stage → List Bytes
  | reopen pending => [pending]
  | idle | remove | shift _ => []

/-- The current file is about to be renamed. -/
def rotating : Stage → Nat
  | remove | shift _ => 1
  | idle | reopen _ => 0

end Stage

/-- How far a thread is in `gzip_file`, and in which file. -/
inductive Phase where
  | waiting
  | writing (file offset : Nat)
  | ended (file : Option Nat)
  | done
  deriving DecidableEq

structure Thread where
  pending : Bytes
  phase : Phase
  deriving DecidableEq

namespace Thread

def isDone (thread : Thread) : Bool := thread.phase = .done

def isWaiting (thread : Thread) : Bool := thread.phase = .waiting

def target (thread : Thread) : Option Nat :=
  match thread.phase with
  | .writing file _ => some file
  | .ended file => file
  | .waiting | .done => none

end Thread

def pendingOf (threads : List Thread) : List Bytes :=
  (threads.filter fun thread => !thread.isDone).map Thread.pending

/-- `archives i` is the file `.{i}.gz`; `named` says that the open file still
stands at its path; `log` is all that was written. -/
structure RotatingFile where
  current : Bytes
  named : Bool
  written : Nat
  stage : Stage
  archives : Nat → Option Nat
  contents : Nat → Bytes
  nextFile : Nat
  threads : List Thread
  log : Bytes

def writeAt (data : Bytes) (offset : Nat) (chunk : Bytes) : Bytes :=
  (data ++ List.replicate (offset - data.length) 0).take offset ++ chunk ++
    data.drop (offset + chunk.length)

inductive Move where
  | open_
  | copy (n : Nat)
  | finish
  | fail
  | cleanup

/-- `torn` is a write that fails after some of its bytes; `swap` and `reopen`
say which of their file operations succeed. -/
inductive Event where
  | write (buf : Bytes)
  | torn (part : Bytes)
  | remove
  | shift
  | swap (renamed : Bool)
  | reopen (opened restored : Bool)
  | thread (id : Nat) (move : Move)

namespace RotatingFile
open Places

section Steps
variable (compress : Bytes → Bytes) (settings : Settings)

def setThread (file : RotatingFile) (id : Nat) (thread : Thread) : RotatingFile :=
  { file with threads := file.threads.set id thread }

def advance (file : RotatingFile) (id : Nat) (thread : Thread) : Move → Option RotatingFile
  | .open_ =>
      if thread.phase = .waiting then
        match file.archives 1 with
        | some target =>
            some ({ file with contents := Function.update file.contents target [] }.setThread id
              { thread with phase := .writing target 0 })
        | none =>
            some ({ file with
              archives := Function.update file.archives 1 (some file.nextFile)
              contents := Function.update file.contents file.nextFile []
              nextFile := file.nextFile + 1 }.setThread id
              { thread with phase := .writing file.nextFile 0 })
      else none
  | .copy n =>
      match thread.phase with
      | .writing target offset =>
          let chunk := ((compress thread.pending).drop offset).take n
          some ({ file with
            contents := Function.update file.contents target
              (writeAt (file.contents target) offset chunk) }.setThread id
            { thread with phase := .writing target (offset + chunk.length) })
      | _ => none
  | .finish =>
      match thread.phase with
      | .writing target offset =>
          if (compress thread.pending).length ≤ offset then
            some (file.setThread id { thread with phase := .ended (some target) })
          else none
      | _ => none
  | .fail =>
      match thread.phase with
      | .waiting => some (file.setThread id { thread with phase := .ended none })
      | .writing target _ =>
          some (file.setThread id { thread with phase := .ended (some target) })
      | _ => none
  | .cleanup =>
      match thread.phase with
      | .ended _ => some (file.setThread id { thread with phase := .done })
      | _ => none

def step (file : RotatingFile) : Event → Option RotatingFile
  | .write buf =>
      if file.stage = .idle then
        let written := file.written + buf.length
        some { file with
          current := file.current ++ buf
          log := file.log ++ buf
          written
          stage := if settings.rotateAt ≤ written then .remove else .idle }
      else none
  | .torn part =>
      if file.stage = .idle then
        some { file with current := file.current ++ part, log := file.log ++ part }
      else none
  | .remove =>
      if file.stage = .remove then
        some { file with
          archives := Function.update file.archives settings.keepArchives none
          stage := .shift (settings.keepArchives - 1) }
      else none
  | .shift =>
      match file.stage with
      | .shift (left + 1) =>
          some { file with archives := moveUp file.archives (left + 1), stage := .shift left }
      | _ => none
  | .swap renamed =>
      if file.stage = .shift 0 then
        if renamed then
          if file.named then
            some { file with current := [], stage := .reopen file.current }
          else none
        else some { file with written := 0, stage := .idle }
      else none
  | .reopen opened restored =>
      match file.stage with
      | .reopen pending =>
          if opened then
            some { file with
              written := 0
              stage := .idle
              threads := file.threads ++ [⟨pending, .waiting⟩] }
          else some { file with current := pending, named := restored, stage := .idle }
      | _ => none
  | .thread id move =>
      match file.threads[id]? with
      | some thread => file.advance compress id thread move
      | none => none

end Steps

/-- A log of some length, and the archives that earlier runs left, oldest first. -/
def start (compress : Bytes → Bytes) (old : List Bytes) (tail : Bytes) : RotatingFile :=
  { current := tail
    named := true
    written := tail.length
    stage := .idle
    archives := fun i => if 1 ≤ i ∧ i ≤ old.length then some (i - 1) else none
    contents := fun file => compress (old.reverse.getD file [])
    nextFile := old.length
    threads := []
    log := old.flatten ++ tail }

section Promise

/-- The files that wait for their archive, the oldest first. -/
def pending (file : RotatingFile) : List Bytes := pendingOf file.threads ++ file.stage.pending

/-- No other archive number is ever used. -/
def topNumber (settings : Settings) : Nat := max settings.keepArchives 1

/-- The archives from the highest number down; what a thread still writes does
not count before its pending file is gone. -/
def archived (settings : Settings) (file : RotatingFile) : List Bytes :=
  ((listing file.archives (topNumber settings)).filter fun archive =>
    file.threads.all fun thread => thread.target ≠ some archive).map file.contents

structure Promise (compress : Bytes → Bytes) (settings : Settings) (file : RotatingFile) :
    Prop where
  kept : ∃ pruned segments : List Bytes,
    file.log = (pruned ++ segments ++ file.pending).flatten ++ file.current ∧
      file.archived settings = segments.map compress ∧
      (pruned = [] ∨
        settings.keepArchives ≤ segments.length + file.pending.length + file.stage.rotating)
  few : (∀ thread ∈ file.threads, thread.isDone) →
    (listing file.archives (topNumber settings)).length ≤ settings.keepArchives
  beyond : ∀ i, topNumber settings < i → file.archives i = none

/-- The writer moves `.1.gz` away only when no thread has still to open it, a
new thread starts when the others are done, and nothing fails. -/
def Careful (settings : Settings) (file : RotatingFile) : Event → Prop
  | .remove => settings.keepArchives = 1 → ∀ thread ∈ file.threads, ¬thread.isWaiting
  | .shift => file.stage = .shift 1 → ∀ thread ∈ file.threads, ¬thread.isWaiting
  | .swap renamed => renamed
  | .reopen opened _ => opened ∧ ∀ thread ∈ file.threads, thread.isDone
  | .thread _ .fail => False
  | _ => True

instance (settings : Settings) (file : RotatingFile) (event : Event) :
    Decidable (Careful settings file event) :=
  match event with
  | .remove => inferInstanceAs (Decidable (_ → _))
  | .shift => inferInstanceAs (Decidable (_ → _))
  | .swap renamed => inferInstanceAs (Decidable (renamed = true))
  | .reopen _ _ => inferInstanceAs (Decidable (_ ∧ _))
  | .thread _ .fail => .isFalse id
  | .thread _ .open_ | .thread _ (.copy _) | .thread _ .finish | .thread _ .cleanup
  | .write _ | .torn _ => .isTrue trivial

end Promise

end RotatingFile

end Mirage.Monitor
