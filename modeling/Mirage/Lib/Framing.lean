import Mathlib.Data.List.Forall2
import Mirage.Lib.Word

/-!
Frames cut from a growing buffer. A parser looks at the front of the buffer and
waits, or takes some of it; a receiver keeps what is left over between the
chunks it is given. Where the chunks were cut never matters.
-/

namespace Mirage.Framing
open Word

/-- What stands at the front of a buffer: nothing yet, or how many items the
frame takes and what it holds. More input never changes a verdict. -/
structure FrameParser (Item Frame : Type) where
  parse : List Item → Option (Nat × Frame)
  consumes : ∀ buffer used frame, parse buffer = some (used, frame) →
    0 < used ∧ used ≤ buffer.length
  stable : ∀ buffer more verdict, parse buffer = some verdict →
    parse (buffer ++ more) = some verdict

structure Receiver (Item Frame : Type) where
  buffer : List Item
  frames : List Frame
  closed : Bool
  deriving DecidableEq

variable {Item Frame : Type} (parser : FrameParser Item Frame)

/-- Every frame the buffer holds, and what is left of it. -/
def drain (buffer : List Item) : List Frame × List Item :=
  match _verdict : parser.parse buffer with
  | none => ([], buffer)
  | some (used, frame) =>
      let later := drain (buffer.drop used)
      (frame :: later.1, later.2)
termination_by buffer.length
decreasing_by
  have := parser.consumes buffer used frame ‹_›
  simp only [List.length_drop]
  omega

/-- One turn of a read loop, which gives up when too much is left over. -/
def Receiver.feed (limit : Nat) (receiver : Receiver Item Frame) (chunk : List Item) :
    Receiver Item Frame :=
  if receiver.closed then receiver
  else
    let drained := drain parser (receiver.buffer ++ chunk)
    { buffer := drained.2
      frames := receiver.frames ++ drained.1
      closed := decide (limit < drained.2.length) }

def receive (limit : Nat) (chunks : List (List Item)) : Receiver Item Frame :=
  chunks.foldl (Receiver.feed parser limit) ⟨[], [], false⟩

theorem drain_waiting {buffer : List Item} (waiting : parser.parse buffer = none) :
    drain parser buffer = ([], buffer) := by
  rw [drain]
  split
  · rfl
  · rename_i found
    rw [waiting] at found
    cases found

theorem drain_taken {buffer : List Item} {used : Nat} {frame : Frame}
    (taken : parser.parse buffer = some (used, frame)) :
    drain parser buffer =
      (frame :: (drain parser (buffer.drop used)).1, (drain parser (buffer.drop used)).2) := by
  rw [drain]
  split
  · rename_i found
    rw [taken] at found
    cases found
  · rename_i found
    rw [taken] at found
    cases found
    rfl

theorem drain_nil : drain parser [] = ([], []) := by
  cases verdict : parser.parse [] with
  | none => exact drain_waiting parser verdict
  | some taken =>
      have := parser.consumes [] taken.1 taken.2 verdict
      simp at this
      omega

theorem parse_leftover (buffer : List Item) : parser.parse (drain parser buffer).2 = none := by
  induction buffer using drain.induct parser with
  | case1 buffer waiting => rwa [drain_waiting parser waiting]
  | case2 buffer used frame taken ih => rwa [drain_taken parser taken]

/-- Draining early and then going on finds the frames of the whole buffer. -/
theorem drain_append (buffer more : List Item) :
    drain parser (buffer ++ more) =
      ((drain parser buffer).1 ++ (drain parser ((drain parser buffer).2 ++ more)).1,
        (drain parser ((drain parser buffer).2 ++ more)).2) := by
  induction buffer using drain.induct parser with
  | case1 buffer waiting => simp [drain_waiting parser waiting]
  | case2 buffer used frame taken ih =>
      have within := (parser.consumes buffer used frame taken).2
      rw [drain_taken parser (parser.stable buffer more _ taken),
        List.drop_append_of_le_length within, ih, drain_taken parser taken]
      rfl

/-- However the input was cut, a receiver that never has to give up ends with
the frames of the whole of it. -/
theorem receive_eq_drain {limit : Nat}
    (bounded : ∀ buffer, parser.parse buffer = none → buffer.length ≤ limit)
    (chunks : List (List Item)) :
    receive parser limit chunks =
      ⟨(drain parser chunks.flatten).2, (drain parser chunks.flatten).1, false⟩ := by
  have inside : ∀ buffer, decide (limit < (drain parser buffer).2.length) = false := by
    intro buffer
    have := bounded _ (parse_leftover parser buffer)
    simpa using this
  -- The invariant: what was kept and what came out are those of the input so far.
  have invariant : ∀ (input : List Item) (later : List (List Item)),
      later.foldl (Receiver.feed parser limit)
          ⟨(drain parser input).2, (drain parser input).1, false⟩ =
        ⟨(drain parser (input ++ later.flatten)).2,
          (drain parser (input ++ later.flatten)).1, false⟩ := by
    intro input later
    induction later generalizing input with
    | nil => simp
    | cons chunk later ih =>
        have fed : Receiver.feed parser limit
            ⟨(drain parser input).2, (drain parser input).1, false⟩ chunk =
              ⟨(drain parser (input ++ chunk)).2, (drain parser (input ++ chunk)).1, false⟩ := by
          simp only [Receiver.feed, Bool.false_eq_true, ↓reduceIte, inside,
            drain_append parser input chunk]
        rw [List.foldl_cons, fed, ih (input ++ chunk), List.flatten_cons, List.append_assoc]
  simpa [receive, drain_nil] using invariant [] chunks

/-- `items` is one whole frame, which stands for `frame`. -/
def Encodes (items : List Item) (frame : Frame) : Prop :=
  parser.parse items = some (items.length, frame)

theorem drain_frames {encoded : List (List Item)} {frames : List Frame}
    (whole : List.Forall₂ (Encodes parser) encoded frames) :
    drain parser encoded.flatten = (frames, []) := by
  induction whole with
  | nil => exact drain_nil parser
  | cons one rest ih =>
      rw [List.flatten_cons, drain_taken parser (parser.stable _ _ _ one)]
      simp [ih]

/-- A read loop that never gives up. -/
def collect (chunks : List (List Item)) : List Frame × List Item :=
  chunks.foldl (fun kept chunk =>
    let drained := drain parser (kept.2 ++ chunk)
    (kept.1 ++ drained.1, drained.2)) ([], [])

theorem collect_eq_drain (chunks : List (List Item)) :
    collect parser chunks = drain parser chunks.flatten := by
  have invariant : ∀ (input : List Item) (later : List (List Item)),
      later.foldl (fun kept chunk =>
          let drained := drain parser (kept.2 ++ chunk)
          (kept.1 ++ drained.1, drained.2)) (drain parser input) =
        drain parser (input ++ later.flatten) := by
    intro input later
    induction later generalizing input with
    | nil => simp
    | cons chunk later ih =>
        have whole := (drain_append parser input chunk).symm
        rw [List.foldl_cons, List.flatten_cons, ← List.append_assoc, ← ih]
        exact congrArg (fun kept => later.foldl _ kept) whole
  have drained := invariant [] chunks
  rwa [drain_nil, List.nil_append] at drained

section LengthPrefixed

/-- A frame behind its length in two bytes; `body` reads what stands inside. -/
def lengthPrefixed (body : Bytes → Frame) (buf : Bytes) : Option (Nat × Frame) :=
  if buf.length < 2 then none
  else
    let total := 2 + ofBe (buf.take 2)
    if buf.length < total then none else some (total, body ((buf.take total).drop 2))

variable {body : Bytes → Frame}

theorem lengthPrefixed_eq_some {buf : Bytes} {used : Nat} {frame : Frame}
    (taken : lengthPrefixed body buf = some (used, frame)) :
    2 ≤ used ∧ used ≤ buf.length ∧ used = 2 + ofBe (buf.take 2) ∧
      frame = body ((buf.take used).drop 2) := by
  rw [lengthPrefixed] at taken
  split at taken
  · cases taken
  · simp only at taken
    split at taken
    · cases taken
    · cases taken
      exact ⟨by omega, by omega, rfl, rfl⟩

theorem lengthPrefixed_stable {buf : Bytes} {verdict : Nat × Frame} (more : Bytes)
    (taken : lengthPrefixed body buf = some verdict) :
    lengthPrefixed body (buf ++ more) = some verdict := by
  obtain ⟨used, frame⟩ := verdict
  obtain ⟨two, within, length, reads⟩ := lengthPrefixed_eq_some taken
  have field : (buf ++ more).take 2 = buf.take 2 := List.take_append_of_le_length (by omega)
  have whole : (buf ++ more).take used = buf.take used := List.take_append_of_le_length within
  simp only [lengthPrefixed, field, ← length, whole, ← reads, List.length_append]
  rw [if_neg (by omega), if_neg (by omega)]

theorem ofBe_two_le (bytes : Bytes) : ofBe (bytes.take 2) ≤ 65535 := by
  match bytes with
  | [] => decide
  | [a] =>
      have := a.toNat_lt
      simp [ofBe]
      omega
  | a :: b :: _ =>
      have := a.toNat_lt
      have := b.toNat_lt
      simp [ofBe]
      omega

theorem lengthPrefixed_waiting {buf : Bytes} (waiting : lengthPrefixed body buf = none) :
    buf.length < 2 + 65535 := by
  have := ofBe_two_le buf
  rw [lengthPrefixed] at waiting
  split at waiting
  · omega
  · simp only at waiting
    split at waiting
    · omega
    · cases waiting

theorem lengthPrefixed_frame (body : Bytes → Frame) {inside : Bytes} (fits : inside.length ≤ 65535) :
    lengthPrefixed body (toBe 2 inside.length ++ inside) =
      some ((toBe 2 inside.length ++ inside).length, body inside) := by
  have field : (toBe 2 inside.length ++ inside).take 2 = toBe 2 inside.length :=
    List.take_left' (by simp)
  have length : ofBe (toBe 2 inside.length) = inside.length := ofBe_toBe (by omega)
  have whole : (toBe 2 inside.length ++ inside).length = 2 + inside.length := by simp
  simp only [lengthPrefixed, field, length, whole]
  rw [if_neg (by omega), if_neg (by omega), List.take_of_length_le (by omega),
    List.drop_left' (by simp)]

def lengthPrefixedParser (body : Bytes → Frame) : FrameParser UInt8 Frame where
  parse := lengthPrefixed body
  consumes _ _ _ taken := by
    obtain ⟨two, within, -⟩ := lengthPrefixed_eq_some taken
    exact ⟨by omega, within⟩
  stable _ more _ := lengthPrefixed_stable more

/-- Bodies behind their lengths come out one by one, and nothing is left. -/
theorem drain_prefixed (body : Bytes → Frame) {bodies : List Bytes}
    (fit : ∀ inside ∈ bodies, inside.length ≤ 65535) :
    drain (lengthPrefixedParser body)
        (bodies.map fun inside => toBe 2 inside.length ++ inside).flatten =
      (bodies.map body, []) := by
  apply drain_frames
  rw [List.forall₂_map_left_iff, List.forall₂_map_right_iff, List.forall₂_same]
  intro inside member
  exact lengthPrefixed_frame body (fit inside member)

end LengthPrefixed

end Mirage.Framing
