import Mathlib.Data.List.Forall2
import Mirage.Lib.Buffer
import Mirage.Lib.Vectors

/-!
TLS records as the stream of them that a server sends, and the checks of
crypto/handshake_cache.rs that walk it: what is in a template, and the noise put
into its encrypted records.
-/

namespace Mirage.Tls
open Word Vectors
open Buffer (overwrite overwrite_at overwrite_length)

structure Record where
  contentType : UInt8
  version : Bytes
  body : Bytes
  versionSize : version.length = 2
  fits : body.length < 256 ^ 2

namespace Record

def bytes (record : Record) : Bytes :=
  record.contentType :: (record.version ++ vector 2 record.body)

@[simp] theorem bytes_length (record : Record) :
    record.bytes.length = 5 + record.body.length := by
  simp [bytes, record.versionSize]
  omega

/-- What an observer sees of a record that is encrypted. -/
def shape (record : Record) : UInt8 × Bytes × Nat :=
  (record.contentType, record.version, record.body.length)

variable {front rest : Bytes} (record : Record)

theorem byteAt_type : byteAt (front ++ (record.bytes ++ rest)) front.length =
    record.contentType := by
  rw [byteAt_skip (Nat.le_refl _), Nat.sub_self]
  rfl

theorem beAt_length : beAt 2 (front ++ (record.bytes ++ rest)) (front.length + 3) =
    record.body.length := by
  have split : record.bytes ++ rest = (record.contentType :: record.version) ++
      (toBe 2 record.body.length ++ (record.body ++ rest)) := by
    simp [bytes, vector]
  have size : (record.contentType :: record.version).length = 3 := by
    simp [record.versionSize]
  rw [beAt_skip (Nat.le_add_right _ _), Nat.add_sub_cancel_left, split,
    beAt_skip (Nat.le_of_eq size), size, Nat.sub_self, beAt_toBe record.fits]

theorem exists_front {data : Bytes} (header : 5 ≤ data.length)
    (whole : 5 + beAt 2 data 3 ≤ data.length) :
    ∃ (record : Record) (rest : Bytes), data = record.bytes ++ rest ∧
      record.body.length = beAt 2 data 3 := by
  obtain ⟨first, more, rfl, one⟩ := @exists_cut data 1 (by omega)
  obtain ⟨contentType, rfl⟩ := List.length_eq_one_iff.mp one
  obtain ⟨version, more, rfl, two⟩ := @exists_cut more 2 (by simp at header; omega)
  obtain ⟨number, more, rfl, width⟩ := @exists_cut more 2 (by simp [two] at header; omega)
  have length : beAt 2 ([contentType] ++ (version ++ (number ++ more))) 3 = ofBe number := by
    have here := @beAt_here more number
    rw [width] at here
    rw [beAt_skip (by simp), List.length_singleton, beAt_skip (by omega), two]
    exact here
  have small := ofBe_lt number
  rw [length] at whole ⊢
  obtain ⟨body, rest, rfl, size⟩ := @exists_cut more (ofBe number)
    (by simp [two, width] at whole; omega)
  refine ⟨⟨contentType, version, body, two, by rw [size, ← width]; exact small⟩, rest, ?_, size⟩
  simp [bytes, vector, size, ← width, toBe_ofBe]

end Record

section Streams

def stream (records : List Record) : Bytes := records.flatMap Record.bytes

@[simp] theorem stream_nil : stream [] = [] := rfl

@[simp] theorem stream_cons (record : Record) (rest : List Record) :
    stream (record :: rest) = record.bytes ++ stream rest := List.flatMap_cons

/-- The walk of `template_is_complete`, with the types seen so far. -/
def completeFrom (t : Bytes) (pos : Nat) (sh ccs enc : Bool) : Bool :=
  if bound : pos + 5 ≤ t.length then
    let ct := byteAt t pos
    let len := beAt 2 t (pos + 3)
    if t.length < pos + 5 + len then false
    else completeFrom t (pos + 5 + len) (sh || ct == 0x16) (ccs || ct == 0x14) (enc || ct == 0x17)
  else pos == t.length && sh && ccs && enc
termination_by t.length - pos

/-- Whole records of all three types a client waits for. -/
def templateIsComplete (t : Bytes) : Bool := completeFrom t 0 false false false

theorem completeFrom_stream (records : List Record) (front : Bytes) (sh ccs enc : Bool) :
    completeFrom (front ++ stream records) front.length sh ccs enc =
      ((sh || records.any (·.contentType == 0x16)) && (ccs || records.any (·.contentType == 0x14)) &&
        (enc || records.any (·.contentType == 0x17))) := by
  induction records generalizing front sh ccs enc with
  | nil =>
      rw [completeFrom, dif_neg (by simp)]
      simp
  | cons record rest ih =>
      have bound : front.length + 5 ≤ (front ++ stream (record :: rest)).length := by
        simp
        omega
      have size : front.length + 5 + record.body.length = (front ++ record.bytes).length := by
        simp
        omega
      have whole : ¬(front ++ (record.bytes ++ stream rest)).length <
          front.length + 5 + record.body.length := by
        simp
        omega
      rw [completeFrom, dif_pos bound]
      simp only [stream_cons, record.byteAt_type, record.beAt_length, if_neg whole]
      rw [size, ← List.append_assoc, ih]
      simp [Bool.or_assoc]

theorem templateIsComplete_stream (records : List Record) :
    templateIsComplete (stream records) =
      (records.any (·.contentType == 0x16) && records.any (·.contentType == 0x14) &&
        records.any (·.contentType == 0x17)) := by
  simpa [templateIsComplete] using completeFrom_stream records [] false false false

/-- Whether a template is complete is a matter of the types of its records. -/
theorem templateIsComplete_types {records others : List Record}
    (same : records.map Record.contentType = others.map Record.contentType) :
    templateIsComplete (stream records) = templateIsComplete (stream others) := by
  have any : ∀ type, records.any (·.contentType == type) = others.any (·.contentType == type) := by
    intro type
    have mapped := congrArg (List.any · (· == type)) same
    simpa [List.any_map, Function.comp_def] using mapped
  rw [templateIsComplete_stream, templateIsComplete_stream, any, any, any]

theorem exists_stream {t : Bytes} {pos : Nat} {sh ccs enc : Bool} (inside : pos ≤ t.length)
    (complete : completeFrom t pos sh ccs enc = true) :
    ∃ records, t.drop pos = stream records := by
  induction pos, sh, ccs, enc using completeFrom.induct t with
  | case1 pos sh ccs enc bound len cut =>
      rw [completeFrom, dif_pos bound] at complete
      simp only [len] at cut
      simp [cut] at complete
  | case2 pos sh ccs enc bound ct len whole ih =>
      rw [completeFrom, dif_pos bound] at complete
      simp only [len] at whole ih
      rw [if_neg whole] at complete
      obtain ⟨rest, tail⟩ := ih (by omega) complete
      have length : beAt 2 (t.drop pos) 3 = beAt 2 t (pos + 3) := by
        simp [beAt]
      obtain ⟨record, more, split, size⟩ := @Record.exists_front (t.drop pos)
        (by simp; omega) (by simp [length]; omega)
      refine ⟨record :: rest, ?_⟩
      have behind : t.drop (pos + 5 + beAt 2 t (pos + 3)) = more := by
        rw [Nat.add_assoc, ← List.drop_drop, split, ← length, ← size]
        exact List.drop_left' record.bytes_length
      rw [stream_cons, split, ← tail, behind]
  | case3 pos sh ccs enc bound =>
      rw [completeFrom, dif_neg bound] at complete
      simp only [Bool.and_eq_true, beq_iff_eq] at complete
      exact ⟨[], by rw [complete.1.1.1, List.drop_length]; rfl⟩

end Streams

section Noise

def fill (noise : Nat → UInt8) (start len : Nat) : Bytes :=
  (List.range len).map fun i => noise (start + i)

@[simp] theorem fill_length (noise : Nat → UInt8) (start len : Nat) :
    (fill noise start len).length = len := by
  simp [fill]

/-- `rand::fill` on the body of one record. -/
def refill (noise : Nat → UInt8) (buf : Bytes) (pos recLen : Nat) : Bytes :=
  if byteAt buf pos = 0x17 then overwrite buf (pos + 5) (fill noise (pos + 5) recLen) else buf

theorem refill_length {noise : Nat → UInt8} {buf : Bytes} {pos recLen : Nat}
    (inside : pos + 5 + recLen ≤ buf.length) :
    (refill noise buf pos recLen).length = buf.length := by
  unfold refill
  split
  · exact overwrite_length (by rw [fill_length]; exact inside)
  · rfl

/-- `randomize_encrypted_records` from a record on. -/
def randomizeFrom (noise : Nat → UInt8) (buf : Bytes) (pos : Nat) : Bytes :=
  if bound : pos + 5 ≤ buf.length then
    let recLen := beAt 2 buf (pos + 3)
    if cut : buf.length < pos + 5 + recLen then buf
    else randomizeFrom noise (refill noise buf pos recLen) (pos + 5 + recLen)
  else buf
termination_by buf.length - pos
decreasing_by
  rw [refill_length (Nat.not_lt.mp cut)]
  omega

/-- One record with other contents, where they are encrypted. -/
def Refilled (old new : Record) : Prop :=
  new.shape = old.shape ∧ (old.contentType ≠ 0x17 → new = old)

theorem Refilled.types {records others : List Record} (refilled : List.Forall₂ Refilled records others) :
    records.map Record.contentType = others.map Record.contentType := by
  induction refilled with
  | nil => rfl
  | cons one _ ih =>
      have type := congrArg (fun seen => seen.1) one.1
      exact congrArg₂ List.cons type.symm ih

theorem refill_record (noise : Nat → UInt8) (front rest : Bytes) (record : Record) :
    ∃ new, Refilled record new ∧
      refill noise (front ++ (record.bytes ++ rest)) front.length record.body.length =
        front ++ (new.bytes ++ rest) := by
  by_cases encrypted : record.contentType = 0x17
  · let body := fill noise (front.length + 5) record.body.length
    have size : body.length = record.body.length := fill_length _ _ _
    refine ⟨⟨record.contentType, record.version, body, record.versionSize, size ▸ record.fits⟩,
      ⟨by simp [Record.shape, size], fun plain => absurd encrypted plain⟩, ?_⟩
    rw [refill, record.byteAt_type, if_pos encrypted]
    have split : front ++ (record.bytes ++ rest) =
        (front ++ record.contentType :: (record.version ++ toBe 2 record.body.length)) ++
          (record.body ++ rest) := by
      simp [Record.bytes, vector]
    have reached : (front ++ record.contentType :: (record.version ++
        toBe 2 record.body.length)).length = front.length + 5 := by
      simp [record.versionSize]
    rw [split, overwrite_at reached size]
    simp [Record.bytes, vector, size, body]
  · exact ⟨record, ⟨rfl, fun _ => rfl⟩, by rw [refill, record.byteAt_type, if_neg encrypted]⟩

theorem randomizeFrom_stream (noise : Nat → UInt8) (records : List Record) (front : Bytes) :
    ∃ new, List.Forall₂ Refilled records new ∧
      randomizeFrom noise (front ++ stream records) front.length = front ++ stream new := by
  induction records generalizing front with
  | nil =>
      refine ⟨[], .nil, ?_⟩
      rw [randomizeFrom, dif_neg (by simp)]
  | cons record rest ih =>
      obtain ⟨one, refilled, written⟩ := refill_record noise front (stream rest) record
      obtain ⟨others, tail, walked⟩ := ih (front ++ one.bytes)
      have same : one.body.length = record.body.length := congrArg (·.2.2) refilled.1
      have size : front.length + 5 + record.body.length = (front ++ one.bytes).length := by
        simp [same]
        omega
      have bound : front.length + 5 ≤ (front ++ (record.bytes ++ stream rest)).length := by
        simp
        omega
      have whole : ¬(front ++ (record.bytes ++ stream rest)).length <
          front.length + 5 + record.body.length := by
        simp
        omega
      refine ⟨one :: others, .cons refilled tail, ?_⟩
      rw [randomizeFrom, stream_cons, dif_pos bound]
      simp only [record.beAt_length, dif_neg whole]
      rw [written, size, ← List.append_assoc, walked, stream_cons, List.append_assoc]

end Noise

end Mirage.Tls
