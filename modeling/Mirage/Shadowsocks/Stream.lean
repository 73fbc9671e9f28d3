import Mathlib.Data.List.Basic
import Mirage.Shadowsocks.Writer

/-!
Streams of chunks, from a peer that keeps to the specification of its method and
from `SsWriter`, and what `read_chunk` makes of them. A stream may stop anywhere.
`Tolerated` says of the sizes and the place where the stream stops what makes
the reading right.
-/

namespace Mirage.Shadowsocks
open Word

variable {suite : Suite}

/-- The longest payload of a chunk: 14 bits in SIP004, 16 bits in SIP022. -/
def Method.specChunk (method : Method) : Nat := if method.is2022 then 0xFFFF else 0x3FFF

def Conforming (method : Method) (payload : Bytes) : Prop :=
  0 < payload.length ∧ payload.length ≤ method.specChunk

instance (method : Method) (payload : Bytes) : Decidable (Conforming method payload) :=
  inferInstanceAs (Decidable (_ ∧ _))

namespace Crypter

def sealChunk (self : Crypter suite) (payload : Bytes) : Bytes × Crypter suite :=
  let length := self.sealInPlace (be16 payload.length)
  let body := length.2.sealInPlace payload
  (length.1 ++ body.1, body.2)

def sealChunks (self : Crypter suite) : List Bytes → Bytes
  | [] => []
  | payload :: rest => (self.sealChunk payload).1 ++ sealChunks (self.sealChunk payload).2 rest

end Crypter

/-- The fixed header of a response, ahead of its first payload. -/
def responseHeader (ts : Nat) (reqSalt : Bytes) (size : Nat) : Bytes :=
  ss2022TypeServer :: toBe 8 ts ++ reqSalt ++ be16 size

/-- The stream of a peer; in SIP022 the header announces the first payload. -/
def peerStream (suite : Suite) (method : Method) (master salt reqSalt : Bytes) (ts : Nat)
    (payloads : List Bytes) : Bytes :=
  let crypter := Crypter.new suite method (sessionKey suite method master salt)
  if method.is2022 then
    match payloads with
    | [] => []
    | first :: rest =>
        let header := crypter.sealInPlace (responseHeader ts reqSalt first.length)
        let body := header.2.sealInPlace first
        salt ++ header.1 ++ body.1 ++ body.2.sealChunks rest
  else salt ++ crypter.sealChunks payloads

namespace SsReader

/-- The chunks a caller gets, and how reading ends: with the empty result or with
an error. The socket gives one byte at a time, see `feed_append`. -/
def read (self : SsReader suite) (now : Nat) : Bytes → List Bytes × Except ReadError Unit
  | [] => ([], self.atEnd.map fun _ => ())
  | byte :: rest =>
      match self.feed [byte] now with
      | .more next => read next now rest
      | .chunk payload next =>
          if payload = [] then ([], .ok ())
          else (payload :: (read next now rest).1, (read next now rest).2)
      | .failed error => ([], .error error)

end SsReader

/-- The payloads that have arrived whole in `count` bytes of chunks, and whether
the stream stops after the last of them. -/
def arrivedChunks : List Bytes → Nat → List Bytes × Bool
  | [], _ => ([], true)
  | payload :: rest, count =>
      let size := (2 + tagLen) + (payload.length + tagLen)
      if count < size then ([], count = 0)
      else (payload :: (arrivedChunks rest (count - size)).1, (arrivedChunks rest (count - size)).2)

def arrived (method : Method) (payloads : List Bytes) (count : Nat) : List Bytes × Bool :=
  if method.is2022 then
    match payloads with
    | [] => ([], true)
    | first :: rest =>
        let size := method.keyLen + (1 + 8 + method.keyLen + 2 + tagLen) + (first.length + tagLen)
        if count < size then ([], count = 0)
        else (first :: (arrivedChunks rest (count - size)).1, (arrivedChunks rest (count - size)).2)
  else if count < method.keyLen then ([], count = 0)
  else arrivedChunks payloads (count - method.keyLen)

/-- Every chunk that has arrived whole is within `MAX_CHUNK`, and the stream does
not stop inside a length field. -/
def ToleratedChunks : List Bytes → Nat → Prop
  | [], _ => True
  | payload :: rest, count =>
      let size := (2 + tagLen) + (payload.length + tagLen)
      if count < 2 + tagLen then count = 0
      else count < size ∨ payload.length ≤ maxChunk ∧ ToleratedChunks rest (count - size)

/-- The same for a stream with its salt, and in SIP022 its header, in neither of
which it stops. -/
def Tolerated (method : Method) (payloads : List Bytes) (count : Nat) : Prop :=
  if method.is2022 then
    match payloads with
    | [] => True
    | first :: rest =>
        let header := method.keyLen + (1 + 8 + method.keyLen + 2 + tagLen)
        let size := header + (first.length + tagLen)
        if count < header then count = 0 else count < size ∨ ToleratedChunks rest (count - size)
  else if count < method.keyLen then count = 0
  else ToleratedChunks payloads (count - method.keyLen)

/-- The reader gives the payloads that have arrived, and ends with the empty
result exactly if the stream stops after the last of them. -/
def Faithful (reading : List Bytes × Except ReadError Unit) (expected : List Bytes × Bool) : Prop :=
  reading.1 = expected.1 ∧ (reading.2 = .ok () ↔ expected.2 = true)

section Fields
variable {self : SsReader suite} {now : Nat}

/-- What a caller gets once the reader has made progress. -/
def Progress.reading (progress : Progress suite) (now : Nat) (rest : Bytes) :
    List Bytes × Except ReadError Unit :=
  match progress with
  | .more next => next.read now rest
  | .chunk payload next =>
      if payload = [] then ([], .ok ())
      else (payload :: (next.read now rest).1, (next.read now rest).2)
  | .failed error => ([], .error error)

namespace SsReader

theorem read_cons (byte : UInt8) (rest : Bytes) :
    self.read now (byte :: rest) = (self.feed [byte] now).reading now rest := by
  cases fed : self.feed [byte] now <;> rw [read, fed] <;> rfl

theorem feed_part {bytes : Bytes} (part : (self.got ++ bytes).length < self.wanted) :
    self.feed bytes now = .more { self with got := self.got ++ bytes } :=
  if_pos part

/-- It makes no difference how the socket cuts a field. -/
theorem feed_append (front back : Bytes) :
    self.feed (front ++ back) now =
      SsReader.feed { self with got := self.got ++ front } back now := by
  simp only [feed, List.append_assoc]
  rfl

theorem read_field {bytes rest : Bytes} (some : bytes ≠ [])
    (whole : self.got.length + bytes.length = self.wanted) :
    self.read now (bytes ++ rest) = (self.complete (self.got ++ bytes) now).reading now rest := by
  induction bytes generalizing self with
  | nil => exact absurd rfl some
  | cons byte tail ih =>
      rw [List.cons_append, read_cons]
      cases tail with
      | nil =>
          have full : ¬ (self.got ++ [byte]).length < self.wanted := by
            rw [List.length_append]
            exact Nat.not_lt_of_ge (Nat.le_of_eq whole.symm)
          rw [feed, if_neg full]
          rfl
      | cons next more =>
          have part : (self.got ++ [byte]).length < self.wanted := by
            simp only [List.length_append, List.length_cons, List.length_nil] at whole ⊢
            omega
          rw [feed_part part]
          have length : (self.got ++ [byte]).length + (next :: more).length = self.wanted := by
            simp only [List.length_append, List.length_cons, List.length_nil] at whole ⊢
            omega
          have stepped := @ih { self with got := self.got ++ [byte] } (List.cons_ne_nil _ _) length
          rw [List.append_assoc] at stepped
          exact stepped

theorem read_part {bytes : Bytes} (part : self.got.length + bytes.length < self.wanted) :
    self.read now bytes = ([], self.atEnd.map fun _ => ()) := by
  induction bytes generalizing self with
  | nil => rfl
  | cons byte tail ih =>
      have short : (self.got ++ [byte]).length < self.wanted := by
        simp only [List.length_append, List.length_cons, List.length_nil] at part ⊢
        omega
      rw [read_cons, feed_part short]
      apply @ih { self with got := self.got ++ [byte] }
      change (self.got ++ [byte]).length + tail.length < self.wanted
      simp only [List.length_append, List.length_cons, List.length_nil] at part ⊢
      omega

/-- The payload goes to the caller, who goes on with the rest. -/
def cons (payload : Bytes) (reading : List Bytes × Except ReadError Unit) :
    List Bytes × Except ReadError Unit :=
  (payload :: reading.1, reading.2)

theorem openInPlace_seal (crypter : Crypter suite) (plain : Bytes) :
    crypter.openInPlace (crypter.sealInPlace plain).1 =
      some (plain, (crypter.sealInPlace plain).2) := by
  rw [Crypter.openInPlace, Crypter.sealInPlace, suite.open_seal]
  rfl

theorem seal_length (crypter : Crypter suite) (plain : Bytes) :
    (crypter.sealInPlace plain).1.length = plain.length + tagLen :=
  suite.seal_length _ _ _

theorem seal_ne_nil (crypter : Crypter suite) (plain : Bytes) :
    (crypter.sealInPlace plain).1 ≠ [] := by
  apply List.ne_nil_of_length_pos
  rw [seal_length]
  exact Nat.lt_add_left _ (by decide)

theorem read_length (crypter : Crypter suite) {n : Nat} (positive : 0 < n) (fits : n ≤ 0xFFFF)
    (rest : Bytes) :
    (self.await (.length crypter)).read now ((crypter.sealInPlace (be16 n)).1 ++ rest) =
      if n ≤ maxChunk then
        (self.await (.body (crypter.sealInPlace (be16 n)).2 n positive)).read now rest
      else ([], .error (.chunkLength n)) := by
  rw [read_field (seal_ne_nil _ _) (by rw [seal_length]; exact Nat.zero_add _)]
  change Progress.reading (complete _ ((crypter.sealInPlace (be16 n)).1) now) now rest = _
  simp only [complete, await, openInPlace_seal, ofBe_be16 (Nat.lt_succ_of_le fits)]
  by_cases within : n ≤ maxChunk
  · rw [dif_pos ⟨positive, within⟩, if_pos within]
    rfl
  · rw [dif_neg (fun bounds => within bounds.2), if_neg within]
    rfl

theorem read_body (crypter : Crypter suite) {payload : Bytes} (positive : 0 < payload.length)
    (rest : Bytes) :
    (self.await (.body crypter payload.length positive)).read now
        ((crypter.sealInPlace payload).1 ++ rest) =
      cons payload ((self.await (.length (crypter.sealInPlace payload).2)).read now rest) := by
  rw [read_field (seal_ne_nil _ _) (by rw [seal_length]; exact Nat.zero_add _)]
  change Progress.reading (complete _ ((crypter.sealInPlace payload).1) now) now rest = _
  simp only [complete, await, openInPlace_seal]
  exact if_neg (List.ne_nil_of_length_pos positive)

theorem read_chunk (crypter : Crypter suite) {payload : Bytes} (positive : 0 < payload.length)
    (fits : payload.length ≤ 0xFFFF) (rest : Bytes) :
    (self.await (.length crypter)).read now ((crypter.sealChunk payload).1 ++ rest) =
      if payload.length ≤ maxChunk then
        cons payload ((self.await (.length (crypter.sealChunk payload).2)).read now rest)
      else ([], .error (.chunkLength payload.length)) := by
  rw [Crypter.sealChunk, List.append_assoc, read_length crypter positive fits, read_body]

theorem read_cut_chunk (crypter : Crypter suite) {payload : Bytes} (positive : 0 < payload.length)
    (fits : payload.length ≤ 0xFFFF) {count : Nat}
    (cut : count < (2 + tagLen) + (payload.length + tagLen)) :
    ((self.await (.length crypter)).read now ((crypter.sealChunk payload).1.take count)).1 = [] ∧
      (((self.await (.length crypter)).read now ((crypter.sealChunk payload).1.take count)).2 =
        .ok () ↔ count < 2 + tagLen) := by
  have lengthSize : (crypter.sealInPlace (be16 payload.length)).1.length = 2 + tagLen :=
    seal_length _ _
  by_cases early : count < 2 + tagLen
  · rw [Crypter.sealChunk, List.take_append_of_le_length (by omega), read_part]
    · exact ⟨rfl, iff_of_true rfl early⟩
    · change [].length + _ < 2 + tagLen
      rw [List.length_take]
      simp only [List.length_nil]
      omega
  · have size := lengthSize
    rw [Crypter.sealChunk, List.take_append, List.take_of_length_le (by omega), lengthSize,
      read_length crypter positive fits]
    split
    · rw [read_part]
      · exact ⟨rfl, iff_of_false (by simp [atEnd, await, Except.map]) early⟩
      · change [].length + _ < payload.length + tagLen
        rw [List.length_take]
        simp only [List.length_nil]
        omega
    · exact ⟨rfl, iff_of_false (by simp) early⟩

end SsReader

end Fields

section Peer
open SsReader
variable {self : SsReader suite} {now : Nat}

theorem faithful_cons {payload : Bytes} {reading : List Bytes × Except ReadError Unit}
    {expected : List Bytes × Bool} :
    Faithful (SsReader.cons payload reading) (payload :: expected.1, expected.2) ↔
      Faithful reading expected := by
  simp [Faithful, SsReader.cons]

theorem sealChunk_length (crypter : Crypter suite) (payload : Bytes) :
    (crypter.sealChunk payload).1.length = (2 + tagLen) + (payload.length + tagLen) := by
  rw [Crypter.sealChunk, List.length_append, seal_length, seal_length, be16_length]

theorem chunks_faithful_iff {payloads : List Bytes}
    (conforming : ∀ payload ∈ payloads, 0 < payload.length ∧ payload.length ≤ 0xFFFF)
    (crypter : Crypter suite) (count : Nat) :
    Faithful ((self.await (.length crypter)).read now ((crypter.sealChunks payloads).take count))
        (arrivedChunks payloads count) ↔ ToleratedChunks payloads count := by
  induction payloads generalizing crypter count with
  | nil =>
      rw [Crypter.sealChunks, List.take_nil]
      exact iff_of_true ⟨rfl, iff_of_true rfl rfl⟩ trivial
  | cons payload rest ih =>
      obtain ⟨⟨positive, fits⟩, others⟩ := List.forall_mem_cons.mp conforming
      have size := sealChunk_length crypter payload
      rw [Crypter.sealChunks, arrivedChunks, ToleratedChunks]
      by_cases cut : count < (2 + tagLen) + (payload.length + tagLen)
      · rw [if_pos cut, List.take_append_of_le_length (by omega)]
        obtain ⟨nothing, ended⟩ := @read_cut_chunk suite self now crypter payload positive fits _ cut
        rw [Faithful, nothing, ended]
        simp only [true_and, decide_eq_true_eq, cut, true_or]
        split <;> rename_i early
        · simp [early]
        · simp only [early, false_iff, iff_true]
          omega
      · rw [if_neg cut, List.take_append, List.take_of_length_le (by omega), size,
          read_chunk crypter positive fits]
        have late : ¬ count < 2 + tagLen := by omega
        rw [if_neg late]
        simp only [cut, false_or]
        by_cases within : payload.length ≤ maxChunk
        · rw [if_pos within, faithful_cons, ih others]
          simp [within]
        · rw [if_neg within]
          simp [Faithful, within]

variable {method : Method} {master salt reqSalt : Bytes} {ts : Nat}

theorem keyLen_pos (method : Method) : 0 < method.keyLen := by cases method <;> decide

theorem responseHeader_length (ts : Nat) (reqSalt : Bytes) (size : Nat) :
    (responseHeader ts reqSalt size).length = 1 + 8 + reqSalt.length + 2 := by
  simp only [responseHeader, List.length_append, List.length_cons, toBe_length, be16_length,
    Nat.add_comm 8 1]

theorem parse_responseHeader {size : Nat} (stamp : ts < 2 ^ 64)
    (recent : max now ts - min now ts ≤ ss2022TsTolerance) (fits : size ≤ 0xFFFF) :
    parse2022ResponseHeader (responseHeader ts reqSalt size) reqSalt now = .ok size := by
  have parts : responseHeader ts reqSalt size =
      [ss2022TypeServer] ++ (toBe 8 ts ++ (reqSalt ++ be16 size)) := by
    simp [responseHeader]
  have time : (List.take 8 ((responseHeader ts reqSalt size).drop 1)) = toBe 8 ts := by
    rw [parts]
    exact List.take_left' (toBe_length 8 ts)
  have rest : (responseHeader ts reqSalt size).drop 9 = reqSalt ++ be16 size := by
    rw [parts, ← List.append_assoc, List.drop_left']
    rw [List.length_append, toBe_length]
    rfl
  have clock : ofBe (toBe 8 ts) = ts := ofBe_toBe (by simpa using stamp)
  rw [parse2022ResponseHeader, if_neg (by simp [responseHeader_length]), if_neg (by simp [responseHeader])]
  simp only [time, clock, rest, List.take_left, Nat.not_lt_of_le recent, if_false,
    ne_eq, not_true_eq_false]
  rw [← List.drop_drop, rest, List.drop_left, ofBe_be16 (Nat.lt_succ_of_le fits)]

theorem read_salt (salted : salt.length = method.keyLen) (rest : Bytes) :
    (SsReader.new suite method master reqSalt).read now (salt ++ rest) =
      ((SsReader.new suite method master reqSalt).await
        (if method.is2022 then
          .header (.new suite method (sessionKey suite method master salt))
        else .length (.new suite method (sessionKey suite method master salt)))).read now rest := by
  have some : salt ≠ [] := List.ne_nil_of_length_pos (salted ▸ keyLen_pos method)
  rw [read_field some (by rw [salted]; exact Nat.zero_add _)]
  change Progress.reading (complete _ salt now) now rest = _
  by_cases new : method.is2022 = true
  · simp only [complete, SsReader.new, sessionKey, new, if_true]
    rfl
  · simp only [complete, SsReader.new, sessionKey, new, if_false, Bool.false_eq_true]
    rfl

theorem read_header (crypter : Crypter suite) (echo : self.reqSalt = reqSalt)
    (sized : reqSalt.length = self.method.keyLen) {size : Nat} (positive : 0 < size)
    (fits : size ≤ 0xFFFF) (stamp : ts < 2 ^ 64)
    (recent : max now ts - min now ts ≤ ss2022TsTolerance) (rest : Bytes) :
    (self.await (.header crypter)).read now
        ((crypter.sealInPlace (responseHeader ts reqSalt size)).1 ++ rest) =
      (self.await (.firstBody (crypter.sealInPlace (responseHeader ts reqSalt size)).2 size
        positive)).read now rest := by
  have whole : (crypter.sealInPlace (responseHeader ts reqSalt size)).1.length =
      (self.await (.header crypter)).wanted := by
    rw [seal_length, responseHeader_length, sized]
    rfl
  rw [read_field (seal_ne_nil _ _) (by rw [whole]; exact Nat.zero_add _)]
  change Progress.reading
    (complete _ ((crypter.sealInPlace (responseHeader ts reqSalt size)).1) now) now rest = _
  simp only [complete, await, openInPlace_seal, echo, parse_responseHeader stamp recent fits]
  rw [dif_pos positive]
  rfl

theorem read_firstBody (crypter : Crypter suite) {payload : Bytes}
    (positive : 0 < payload.length) (rest : Bytes) :
    (self.await (.firstBody crypter payload.length positive)).read now
        ((crypter.sealInPlace payload).1 ++ rest) =
      SsReader.cons payload
        ((self.await (.length (crypter.sealInPlace payload).2)).read now rest) := by
  rw [read_field (seal_ne_nil _ _) (by rw [seal_length]; exact Nat.zero_add _)]
  change Progress.reading (complete _ ((crypter.sealInPlace payload).1) now) now rest = _
  simp only [complete, await, openInPlace_seal]
  exact if_neg (List.ne_nil_of_length_pos positive)

theorem read_cut (field : Field suite) {bytes : Bytes} {count : Nat}
    (cut : count < (self.await field).wanted) :
    (self.await field).read now (bytes.take count) =
      ([], (self.await field).atEnd.map fun _ => ()) := by
  apply read_part
  change [].length + _ < _
  rw [List.length_take, List.length_nil]
  omega

theorem take_past {front : Bytes} {count size : Nat} (length : front.length = size)
    (past : size ≤ count) (back : Bytes) :
    (front ++ back).take count = front ++ back.take (count - size) := by
  rw [List.take_append, List.take_of_length_le (length ▸ past), length]

theorem peer_faithful_iff (salted : salt.length = method.keyLen)
    (echoed : reqSalt.length = method.keyLen) (stamp : ts < 2 ^ 64)
    (recent : max now ts - min now ts ≤ ss2022TsTolerance) {payloads : List Bytes}
    (conforming : ∀ payload ∈ payloads, Conforming method payload) (count : Nat) :
    Faithful ((SsReader.new suite method master reqSalt).read now
        ((peerStream suite method master salt reqSalt ts payloads).take count))
        (arrived method payloads count) ↔ Tolerated method payloads count := by
  have bounded : ∀ payload ∈ payloads, 0 < payload.length ∧ payload.length ≤ 0xFFFF := by
    intro payload member
    obtain ⟨positive, within⟩ := conforming payload member
    refine ⟨positive, Nat.le_trans within ?_⟩
    unfold Method.specChunk
    split <;> decide
  -- a stream that stops in the salt looks as if nothing had been sent
  have inSalt : ∀ rest : Bytes, count < method.keyLen →
      (SsReader.new suite method master reqSalt).read now ((salt ++ rest).take count) =
        ([], .ok ()) := fun rest cut =>
    @read_cut suite (SsReader.new suite method master reqSalt) now .salt _ _ cut
  unfold peerStream arrived Tolerated
  by_cases new : method.is2022 = true
  · simp only [new, if_true]
    cases payloads with
    | nil => exact iff_of_true ⟨by rw [List.take_nil]; rfl, by simp [SsReader.read, SsReader.new, atEnd, Except.map]⟩ trivial
    | cons first rest =>
        obtain ⟨⟨positive, fits⟩, others⟩ := List.forall_mem_cons.mp bounded
        have some := keyLen_pos method
        simp only [List.append_assoc]
        by_cases cut : count < method.keyLen
        · rw [inSalt _ cut, if_pos (by omega), if_pos (by omega)]
          simp [Faithful]
        rw [take_past salted (Nat.le_of_not_lt cut), read_salt salted, if_pos new]
        by_cases header : count < method.keyLen + (1 + 8 + method.keyLen + 2 + tagLen)
        · -- nor can a reader tell that the header was cut off
          rw [read_cut _ (by simp only [wanted, await, SsReader.new]; omega), if_pos (by omega),
            if_pos header]
          simp [Faithful, atEnd, await, Except.map]
        have sealed := seal_length (Crypter.new suite method (sessionKey suite method master salt))
          (responseHeader ts reqSalt first.length)
        rw [responseHeader_length, echoed] at sealed
        have echo : (SsReader.new suite method master reqSalt).reqSalt = reqSalt := rfl
        rw [take_past sealed (by omega), if_neg header,
          read_header _ echo echoed positive fits stamp recent]
        generalize (Crypter.new suite method (sessionKey suite method master salt)).sealInPlace
          (responseHeader ts reqSalt first.length) = opened
        by_cases body : count < method.keyLen + (1 + 8 + method.keyLen + 2 + tagLen) +
            (first.length + tagLen)
        · rw [read_cut _ (by simp only [wanted, await, SsReader.new]; omega), if_pos body]
          simp only [Faithful, atEnd, await, Except.map, body, true_or, iff_true, true_and]
          simp
          omega
        rw [take_past (seal_length _ _) (by omega), read_firstBody _ positive, if_neg body,
          faithful_cons]
        have left : count - method.keyLen - (1 + 8 + method.keyLen + 2 + tagLen) -
            (first.length + tagLen) = count - (method.keyLen +
              (1 + 8 + method.keyLen + 2 + tagLen) + (first.length + tagLen)) := by omega
        rw [left, chunks_faithful_iff others]
        simp [body]
  · simp only [new, if_false, Bool.false_eq_true]
    by_cases cut : count < method.keyLen
    · rw [inSalt _ cut, if_pos cut, if_pos cut]
      simp [Faithful]
    · rw [if_neg cut, if_neg cut, take_past salted (Nat.le_of_not_lt cut), read_salt salted,
        if_neg new]
      exact chunks_faithful_iff bounded _ _

end Peer

section Writer
variable {self : SsReader suite} {now : Nat}

theorem chunks_flatten {count : Nat} {data : Bytes} (enough : data.length ≤ count) :
    (chunks count data).flatten = data := by
  induction count generalizing data with
  | zero => rw [List.eq_nil_of_length_eq_zero (Nat.le_zero.mp enough), chunks, List.flatten_nil]
  | succ count ih =>
      rw [chunks]
      split
      · rename_i empty
        rw [empty, List.flatten_nil]
      · rename_i some
        have positive := List.length_pos_of_ne_nil some
        have shorter : (data.drop maxChunk).length ≤ count := by
          have : 0 < maxChunk := by decide
          rw [List.length_drop]
          omega
        rw [List.flatten_cons, ih shorter, List.take_append_drop]

theorem mem_chunks {count : Nat} {data chunk : Bytes} (member : chunk ∈ chunks count data) :
    0 < chunk.length ∧ chunk.length ≤ maxChunk := by
  induction count generalizing data with
  | zero => cases member
  | succ count ih =>
      rw [chunks] at member
      split at member
      · cases member
      · rename_i some
        rcases List.mem_cons.mp member with rfl | later
        · have positive := List.length_pos_of_ne_nil some
          have : 0 < maxChunk := by decide
          rw [List.length_take]
          omega
        · exact ih later

def Crypter.afterChunks (self : Crypter suite) : List Bytes → Crypter suite
  | [] => self
  | payload :: rest => afterChunks (self.sealChunk payload).2 rest

theorem sealChunks_append (crypter : Crypter suite) (front back : List Bytes) :
    crypter.sealChunks (front ++ back) =
      crypter.sealChunks front ++ (crypter.afterChunks front).sealChunks back := by
  induction front generalizing crypter with
  | nil => rfl
  | cons payload rest ih =>
      rw [List.cons_append, Crypter.sealChunks, ih, Crypter.sealChunks, Crypter.afterChunks,
        List.append_assoc]

def saltAhead (salt : Option Bytes) (payloads : List Bytes) : Bytes :=
  if payloads = [] then [] else salt.getD []

theorem writeChunks_eq (writer : SsWriter suite) (payloads : List Bytes) :
    writer.writeChunks payloads =
      (saltAhead writer.pendingSalt payloads ++ writer.crypter.sealChunks payloads,
        ⟨writer.crypter.afterChunks payloads,
          if payloads = [] then writer.pendingSalt else none⟩) := by
  induction payloads generalizing writer with
  | nil => rfl
  | cons payload rest ih =>
      rw [SsWriter.writeChunks]
      simp only [ih]
      cases rest <;>
        simp [saltAhead, Crypter.sealChunks, Crypter.afterChunks, SsWriter.sealChunkInto,
          Crypter.sealChunk]

/-- However the data is split into calls, the stream is that of its chunks. -/
theorem writeCalls_eq (writer : SsWriter suite) (calls : List Bytes) :
    ∃ payloads : List Bytes, payloads.flatten = calls.flatten ∧
      (∀ payload ∈ payloads, 0 < payload.length ∧ payload.length ≤ maxChunk) ∧
      writer.writeCalls calls =
        saltAhead writer.pendingSalt payloads ++ writer.crypter.sealChunks payloads := by
  induction calls generalizing writer with
  | nil => exact ⟨[], rfl, by simp, rfl⟩
  | cons data rest ih =>
      rw [SsWriter.writeCalls, SsWriter.writeAll, writeChunks_eq]
      obtain ⟨payloads, whole, sized, sent⟩ := ih
        ⟨writer.crypter.afterChunks (chunks data.length data),
          if chunks data.length data = [] then writer.pendingSalt else none⟩
      refine ⟨chunks data.length data ++ payloads, ?_, ?_, ?_⟩
      · rw [List.flatten_append, chunks_flatten (Nat.le_refl _), whole, List.flatten_cons]
      · intro payload member
        rcases List.mem_append.mp member with here | later
        · exact mem_chunks here
        · exact sized payload later
      · dsimp only
        rw [sent, sealChunks_append]
        cases first : chunks data.length data with
        | nil => simp [saltAhead, Crypter.sealChunks, Crypter.afterChunks]
        | cons payload more => simp [saltAhead]

theorem read_sealChunks (crypter : Crypter suite) {payloads : List Bytes}
    (sized : ∀ payload ∈ payloads, 0 < payload.length ∧ payload.length ≤ maxChunk) :
    (self.await (.length crypter)).read now (crypter.sealChunks payloads) =
      (payloads, .ok ()) := by
  induction payloads generalizing crypter with
  | nil => rfl
  | cons payload rest ih =>
      obtain ⟨⟨positive, within⟩, others⟩ := List.forall_mem_cons.mp sized
      rw [Crypter.sealChunks, SsReader.read_chunk crypter positive
        (Nat.le_trans within (by decide)), if_pos within, ih _ others]
      rfl

/-- The reader gets these bytes in full, and then the empty result. -/
def Recovers (reading : List Bytes × Except ReadError Unit) (data : Bytes) : Prop :=
  reading.1.flatten = data ∧ reading.2 = .ok ()

/-- A reader that waits for a chunk recovers what a writer under the same key and
nonce sends. -/
theorem writer_recovered (crypter : Crypter suite) (calls : List Bytes) :
    Recovers ((self.await (.length crypter)).read now
      (SsWriter.writeCalls ⟨crypter, none⟩ calls)) calls.flatten := by
  obtain ⟨payloads, whole, sized, sent⟩ := writeCalls_eq ⟨crypter, none⟩ calls
  have noSalt : saltAhead none payloads = [] := by simp [saltAhead]
  rw [sent, noSalt, List.nil_append, read_sealChunks crypter sized]
  exact ⟨whole, rfl⟩

variable {method : Method} {master salt reqSalt : Bytes}

theorem server_writer_recovered {reader : SsReader suite} {writer : SsWriter suite}
    (salted : salt.length = method.keyLen)
    (server : serverHandshake suite method master salt = .ok (reader, writer))
    (calls : List Bytes) :
    Recovers ((SsReader.new suite method master reqSalt).read now (writer.writeCalls calls))
      calls.flatten := by
  unfold serverHandshake at server
  split at server
  · cases server
  · rename_i old
    cases server
    obtain ⟨payloads, whole, sized, sent⟩ := writeCalls_eq
      ⟨.new suite method (suite.hkdfSubkey master salt method.keyLen), some salt⟩ calls
    rw [sent]
    by_cases nothing : payloads = []
    · subst nothing
      exact ⟨whole, rfl⟩
    · rw [saltAhead, if_neg nothing, Option.getD_some, read_salt salted, if_neg old, sessionKey,
        if_neg old, read_sealChunks _ sized]
      exact ⟨whole, rfl⟩

theorem encodeSocksAddr_length {target : String} {addr : Bytes}
    (encoded : encodeSocksAddr target = .ok addr) : 0 < addr.length ∧ addr.length ≤ maxChunk := by
  have most : 300 ≤ maxChunk := by decide
  unfold encodeSocksAddr at encoded
  split at encoded
  · cases encoded
  · split at encoded
    · cases encoded
    · dsimp only at encoded
      split at encoded
      · cases encoded
        simp only [List.length_append, List.length_cons, toBe_length, be16_length]
        omega
      · cases encoded
        simp only [List.length_append, List.length_cons, toBe_length, be16_length]
        omega
      · split at encoded
        · cases encoded
        · cases encoded
          simp only [List.length_append, List.length_cons, be16_length]
          omega

theorem buildHandshake_old {writer : SsWriter suite} {target : String} {padding addr : Bytes}
    {ts : Nat} (old : ¬ method.is2022 = true) (encoded : encodeSocksAddr target = .ok addr) :
    buildHandshake writer method salt target padding ts =
      .ok (salt ++ (writer.sealChunkInto addr).1, (writer.sealChunkInto addr).2) := by
  rw [buildHandshake, if_neg old, encoded]
  rfl

/-- The server reads the target first and then what the client writes. -/
theorem client_writer_recovered {target : String} {padding addr handshake salt' : Bytes} {ts : Nat}
    {reader serverReader : SsReader suite} {writer serverWriter : SsWriter suite}
    (salted : salt.length = method.keyLen)
    (client : clientHandshakeOver suite method master salt target padding ts =
      .ok (handshake, reader, writer))
    (server : serverHandshake suite method master salt' = .ok (serverReader, serverWriter))
    (encoded : encodeSocksAddr target = .ok addr) (calls : List Bytes) :
    Recovers (serverReader.read now (handshake ++ writer.writeCalls calls))
      (addr ++ calls.flatten) := by
  unfold serverHandshake at server
  split at server
  · cases server
  · rename_i old
    cases server
    obtain ⟨positive, within⟩ := encodeSocksAddr_length encoded
    simp only [clientHandshakeOver, buildHandshake_old old encoded] at client
    cases client
    obtain ⟨payloads, whole, sized, sent⟩ := writeCalls_eq
      ⟨((Crypter.new suite method (sessionKey suite method master salt)).sealChunk addr).2, none⟩
      calls
    have noSalt : saltAhead none payloads = [] := by simp [saltAhead]
    have stream : SsWriter.writeCalls (SsWriter.sealChunkInto
        ⟨Crypter.new suite method (sessionKey suite method master salt), none⟩ addr).2 calls =
        Crypter.sealChunks ((Crypter.new suite method (sessionKey suite method master salt)).sealChunk
          addr).2 payloads := by
      rw [← List.nil_append (Crypter.sealChunks _ _), ← noSalt]
      exact sent
    rw [stream, List.append_assoc, read_salt salted, if_neg old]
    change Recovers (SsReader.read _ now ((Crypter.sealChunk _ addr).1 ++ _)) _
    rw [SsReader.read_chunk _ positive (Nat.le_trans within (by decide)), if_pos within,
      read_sealChunks _ sized]
    refine ⟨?_, rfl⟩
    rw [SsReader.cons, List.flatten_cons, whole]

end Writer

/-- A stream that keeps to its specification is read right exactly if it is
tolerated, wherever it stops, and whatever `SsWriter` sends is recovered. -/
theorem ss_stream_compatible_iff (suite : Suite) (method : Method)
    (master salt reqSalt : Bytes) (ts now : Nat) (payloads : List Bytes) (count : Nat)
    (salted : salt.length = method.keyLen) (echoed : reqSalt.length = method.keyLen)
    (stamp : ts < 2 ^ 64) (recent : max now ts - min now ts ≤ ss2022TsTolerance)
    (conforming : ∀ payload ∈ payloads, Conforming method payload) :
    (Faithful ((SsReader.new suite method master reqSalt).read now
        ((peerStream suite method master salt reqSalt ts payloads).take count))
        (arrived method payloads count) ↔ Tolerated method payloads count) ∧
    (∀ (self : SsReader suite) (crypter : Crypter suite) (calls : List Bytes),
      Recovers ((self.await (.length crypter)).read now
        (SsWriter.writeCalls ⟨crypter, none⟩ calls)) calls.flatten) ∧
    (∀ (reader : SsReader suite) (writer : SsWriter suite) (calls : List Bytes),
      serverHandshake suite method master salt = .ok (reader, writer) →
        Recovers ((SsReader.new suite method master reqSalt).read now (writer.writeCalls calls))
          calls.flatten) ∧
    (∀ (target : String) (padding addr handshake : Bytes) (clock : Nat)
      (reader serverReader : SsReader suite) (writer serverWriter : SsWriter suite)
      (calls : List Bytes),
      clientHandshakeOver suite method master salt target padding clock =
          .ok (handshake, reader, writer) →
        serverHandshake suite method master reqSalt = .ok (serverReader, serverWriter) →
        encodeSocksAddr target = .ok addr →
        Recovers (serverReader.read now (handshake ++ writer.writeCalls calls))
          (addr ++ calls.flatten)) := by
  refine ⟨peer_faithful_iff salted echoed stamp recent conforming count, ?_, ?_, ?_⟩
  · intro self crypter calls
    exact writer_recovered crypter calls
  · intro reader writer calls server
    exact server_writer_recovered salted server calls
  · intro target padding addr handshake clock reader serverReader writer serverWriter calls client
      server encoded
    exact client_writer_recovered salted client server encoded calls

theorem ss_stream_compatible_iff_one_chunk :
    let salt : Bytes := List.replicate 16 5
    Faithful ((SsReader.new plainSuite .aes128Gcm [1] salt).read 0
      ((peerStream plainSuite .aes128Gcm [1] salt salt 0 [[7]]).take 51)) ([[7]], true) :=
  (ss_stream_compatible_iff plainSuite .aes128Gcm [1] (List.replicate 16 5) (List.replicate 16 5)
    0 0 [[7]] 51 rfl rfl (by decide) (by decide) (by decide)).1.mpr
    (by simp [Tolerated, ToleratedChunks, Method.is2022, Method.keyLen, tagLen, maxChunk])

/-- A second chunk of 0x4000 bytes in a SIP022 stream. -/
theorem second_chunk_refused {long : Bytes} (size : long.length = 0x4000) :
    (∀ payload ∈ [[7], long], Conforming .ss2022Aes128Gcm payload) ∧
      ¬ Faithful ((SsReader.new plainSuite .ss2022Aes128Gcm [1] (List.replicate 16 5)).read 0
        ((peerStream plainSuite .ss2022Aes128Gcm [1] (List.replicate 16 5) (List.replicate 16 5) 0
          [[7], long]).take 16494)) ([[7], long], true) := by
  have conforming : ∀ payload ∈ [[7], long], Conforming .ss2022Aes128Gcm payload := by
    simp [Conforming, Method.specChunk, Method.is2022, size]
  refine ⟨conforming, ?_⟩
  have everything : arrived .ss2022Aes128Gcm [[7], long] 16494 = ([[7], long], true) := by
    simp [arrived, arrivedChunks, Method.is2022, Method.keyLen, tagLen, size]
  rw [← everything, peer_faithful_iff rfl rfl (by decide) (by decide) conforming]
  simp [Tolerated, ToleratedChunks, Method.is2022, Method.keyLen, tagLen, maxChunk, size]

/-- A SIP022 stream with a second chunk of a length that its specification allows
is refused, and a stream that stops after the first byte of its salt is taken for
one that has ended. -/
theorem conforming_streams_misread :
    ((∀ payload ∈ [[7], List.replicate 0x4000 0], Conforming .ss2022Aes128Gcm payload) ∧
      ¬ Faithful ((SsReader.new plainSuite .ss2022Aes128Gcm [1] (List.replicate 16 5)).read 0
        ((peerStream plainSuite .ss2022Aes128Gcm [1] (List.replicate 16 5) (List.replicate 16 5) 0
          [[7], List.replicate 0x4000 0]).take 16494)) ([[7], List.replicate 0x4000 0], true)) ∧
      ¬ Faithful ((SsReader.new plainSuite .aes128Gcm [1] (List.replicate 16 5)).read 0
        ((peerStream plainSuite .aes128Gcm [1] (List.replicate 16 5) (List.replicate 16 5) 0
          [[7]]).take 1)) ([], false) := by
  refine ⟨second_chunk_refused List.length_replicate, ?_⟩
  intro faithful
  exact absurd (faithful.2.mp rfl) (by decide)

end Mirage.Shadowsocks
