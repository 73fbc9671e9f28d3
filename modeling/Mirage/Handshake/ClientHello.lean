import Mathlib.Data.List.TakeDrop
import Mirage.Lib.Word

/-!
`read_client_hello` of mirage_server/handshake.rs: one TLS record is read turn by
turn, a turn being a read under a timeout. `sent` is all that the connection ever
delivers, and how it is cut and when it comes is up to the turns.
-/

namespace Mirage.Handshake
open Word

def tlsRecordHeaderLen : Nat := 5

def tlsRecordMaxBody : Nat := 16384

inductive ClientHelloReadResult where
  | complete (bytes : Bytes)
  | fallback (bytes : Bytes)
  | close
  deriving DecidableEq

structure ReadTiming where
  totalUs : Nat
  maxInternalGapUs : Nat
  bytes : Nat
  deriving DecidableEq

structure HelloReader where
  buf : Bytes
  lastArrival : Option Nat
  maxGap : Nat
  deriving DecidableEq

/-- What a timed read comes back with: bytes, the end of the stream or an error of
it, or the timeout. -/
inductive Arrived where
  | data (bytes : Bytes)
  | ended
  | elapsed
  deriving DecidableEq

structure Turn where
  top : Nat
  arrived : Arrived
  done : Nat
  deriving DecidableEq

structure Limits where
  judgeSilence : Nat
  hardDeadline : Nat
  start : Nat

def recordLen (bytes : Bytes) : Nat := fromBe16 (bytes.getD 3 0) (bytes.getD 4 0)

namespace HelloReader

def toRead (r : HelloReader) : Nat :=
  let targetLen :=
    if tlsRecordHeaderLen ≤ r.buf.length then tlsRecordHeaderLen + recordLen r.buf
    else tlsRecordHeaderLen
  min (targetLen - r.buf.length) 1024

def timing (r : HelloReader) (limits : Limits) (now : Nat) : ReadTiming :=
  ⟨(now - limits.start) / 1000, r.maxGap / 1000, r.buf.length⟩

def take (r : HelloReader) (now : Nat) (bytes : Bytes) : HelloReader where
  buf := r.buf ++ bytes
  lastArrival := some now
  maxGap :=
    match r.lastArrival with
    | some prev => max r.maxGap (now - prev)
    | none => r.maxGap

def judged (r : HelloReader) : Option ClientHelloReadResult :=
  if r.buf.head? ≠ some 0x16 then some (.fallback r.buf)
  else if tlsRecordHeaderLen ≤ r.buf.length then
    if recordLen r.buf = 0 ∨ tlsRecordMaxBody < recordLen r.buf then some (.fallback r.buf)
    else if r.buf.length = tlsRecordHeaderLen + recordLen r.buf then some (.complete r.buf)
    else none
  else none

def hardAt (limits : Limits) : Nat := limits.start + limits.hardDeadline

def wait (limits : Limits) (top : Nat) : Nat := min limits.judgeSilence (hardAt limits - top)

def turn (limits : Limits) (r : HelloReader) (t : Turn) :
    HelloReader ⊕ (ClientHelloReadResult × ReadTiming) :=
  if hardAt limits - t.top = 0 then .inr (.fallback r.buf, r.timing limits t.done)
  else
    match t.arrived with
    | .data bytes =>
        let r := r.take t.done bytes
        match r.judged with
        | some result => .inr (result, r.timing limits t.done)
        | none => .inl r
    | .ended =>
        if r.buf = [] then .inr (.close, r.timing limits t.done)
        else .inr (.fallback r.buf, r.timing limits t.done)
    | .elapsed => .inr (.fallback r.buf, r.timing limits t.done)

/-- What a stream with `rest` to deliver can do in a turn, and what it has left. A
read gives at least a byte and at most what was asked for. -/
def Possible (limits : Limits) (r : HelloReader) (rest : Bytes) (t : Turn) (left : Bytes) : Prop :=
  if hardAt limits - t.top = 0 then left = rest
  else
    match t.arrived with
    | .data bytes => bytes ≠ [] ∧ bytes.length ≤ r.toRead ∧ rest = bytes ++ left
    | .ended => rest = [] ∧ left = rest
    | .elapsed => t.top + wait limits t.top ≤ t.done ∧ left = rest

end HelloReader

/-- Turns of a call from a state on, to what it returns and what is left unread. -/
inductive Reads (limits : Limits) :
    HelloReader → Bytes → List Turn → ClientHelloReadResult × ReadTiming → Bytes → Prop where
  | returned {r : HelloReader} {rest left : Bytes} {t : Turn}
      {result : ClientHelloReadResult × ReadTiming} (possible : r.Possible limits rest t left)
      (turned : r.turn limits t = .inr result) : Reads limits r rest [t] result left
  | goesOn {r r' : HelloReader} {rest rest' left : Bytes} {t : Turn} {turns : List Turn}
      {result : ClientHelloReadResult × ReadTiming} (possible : r.Possible limits rest t rest')
      (turned : r.turn limits t = .inl r') (later : Reads limits r' rest' turns result left) :
      Reads limits r rest (t :: turns) result left

def HelloReader.new : HelloReader := ⟨[], none, 0⟩

/-- `read_client_hello` on a stream that delivers `sent`. -/
def ReadClientHello (limits : Limits) (sent : Bytes) (turns : List Turn)
    (result : ClientHelloReadResult × ReadTiming) (unread : Bytes) : Prop :=
  Reads limits .new sent turns result unread

def ClientHelloReadResult.bytes : ClientHelloReadResult → Bytes
  | .complete bytes => bytes
  | .fallback bytes => bytes
  | .close => []

def Turn.InTime (limits : Limits) (t : Turn) : Prop :=
  t.top < HelloReader.hardAt limits ∧ t.arrived ≠ .elapsed

structure IsHello (sent : Bytes) : Prop where
  handshake : sent.head? = some 0x16
  header : tlsRecordHeaderLen ≤ sent.length
  notEmpty : recordLen sent ≠ 0
  bounded : recordLen sent ≤ tlsRecordMaxBody
  whole : tlsRecordHeaderLen + recordLen sent ≤ sent.length

/-- What is read while the loop goes on: a part of a record that may still become
a hello. -/
structure Partial (sent rest : Bytes) (r : HelloReader) : Prop where
  conserved : r.buf ++ rest = sent
  handshake : r.buf ≠ [] → r.buf.head? = some 0x16
  inside : tlsRecordHeaderLen ≤ r.buf.length → recordLen r.buf ≠ 0 ∧
    recordLen r.buf ≤ tlsRecordMaxBody ∧ r.buf.length < tlsRecordHeaderLen + recordLen r.buf

section Bytes
variable {buf rest sent : Bytes}

theorem recordLen_append (header : tlsRecordHeaderLen ≤ buf.length) :
    recordLen (buf ++ rest) = recordLen buf := by
  have five : 5 ≤ buf.length := header
  have front : ∀ i, i < 5 → (buf ++ rest).getD i 0 = buf.getD i 0 := by
    intro i low
    rw [List.getD_eq_getElem?_getD, List.getD_eq_getElem?_getD,
      List.getElem?_append_left (by omega)]
  rw [recordLen, recordLen, front 3 (by omega), front 4 (by omega)]

theorem head_append (full : buf ≠ []) : (buf ++ rest).head? = buf.head? := by
  cases buf with
  | nil => exact absurd rfl full
  | cons b more => rfl

/-- What the reader decides when no deadline ends it, on a stream that begins like
a handshake. -/
def verdict (sent : Bytes) : ClientHelloReadResult :=
  if sent = [] then .close
  else if sent.length < tlsRecordHeaderLen then .fallback sent
  else if recordLen sent = 0 ∨ tlsRecordMaxBody < recordLen sent then
    .fallback (sent.take tlsRecordHeaderLen)
  else if sent.length < tlsRecordHeaderLen + recordLen sent then .fallback sent
  else .complete (sent.take (tlsRecordHeaderLen + recordLen sent))

/-- The reader stops at the first byte that no handshake begins with, with what
came along with it. -/
def Rejected (sent : Bytes) (result : ClientHelloReadResult) : Prop :=
  sent ≠ [] ∧ sent.head? ≠ some 0x16 ∧ ∃ bytes, result = .fallback bytes ∧
    bytes ≠ [] ∧ bytes.length ≤ tlsRecordHeaderLen

structure Outcome (limits : Limits) (sent : Bytes) (t : Turn) (result : ClientHelloReadResult)
    (unread : Bytes) : Prop where
  conserved : result.bytes ++ unread = sent
  bounded : tlsRecordHeaderLen ≤ sent.length →
    result.bytes.length ≤ tlsRecordHeaderLen + recordLen sent
  late : ¬t.InTime limits → ∃ bytes, result = .fallback bytes
  decided : t.InTime limits →
    result = verdict sent ∧ (sent = [] ∨ sent.head? = some 0x16) ∨ Rejected sent result

end Bytes

section Turns
variable {limits : Limits} {sent rest left : Bytes} {r : HelloReader} {t : Turn}

theorem Partial.recordLen_eq (reading : Partial sent rest r)
    (header : tlsRecordHeaderLen ≤ r.buf.length) : recordLen r.buf = recordLen sent := by
  rw [← reading.conserved]
  exact (recordLen_append header).symm

theorem Partial.short (reading : Partial sent rest r) :
    r.buf.length ≤ tlsRecordHeaderLen + recordLen sent := by
  by_cases known : tlsRecordHeaderLen ≤ r.buf.length
  · obtain ⟨_, _, below⟩ := reading.inside known
    rw [reading.recordLen_eq known] at below
    omega
  · omega

/-- A read stays within the header, or within the record. -/
theorem Partial.read_fits (reading : Partial sent rest r) {bytes : Bytes}
    (asked : bytes.length ≤ r.toRead) :
    (r.buf.length < tlsRecordHeaderLen ∧ (r.buf ++ bytes).length ≤ tlsRecordHeaderLen) ∨
      (tlsRecordHeaderLen ≤ r.buf.length ∧
        (r.buf ++ bytes).length ≤ tlsRecordHeaderLen + recordLen r.buf) := by
  rw [HelloReader.toRead] at asked
  rw [List.length_append]
  by_cases known : tlsRecordHeaderLen ≤ r.buf.length
  · obtain ⟨_, _, below⟩ := reading.inside known
    rw [if_pos known] at asked
    right
    omega
  · rw [if_neg known] at asked
    left
    omega

theorem Partial.late (reading : Partial sent rest r) (same : left = rest)
    (outside : ¬t.InTime limits) : Outcome limits sent t (.fallback r.buf) left where
  conserved := same ▸ reading.conserved
  bounded _ := reading.short
  late _ := ⟨_, rfl⟩
  decided within_ := absurd within_ outside

theorem inTime_of {limits : Limits} (soon : ¬HelloReader.hardAt limits - t.top = 0)
    (arrived : t.arrived ≠ .elapsed) : t.InTime limits := ⟨by omega, arrived⟩

theorem Partial.ended (reading : Partial sent [] r) (timely : t.InTime limits) :
    Outcome limits sent t (if r.buf = [] then .close else .fallback r.buf) [] := by
  have all : r.buf = sent := (List.append_nil _).symm.trans reading.conserved
  by_cases nothing : r.buf = []
  · have empty : sent = [] := all ▸ nothing
    rw [if_pos nothing, empty]
    exact ⟨rfl, fun header => absurd header (by decide), fun outside => absurd timely outside,
      fun _ => .inl ⟨rfl, .inl rfl⟩⟩
  · rw [if_neg nothing]
    refine ⟨reading.conserved, fun _ => reading.short, fun outside => absurd timely outside, fun _ => .inl ?_⟩
    have handshake := reading.handshake nothing
    rw [all] at nothing handshake ⊢
    refine ⟨?_, .inr handshake⟩
    rw [verdict, if_neg nothing]
    by_cases header : sent.length < tlsRecordHeaderLen
    · rw [if_pos header]
    · have known : tlsRecordHeaderLen ≤ r.buf.length := by
        rw [all]
        omega
      obtain ⟨notEmpty, bounded, below⟩ := reading.inside known
      rw [all] at notEmpty bounded below
      rw [if_neg header, if_neg (by omega), if_pos below]

/-- The bytes after a read are not decided: they may still become a hello. -/
theorem Partial.more {bytes : Bytes} (reading : Partial sent (bytes ++ left) r)
    (asked : bytes.length ≤ r.toRead) (judged : (r.take t.done bytes).judged = none) :
    Partial sent left (r.take t.done bytes) := by
  have fits := reading.read_fits asked
  rw [HelloReader.judged] at judged
  have buf : (r.take t.done bytes).buf = r.buf ++ bytes := rfl
  rw [buf] at judged
  split at judged
  · cases judged
  · next handshake =>
    refine ⟨?_, fun _ => not_not.mp handshake, fun known => ?_⟩
    · rw [buf, List.append_assoc]
      exact reading.conserved
    · rw [buf] at known ⊢
      rw [if_pos known] at judged
      split at judged
      · cases judged
      · next valid =>
        split at judged
        · cases judged
        · next notWhole =>
          refine ⟨by omega, by omega, ?_⟩
          rcases fits with ⟨_, inHeader⟩ | ⟨header, inRecord⟩
          · omega
          · rw [recordLen_append header] at notWhole ⊢
            omega

theorem Partial.decided {bytes : Bytes} {result : ClientHelloReadResult}
    (reading : Partial sent (bytes ++ left) r) (full : bytes ≠ [])
    (asked : bytes.length ≤ r.toRead) (timely : t.InTime limits)
    (judged : (r.take t.done bytes).judged = some result) :
    Outcome limits sent t result left := by
  have fits := reading.read_fits asked
  have buf : (r.take t.done bytes).buf = r.buf ++ bytes := rfl
  have conserved : (r.buf ++ bytes) ++ left = sent := by
    rw [List.append_assoc]
    exact reading.conserved
  have notNil : r.buf ++ bytes ≠ [] := fun none_ => full (List.append_eq_nil_iff.mp none_).2
  have sentFull : sent ≠ [] := by
    rw [← conserved]
    exact fun none_ => notNil (List.append_eq_nil_iff.mp none_).1
  have head : sent.head? = (r.buf ++ bytes).head? := by
    rw [← conserved]
    exact head_append notNil
  have prefix_ : r.buf ++ bytes = sent.take (r.buf ++ bytes).length := by
    rw [← conserved, List.take_left]
  have taken : (r.buf ++ bytes).length ≤ sent.length := by
    rw [← conserved, @List.length_append _ (r.buf ++ bytes)]
    omega
  have length : tlsRecordHeaderLen ≤ (r.buf ++ bytes).length →
      recordLen (r.buf ++ bytes) = recordLen sent := fun header => by
    rw [← conserved]
    exact (recordLen_append header).symm
  have bound : (r.buf ++ bytes).length ≤ tlsRecordHeaderLen + recordLen sent := by
    rcases fits with ⟨_, inHeader⟩ | ⟨header, inRecord⟩
    · omega
    · rw [reading.recordLen_eq header] at inRecord
      exact inRecord
  rw [HelloReader.judged, buf] at judged
  split at judged
  · next other =>
    cases judged
    -- only the first read can bring another first byte
    have first : r.buf = [] := Classical.byContradiction fun some_ =>
      other ((head_append some_).trans (reading.handshake some_))
    refine ⟨conserved, fun _ => bound, fun outside => absurd timely outside, fun _ => .inr
      ⟨sentFull, head ▸ other, _, rfl, notNil, ?_⟩⟩
    rcases fits with ⟨_, inHeader⟩ | ⟨header, _⟩
    · exact inHeader
    · rw [first] at header
      exact absurd header (by decide)
  · next handshake =>
    have begins : sent.head? = some 0x16 := head.trans (not_not.mp handshake)
    split at judged
    · next header =>
      have same := length header
      split at judged
      · next invalid =>
        cases judged
        refine ⟨conserved, fun _ => bound, fun outside => absurd timely outside, fun _ => .inl
          ⟨?_, .inr begins⟩⟩
        have five : (r.buf ++ bytes).length = tlsRecordHeaderLen := by
          rcases fits with ⟨_, inHeader⟩ | ⟨known, _⟩
          · omega
          · obtain ⟨notEmpty, bounded, _⟩ := reading.inside known
            rw [recordLen_append known] at invalid
            omega
        rw [same] at invalid
        rw [verdict, if_neg sentFull, if_neg (by omega), if_pos invalid, ← five, ← prefix_]
      · next valid =>
        split at judged
        · next whole =>
          cases judged
          refine ⟨conserved, fun _ => bound, fun outside => absurd timely outside, fun _ => .inl
            ⟨?_, .inr begins⟩⟩
          rw [same] at valid whole
          rw [verdict, if_neg sentFull, if_neg (by omega), if_neg valid, if_neg (by omega), ← whole,
            ← prefix_]
        · cases judged
    · cases judged

end Turns

section Runs
variable {limits : Limits} {sent rest left : Bytes} {r : HelloReader} {turns : List Turn}
  {result : ClientHelloReadResult × ReadTiming}

theorem turn_returns {t : Turn} (reading : Partial sent rest r)
    (possible : r.Possible limits rest t left) (turned : r.turn limits t = .inr result) :
    Outcome limits sent t result.1 left := by
  rw [HelloReader.turn] at turned
  rw [HelloReader.Possible] at possible
  split at turned
  · next over_ =>
    rw [if_pos over_] at possible
    cases turned
    exact reading.late possible fun within_ => by
      have before := within_.1
      omega
  · next soon =>
    rw [if_neg soon] at possible
    split at turned
    · next bytes arrived =>
      rw [arrived] at possible
      obtain ⟨full, asked, rfl⟩ := possible
      dsimp only at turned
      split at turned
      · next found judged =>
        cases turned
        exact reading.decided full asked (inTime_of soon (by rw [arrived]; exact fun no => (nomatch no)))
          judged
      · cases turned
    · next arrived =>
      rw [arrived] at possible
      obtain ⟨rfl, rfl⟩ := possible
      have outcome := reading.ended (inTime_of soon (by rw [arrived]; exact fun no => (nomatch no)))
      split at turned
      · next nothing =>
        cases turned
        rw [if_pos nothing] at outcome
        exact outcome
      · next something =>
        cases turned
        rw [if_neg something] at outcome
        exact outcome
    · next arrived =>
      rw [arrived] at possible
      cases turned
      exact reading.late possible.2 fun within_ => within_.2 arrived

/-- A turn that goes on is in time and brings a byte. -/
theorem turn_goesOn {t : Turn} {r' : HelloReader} (reading : Partial sent rest r)
    (possible : r.Possible limits rest t left) (turned : r.turn limits t = .inl r') :
    Partial sent left r' ∧ t.InTime limits ∧ r.buf.length < r'.buf.length := by
  rw [HelloReader.turn] at turned
  rw [HelloReader.Possible] at possible
  split at turned
  · cases turned
  · next soon =>
    rw [if_neg soon] at possible
    split at turned
    · next bytes arrived =>
      rw [arrived] at possible
      obtain ⟨full, asked, rfl⟩ := possible
      dsimp only at turned
      split at turned
      · cases turned
      · next judged =>
        cases turned
        refine ⟨reading.more asked judged,
          inTime_of soon (by rw [arrived]; exact fun no => (nomatch no)), ?_⟩
        have some_ := List.length_pos_iff.mpr full
        change r.buf.length < (r.buf ++ bytes).length
        rw [List.length_append]
        omega
    · split at turned
      · cases turned
      · cases turned
    · cases turned

theorem reads_outcome (reading : Partial sent rest r)
    (reads : Reads limits r rest turns result left) :
    ∃ before t, turns = before ++ [t] ∧ (∀ turn ∈ before, turn.InTime limits) ∧
      Outcome limits sent t result.1 left := by
  induction reads with
  | @returned r rest left t result possible turned =>
      exact ⟨[], t, rfl, fun _ member => absurd member List.not_mem_nil,
        turn_returns reading possible turned⟩
  | @goesOn r r' rest rest' left t turns result possible turned later ih =>
      obtain ⟨reading', timely, _⟩ := turn_goesOn reading possible turned
      obtain ⟨before, last, rfl, inTime, outcome⟩ := ih reading'
      refine ⟨t :: before, last, rfl, ?_, outcome⟩
      intro turn member
      rcases List.mem_cons.mp member with rfl | earlier
      · exact timely
      · exact inTime turn earlier

theorem new_partly (sent : Bytes) : Partial sent sent .new where
  conserved := rfl
  handshake full := absurd rfl full
  inside header := absurd header (by decide)

theorem Partial.bounded (reading : Partial sent rest r) :
    r.buf.length < tlsRecordHeaderLen + tlsRecordMaxBody := by
  by_cases known : tlsRecordHeaderLen ≤ r.buf.length
  · obtain ⟨_, _, below⟩ := reading.inside known
    omega
  · omega

/-- A call does not go on for ever: every turn but the last brings a byte. -/
theorem reads_bounded (reading : Partial sent rest r)
    (reads : Reads limits r rest turns result left) :
    turns.length + r.buf.length ≤ tlsRecordHeaderLen + tlsRecordMaxBody := by
  induction reads with
  | returned possible turned =>
      have bounded := reading.bounded
      rw [List.length_singleton]
      omega
  | goesOn possible turned later ih =>
      obtain ⟨reading', _, grows⟩ := turn_goesOn reading possible turned
      have rest := ih reading'
      rw [List.length_cons]
      omega

theorem verdict_complete_iff (begins : sent.head? = some 0x16) :
    (∃ bytes, verdict sent = .complete bytes) ↔ IsHello sent := by
  have full : sent ≠ [] := by
    rintro rfl
    cases begins
  rw [verdict, if_neg full]
  constructor
  · rintro ⟨bytes, complete⟩
    split at complete
    · cases complete
    · next header =>
      split at complete
      · cases complete
      · next valid =>
        split at complete
        · cases complete
        · next whole => exact ⟨begins, by omega, by omega, by omega, by omega⟩
  · intro hello
    obtain ⟨_, header, notEmpty, bounded, whole⟩ := hello
    rw [if_neg (by omega), if_neg (by omega), if_neg (by omega)]
    exact ⟨_, rfl⟩

/-- What is returned and what is left unread are the client's stream, and no byte
behind the first record is read. A hello is complete just when the stream begins
with one and no deadline ends the call. Without a deadline the outcome is that of
the stream; only of a stream that begins otherwise the cut decides whether more
than its first byte is handed over. -/
theorem readClientHello_exact {unread : Bytes}
    (read : ReadClientHello limits sent turns result unread) :
    result.1.bytes ++ unread = sent ∧
    (tlsRecordHeaderLen ≤ sent.length →
      result.1.bytes.length ≤ tlsRecordHeaderLen + recordLen sent) ∧
    ((∃ bytes, result.1 = .complete bytes) ↔
      IsHello sent ∧ ∀ turn ∈ turns, turn.InTime limits) ∧
    ((∀ turn ∈ turns, turn.InTime limits) → ∀ limits' turns' result' unread',
      ReadClientHello limits' sent turns' result' unread' →
        (∀ turn ∈ turns', turn.InTime limits') →
          result'.1 = result.1 ∨ Rejected sent result.1 ∧ Rejected sent result'.1) := by
  obtain ⟨before, t, rfl, inTime, outcome⟩ := reads_outcome (new_partly sent) read
  refine ⟨outcome.conserved, outcome.bounded, ⟨?_, ?_⟩, ?_⟩
  · rintro ⟨bytes, complete⟩
    have timely : t.InTime limits := Classical.byContradiction fun late => by
      obtain ⟨_, fallback⟩ := outcome.late late
      rw [complete] at fallback
      cases fallback
    refine ⟨?_, fun turn member => ?_⟩
    · rcases outcome.decided timely with ⟨same, begins⟩ | ⟨_, _, _, fallback, _⟩
      · rw [complete] at same
        rcases begins with rfl | begins
        · cases same
        · exact (verdict_complete_iff begins).mp ⟨bytes, same.symm⟩
      · rw [complete] at fallback
        cases fallback
    · rcases List.mem_append.mp member with earlier | last
      · exact inTime turn earlier
      · exact List.mem_singleton.mp last ▸ timely
  · rintro ⟨hello, timely⟩
    rcases outcome.decided (timely t List.mem_concat_self) with ⟨same, _⟩ | ⟨_, other, _⟩
    · rw [same]
      exact (verdict_complete_iff hello.handshake).mpr hello
    · exact absurd hello.handshake other
  · intro timely limits' turns' result' unread' read' timely'
    obtain ⟨before', t', rfl, _, outcome'⟩ := reads_outcome (new_partly sent) read'
    have mine := outcome.decided (timely t List.mem_concat_self)
    have other := outcome'.decided (timely' t' List.mem_concat_self)
    rcases mine with ⟨same, begins⟩ | rejected
    · rcases other with ⟨same', _⟩ | ⟨full, head, _⟩
      · exact .inl (same'.trans same.symm)
      · exact absurd begins (not_or.mpr ⟨full, head⟩)
    · rcases other with ⟨_, begins⟩ | rejected'
      · exact absurd begins (not_or.mpr ⟨rejected.1, rejected.2.1⟩)
      · exact .inr ⟨rejected, rejected'⟩

end Runs

section Instances

def oneSecond : Limits := ⟨10 ^ 9, 10 ^ 10, 0⟩

/-- A record of one byte in two reads, and a byte behind it. -/
theorem readClientHello_two_reads :
    (∃ bytes, ClientHelloReadResult.complete [0x16, 3, 1, 0, 1, 7] = .complete bytes) ↔
      IsHello [0x16, 3, 1, 0, 1, 7, 9] ∧
      ∀ turn ∈ [(⟨0, .data [0x16, 3, 1, 0, 1], 5⟩ : Turn), ⟨6, .data [7], 8⟩],
        turn.InTime oneSecond :=
  (@readClientHello_exact oneSecond [0x16, 3, 1, 0, 1, 7, 9]
    [⟨0, .data [0x16, 3, 1, 0, 1], 5⟩, ⟨6, .data [7], 8⟩]
    (.complete [0x16, 3, 1, 0, 1, 7], ⟨0, 0, 6⟩) [9]
    (.goesOn ⟨by decide, by decide, rfl⟩ rfl (.returned ⟨by decide, by decide, rfl⟩ rfl))).2.2.1

/-- The bytes that are handed over do depend on the cut. -/
theorem readClientHello_cut : ¬∀ (limits : Limits) (sent : Bytes) (turns turns' : List Turn)
    (result result' : ClientHelloReadResult × ReadTiming) (unread unread' : Bytes),
      ReadClientHello limits sent turns result unread →
      ReadClientHello limits sent turns' result' unread' →
      (∀ turn ∈ turns, turn.InTime limits) → (∀ turn ∈ turns', turn.InTime limits) →
        result'.1 = result.1 := by
  intro all
  have same := all oneSecond [71, 69, 84] [⟨0, .data [71], 5⟩] [⟨0, .data [71, 69], 5⟩]
    (.fallback [71], ⟨0, 0, 1⟩) (.fallback [71, 69], ⟨0, 0, 2⟩) [69, 84] [84]
    (.returned ⟨by decide, by decide, rfl⟩ rfl) (.returned ⟨by decide, by decide, rfl⟩ rfl)
  have timely : ∀ bytes, ∀ turn ∈ [(⟨0, .data bytes, 5⟩ : Turn)], turn.InTime oneSecond := by
    intro bytes turn member
    rw [List.mem_singleton.mp member]
    have soon : 0 < HelloReader.hardAt oneSecond := by decide
    exact ⟨soon, fun no => (nomatch no)⟩
  exact absurd (same (timely _) (timely _)) (by decide)

end Instances

end Mirage.Handshake
