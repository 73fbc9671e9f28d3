import Mirage.Tunnel.Aead

/-!
What goes in at `send_data` comes out at `recv_data`. The induction is over
the records of a payload, with the paired writer and reader as the state; the
position in the padding schedule is part of the writer. The only way to fail
is the last nonce.
-/

namespace Mirage.Tunnel
open Word

variable {crate : AeadCrate}

/-- The receiver takes these records one by one, whatever follows them. -/
inductive Delivers : CryptoReader crate → List Bytes → List Bytes → CryptoReader crate → Prop
  | nil (reader : CryptoReader crate) : Delivers reader [] [] reader
  | cons {reader next last : CryptoReader crate} {record content : Bytes}
      {records contents : List Bytes}
      (head : ∀ rest, reader.recvData (record ++ rest) = .ok (content, next, rest))
      (tail : Delivers next records contents last) :
      Delivers reader (record :: records) (content :: contents) last

theorem Delivers.append {first middle last : CryptoReader crate}
    {records later contents more : List Bytes} (start : Delivers first records contents middle)
    (stop : Delivers middle later more last) :
    Delivers first (records ++ later) (contents ++ more) last := by
  induction start with
  | nil => exact stop
  | cons head _ ih => exact .cons head (ih stop)

theorem Delivers.recvAll {first last : CryptoReader crate} {records contents : List Bytes}
    (delivered : Delivers first records contents last) :
    first.recvAll records.flatten = (contents, .unexpectedEof) := by
  induction delivered with
  | nil reader =>
      rw [CryptoReader.recvAll]
      simp [CryptoReader.recvData]
  | cons head _ ih =>
      rw [List.flatten_cons, CryptoReader.recvAll]
      split
      · rename_i _ failed
        rw [head] at failed
        cases failed
      · rename_i _ _ _ received
        rw [head] at received
        cases received
        rw [ih]

namespace CryptoWriter

@[simp] theorem sendData_nil (self : CryptoWriter crate) :
    self.sendData [] = ([], some self) := by
  rw [sendData, if_pos rfl]

theorem sendData_spent {self : CryptoWriter crate} {plaintext : Bytes}
    (nonempty : plaintext ≠ []) (spent : maxU64 ≤ self.nonce) :
    self.sendData plaintext = ([], none) := by
  rw [sendData, if_neg nonempty, if_pos spent]

theorem sendData_record {self : CryptoWriter crate} {plaintext : Bytes}
    (nonempty : plaintext ≠ []) (left : self.nonce < maxU64) :
    self.sendData plaintext =
      (self.record (plaintext.take self.shape.capacity) ::
          (self.advance.sendData (plaintext.drop self.shape.capacity)).1,
        (self.advance.sendData (plaintext.drop self.shape.capacity)).2) := by
  rw [sendData, if_neg nonempty, if_neg (Nat.not_le.mpr left)]

end CryptoWriter

/-- The outcome of a send as the peer sees it: a prefix of the bytes when the
nonce ran out, all of them otherwise. -/
structure Sent (writer : CryptoWriter crate) (reader : CryptoReader crate) (plaintext : Bytes)
    (records : List Bytes) (result : Option (CryptoWriter crate)) (contents : List Bytes)
    (last : CryptoReader crate) : Prop where
  delivered : Delivers reader records contents last
  short : ∀ record ∈ records, record.length ≤ 5 + (maxRecordSize + 1 + tagSize)
  arrived : contents.flatten <+: plaintext
  complete : ∀ next, result = some next →
    contents.flatten = plaintext ∧ Paired next last ∧ next.nonce = writer.nonce + records.length
  bounded : ∀ next, result = some next → writer.nonce ≤ maxU64 → next.nonce ≤ maxU64
  exhausted : result = none → maxU64 ≤ writer.nonce + records.length

section Induction
variable {writer : CryptoWriter crate} {reader : CryptoReader crate}

theorem record_length (self : CryptoWriter crate) {data : Bytes}
    (fits : data.length ≤ self.shape.capacity) :
    (self.record data).length ≤ 5 + (maxRecordSize + 1 + tagSize) := by
  have short := self.fill_length fits
  simp only [CryptoWriter.record, CryptoWriter.frame, be16, List.length_append, List.length_cons,
    List.length_nil, crate.seal_length]
  omega

theorem sendData_sent (paired : Paired writer reader) (plaintext : Bytes) :
    ∃ contents last, Sent writer reader plaintext (writer.sendData plaintext).1
      (writer.sendData plaintext).2 contents last := by
  induction writer, plaintext using CryptoWriter.sendData.induct generalizing reader with
  | case1 writer =>
      rw [CryptoWriter.sendData_nil]
      exact ⟨[], reader, .nil reader, by simp, by simp,
        fun next same => by cases same; exact ⟨rfl, paired, rfl⟩,
        fun next same => by cases same; exact id, by simp⟩
  | case2 writer plaintext nonempty spent =>
      rw [CryptoWriter.sendData_spent nonempty spent]
      exact ⟨[], reader, .nil reader, by simp, by simp, by simp, by simp,
        fun _ => by simpa using spent⟩
  | case3 writer plaintext nonempty left ih =>
      have room := Nat.not_le.mp left
      obtain ⟨contents, last, rest⟩ := ih paired.advance
      have fits : (plaintext.take writer.shape.capacity).length ≤ writer.shape.capacity := by
        rw [List.length_take]
        exact Nat.min_le_left _ _
      have nonce : writer.advance.nonce = writer.nonce + 1 := rfl
      rw [CryptoWriter.sendData_record nonempty room]
      refine ⟨plaintext.take writer.shape.capacity :: contents, last,
        .cons (recvData_record paired room fits) rest.delivered, ?_, ?_, ?_, ?_, ?_⟩
      · intro record member
        rcases List.mem_cons.mp member with rfl | later
        · exact record_length writer fits
        · exact rest.short record later
      · obtain ⟨missing, same⟩ := rest.arrived
        refine ⟨missing, ?_⟩
        rw [List.flatten_cons, List.append_assoc, same, List.take_append_drop]
      · intro next same
        obtain ⟨all, pairedLast, count⟩ := rest.complete next same
        refine ⟨?_, pairedLast, ?_⟩
        · rw [List.flatten_cons, all, List.take_append_drop]
        · rw [count, nonce, List.length_cons]
          omega
      · intro next same _
        exact rest.bounded next same (by rw [nonce]; exact room)
      · intro failed
        have spent := rest.exhausted failed
        rw [nonce] at spent
        rw [List.length_cons]
        omega

theorem sendAll_sent (paired : Paired writer reader) (payloads : List Bytes) :
    ∃ contents last, Sent writer reader payloads.flatten (writer.sendAll payloads).1
      (writer.sendAll payloads).2 contents last := by
  induction payloads generalizing writer reader with
  | nil =>
      exact ⟨[], reader, .nil reader, by simp [CryptoWriter.sendAll], by simp,
        fun next same => by cases same; exact ⟨rfl, paired, rfl⟩,
        fun next same => by cases same; exact id, by simp [CryptoWriter.sendAll]⟩
  | cons payload rest ih =>
      obtain ⟨contents, middle, sent⟩ := sendData_sent paired payload
      cases outcome : writer.sendData payload with
      | mk records result =>
          rw [outcome] at sent
          cases result with
          | none =>
              refine ⟨contents, middle, ?_⟩
              simp only [CryptoWriter.sendAll, outcome]
              exact ⟨sent.delivered, sent.short,
                sent.arrived.trans (List.prefix_append _ _), by simp, by simp, sent.exhausted⟩
          | some next =>
              obtain ⟨all, pairedNext, count⟩ := sent.complete next rfl
              obtain ⟨more, last, later⟩ := ih pairedNext
              refine ⟨contents ++ more, last, ?_⟩
              simp only [CryptoWriter.sendAll, outcome]
              refine ⟨sent.delivered.append later.delivered, ?_, ?_, ?_, ?_, ?_⟩
              · intro record member
                exact (List.mem_append.mp member).elim (sent.short record) (later.short record)
              · rw [List.flatten_append, List.flatten_cons, all]
                exact (List.prefix_append_right_inj payload).mpr later.arrived
              · intro final same
                obtain ⟨allLater, pairedFinal, countLater⟩ := later.complete final same
                refine ⟨?_, pairedFinal, ?_⟩
                · rw [List.flatten_append, List.flatten_cons, all, allLater]
                · rw [countLater, count, List.length_append, Nat.add_assoc]
              · intro final same within
                exact later.bounded final same (sent.bounded next rfl within)
              · intro failed
                have spent := later.exhausted failed
                rw [count] at spent
                dsimp only at spent
                rw [List.length_append]
                omega

end Induction

section Fresh

/-- A new connection's writer after the negotiation settled on a cipher. -/
def freshWriter (crate : AeadCrate) (master : Bytes) (isInitiator : Bool) (rng : Nat → Nat)
    (padding : Bool) (scheme : PaddingScheme) (cipher : Cipher) : CryptoWriter crate :=
  (CryptoWriter.new crate master isInitiator rng padding scheme).rekey cipher

def freshReader (crate : AeadCrate) (master : Bytes) (isInitiator : Bool) (cipher : Cipher) :
    CryptoReader crate :=
  (CryptoReader.new crate master isInitiator).rekey cipher

theorem freshWriter_nonce {master : Bytes} {isInitiator : Bool} {rng : Nat → Nat}
    {padding : Bool} {scheme : PaddingScheme} {cipher : Cipher} :
    (freshWriter crate master isInitiator rng padding scheme cipher).nonce = 0 := by
  rw [freshWriter, CryptoWriter.rekey]
  split <;> rfl

/-- Everything is sent, and the peer reads the same bytes. -/
def RoundTrips (writer : CryptoWriter crate) (reader : CryptoReader crate)
    (payloads : List Bytes) : Prop :=
  (writer.sendAll payloads).2.isSome = true ∧
    (reader.recvAll (writer.sendAll payloads).1.flatten).1.flatten = payloads.flatten

/-- For every list of payloads, schedule, draw and cipher: the records are
within the receiver's limit, the peer reads a prefix of the payloads, and all
of them unless the nonce ran out after the last record. -/
theorem stream_round_trip (crate : AeadCrate) (master : Bytes) (isInitiator : Bool)
    (rng : Nat → Nat) (padding : Bool) (scheme : PaddingScheme) (cipher : Cipher)
    (payloads : List Bytes) :
    let writer := freshWriter crate master isInitiator rng padding scheme cipher
    let reader := freshReader crate master (!isInitiator) cipher
    let sent := writer.sendAll payloads
    (∀ record ∈ sent.1, record.length ≤ 5 + (maxRecordSize + 1 + tagSize)) ∧
    (reader.recvAll sent.1.flatten).2 = .unexpectedEof ∧
    (reader.recvAll sent.1.flatten).1.flatten <+: payloads.flatten ∧
    (sent.2.isSome = true → RoundTrips writer reader payloads) ∧
    (sent.2 = none → maxU64 ≤ sent.1.length) := by
  intro writer reader sent
  have paired : Paired writer reader :=
    (new_paired crate master isInitiator rng padding scheme).rekey cipher
  have zero : writer.nonce = 0 := freshWriter_nonce
  obtain ⟨contents, last, outcome⟩ := sendAll_sent paired payloads
  have read := outcome.delivered.recvAll
  refine ⟨outcome.short, by rw [read], by rw [read]; exact outcome.arrived, ?_, ?_⟩
  · intro succeeded
    obtain ⟨next, same⟩ := Option.isSome_iff_exists.mp succeeded
    exact ⟨succeeded, by rw [read]; exact (outcome.complete next same).1⟩
  · intro failed
    have spent := outcome.exhausted failed
    rwa [zero, Nat.zero_add] at spent

theorem sendData_grows (writer : CryptoWriter crate) (plaintext : Bytes) :
    plaintext = [] ∨ (writer.sendData plaintext).2 = none ∨
      (writer.sendData plaintext).1 ≠ [] := by
  by_cases nonempty : plaintext = []
  · exact Or.inl nonempty
  · by_cases spent : maxU64 ≤ writer.nonce
    · exact Or.inr (Or.inl (by rw [CryptoWriter.sendData_spent nonempty spent]))
    · refine Or.inr (Or.inr ?_)
      rw [CryptoWriter.sendData_record nonempty (Nat.not_le.mp spent)]
      simp

theorem sendAll_grows (writer : CryptoWriter crate) (payloads : List Bytes)
    (nonempty : ∀ payload ∈ payloads, payload ≠ []) :
    (writer.sendAll payloads).2 = none ∨ payloads.length ≤ (writer.sendAll payloads).1.length := by
  induction payloads generalizing writer with
  | nil => exact Or.inr (Nat.zero_le _)
  | cons payload rest ih =>
      cases outcome : writer.sendData payload with
      | mk records result =>
          cases result with
          | none => exact Or.inl (by simp only [CryptoWriter.sendAll, outcome])
          | some next =>
              have grows := (sendData_grows writer payload).resolve_left
                (nonempty payload List.mem_cons_self)
              rw [outcome] at grows
              have some_record : records ≠ [] := grows.resolve_left (by simp)
              have positive := List.length_pos_iff.mpr some_record
              simp only [CryptoWriter.sendAll, outcome]
              refine (ih next fun other member =>
                nonempty other (List.mem_cons_of_mem _ member)).imp_right fun later => ?_
              rw [List.length_cons, List.length_append]
              omega

/-- One byte a payload: the last of `2 ^ 64` payloads finds the nonce used up. -/
theorem nonce_runs_out :
    ¬ RoundTrips
      (freshWriter plainCrate [] true (fun _ => 0) false defaultPadScheme .chaCha20Poly1305)
      (freshReader plainCrate [] false .chaCha20Poly1305) (List.replicate (2 ^ 64) [0x41]) := by
  intro trips
  have paired : Paired
      (freshWriter plainCrate [] true (fun _ => 0) false defaultPadScheme .chaCha20Poly1305)
      (freshReader plainCrate [] false .chaCha20Poly1305) := (new_paired _ _ _ _ _ _).rekey _
  obtain ⟨contents, last, outcome⟩ := sendAll_sent paired (List.replicate (2 ^ 64) [0x41])
  obtain ⟨next, same⟩ := Option.isSome_iff_exists.mp trips.1
  have count := (outcome.complete next same).2.2
  have bounded := outcome.bounded next same (by rw [freshWriter_nonce]; decide)
  have grows := sendAll_grows
    (freshWriter plainCrate [] true (fun _ => 0) false defaultPadScheme .chaCha20Poly1305)
    (List.replicate (2 ^ 64) [0x41]) fun payload member => by
      rw [List.eq_of_mem_replicate member]
      simp
  rw [same, List.length_replicate] at grows
  have many := grows.resolve_left (by simp)
  rw [freshWriter_nonce] at count
  simp only [maxU64] at bounded
  omega

end Fresh

end Mirage.Tunnel
