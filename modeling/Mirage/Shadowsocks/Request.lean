import Mirage.Shadowsocks.Address
import Mirage.Shadowsocks.Stream

/-!
The header of a SIP022 request, as the client writes it and as a server of the
protocol is to read it: a fixed header that declares the length of a variable
one, and in that the target, a padding and the first payload.
-/

namespace Mirage.Shadowsocks
open Word

variable {suite : Suite} {method : Method} {master salt : Bytes} {target : String}
variable {payload padding fixed var : Bytes} {now : Nat}

/-- What a server takes off a stream: the fixed header, as much variable header as
that declares, and what follows. -/
def receiveRequest (suite : Suite) (method : Method) (master stream : Bytes) :
    Option (Bytes × Bytes × Bytes) := do
  let salt := stream.take method.keyLen
  let rest := stream.drop method.keyLen
  let crypter := Crypter.new suite method (sessionKey suite method master salt)
  let (fixed, crypter) ← crypter.openInPlace (rest.take (11 + tagLen))
  let rest := rest.drop (11 + tagLen)
  let declared := ofBe (fixed.drop 9)
  let (var, _) ← crypter.openInPlace (rest.take (declared + tagLen))
  some (fixed, var, rest.drop (declared + tagLen))

/-- A request as the protocol wants it: without a payload there is padding. -/
structure IsRequest (target : String) (payload : Bytes) (now : Nat) (fixed var : Bytes) :
    Prop where
  declares : fixed = ss2022TypeClient :: toBe 8 now ++ be16 var.length
  within : var.length ≤ 0xFFFF
  spells : ∃ destination padding, denoted target = some destination ∧
    var = destination.wire ++ be16 padding.length ++ padding ++ payload ∧
    ¬ (payload = [] ∧ padding = [])

section Build

/-- Padding goes out only without a payload. -/
def sentPadding (payload padding : Bytes) : Bytes := if payload = [] then padding else []

theorem build2022Request_ok_iff :
    build2022Request target payload padding now = .ok (fixed, var) ↔
      ∃ addr, encodeSocksAddr target = .ok addr ∧
        var = addr ++ be16 (sentPadding payload padding).length ++ sentPadding payload padding ++
          payload ∧
        var.length ≤ 0xFFFF ∧ fixed = ss2022TypeClient :: toBe 8 now ++ be16 var.length := by
  have sent : ∀ addr : Bytes, (if payload = [] then addr ++ be16 padding.length ++ padding
      else addr ++ be16 0 ++ payload) =
      addr ++ be16 (sentPadding payload padding).length ++ sentPadding payload padding ++
        payload := by
    intro addr
    by_cases nothing : payload = []
    · simp [sentPadding, nothing]
    · simp [sentPadding, nothing]
  rw [build2022Request]
  cases encoded : encodeSocksAddr target with
  | error failure => simp [bind, Except.bind]
  | ok addr =>
      simp only [bind, Except.bind, sent]
      constructor
      · intro built
        split at built
        · cases built
        · rename_i short
          cases built
          exact ⟨addr, rfl, rfl, Nat.le_of_not_lt short, rfl⟩
      · rintro ⟨same, encoded, rfl, short, rfl⟩
        cases encoded
        rw [if_neg (Nat.not_lt_of_le short)]

/-- The padding of a request is what its length leaves of it. -/
theorem padding_unique {addr front back : Bytes}
    (same : addr ++ be16 front.length ++ front ++ payload =
      addr ++ be16 back.length ++ back ++ payload) : front.length = back.length := by
  have lengths := congrArg List.length same
  simp only [List.length_append, be16_length] at lengths
  omega

/-- A request that is built keeps to the protocol unless neither payload nor
padding is in it. -/
theorem isRequest_iff_of_built
    (built : build2022Request target payload padding now = .ok (fixed, var)) :
    IsRequest target payload now fixed var ↔ payload ≠ [] ∨ padding ≠ [] := by
  obtain ⟨addr, encoded, spelt, within, declares⟩ := build2022Request_ok_iff.mp built
  obtain ⟨destination, meant, -, rfl⟩ := encodeSocksAddr_ok_iff.mp encoded
  constructor
  · intro request
    obtain ⟨other, filling, sameTarget, sameBytes, filled⟩ := request.spells
    rw [meant] at sameTarget
    cases sameTarget
    by_cases nothing : payload = []
    · subst nothing
      right
      intro none_
      rw [spelt, sentPadding, if_pos rfl] at sameBytes
      have lengths := padding_unique sameBytes
      rw [none_] at lengths
      exact filled ⟨rfl, List.length_eq_zero_iff.mp lengths.symm⟩
    · exact Or.inl nothing
  · intro something
    refine ⟨declares, within, destination, sentPadding payload padding, meant, spelt, ?_⟩
    rintro ⟨nothing, none_⟩
    rw [sentPadding, if_pos nothing] at none_
    obtain some | some := something
    · exact some nothing
    · exact some none_

end Build

section Handshake

/-- The handshake is the salt and the two headers, each sealed with the next nonce. -/
theorem clientHandshakeOver_2022_iff {handshake : Bytes} {reader : SsReader suite}
    {writer : SsWriter suite} (new : method.is2022 = true) :
    clientHandshakeOver suite method master salt target padding now =
        .ok (handshake, reader, writer) ↔
      ∃ fixed var, build2022Request target [] padding now = .ok (fixed, var) ∧
        let crypter := Crypter.new suite method (sessionKey suite method master salt)
        let sealedFixed := crypter.sealInPlace fixed
        let sealedVar := sealedFixed.2.sealInPlace var
        handshake = salt ++ sealedFixed.1 ++ sealedVar.1 ∧
          reader = .new suite method master salt ∧ writer = ⟨sealedVar.2, none⟩ := by
  rw [clientHandshakeOver, buildHandshake, if_pos new]
  cases built : build2022Request target [] padding now with
  | error failure => simp [bind, Except.bind]
  | ok headers =>
      obtain ⟨fixed, var⟩ := headers
      simp only [bind, Except.bind, SsWriter.sealInto, Except.ok.injEq, Prod.mk.injEq]
      constructor
      · rintro ⟨rfl, rfl, rfl⟩
        exact ⟨fixed, var, ⟨rfl, rfl⟩, rfl, rfl, rfl⟩
      · rintro ⟨_, _, ⟨rfl, rfl⟩, rfl, rfl, rfl⟩
        exact ⟨rfl, rfl, rfl⟩

/-- A server reads both headers as they were, and leaves what follows. -/
theorem receiveRequest_sealed (salted : salt.length = method.keyLen) (eleven : fixed.length = 11)
    (declared : ofBe (fixed.drop 9) = var.length) (more : Bytes) :
    let crypter := Crypter.new suite method (sessionKey suite method master salt)
    receiveRequest suite method master
        (salt ++ (crypter.sealInPlace fixed).1 ++
          ((crypter.sealInPlace fixed).2.sealInPlace var).1 ++ more) =
      some (fixed, var, more) := by
  intro crypter
  have first : (crypter.sealInPlace fixed).1.length = 11 + tagLen := by
    rw [SsReader.seal_length, eleven]
  have second : ((crypter.sealInPlace fixed).2.sealInPlace var).1.length =
      var.length + tagLen := by
    rw [SsReader.seal_length]
  rw [receiveRequest, List.append_assoc, List.append_assoc]
  simp only [List.take_left' salted, List.drop_left' salted, List.take_left' first,
    List.drop_left' first]
  rw [SsReader.openInPlace_seal]
  simp only [bind, Option.bind, declared, List.take_left' second, List.drop_left' second]
  rw [SsReader.openInPlace_seal]

end Handshake

/-- Whatever the handshake carries, a server reads the two headers that were built
for it; they keep to the protocol exactly if some padding was drawn, and with a
first payload they always would. -/
theorem request_conforms_iff (suite : Suite) (method : Method) (master salt : Bytes)
    (target : String) (padding : Bytes) (now : Nat) :
    (∀ (handshake : Bytes) (reader : SsReader suite) (writer : SsWriter suite),
      method.is2022 = true → salt.length = method.keyLen →
      clientHandshakeOver suite method master salt target padding now =
        .ok (handshake, reader, writer) →
      ∃ fixed var,
        (∀ more, receiveRequest suite method master (handshake ++ more) =
          some (fixed, var, more)) ∧
        (IsRequest target [] now fixed var ↔ padding ≠ [])) ∧
    (∀ payload fixed var : Bytes,
      build2022Request target payload padding now = .ok (fixed, var) →
        (IsRequest target payload now fixed var ↔ payload ≠ [] ∨ padding ≠ [])) ∧
    (∀ addr : Bytes,
      method.is2022 = true → encodeSocksAddr target = .ok addr → padding.length ≤ 64 →
        ∃ handshake reader writer,
          clientHandshakeOver suite method master salt target padding now =
            .ok (handshake, reader, writer)) := by
  refine ⟨?_, ?_, ?_⟩
  · intro handshake reader writer new salted sent
    obtain ⟨fixed, var, built, rfl, -, -⟩ := (clientHandshakeOver_2022_iff new).mp sent
    obtain ⟨addr, -, -, within, declares⟩ := build2022Request_ok_iff.mp built
    have eleven : fixed.length = 11 := by
      rw [declares]
      simp only [List.length_append, List.length_cons, toBe_length, be16_length]
    have declared : ofBe (fixed.drop 9) = var.length := by
      rw [declares, List.drop_left' (by rw [List.length_cons, toBe_length]),
        ofBe_be16 (Nat.lt_succ_of_le within)]
    refine ⟨fixed, var, receiveRequest_sealed salted eleven declared, ?_⟩
    rw [isRequest_iff_of_built built]
    exact or_iff_right fun some => some rfl
  · intro payload fixed var built
    exact isRequest_iff_of_built built
  · intro addr new encoded short
    have size := (encodeSocksAddr_length encoded).2
    have most : maxChunk + 66 ≤ 0xFFFF := by decide
    have within : (addr ++ be16 padding.length ++ padding ++ []).length ≤ 0xFFFF := by
      simp only [List.length_append, be16_length, List.length_nil]
      omega
    have whole : sentPadding [] padding = padding := if_pos rfl
    have built : build2022Request target [] padding now =
        .ok (ss2022TypeClient :: toBe 8 now ++
          be16 (addr ++ be16 padding.length ++ padding ++ []).length,
          addr ++ be16 padding.length ++ padding ++ []) :=
      build2022Request_ok_iff.mpr ⟨addr, encoded, by rw [whole], within, rfl⟩
    exact ⟨_, _, _, (clientHandshakeOver_2022_iff new).mpr ⟨_, _, built, rfl, rfl, rfl⟩⟩

/-- A draw of no padding at all. -/
theorem empty_padding_sent :
    ∃ (fixed var handshake : Bytes) (reader : SsReader plainSuite) (writer : SsWriter plainSuite),
      clientHandshakeOver plainSuite .ss2022Aes128Gcm [1] (List.replicate 16 5) "1.2.3.4:80" [] 0 =
        .ok (handshake, reader, writer) ∧
      receiveRequest plainSuite .ss2022Aes128Gcm [1] handshake = some (fixed, var, []) ∧
      var = [0x01, 1, 2, 3, 4, 0, 80] ++ be16 0 ∧
      ¬ IsRequest "1.2.3.4:80" [] 0 fixed var := by
  have encoded : encodeSocksAddr "1.2.3.4:80" = .ok [0x01, 1, 2, 3, 4, 0, 80] := by
    decide +kernel
  have built : build2022Request "1.2.3.4:80" [] [] 0 =
      .ok (0 :: toBe 8 0 ++ be16 9, [0x01, 1, 2, 3, 4, 0, 80] ++ be16 0) :=
    build2022Request_ok_iff.mpr ⟨_, encoded, rfl, by decide, rfl⟩
  have sent := (@clientHandshakeOver_2022_iff plainSuite .ss2022Aes128Gcm [1]
    (List.replicate 16 5) "1.2.3.4:80" [] 0 _ _ _ rfl).mpr ⟨_, _, built, rfl, rfl, rfl⟩
  have read := @receiveRequest_sealed plainSuite .ss2022Aes128Gcm [1] (List.replicate 16 5)
    (0 :: toBe 8 0 ++ be16 9) ([0x01, 1, 2, 3, 4, 0, 80] ++ be16 0) rfl rfl rfl []
  dsimp only at read
  rw [List.append_nil] at read
  refine ⟨_, _, _, _, _, sent, read, rfl, ?_⟩
  rw [isRequest_iff_of_built built]
  decide

end Mirage.Shadowsocks
