import Mirage.Tls.Template

/-!
`parse_tls_sni` of proxy/sniff.rs on the bytes that are peeked of a stream. Every
access is checked here, `none` outside being the panic of one out of bounds. The
walk is that of `parse_sni`, only that it takes what is there for the whole.
-/

namespace Mirage.Sniff
open Word Vectors Tls

section Source

/-- `data[offset] << 8 | data[offset + 1]` -/
def wordAt (data : Bytes) (offset : Nat) : Option Nat := do
  let high ← data[offset]?
  let low ← data[offset + 1]?
  return high.toNat * 256 + low.toNat

/-- `&data[start..stop]` -/
def slice (data : Bytes) (start stop : Nat) : Option Bytes :=
  if start ≤ stop ∧ stop ≤ data.length then some ((data.drop start).take (stop - start)) else none

def sniFrom (data : Bytes) (extEnd offset : Nat) : Option (Option String) :=
  if _bound : offset + 4 ≤ extEnd then
    (wordAt data offset).bind fun extType =>
      (wordAt data (offset + 2)).bind fun extLen =>
        let offset := offset + 4
        if extType = 0 then
          if extEnd < offset + 2 then some none
          else
            (wordAt data offset).bind fun _listLen =>
              let offset := offset + 2
              if extEnd < offset + 3 then some none
              else
                (data[offset]?).bind fun nameType =>
                  (wordAt data (offset + 1)).bind fun nameLen =>
                    let offset := offset + 3
                    if nameType = 0 ∧ offset + nameLen ≤ extEnd then
                      (slice data offset (offset + nameLen)).map fromUtf8
                    else some none
        else sniFrom data extEnd (offset + extLen)
  else some none
termination_by extEnd - offset

def parseTlsSni (data : Bytes) : Option (Option String) :=
  if data.length < 44 then some none
  else
    (data[5]?).bind fun kind =>
      if kind ≠ 0x01 then some none
      else
        (data[43]?).bind fun sessionIdLen =>
          let offset := 44 + sessionIdLen.toNat
          if data.length < offset + 2 then some none
          else
            (wordAt data offset).bind fun cipherSuitesLen =>
              let offset := offset + 2 + cipherSuitesLen
              if data.length < offset + 1 then some none
              else
                (data[offset]?).bind fun compressionMethodsLen =>
                  let offset := offset + 1 + compressionMethodsLen.toNat
                  if data.length < offset + 2 then some none
                  else
                    (wordAt data offset).bind fun extTotalLen =>
                      let offset := offset + 2
                      sniFrom data (min (offset + extTotalLen) data.length) offset

end Source

section Bounds

variable {data : Bytes} {offset : Nat}

theorem byte_inside (inside : offset < data.length) : data[offset]? = some (byteAt data offset) := by
  rw [byteAt, List.getD_eq_getElem _ _ inside, List.getElem?_eq_getElem inside]

theorem wordAt_inside (inside : offset + 2 ≤ data.length) :
    wordAt data offset = some (beAt 2 data offset) := by
  have first : data[offset]? = some (byteAt data offset) := byte_inside (by omega)
  have second : data[offset + 1]? = some (byteAt data (offset + 1)) := byte_inside (by omega)
  have value : beAt 2 data offset =
      (byteAt data offset).toNat * 256 + (byteAt data (offset + 1)).toNat := by
    obtain ⟨front, rest, split, size⟩ := @exists_byte data offset (by omega)
    have long : 1 ≤ rest.length := by
      have length := congrArg List.length split
      rw [List.length_append, List.length_cons] at length
      omega
    obtain ⟨low, more, rfl⟩ := List.exists_cons_of_length_pos long
    have next : byteAt data (offset + 1) = low := by
      rw [split, byteAt_skip (by omega), size, Nat.add_sub_cancel_left]
      rfl
    have here : beAt 2 data offset = ofBe [byteAt data offset, low] := by
      conv => lhs; rw [split, beAt_skip (Nat.le_of_eq size), size, Nat.sub_self]
      rfl
    rw [here, next, ofBe, List.foldl_cons, List.foldl_cons, List.foldl_nil]
    omega
  rw [wordAt, first, second, value]
  rfl

/-- No access of the loop is out of bounds, and it finds what `parse_sni` finds. -/
theorem sniFrom_eq {extEnd : Nat} (inside : extEnd ≤ data.length) (offset : Nat) :
    sniFrom data extEnd offset = some ((parseSniFrom data extEnd offset).bind (·.1)) := by
  rw [sniFrom, parseSniFrom]
  by_cases bound : offset + 4 ≤ extEnd
  · rw [dif_pos bound, dif_pos bound, wordAt_inside (by omega), Option.bind_some,
      wordAt_inside (by omega), Option.bind_some]
    dsimp only
    by_cases name : beAt 2 data offset = 0
    · rw [if_pos name, if_pos name]
      by_cases list : extEnd < offset + 4 + 2
      · rw [if_pos list, if_pos (by omega)]
        rfl
      rw [if_neg list, wordAt_inside (by omega), Option.bind_some]
      by_cases entry : extEnd < offset + 4 + 2 + 3
      · rw [if_pos entry, if_pos (by omega)]
        rfl
      rw [if_neg entry, if_neg (by omega), byte_inside (by omega), Option.bind_some,
        wordAt_inside (by omega), Option.bind_some]
      simp only [Nat.add_assoc, Nat.reduceAdd]
      by_cases whole : byteAt data (offset + 6) = 0 ∧
          offset + (9 + beAt 2 data (offset + 7)) ≤ extEnd
      · rw [if_pos whole, if_pos whole, slice, if_pos (by omega)]
        have size : offset + (9 + beAt 2 data (offset + 7)) - (offset + 9) =
            beAt 2 data (offset + 7) := by omega
        rw [size]
        rfl
      · rw [if_neg whole, if_neg whole]
        rfl
    · rw [if_neg name, if_neg name]
      exact sniFrom_eq inside _
  · rw [dif_neg bound, dif_neg bound]
    rfl
termination_by extEnd - offset
decreasing_by omega

/-- What `parse_sni` finds in bytes that are taken for the whole hello. -/
def found (data : Bytes) (stop : Nat) : Option String := (parseSni data stop).bind (·.1)

/-- No access is out of bounds. -/
theorem parseTlsSni_eq (data : Bytes) :
    parseTlsSni data =
      some (if data.length < 44 ∨ byteAt data 5 ≠ 0x01 then none else found data data.length) := by
  rw [parseTlsSni, found, parseSni]
  by_cases short : data.length < 44
  · rw [if_pos short, if_pos (Or.inl short)]
  rw [if_neg short, byte_inside (by omega), Option.bind_some]
  by_cases kind : byteAt data 5 ≠ 0x01
  · rw [if_pos kind, if_pos (Or.inr kind)]
  rw [if_neg kind, if_neg (not_or.mpr ⟨short, kind⟩), byte_inside (by omega), Option.bind_some]
  dsimp only
  by_cases suites : data.length < 44 + (byteAt data 43).toNat + 2
  · rw [if_pos suites, if_pos suites]
    rfl
  rw [if_neg suites, if_neg suites, wordAt_inside (by omega), Option.bind_some]
  by_cases methods : data.length < 44 + (byteAt data 43).toNat + 2 +
      beAt 2 data (44 + (byteAt data 43).toNat) + 1
  · rw [if_pos methods, if_pos methods]
    rfl
  rw [if_neg methods, if_neg methods, byte_inside (by omega), Option.bind_some]
  split
  · rfl
  · rw [wordAt_inside (by omega), Option.bind_some]
    exact sniFrom_eq (Nat.min_le_right _ _) _

end Bounds

section Cuts

variable {data missing : Bytes}

theorem parseSniFrom_prefix {stop : Nat} (inside : stop ≤ data.length) (offset : Nat) :
    parseSniFrom (data ++ missing) stop offset = parseSniFrom data stop offset := by
  rw [parseSniFrom, parseSniFrom]
  by_cases bound : offset + 4 ≤ stop
  · rw [dif_pos bound, dif_pos bound, beAt_front (by omega), beAt_front (by omega)]
    dsimp only
    by_cases name : beAt 2 data offset = 0
    · rw [if_pos name, if_pos name]
      by_cases entry : stop < offset + 4 + 5
      · rw [if_pos entry, if_pos entry]
      rw [if_neg entry, if_neg entry, byteAt_front (by omega), beAt_front (by omega)]
      by_cases whole : byteAt data (offset + 4 + 2) = 0 ∧
          offset + 4 + 5 + beAt 2 data (offset + 4 + 3) ≤ stop
      · rw [if_pos whole, if_pos whole, List.drop_append_of_le_length (by omega),
          List.take_append_of_le_length (by rw [List.length_drop]; omega)]
      · rw [if_neg whole, if_neg whole]
    · rw [if_neg name, if_neg name]
      exact parseSniFrom_prefix inside _
  · rw [dif_neg bound, dif_neg bound]
termination_by stop - offset
decreasing_by omega

theorem parseSni_front (header : 44 ≤ data.length) :
    parseSni (data ++ missing) data.length = parseSni data data.length := by
  rw [parseSni, parseSni, byteAt_front (by omega)]
  dsimp only
  by_cases suites : data.length < 44 + (byteAt data 43).toNat + 2
  · rw [if_pos suites, if_pos suites]
  rw [if_neg suites, if_neg suites, beAt_front (by omega)]
  by_cases methods : data.length < 44 + (byteAt data 43).toNat + 2 +
      beAt 2 data (44 + (byteAt data 43).toNat) + 1
  · rw [if_pos methods, if_pos methods]
  rw [if_neg methods, if_neg methods, byteAt_front (by omega)]
  split
  · rfl
  · rw [beAt_front (by omega)]
    exact parseSniFrom_prefix (Nat.min_le_right _ _) _

/-- An end before that of the name hides the name. -/
theorem parseSniFrom_early {rest name : Bytes} {before : List (Nat × Bytes)} {stop : Nat}
    (others : Others before) (fits : name.length + 5 < 256 ^ 2) (pre : Bytes)
    (early : stop < pre.length + (itemsBytes before).length + (9 + name.length)) :
    parseSniFrom (pre ++ (itemsBytes before ++ (sniExt name ++ rest))) stop pre.length = none := by
  induction before generalizing pre with
  | nil =>
      obtain ⟨_, _, _, length, _⟩ := @sniExt_reads rest name fits pre
      simp only [itemsBytes_nil, List.nil_append, List.length_nil, Nat.add_zero] at early ⊢
      have type : beAt 2 (pre ++ (sniExt name ++ rest)) pre.length = 0 := beAt_item_type (by decide)
      rw [parseSniFrom]
      by_cases bound : pre.length + 4 ≤ stop
      · rw [dif_pos bound]
        simp only [type, if_true, Nat.add_assoc, Nat.reduceAdd, length]
        rw [if_neg (by omega : ¬ (_ ∧ pre.length + (9 + name.length) ≤ stop)), ite_self]
      · rw [dif_neg bound]
  | cons ext before ih =>
      obtain ⟨⟨different, typeFits, dataFits⟩, later⟩ := List.forall_mem_cons.mp others
      simp only [itemsBytes_cons, List.append_assoc, List.length_append, item_length] at early ⊢
      have size : pre.length + 4 + ext.2.length = (pre ++ item ext.1 ext.2).length := by
        simp
        omega
      rw [parseSniFrom]
      by_cases bound : pre.length + 4 ≤ stop
      · rw [dif_pos bound]
        simp only [beAt_item_type typeFits, beAt_item_length dataFits, if_neg different]
        rw [size, ← List.append_assoc]
        apply ih later
        simp only [List.length_append, item_length]
        omega
      · rw [dif_neg bound]

end Cuts

section Hellos

/-- What a ClientHello with a server name is made of. -/
structure HelloFields where
  recordVersion : Bytes
  version : Bytes
  random : Bytes
  sessionId : Bytes
  ciphers : Bytes
  compression : Bytes
  before : List (Nat × Bytes)
  name : String
  later : List (Nat × Bytes)

namespace HelloFields

variable (hello : HelloFields)

def extensions : Bytes :=
  itemsBytes hello.before ++ (sniExt (utf8 hello.name) ++ itemsBytes hello.later)

def body : Bytes :=
  hello.version ++ (hello.random ++ (vector 1 hello.sessionId ++ (vector 2 hello.ciphers ++
    (vector 1 hello.compression ++ vector 2 hello.extensions))))

def record : Bytes := 0x16 :: (hello.recordVersion ++ vector 2 (0x01 :: vector 3 hello.body))

def extensionsStart : Nat :=
  49 + hello.sessionId.length + hello.ciphers.length + hello.compression.length

/-- Where the `server_name` extension ends. -/
def nameEnd : Nat :=
  hello.extensionsStart + (itemsBytes hello.before).length + (9 + (utf8 hello.name).length)

def start : Bytes :=
  0x16 :: (hello.recordVersion ++ (toBe 2 (0x01 :: vector 3 hello.body).length ++ (0x01 ::
    (toBe 3 hello.body.length ++ (hello.version ++ hello.random)))))

end HelloFields

/-- A ClientHello: its parts fit their fields, and no other extension is a
`server_name`. -/
structure ClientHello extends HelloFields where
  recordVersionSize : recordVersion.length = 2
  versionSize : version.length = 2
  randomSize : random.length = 32
  sessionFits : sessionId.length < 256
  compressionFits : compression.length < 256
  othersBefore : Others before
  othersLater : Others later
  fits : toHelloFields.body.length + 4 < 256 ^ 2

namespace ClientHello

variable (hello : ClientHello) (behind : Bytes)

theorem start_length : hello.start.length = 43 := by
  simp [HelloFields.start, hello.recordVersionSize, hello.versionSize, hello.randomSize]

theorem body_length : hello.body.length =
    40 + hello.sessionId.length + hello.ciphers.length + hello.compression.length +
      hello.extensions.length := by
  simp [HelloFields.body, hello.versionSize, hello.randomSize]
  omega

theorem extensions_length : hello.extensions.length =
    (itemsBytes hello.before).length + (9 + (utf8 hello.name).length) +
      (itemsBytes hello.later).length := by
  rw [HelloFields.extensions, List.length_append, List.length_append, sniExt_eq, item_length,
    sniData_length]
  omega

theorem name_fits : (utf8 hello.name).length + 5 < 256 ^ 2 := by
  have body := hello.body_length
  have extensions := hello.extensions_length
  have fits := hello.fits
  omega

theorem record_split : hello.record ++ behind = hello.start ++ (toBe 1 hello.sessionId.length ++
    (hello.sessionId ++ (toBe 2 hello.ciphers.length ++ (hello.ciphers ++
      (toBe 1 hello.compression.length ++ (hello.compression ++ (toBe 2 hello.extensions.length ++
        (hello.extensions ++ behind)))))))) := by
  simp only [HelloFields.record, HelloFields.start, vector, HelloFields.body, List.append_assoc,
    List.cons_append]

theorem reads :
    byteAt (hello.record ++ behind) 5 = 0x01 ∧
    (byteAt (hello.record ++ behind) 43).toNat = hello.sessionId.length ∧
    beAt 2 (hello.record ++ behind) (44 + hello.sessionId.length) = hello.ciphers.length ∧
    (byteAt (hello.record ++ behind)
      (46 + hello.sessionId.length + hello.ciphers.length)).toNat = hello.compression.length ∧
    beAt 2 (hello.record ++ behind) (47 + hello.sessionId.length + hello.ciphers.length +
      hello.compression.length) = hello.extensions.length := by
  have start := hello.start_length
  have body := hello.body_length
  have fits := hello.fits
  have whole := hello.record_split behind
  have versionSize := hello.recordVersionSize
  refine ⟨?_, ?_, ?_, ?_, ?_⟩
  · have split : hello.record ++ behind = (0x16 :: (hello.recordVersion ++
        toBe 2 (0x01 :: vector 3 hello.body).length)) ++
          (0x01 :: (vector 3 hello.body ++ behind)) := by
      simp [HelloFields.record, vector]
    exact read_byte split (by simp [versionSize])
  · rw [← beAt_one]
    exact read_number whole start hello.sessionFits
  · have split : hello.record ++ behind = (hello.start ++ (toBe 1 hello.sessionId.length ++
        hello.sessionId)) ++ (toBe 2 hello.ciphers.length ++ (hello.ciphers ++
          (toBe 1 hello.compression.length ++ (hello.compression ++
            (toBe 2 hello.extensions.length ++ (hello.extensions ++ behind)))))) := by
      rw [whole]
      simp only [List.append_assoc]
    exact read_number split (by simp [start]; omega) (by omega)
  · have split : hello.record ++ behind = (hello.start ++ (toBe 1 hello.sessionId.length ++
        (hello.sessionId ++ (toBe 2 hello.ciphers.length ++ hello.ciphers)))) ++
          (toBe 1 hello.compression.length ++ (hello.compression ++
            (toBe 2 hello.extensions.length ++ (hello.extensions ++ behind)))) := by
      rw [whole]
      simp only [List.append_assoc]
    rw [← beAt_one]
    exact read_number split (by simp [start]; omega) hello.compressionFits
  · have split : hello.record ++ behind = (hello.start ++ (toBe 1 hello.sessionId.length ++
        (hello.sessionId ++ (toBe 2 hello.ciphers.length ++ (hello.ciphers ++
          (toBe 1 hello.compression.length ++ hello.compression)))))) ++
            (toBe 2 hello.extensions.length ++ (hello.extensions ++ behind)) := by
      rw [whole]
      simp only [List.append_assoc]
    exact read_number split (by simp [start]; omega) (by omega)

/-- The walk over the extensions starts here. -/
theorem walk_split : ∃ pre, pre.length = hello.extensionsStart ∧
    hello.record ++ behind = pre ++ (itemsBytes hello.before ++ (sniExt (utf8 hello.name) ++
      (itemsBytes hello.later ++ behind))) := by
  have start := hello.start_length
  refine ⟨hello.start ++ (toBe 1 hello.sessionId.length ++ (hello.sessionId ++
    (toBe 2 hello.ciphers.length ++ (hello.ciphers ++ (toBe 1 hello.compression.length ++
      (hello.compression ++ toBe 2 hello.extensions.length)))))), ?_, ?_⟩
  · simp [start, HelloFields.extensionsStart]
    omega
  · rw [hello.record_split behind, HelloFields.extensions]
    simp only [List.append_assoc]

/-- The name is found just when the end lies behind its extension. -/
theorem found_eq (stop : Nat) : ((parseSni (hello.record ++ behind) stop).bind (·.1)) =
    if stop < hello.nameEnd then none else some hello.name := by
  obtain ⟨-, session, ciphers, compression, extensions⟩ := hello.reads behind
  have extensionsLength := hello.extensions_length
  have offset : 44 + hello.sessionId.length + 2 + hello.ciphers.length =
      46 + hello.sessionId.length + hello.ciphers.length := by omega
  have lengthAt : 46 + hello.sessionId.length + hello.ciphers.length + 1 +
      hello.compression.length =
        47 + hello.sessionId.length + hello.ciphers.length + hello.compression.length := by omega
  have early : ∀ {value : Option (Option String × Nat × Nat)}, stop < hello.nameEnd →
      value = none → value.bind (·.1) =
        if stop < hello.nameEnd then none else some hello.name := by
    intro value short nothing
    rw [nothing, if_pos short]
    rfl
  simp only [parseSni, session, ciphers, offset, compression, lengthAt, extensions]
  by_cases suites : stop < 44 + hello.sessionId.length + 2
  · exact early (by unfold HelloFields.nameEnd HelloFields.extensionsStart; omega) (if_pos suites)
  rw [if_neg suites]
  by_cases methods : stop < 46 + hello.sessionId.length + hello.ciphers.length + 1
  · exact early (by unfold HelloFields.nameEnd HelloFields.extensionsStart; omega) (if_pos methods)
  rw [if_neg methods]
  by_cases total : stop < 47 + hello.sessionId.length + hello.ciphers.length +
      hello.compression.length + 2
  · exact early (by unfold HelloFields.nameEnd HelloFields.extensionsStart; omega) (if_pos total)
  rw [if_neg total]
  obtain ⟨pre, size, walk⟩ := hello.walk_split behind
  have here : 47 + hello.sessionId.length + hello.ciphers.length + hello.compression.length + 2 =
      pre.length := by
    rw [size, HelloFields.extensionsStart]
    omega
  rw [here, walk]
  by_cases short : stop < hello.nameEnd
  · refine early short (parseSniFrom_early hello.othersBefore hello.name_fits pre ?_)
    rw [HelloFields.nameEnd, ← size] at short
    omega
  · rw [parseSniFrom_items hello.othersBefore hello.name_fits pre, if_neg short]
    · exact fromUtf8_utf8 hello.name
    · rw [HelloFields.nameEnd, ← size] at short
      omega

/-- Of the bytes that are there, exactly those that reach past the extension give
the name, and fewer give none. -/
theorem parseTlsSni_prefix {data : Bytes} (front : data <+: hello.record ++ behind) :
    parseTlsSni data = some (if data.length < hello.nameEnd then none else some hello.name) := by
  obtain ⟨missing, whole⟩ := front
  rw [parseTlsSni_eq]
  by_cases short : data.length < 44
  · have early : data.length < hello.nameEnd := by
      unfold HelloFields.nameEnd HelloFields.extensionsStart
      omega
    rw [if_pos (Or.inl short), if_pos early]
  · have kind := (hello.reads behind).1
    rw [← whole, byteAt_front (by omega)] at kind
    rw [if_neg (not_or.mpr ⟨short, not_not.mpr kind⟩), found,
      ← @parseSni_front data missing (by omega), whole, hello.found_eq behind]

end ClientHello

def plainFields : HelloFields where
  recordVersion := [3, 1]
  version := [3, 3]
  random := List.replicate 32 0
  sessionId := []
  ciphers := [0x13, 0x01]
  compression := [0]
  before := [(0x0017, [])]
  name := "a.io"
  later := [(0x002B, [2, 3, 4])]

theorem plainFields_others : Others plainFields.before ∧ Others plainFields.later := by
  unfold Others
  decide

def plainHello : ClientHello :=
  ⟨plainFields, rfl, rfl, rfl, by decide, by decide, plainFields_others.1, plainFields_others.2,
    by decide⟩

example : parseTlsSni plainHello.record = some (some "a.io") := by
  rw [plainHello.parseTlsSni_prefix [] (List.prefix_append _ _)]
  decide

end Hellos

end Mirage.Sniff
