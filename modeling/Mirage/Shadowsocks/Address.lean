import Mirage.Lib.Cut
import Mirage.Lib.Ipv6Text
import Mirage.Lib.Vectors
import Mirage.Shadowsocks.Writer

/-!
The target of a Shadowsocks stream: SOCKS addresses between their bytes and the
`host:port` texts of the source. A `Destination` is what both of them stand for.
-/

namespace Mirage.Shadowsocks
open Cut NumberText Text Vectors Word

inductive TargetError where
  | empty
  | ipv4Truncated
  | ipv6Truncated
  | domainTruncated
  | domainNotUtf8
  | unknownAtyp (atyp : UInt8)
  deriving DecidableEq

def decodeSocksAddr (buf : Bytes) : Except TargetError (String × Nat) :=
  match buf with
  | [] => .error .empty
  | atyp :: rest =>
      if atyp = 0x01 then
        if buf.length < 1 + 4 + 2 then .error .ipv4Truncated
        else
          let ip := BitVec.ofNat 32 (ofBe (rest.take 4))
          let port := ofBe ((rest.drop 4).take 2)
          .ok (ipv4Text ip ++ ":" ++ port.repr, 7)
      else if atyp = 0x04 then
        if buf.length < 1 + 16 + 2 then .error .ipv6Truncated
        else
          let ip := BitVec.ofNat 128 (ofBe (rest.take 16))
          let port := ofBe ((rest.drop 16).take 2)
          .ok ("[" ++ ipv6Text ip ++ "]" ++ ":" ++ port.repr, 19)
      else if atyp = 0x03 then
        match rest with
        | [] => .error .domainTruncated
        | dlen :: rest =>
            if buf.length < 2 + dlen.toNat + 2 then .error .domainTruncated
            else
              match fromUtf8 (rest.take dlen.toNat) with
              | none => .error .domainNotUtf8
              | some host =>
                  let port := ofBe ((rest.drop dlen.toNat).take 2)
                  .ok (host ++ ":" ++ port.repr, 2 + dlen.toNat + 2)
      else .error (.unknownAtyp atyp)

inductive Host where
  | ipv4 (ip : BitVec 32)
  | ipv6 (ip : BitVec 128)
  | domain (name : String)
  deriving DecidableEq

structure Destination where
  host : Host
  port : UInt16
  deriving DecidableEq

/-- What a text stands for: an address if it is the text of one, otherwise a
domain name. -/
def Host.ofText (text : String) : Host :=
  match parseIpv4 text, parseIpv6 text with
  | some v4, _ => .ipv4 v4
  | none, some v6 => .ipv6 v6
  | none, none => .domain text

def Host.text : Host → String
  | .ipv4 ip => ipv4Text ip
  | .ipv6 ip => "[" ++ ipv6Text ip ++ "]"
  | .domain name => name

def Host.wire : Host → Bytes
  | .ipv4 ip => 0x01 :: toBe 4 ip.toNat
  | .ipv6 ip => 0x04 :: toBe 16 ip.toNat
  | .domain name => 0x03 :: UInt8.ofNat (utf8 name).length :: utf8 name

def Host.Fits : Host → Prop
  | .domain name => (utf8 name).length ≤ 255
  | _ => True

def Destination.text (destination : Destination) : String :=
  destination.host.text ++ ":" ++ destination.port.toNat.repr

def Destination.wire (destination : Destination) : Bytes :=
  destination.host.wire ++ be16 destination.port.toNat

/-- What a target stands for: the host up to the last `:`, without brackets, and
the port behind it. -/
def denoted (target : String) : Option Destination :=
  match rsplitOnce ':' target.toList with
  | none => none
  | some (host, portText) =>
      (parseUnsigned (2 ^ 16) (String.ofList portText)).map fun port =>
        ⟨.ofText (String.ofList (trimMatches '[' ']' host)), UInt16.ofNat port⟩

/-- A name that keeps its ends when brackets are taken off. -/
def Unbracketed (name : String) : Prop :=
  name.toList.head? ≠ some '[' ∧ name.toList.getLast? ≠ some ']'

section Trim

variable {text : List Char}

theorem dropWhile_of_head? {c : Char} (other : text.head? ≠ some c) :
    text.dropWhile (· = c) = text := by
  cases text with
  | nil => rfl
  | cons first rest =>
      have differs : first ≠ c := fun same => other (congrArg some same)
      exact List.dropWhile_cons_of_neg (by simpa using differs)

theorem trimMatches_of_unbracketed (front : text.head? ≠ some '[')
    (back : text.getLast? ≠ some ']') : trimMatches '[' ']' text = text := by
  have last : text.reverse.head? ≠ some ']' := by rwa [List.head?_reverse]
  rw [trimMatches, dropWhile_of_head? front, dropWhile_of_head? last, List.reverse_reverse]

theorem trimMatches_brackets (front : text.head? ≠ some '[') (back : text.getLast? ≠ some ']') :
    trimMatches '[' ']' ('[' :: text ++ [']']) = text := by
  have opened : (text ++ [']']).head? ≠ some '[' := by
    cases text with
    | nil => decide
    | cons first rest => exact front
  have last : text.reverse.head? ≠ some ']' := by rwa [List.head?_reverse]
  rw [trimMatches, List.cons_append, List.dropWhile_cons_of_pos (by decide),
    dropWhile_of_head? opened, List.reverse_append, List.reverse_singleton, List.singleton_append,
    List.dropWhile_cons_of_pos (by decide), dropWhile_of_head? last, List.reverse_reverse]

theorem head?_dropWhile_ne (c : Char) (text : List Char) :
    (text.dropWhile (· = c)).head? ≠ some c := by
  intro first
  have kept := List.head?_dropWhile_not (fun d => decide (d = c)) text
  rw [first] at kept
  simp at kept

theorem unbracketed_trim (text : List Char) :
    Unbracketed (String.ofList (trimMatches '[' ']' text)) := by
  have front := head?_dropWhile_ne '[' text
  rw [Unbracketed, String.toList_ofList, trimMatches]
  generalize text.dropWhile (· = '[') = body at front
  constructor
  · have start : (body.reverse.dropWhile (· = ']')).reverse <+: body := by
      rw [← List.reverse_suffix, List.reverse_reverse]
      exact List.dropWhile_suffix _
    intro first
    obtain ⟨tail, whole⟩ := start
    rw [← whole, List.head?_append, first] at front
    exact front rfl
  · rw [List.getLast?_reverse]
    exact head?_dropWhile_ne ']' _

end Trim

section Text

theorem ofText_ipv4Text (ip : BitVec 32) : Host.ofText (ipv4Text ip) = .ipv4 ip := by
  rw [Host.ofText, parseIpv4_ipv4Text]

theorem ofText_ipv6Text (ip : BitVec 128) : Host.ofText (ipv6Text ip) = .ipv6 ip := by
  rw [Host.ofText, parseIpv4_of_colon (colon_mem_ipv6Text ip), parseIpv6_ipv6Text]

theorem unbracketed_of_chars {text : String}
    (chars : ∀ c ∈ text.toList, c.isHexDigit = true ∨ c = ':' ∨ c = '.') : Unbracketed text := by
  have none_ : ∀ c : Char, (c.isHexDigit = true ∨ c = ':' ∨ c = '.') → c ≠ '[' ∧ c ≠ ']' := by
    intro c allowed
    constructor
    · rintro rfl
      exact absurd allowed (by decide)
    · rintro rfl
      exact absurd allowed (by decide)
  constructor
  · intro first
    exact (none_ _ (chars _ (List.mem_of_mem_head? first))).1 rfl
  · intro last
    exact (none_ _ (chars _ (List.mem_of_mem_getLast? last))).2 rfl

theorem unbracketed_ipv4Text (ip : BitVec 32) : Unbracketed (ipv4Text ip) := by
  apply unbracketed_of_chars
  intro c member
  obtain digit | dot := ipv4_chars (parseIpv4_ipv4Text ip) member
  · exact Or.inl (by simp [Char.isHexDigit, digit])
  · exact Or.inr (Or.inr dot)

theorem unbracketed_ipv6Text (ip : BitVec 128) : Unbracketed (ipv6Text ip) :=
  unbracketed_of_chars fun _ member => ipv6_chars member

/-- A text of a host and a port is read back as these. -/
theorem denoted_pair (host : String) (port : UInt16) :
    denoted (host ++ ":" ++ port.toNat.repr) =
      some ⟨.ofText (String.ofList (trimMatches '[' ']' host.toList)), port⟩ := by
  have free : ':' ∉ port.toNat.repr.toList := by
    rw [Nat.toList_repr]
    exact not_mem_toDigits rfl _
  have chars : (host ++ ":" ++ port.toNat.repr).toList =
      host.toList ++ ':' :: port.toNat.repr.toList := by
    rw [String.toList_append, String.toList_append, List.append_assoc]
    rfl
  rw [denoted, chars, rsplitOnce_append _ free]
  dsimp only
  rw [String.ofList_toList, parseUnsigned_repr port.toNat_lt, Option.map_some, UInt16.ofNat_toNat]

theorem denoted_domain {name : String} (plain : Unbracketed name) (port : UInt16) :
    denoted (Destination.text ⟨.domain name, port⟩) = some ⟨.ofText name, port⟩ := by
  rw [Destination.text, Host.text, denoted_pair, trimMatches_of_unbracketed plain.1 plain.2,
    String.ofList_toList]

theorem denoted_ipv4 (ip : BitVec 32) (port : UInt16) :
    denoted (Destination.text ⟨.ipv4 ip, port⟩) = some ⟨.ipv4 ip, port⟩ := by
  have plain := unbracketed_ipv4Text ip
  rw [Destination.text, Host.text, denoted_pair, trimMatches_of_unbracketed plain.1 plain.2,
    String.ofList_toList, ofText_ipv4Text]

theorem denoted_ipv6 (ip : BitVec 128) (port : UInt16) :
    denoted (Destination.text ⟨.ipv6 ip, port⟩) = some ⟨.ipv6 ip, port⟩ := by
  have plain := unbracketed_ipv6Text ip
  have chars : ("[" ++ ipv6Text ip ++ "]").toList = '[' :: (ipv6Text ip).toList ++ [']'] := by
    rw [String.toList_append, String.toList_append]
    rfl
  rw [Destination.text, Host.text, denoted_pair, chars, trimMatches_brackets plain.1 plain.2,
    String.ofList_toList, ofText_ipv6Text]

theorem denoted_text {target : String} {destination : Destination}
    (meant : denoted target = some destination) :
    denoted destination.text = some destination := by
  unfold denoted at meant
  split at meant
  · cases meant
  · rename_i host portText cut
    obtain ⟨port, -, rfl⟩ := Option.map_eq_some_iff.mp meant
    have plain := unbracketed_trim host
    generalize String.ofList (trimMatches '[' ']' host) = name at plain
    cases v4 : parseIpv4 name with
    | some ip =>
        have host : Host.ofText name = .ipv4 ip := by simp only [Host.ofText, v4]
        rw [host]
        exact denoted_ipv4 ip _
    | none =>
        cases v6 : parseIpv6 name with
        | some ip =>
            have host : Host.ofText name = .ipv6 ip := by simp only [Host.ofText, v4, v6]
            rw [host]
            exact denoted_ipv6 ip _
        | none =>
            have host : Host.ofText name = .domain name := by simp only [Host.ofText, v4, v6]
            rw [host, denoted_domain plain, host]

end Text

section Codec

def Host.Sendable : Host → Prop
  | .domain name => 0 < (utf8 name).length ∧ (utf8 name).length ≤ 255
  | _ => True

theorem Host.Sendable.fits {host : Host} (sendable : host.Sendable) : host.Fits := by
  cases host with
  | ipv4 _ => trivial
  | ipv6 _ => trivial
  | domain name => exact sendable.2

theorem encodeSocksAddr_ok_iff {target : String} {bytes : Bytes} :
    encodeSocksAddr target = .ok bytes ↔
      ∃ destination, denoted target = some destination ∧ destination.host.Sendable ∧
        destination.wire = bytes := by
  unfold encodeSocksAddr denoted
  cases cut : rsplitOnce ':' target.toList with
  | none => simp
  | some parts =>
      obtain ⟨host, portText⟩ := parts
      dsimp only
      cases parsed : parseUnsigned (2 ^ 16) (String.ofList portText) with
      | none => simp
      | some port =>
          have small := parseUnsigned_lt parsed
          have number : (UInt16.ofNat port).toNat = port := UInt16.toNat_ofNat_of_lt' small
          generalize String.ofList (trimMatches '[' ']' host) = name
          simp only [Option.map_some, Option.some.injEq, ↓existsAndEq, true_and,
            Destination.wire, number, Host.ofText]
          cases v4 : parseIpv4 name with
          | some ip => simp [Host.Sendable, Host.wire]
          | none =>
              cases v6 : parseIpv6 name with
              | some ip => simp [Host.Sendable, Host.wire]
              | none =>
                  simp only [Host.Sendable, Host.wire]
                  split
                  · rename_i bad
                    constructor
                    · intro refused
                      cases refused
                    · rintro ⟨fits, -⟩
                      omega
                  · rename_i good
                    have fits : 0 < (utf8 name).length ∧ (utf8 name).length ≤ 255 := by omega
                    simp [fits]

theorem be16_eq_toBe (n : Nat) : be16 n = toBe 2 n := rfl

/-- An address and a port, read off the front. -/
theorem read_port {addr : Bytes} {size : Nat} (sized : addr.length = size) (port : UInt16)
    (rest : Bytes) :
    (addr ++ be16 port.toNat ++ rest).take size = addr ∧
      ofBe (((addr ++ be16 port.toNat ++ rest).drop size).take 2) = port.toNat := by
  have number : ofBe (be16 port.toNat) = port.toNat := by
    rw [be16_eq_toBe]
    exact ofBe_toBe port.toNat_lt
  rw [List.append_assoc, List.take_left' sized, List.drop_left' sized,
    List.take_left' (be16_length _), number]
  exact ⟨rfl, rfl⟩

theorem split_port {bytes : Bytes} {size : Nat} (enough : size + 2 ≤ bytes.length) :
    ∃ (port : UInt16) (rest : Bytes), bytes = bytes.take size ++ be16 port.toNat ++ rest ∧
      ofBe ((bytes.drop size).take 2) = port.toNat := by
  have two : ((bytes.drop size).take 2).length = 2 := by
    rw [List.length_take, List.length_drop]
    omega
  have small : ofBe ((bytes.drop size).take 2) < 2 ^ 16 := by
    have bound := ofBe_lt ((bytes.drop size).take 2)
    rwa [two] at bound
  have back : be16 (ofBe ((bytes.drop size).take 2)) = (bytes.drop size).take 2 := by
    have same := toBe_ofBe ((bytes.drop size).take 2)
    rwa [two] at same
  have number := UInt16.toNat_ofNat_of_lt' small
  refine ⟨UInt16.ofNat (ofBe ((bytes.drop size).take 2)), (bytes.drop size).drop 2, ?_, number.symm⟩
  rw [number, back, List.append_assoc, List.take_append_drop, List.take_append_drop]

theorem decodeSocksAddr_wire {destination : Destination} (fits : destination.host.Fits)
    (rest : Bytes) :
    decodeSocksAddr (destination.wire ++ rest) =
      .ok (destination.text, destination.wire.length) := by
  obtain ⟨host, port⟩ := destination
  cases host with
  | ipv4 ip =>
      have four : (toBe 4 ip.toNat).length = 4 := toBe_length _ _
      have value : ofBe (toBe 4 ip.toNat) = ip.toNat := ofBe_toBe ip.isLt
      obtain ⟨address, number⟩ := read_port four port rest
      have enough : ¬ 4 + 2 + rest.length + 1 < 1 + 4 + 2 := by omega
      simp only [Destination.wire, Host.wire, List.cons_append, decodeSocksAddr, ↓reduceIte,
        if_neg enough, address, number, value, BitVec.ofNat_toNat, BitVec.setWidth_eq,
        List.length_cons, List.length_append, four, be16_length, Destination.text, Host.text]
  | ipv6 ip =>
      have sixteen : (toBe 16 ip.toNat).length = 16 := toBe_length _ _
      have value : ofBe (toBe 16 ip.toNat) = ip.toNat := ofBe_toBe ip.isLt
      obtain ⟨address, number⟩ := read_port sixteen port rest
      have enough : ¬ 16 + 2 + rest.length + 1 < 1 + 16 + 2 := by omega
      have notIpv4 : ¬ (0x04 : UInt8) = 0x01 := by decide
      simp only [Destination.wire, Host.wire, List.cons_append, decodeSocksAddr, ↓reduceIte,
        if_neg notIpv4, if_neg enough, address, number, value, BitVec.ofNat_toNat,
        BitVec.setWidth_eq, List.length_cons, List.length_append, sixteen, be16_length,
        Destination.text, Host.text]
  | domain name =>
      have length : (UInt8.ofNat (utf8 name).length).toNat = (utf8 name).length :=
        UInt8.toNat_ofNat_of_lt' (Nat.lt_succ_of_le fits)
      obtain ⟨address, number⟩ := @read_port (utf8 name) _ rfl port rest
      have enough : ¬ (utf8 name).length + 2 + rest.length + 1 + 1 <
          (utf8 name).length + 2 + 1 + 1 := by
        omega
      have notIpv4 : ¬ (0x03 : UInt8) = 0x01 := by decide
      have notIpv6 : ¬ (0x03 : UInt8) = 0x04 := by decide
      have size : 2 + (utf8 name).length + 2 = (utf8 name).length + 2 + 1 + 1 := by omega
      simp only [Destination.wire, Host.wire, List.cons_append, decodeSocksAddr, ↓reduceIte,
        if_neg notIpv4, if_neg notIpv6, length, if_neg enough, address, number, fromUtf8_utf8,
        List.length_cons, List.length_append, be16_length, Destination.text, Host.text, size]

theorem decodeSocksAddr_ok {bytes : Bytes} {text : String} {size : Nat}
    (decoded : decodeSocksAddr bytes = .ok (text, size)) :
    ∃ (destination : Destination) (rest : Bytes), destination.host.Fits ∧
      bytes = destination.wire ++ rest ∧ text = destination.text ∧
      size = destination.wire.length := by
  -- It is enough to find a destination: what its bytes decode to is known.
  suffices found : ∃ (destination : Destination) (rest : Bytes), destination.host.Fits ∧
      bytes = destination.wire ++ rest by
    obtain ⟨destination, rest, fits, same⟩ := found
    have read := decodeSocksAddr_wire fits rest
    rw [← same, decoded] at read
    cases read
    exact ⟨destination, rest, fits, same, rfl, rfl⟩
  unfold decodeSocksAddr at decoded
  split at decoded
  · cases decoded
  · rename_i atyp rest
    rw [List.length_cons] at decoded
    split at decoded
    · rename_i kind
      split at decoded
      · cases decoded
      · have enough : 4 + 2 ≤ rest.length := by omega
        obtain ⟨port, tail, whole, -⟩ := split_port enough
        have four : (rest.take 4).length = 4 := List.length_take_of_le (by omega)
        have small : ofBe (rest.take 4) < 2 ^ 32 := by
          have bound := ofBe_lt (rest.take 4)
          rwa [four] at bound
        have back : toBe 4 (ofBe (rest.take 4)) = rest.take 4 := by
          have same := toBe_ofBe (rest.take 4)
          rwa [four] at same
        refine ⟨⟨.ipv4 (BitVec.ofNat 32 (ofBe (rest.take 4))), port⟩, tail, trivial, ?_⟩
        rw [Destination.wire, Host.wire, BitVec.toNat_ofNat, Nat.mod_eq_of_lt small, back, kind,
          List.cons_append, List.cons_append, ← whole]
    split at decoded
    · rename_i kind
      split at decoded
      · cases decoded
      · have enough : 16 + 2 ≤ rest.length := by omega
        obtain ⟨port, tail, whole, -⟩ := split_port enough
        have sixteen : (rest.take 16).length = 16 := List.length_take_of_le (by omega)
        have small : ofBe (rest.take 16) < 2 ^ 128 := by
          have bound := ofBe_lt (rest.take 16)
          rwa [sixteen] at bound
        have back : toBe 16 (ofBe (rest.take 16)) = rest.take 16 := by
          have same := toBe_ofBe (rest.take 16)
          rwa [sixteen] at same
        refine ⟨⟨.ipv6 (BitVec.ofNat 128 (ofBe (rest.take 16))), port⟩, tail, trivial, ?_⟩
        rw [Destination.wire, Host.wire, BitVec.toNat_ofNat, Nat.mod_eq_of_lt small, back, kind,
          List.cons_append, List.cons_append, ← whole]
    split at decoded
    · rename_i kind
      split at decoded
      · cases decoded
      · rename_i dlen rest
        split at decoded
        · cases decoded
        · split at decoded
          · cases decoded
          · rename_i long _ name read
            rw [List.length_cons] at long
            have enough : dlen.toNat + 2 ≤ rest.length := by omega
            obtain ⟨port, tail, whole, -⟩ := split_port enough
            have chars : utf8 name = rest.take dlen.toNat := utf8_of_fromUtf8 read
            have length : (utf8 name).length = dlen.toNat := by
              rw [chars]
              exact List.length_take_of_le (by omega)
            have fits : (utf8 name).length ≤ 255 := by
              rw [length]
              exact Nat.le_of_lt_succ dlen.toNat_lt
            refine ⟨⟨.domain name, port⟩, tail, fits, ?_⟩
            rw [Destination.wire, Host.wire, length, UInt8.ofNat_toNat, chars, kind,
              List.cons_append, List.cons_append, List.cons_append, List.cons_append, ← whole]
    · cases decoded

end Codec

section Again

/-- What a host is when its text is read again. -/
def Host.reread : Host → Host
  | .domain name => .ofText name
  | host => host

/-- An address, or a name that is not empty and has no brackets at its ends. -/
def Host.Ordinary : Host → Prop
  | .domain name => name ≠ "" ∧ Unbracketed name
  | _ => True

/-- A name that is the text of an address. -/
def Host.Literal : Host → Prop
  | .domain name => parseIpv4 name ≠ none ∨ parseIpv6 name ≠ none
  | _ => False

theorem Host.reread_of_not_literal {host : Host} (plain : ¬ host.Literal) :
    host.reread = host := by
  cases host with
  | ipv4 _ => rfl
  | ipv6 _ => rfl
  | domain name =>
      obtain ⟨v4, v6⟩ := not_or.mp plain
      simp only [Host.reread, Host.ofText, not_not.mp v4, not_not.mp v6]

theorem Host.sendable_reread {host : Host} (ordinary : host.Ordinary) (fits : host.Fits) :
    host.reread.Sendable := by
  cases host with
  | ipv4 _ => trivial
  | ipv6 _ => trivial
  | domain name =>
      have positive : 0 < (utf8 name).length := by
        apply List.length_pos_iff.mpr
        intro nothing
        have empty : utf8 name = utf8 "" := nothing
        exact ordinary.1 (utf8_injective empty)
      rw [Host.reread, Host.ofText]
      cases parseIpv4 name with
      | some _ => trivial
      | none =>
          cases parseIpv6 name with
          | some _ => trivial
          | none => exact ⟨positive, fits⟩

theorem denoted_reread {destination : Destination} (ordinary : destination.host.Ordinary) :
    denoted destination.text = some ⟨destination.host.reread, destination.port⟩ := by
  obtain ⟨host, port⟩ := destination
  cases host with
  | ipv4 ip => exact denoted_ipv4 ip port
  | ipv6 ip => exact denoted_ipv6 ip port
  | domain name => exact denoted_domain ordinary.2 port

/-- What is encoded is decoded to a text of the same meaning, and what is decoded
is encoded again to the same bytes, unless it is a name that is the text of an
address: that is encoded as the address. -/
theorem socks_addr_round_trip :
    (∀ (target : String) (bytes rest : Bytes), encodeSocksAddr target = .ok bytes →
      ∃ destination text, denoted target = some destination ∧
        decodeSocksAddr (bytes ++ rest) = .ok (text, bytes.length) ∧
        denoted text = some destination) ∧
    (∀ (bytes : Bytes) (text : String) (size : Nat),
      decodeSocksAddr bytes = .ok (text, size) →
        ∃ destination : Destination, destination.wire = bytes.take size ∧
          (destination.host.Ordinary → ∃ again,
            denoted text = some ⟨destination.host.reread, destination.port⟩ ∧
            encodeSocksAddr text = .ok again ∧
            again = Destination.wire ⟨destination.host.reread, destination.port⟩ ∧
            (∀ more, decodeSocksAddr (again ++ more) =
              .ok (Destination.text ⟨destination.host.reread, destination.port⟩, again.length)) ∧
            (¬ destination.host.Literal → again = bytes.take size))) := by
  constructor
  · intro target bytes rest encoded
    obtain ⟨destination, meant, sendable, rfl⟩ := encodeSocksAddr_ok_iff.mp encoded
    exact ⟨destination, destination.text, meant, decodeSocksAddr_wire sendable.fits rest,
      denoted_text meant⟩
  · intro bytes text size decoded
    obtain ⟨destination, rest, fits, rfl, rfl, rfl⟩ := decodeSocksAddr_ok decoded
    have taken : (destination.wire ++ rest).take destination.wire.length = destination.wire :=
      List.take_left' rfl
    refine ⟨destination, taken.symm, ?_⟩
    intro ordinary
    have sendable := Host.sendable_reread ordinary fits
    refine ⟨_, denoted_reread ordinary,
      encodeSocksAddr_ok_iff.mpr ⟨_, denoted_reread ordinary, sendable, rfl⟩, rfl, ?_, ?_⟩
    · intro more
      exact decodeSocksAddr_wire sendable.fits more
    · intro plain
      rw [taken, Host.reread_of_not_literal plain]

/-- The name `1.2.3.4` is decoded, and encoded again as an address. -/
theorem address_named_reencoded :
    decodeSocksAddr ([0x03, 7, 49, 46, 50, 46, 51, 46, 52] ++ [0, 80]) =
        .ok ("1.2.3.4:80", 11) ∧
      encodeSocksAddr "1.2.3.4:80" = .ok [0x01, 1, 2, 3, 4, 0, 80] := by
  decide +kernel

end Again

end Mirage.Shadowsocks
