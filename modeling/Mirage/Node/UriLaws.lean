import Mathlib.Data.List.Forall2
import Mirage.Node.Uri

/-!
What a link says is what it was built from, and how its password and SNI are
escaped does not change what it says.
-/

namespace Mirage.Node
open Word Text Cut NumberText
open Tunnel (trim isWhitespace)

section Percent

theorem percentDecodeBytes_plain {b : UInt8} (plain : b ≠ 0x25) (rest : Bytes) :
    percentDecodeBytes (b :: rest) = (percentDecodeBytes rest).map (b :: ·) := by
  rw [percentDecodeBytes.eq_def]
  simp only [plain, ↓reduceIte]

theorem percentDecodeBytes_escape {first second v : UInt8} {hex : String}
    (text : fromUtf8 [first, second] = some hex) (value : fromStrRadix16 first second = some v)
    (rest : Bytes) : percentDecodeBytes (0x25 :: first :: second :: rest) =
      (percentDecodeBytes rest).map (v :: ·) := by
  rw [percentDecodeBytes, if_pos rfl]
  simp only [text, value]

def hexByte (n : UInt8) : UInt8 := if n < 10 then 0x30 + n else 0x37 + n

/-- The bytes that stand for a byte in an encoded text. -/
def encodedByte (b : UInt8) : Bytes := (urlEncodeByte b).flatMap String.utf8EncodeChar

theorem encoded_read : ∀ n : Fin 256,
    ((encodedByte (UInt8.ofNat n) = [UInt8.ofNat n] ∧ UInt8.ofNat n ≠ 0x25) ∨
      encodedByte (UInt8.ofNat n) =
        [0x25, hexByte (UInt8.ofNat n / 16), hexByte (UInt8.ofNat n % 16)] ∧
        (fromUtf8 [hexByte (UInt8.ofNat n / 16), hexByte (UInt8.ofNat n % 16)]).isSome ∧
          fromStrRadix16 (hexByte (UInt8.ofNat n / 16)) (hexByte (UInt8.ofNat n % 16)) =
            some (UInt8.ofNat n)) ∧
    (urlEncodeByte (UInt8.ofNat n)).all (fun c =>
      decide (c.toNat < 128 ∧ c ∉ ['@', '&', '?', '=', ':', '[', ']'] ∧
        isWhitespace c = false)) = true := by
  decide +kernel

theorem encodedByte_cases (b : UInt8) : (encodedByte b = [b] ∧ b ≠ 0x25) ∨
    encodedByte b = [0x25, hexByte (b / 16), hexByte (b % 16)] ∧
      (fromUtf8 [hexByte (b / 16), hexByte (b % 16)]).isSome ∧
        fromStrRadix16 (hexByte (b / 16)) (hexByte (b % 16)) = some b := by
  have here := (encoded_read ⟨b.toNat, b.toNat_lt⟩).1
  rwa [UInt8.ofNat_toNat] at here

theorem percentDecodeBytes_encoded (bytes rest : Bytes) :
    percentDecodeBytes (bytes.flatMap encodedByte ++ rest) =
      (percentDecodeBytes rest).map (bytes ++ ·) := by
  induction bytes with
  | nil =>
      rw [List.flatMap_nil, List.nil_append]
      cases percentDecodeBytes rest with
      | error e => rfl
      | ok out => rfl
  | cons b more ih =>
      have onward : percentDecodeBytes (encodedByte b ++ (more.flatMap encodedByte ++ rest)) =
          (percentDecodeBytes (more.flatMap encodedByte ++ rest)).map (b :: ·) := by
        obtain ⟨same, plain⟩ | ⟨same, text, value⟩ := encodedByte_cases b
        · rw [same]
          exact percentDecodeBytes_plain plain _
        · obtain ⟨hex, text⟩ := Option.isSome_iff_exists.mp text
          rw [same]
          exact percentDecodeBytes_escape text value _
      rw [List.flatMap_cons, List.append_assoc, onward, ih]
      cases percentDecodeBytes rest with
      | error e => rfl
      | ok out => rfl

theorem utf8_urlEncode (s : String) :
    utf8 (String.ofList (urlEncode s)) = (utf8 s).flatMap encodedByte := by
  rw [utf8_eq, String.toList_ofList, urlEncode, List.flatMap_assoc]
  rfl

theorem percentDecode_urlEncode (s : String) : percentDecode (urlEncode s) = .ok s := by
  have decoded := percentDecodeBytes_encoded (utf8 s) []
  rw [List.append_nil] at decoded
  have all : percentDecodeBytes (utf8 (String.ofList (urlEncode s))) = .ok (utf8 s) := by
    rw [utf8_urlEncode, decoded, percentDecodeBytes]
    exact congrArg Except.ok (List.append_nil _)
  rw [percentDecode, all]
  simp only [fromUtf8_utf8]

/-- What stands in an encoded text: letters, digits, the marks that need no
escape, and the sign of an escape. -/
theorem mem_urlEncode {s : String} {c : Char} (member : c ∈ urlEncode s) :
    c.toNat < 128 ∧ c ∉ ['@', '&', '?', '=', ':', '[', ']'] ∧ isWhitespace c = false := by
  obtain ⟨b, -, inside⟩ := List.mem_flatMap.mp member
  have here := (encoded_read ⟨b.toNat, b.toNat_lt⟩).2
  rw [UInt8.ofNat_toNat] at here
  exact of_decide_eq_true (List.all_eq_true.mp here c inside)

theorem urlEncode_ne_nil {s : String} (nonempty : s ≠ "") : urlEncode s ≠ [] := by
  intro empty
  have back := percentDecode_urlEncode s
  rw [empty] at back
  exact nonempty (Except.ok.inj back).symm

end Percent

section RoundTrip

/-- A host as it stands in a link: a domain name, or an address literal without
brackets. -/
def IsHost (host : String) : Prop :=
  host ≠ "" ∧ ∀ c ∈ host.toList, c ∉ ['@', '?', '[', ']']

theorem dropWhile_of_head {text : List Char} {first : Char} {rest : List Char}
    (whole : text = first :: rest) (black : isWhitespace first = false) :
    text.dropWhile isWhitespace = text := by
  rw [whole, List.dropWhile_cons, black]
  rfl

theorem trim_of_ends {text middle middle' : List Char} {first last : Char}
    (front : text = first :: middle) (back : text = middle' ++ [last])
    (blackFront : isWhitespace first = false) (blackBack : isWhitespace last = false) :
    trim text = text := by
  have reversed : text.reverse = last :: middle'.reverse := by
    rw [back, List.reverse_append]
    rfl
  rw [trim, dropWhile_of_head front blackFront, dropWhile_of_head reversed blackBack,
    List.reverse_reverse]

theorem splitHostPort_build {host : List Char} (plain : ∀ c ∈ host, c ∉ ['@', '?', '[', ']'])
    (digits : List Char) (decimal : ∀ c ∈ digits, c.isDigit = true) :
    splitHostPort ((if ':' ∈ host ∧ host.head? ≠ some '[' then '[' :: host ++ [']'] else host) ++
      ':' :: digits) = .ok (host, digits) := by
  have colon : ':' ∉ digits := fun member => by
    have := decimal ':' member
    exact absurd this (by decide)
  have square : ∀ c ∈ host, c ≠ '[' := fun c member same => plain c member (by simp [same])
  have closing : ']' ∉ host := fun member => plain ']' member (by simp)
  by_cases wide : ':' ∈ host
  · have open_ : host.head? ≠ some '[' := fun same =>
      square '[' (List.mem_of_mem_head? same) rfl
    rw [if_pos ⟨wide, open_⟩]
    have whole : '[' :: host ++ [']'] ++ ':' :: digits =
        '[' :: (host ++ ("]:".toList ++ digits)) := by
      simp
    rw [whole]
    have cut : splitOnceAt "]:".toList (host ++ ("]:".toList ++ digits)) = some (host, digits) :=
      splitOnceAt_append closing
    simp only [splitHostPort, cut]
  · rw [if_neg fun both => wide both.1]
    have cut : rsplitOnce ':' (host ++ ':' :: digits) = some (host, digits) :=
      rsplitOnce_append host colon
    unfold splitHostPort
    split
    · rename_i rest6 same
      cases host with
      | nil => simp at same
      | cons c more =>
          exact absurd (List.cons.inj same).1 (square c List.mem_cons_self)
    · rw [cut]

theorem parsePort_repr {port : UInt16} (positive : port ≠ 0) :
    parsePort port.toNat.repr.toList = .ok port := by
  have some_ : port.toNat ≠ 0 := fun zero => positive (UInt16.toNat_inj.mp zero)
  rw [parsePort, String.ofList_toList, parseUnsigned_repr port.toNat_lt]
  dsimp only
  rw [if_neg some_, UInt16.ofNat_toNat]

theorem readSni_one {v : List Char} {sni : String} (free : '&' ∉ v)
    (decoded : percentDecode v = .ok sni) : readSni ("sni=".toList ++ v) = .ok sni := by
  have single : ("sni=".toList ++ v).splitOn '&' = ["sni=".toList ++ v] := by
    apply List.splitOn_eq_singleton
    simp [free]
  have plain : '=' ∉ "sni".toList := by decide
  have cut : splitOnce '=' ("sni=".toList ++ v) = some ("sni".toList, v) := splitOnce_append plain
  rw [readSni, single, List.filter_cons_of_pos (by simp), List.filter_nil, List.foldlM_cons,
    readPair, cut]
  simp only [↓reduceIte, decoded]
  rfl

def link (pwdEnc hostport query : List Char) : List Char :=
  schemePrefix ++ (pwdEnc ++ '@' :: (hostport ++ '?' :: query))

theorem parse_link {uri : String} {pwdEnc hostport query : List Char}
    (trimmed : trim uri.toList = link pwdEnc hostport query) (noAt : '@' ∉ hostport)
    (noAt' : '@' ∉ query) (noQuery : '?' ∉ hostport) :
    NodeUri.parse uri = (splitHostPort hostport).bind fun parts =>
      assemble pwdEnc parts.1 parts.2 query := by
  have free : '@' ∉ hostport ++ '?' :: query := by
    simp [noAt, noAt']
  rw [NodeUri.parse, trimmed, link, stripPrefix_append]
  simp only [rsplitOnce_append pwdEnc free, splitOnce_append noQuery, Option.getD_some]
  cases splitHostPort hostport with
  | error e => rfl
  | ok parts => rfl

def hostPort (host : List Char) (port : UInt16) : List Char :=
  (if ':' ∈ host ∧ host.head? ≠ some '[' then '[' :: host ++ [']'] else host) ++
    ':' :: port.toNat.repr.toList

theorem not_mem_hostPort {host : List Char} {port : UInt16} {c : Char} (free : c ∉ host)
    (apart : c ∉ ['[', ']', ':']) (notDigit : c.isDigit = false) : c ∉ hostPort host port := by
  have square : c ≠ '[' ∧ c ≠ ']' ∧ c ≠ ':' := by simpa using apart
  have digits : c ∉ Nat.toDigits 10 port.toNat := not_mem_toDigits notDigit _
  unfold hostPort
  split
  · simp [free, square, digits]
  · simp [free, square, digits]

theorem buildMirageNodeUri_eq (host : String) (port : UInt16) (password sni : String) :
    (buildMirageNodeUri host port password sni).toList =
      link (urlEncode password) (hostPort host.toList port) ("sni=".toList ++ urlEncode sni) := by
  simp only [buildMirageNodeUri, String.toList_ofList, link, hostPort, List.append_assoc,
    List.cons_append]

theorem trim_build {host : String} {port : UInt16} {password sni : String} (masked : sni ≠ "") :
    trim (buildMirageNodeUri host port password sni).toList =
      (buildMirageNodeUri host port password sni).toList := by
  rw [buildMirageNodeUri_eq]
  obtain ⟨front, last, ends⟩ := List.eq_nil_or_concat (urlEncode sni) |>.resolve_left
    (urlEncode_ne_nil masked)
  have black := (mem_urlEncode (s := sni) (c := last) (by simp [ends])).2.2
  have blackM : isWhitespace 'm' = false := by decide
  have scheme : schemePrefix = 'm' :: schemePrefix.tail := by decide
  have starts : ∀ rest, schemePrefix ++ rest = 'm' :: (schemePrefix.tail ++ rest) := by
    intro rest
    rw [← List.cons_append, ← scheme]
  have finishes : link (urlEncode password) (hostPort host.toList port)
      ("sni=".toList ++ urlEncode sni) = link (urlEncode password) (hostPort host.toList port)
        ("sni=".toList ++ front) ++ [last] := by
    rw [link, link, ends]
    simp
  exact trim_of_ends (starts _) finishes blackM black

theorem parse_build {host : String} {port : UInt16} {password sni : String} (named : IsHost host)
    (positive : port ≠ 0) (secret : password ≠ "") (masked : sni ≠ "") :
    NodeUri.parse (buildMirageNodeUri host port password sni) = .ok ⟨password, host, port, sni⟩ := by
  obtain ⟨nonempty, plain⟩ := named
  have outside : ∀ c ∈ ['@', '?'], c ∉ host.toList := by
    intro c special member
    have apart := plain c member
    simp only [List.mem_cons, List.not_mem_nil, or_false, not_or] at special apart
    obtain rfl | rfl := special
    · exact apart.1 rfl
    · exact apart.2.1 rfl
  have encoded : ∀ c ∈ ['@', '&'], c ∉ urlEncode sni := by
    intro c special member
    have apart := (mem_urlEncode member).2.1
    simp only [List.mem_cons, List.not_mem_nil, or_false, not_or] at special apart
    obtain rfl | rfl := special
    · exact apart.1 rfl
    · exact apart.2.1 rfl
  have digits : ∀ c ∈ port.toNat.repr.toList, c.isDigit = true := by
    rw [Nat.toList_repr]
    exact fun c member => Nat.isDigit_of_mem_toDigits (by decide) (by decide) member
  rw [parse_link (trim_build masked |>.trans (buildMirageNodeUri_eq host port password sni))]
  · rw [hostPort, splitHostPort_build plain _ digits]
    have filled : host.toList ≠ [] := fun empty => nonempty (String.toList_eq_nil_iff.mp empty)
    simp only [Except.bind, assemble, parsePort_repr positive,
      readSni_one (encoded '&' (by simp)) (percentDecode_urlEncode sni), percentDecode_urlEncode]
    simp [bind, Except.bind, secret, filled, masked]
  · exact not_mem_hostPort (outside '@' (by simp)) (by decide) (by decide)
  · simp [encoded '@' (by simp)]
  · exact not_mem_hostPort (outside '?' (by simp)) (by decide) (by decide)

end RoundTrip

section Spelling

/-- The same bytes with some of them escaped. What is escaped neither starts an
escape nor can stand in one. -/
inductive Spelled : Bytes → Bytes → Prop where
  | nil : Spelled [] []
  | kept (b : UInt8) {bytes other : Bytes} (rest : Spelled bytes other) :
      Spelled (b :: bytes) (b :: other)
  | escaped {d first second : UInt8} {bytes other : Bytes} (plain : d ≠ 0x25)
      (notPlus : d ≠ 0x2B) (notDigit : hexDigit d = none)
      (text : (fromUtf8 [first, second]).isSome) (value : fromStrRadix16 first second = some d)
      (rest : Spelled bytes other) : Spelled (d :: bytes) (0x25 :: first :: second :: other)

theorem map_eq_ok {Value Other : Type} {f : Value → Other} {result : Except UriError Value}
    {out : Other} (mapped : result.map f = .ok out) : ∃ value, result = .ok value ∧ out = f value := by
  cases result with
  | error e => cases mapped
  | ok value =>
      cases mapped
      exact ⟨value, rfl, rfl⟩

theorem bind_eq_ok {Value Other : Type} {f : Value → Except UriError Other}
    {result : Except UriError Value} {out : Other} (bound : (result >>= f) = .ok out) :
    ∃ value, result = .ok value ∧ f value = .ok out := by
  cases result with
  | error e => cases bound
  | ok value => exact ⟨value, rfl, bound⟩

theorem escape_of_ok {rest out : Bytes} (decoded : percentDecodeBytes (0x25 :: rest) = .ok out) :
    ∃ first second tail v hex, rest = first :: second :: tail ∧
      fromUtf8 [first, second] = some hex ∧ fromStrRadix16 first second = some v := by
  rw [percentDecodeBytes.eq_def] at decoded
  dsimp only at decoded
  rw [if_pos rfl] at decoded
  split at decoded
  · rename_i first second tail
    split at decoded
    · cases decoded
    · rename_i hex text
      split at decoded
      · cases decoded
      · rename_i v value
        exact ⟨first, second, tail, v, hex, rfl, text, value⟩
  · cases decoded

theorem digits_of_value {first second v : UInt8} (value : fromStrRadix16 first second = some v) :
    (first = 0x2B ∨ hexDigit first ≠ none) ∧ hexDigit second ≠ none := by
  unfold fromStrRadix16 at value
  split at value
  · rename_i plus
    exact ⟨Or.inl plus, fun missing => by simp [missing] at value⟩
  · obtain ⟨high, upper, rest⟩ := Option.bind_eq_some_iff.mp value
    obtain ⟨low, lower, -⟩ := Option.map_eq_some_iff.mp rest
    exact ⟨Or.inr (by simp [upper]), by simp [lower]⟩

theorem Spelled.past_escape {first second v : UInt8} {tail other : Bytes}
    (value : fromStrRadix16 first second = some v)
    (spelled : Spelled (first :: second :: tail) other) :
    ∃ tail', other = first :: second :: tail' ∧ Spelled tail tail' := by
  obtain ⟨upper, lower⟩ := digits_of_value value
  cases spelled with
  | escaped plain notPlus notDigit text value' rest =>
      obtain plus | digit := upper
      · exact absurd plus notPlus
      · exact absurd notDigit digit
  | kept _ rest =>
      cases rest with
      | escaped plain notPlus notDigit text value' rest => exact absurd notDigit lower
      | kept _ rest => exact ⟨_, rfl, rest⟩

/-- Two spellings that are both accepted decode to the same bytes. -/
theorem Spelled.decode {bytes other : Bytes} (spelled : Spelled bytes other) {out out' : Bytes}
    (decoded : percentDecodeBytes bytes = .ok out)
    (decoded' : percentDecodeBytes other = .ok out') : out = out' := by
  induction size : bytes.length using Nat.strong_induction_on generalizing bytes other out out' with
  | _ size ih =>
      cases spelled with
      | nil =>
          rw [decoded] at decoded'
          exact Except.ok.inj decoded'
      | escaped plain notPlus notDigit text value rest =>
          obtain ⟨hex, text⟩ := Option.isSome_iff_exists.mp text
          rw [percentDecodeBytes_plain plain] at decoded
          rw [percentDecodeBytes_escape text value] at decoded'
          obtain ⟨tail, first, rfl⟩ := map_eq_ok decoded
          obtain ⟨tail', first', rfl⟩ := map_eq_ok decoded'
          rw [ih _ (by rw [← size]; exact Nat.lt_succ_self _) rest first first' rfl]
      | kept b rest =>
          by_cases sign : b = 0x25
          · subst b
            obtain ⟨first, second, tail, v, hex, rfl, text, value⟩ := escape_of_ok decoded
            obtain ⟨tail', rfl, later⟩ := rest.past_escape value
            rw [percentDecodeBytes_escape text value] at decoded decoded'
            obtain ⟨end_, found, rfl⟩ := map_eq_ok decoded
            obtain ⟨end', found', rfl⟩ := map_eq_ok decoded'
            rw [ih _ (by rw [← size]; simp only [List.length_cons]; omega) later found found' rfl]
          · rw [percentDecodeBytes_plain sign] at decoded decoded'
            obtain ⟨tail, found, rfl⟩ := map_eq_ok decoded
            obtain ⟨tail', found', rfl⟩ := map_eq_ok decoded'
            rw [ih _ (by rw [← size]; exact Nat.lt_succ_self _) rest found found' rfl]

/-- The same text with some of it escaped, in any way that is read. -/
def Escaped (text other : List Char) : Prop :=
  Spelled (utf8 (String.ofList text)) (utf8 (String.ofList other))

/-- A delimiter may be escaped, also with lower-case digits. -/
example : Escaped [':'] ['%', '3', 'a'] :=
  .escaped (by decide) (by decide) (by decide) (by decide) (by decide) .nil

theorem percentDecode_ok {text : List Char} {out : String} (decoded : percentDecode text = .ok out) :
    ∃ bytes, percentDecodeBytes (utf8 (String.ofList text)) = .ok bytes ∧ fromUtf8 bytes = some out := by
  unfold percentDecode at decoded
  split at decoded
  · cases decoded
  · rename_i bytes found
    split at decoded
    · rename_i text valid
      cases decoded
      exact ⟨bytes, found, valid⟩
    · cases decoded

theorem Escaped.percentDecode {text other : List Char} (escaped : Escaped text other)
    {out out' : String} (decoded : percentDecode text = .ok out)
    (decoded' : Node.percentDecode other = .ok out') : out = out' := by
  obtain ⟨bytes, found, valid⟩ := percentDecode_ok decoded
  obtain ⟨bytes', found', valid'⟩ := percentDecode_ok decoded'
  rw [Spelled.decode escaped found found', valid'] at valid
  exact (Option.some.inj valid).symm

/-- The same pair of a query, but for escapes in its value. -/
def SamePair (pair other : List Char) : Prop :=
  pair = other ∨ ∃ key value value', pair = key ++ '=' :: value ∧ other = key ++ '=' :: value' ∧
    '=' ∉ key ∧ Escaped value value'

theorem SamePair.readPair {pair other : List Char} (same : SamePair pair other)
    {before out out' : String} (read : readPair before pair = .ok out)
    (read' : Node.readPair before other = .ok out') : out = out' := by
  obtain rfl | ⟨key, value, value', rfl, rfl, free, escaped⟩ := same
  · rw [read] at read'
    exact Except.ok.inj read'
  · unfold Node.readPair at read read'
    rw [splitOnce_append free] at read read'
    dsimp only at read read'
    split at read
    · rename_i named
      rw [if_pos named] at read'
      exact escaped.percentDecode read read'
    · rename_i named
      rw [if_neg named] at read'
      rw [read] at read'
      exact Except.ok.inj read'

theorem readPairs_same {pairs others : List (List Char)} (same : List.Forall₂ SamePair pairs others)
    {before out out' : String}
    (read : (pairs.filter (· ≠ [])).foldlM readPair before = .ok out)
    (read' : (others.filter (· ≠ [])).foldlM readPair before = .ok out') : out = out' := by
  induction same generalizing before with
  | nil =>
      rw [read] at read'
      exact Except.ok.inj read'
  | @cons pair other rest rest' first tail ih =>
      have empty : pair = [] ↔ other = [] := by
        obtain rfl | ⟨key, value, value', rfl, rfl, -, -⟩ := first
        · exact Iff.rfl
        · simp
      by_cases skipped : pair = []
      · rw [List.filter_cons_of_neg (by simp [skipped])] at read
        rw [List.filter_cons_of_neg (by simp [empty.mp skipped])] at read'
        exact ih read read'
      · have kept : other ≠ [] := fun gone => skipped (empty.mpr gone)
        rw [List.filter_cons_of_pos (by simp [skipped]), List.foldlM_cons] at read
        rw [List.filter_cons_of_pos (by simp [kept]), List.foldlM_cons] at read'
        obtain ⟨middle, one, read⟩ := bind_eq_ok read
        obtain ⟨middle', one', read'⟩ := bind_eq_ok read'
        rw [← first.readPair one one'] at read'
        exact ih read read'

/-- The parts of a link: the password ends at the last `@`, the host and port
before the first `?` after it. -/
structure Parts (text pwdEnc hostport query : List Char) : Prop where
  whole : text = link pwdEnc hostport query
  host_noAt : '@' ∉ hostport
  query_noAt : '@' ∉ query
  host_noQuery : '?' ∉ hostport

theorem assemble_ok {pwdEnc host portStr query : List Char} {node : NodeUri}
    (assembled : assemble pwdEnc host portStr query = .ok node) :
    parsePort portStr = .ok node.port ∧ readSni query = .ok node.sni ∧
      percentDecode pwdEnc = .ok node.password ∧ node.host = String.ofList host ∧ node.sni ≠ "" := by
  unfold assemble at assembled
  obtain ⟨port, ported, assembled⟩ := bind_eq_ok assembled
  obtain ⟨sni, read, assembled⟩ := bind_eq_ok assembled
  obtain ⟨password, decoded, assembled⟩ := bind_eq_ok assembled
  split at assembled
  · cases assembled
  · split at assembled
    · cases assembled
    · split at assembled
      · cases assembled
      · rename_i masked
        cases assembled
        exact ⟨ported, read, decoded, rfl, masked⟩

theorem parts_of_parse {uri : String} {node : NodeUri} (parsed : NodeUri.parse uri = .ok node) :
    ∃ pwdEnc hostport query, Parts (trim uri.toList) pwdEnc hostport query := by
  unfold NodeUri.parse at parsed
  split at parsed
  · cases parsed
  · rename_i rest stripped
    split at parsed
    · cases parsed
    · rename_i pwdEnc hostportQuery cut
      obtain ⟨rfl, free⟩ := rsplitOnce_eq_some cut
      cases asked : splitOnce '?' hostportQuery with
      | some parts =>
          obtain ⟨rfl, noQuery⟩ := splitOnce_eq_some asked
          refine ⟨pwdEnc, parts.1, parts.2, stripPrefix_eq_some stripped, ?_, ?_, noQuery⟩
          · exact fun member => free (List.mem_append_left _ member)
          · exact fun member => free (List.mem_append_right _ (List.mem_cons_of_mem _ member))
      | none =>
          rw [asked] at parsed
          dsimp only [Option.getD_none] at parsed
          split at parsed
          · cases parsed
          · obtain ⟨-, read, -, -, masked⟩ := assemble_ok parsed
            have nothing : readSni [] = .ok "" := by decide
            rw [nothing] at read
            exact absurd (Except.ok.inj read).symm masked

theorem same_node {uri uri' : String} {node node' : NodeUri}
    {pwdEnc pwdEnc' hostport query query' : List Char}
    (parts : Parts (trim uri.toList) pwdEnc hostport query)
    (parts' : Parts (trim uri'.toList) pwdEnc' hostport query') (password : Escaped pwdEnc pwdEnc')
    (pairs : List.Forall₂ SamePair (query.splitOn '&') (query'.splitOn '&'))
    (parsed : NodeUri.parse uri = .ok node) (parsed' : NodeUri.parse uri' = .ok node') :
    node = node' := by
  rw [parse_link parts.whole parts.host_noAt parts.query_noAt parts.host_noQuery] at parsed
  rw [parse_link parts'.whole parts'.host_noAt parts'.query_noAt parts'.host_noQuery] at parsed'
  cases split_ : splitHostPort hostport with
  | error e =>
      rw [split_] at parsed
      cases parsed
  | ok found =>
      rw [split_] at parsed parsed'
      obtain ⟨port, sni, secret, host, -⟩ := assemble_ok parsed
      obtain ⟨port', sni', secret', host', -⟩ := assemble_ok parsed'
      have samePort : node.port = node'.port := Except.ok.inj (port.symm.trans port')
      have sameSni : node.sni = node'.sni := readPairs_same pairs sni sni'
      have samePassword : node.password = node'.password := password.percentDecode secret secret'
      have sameHost : node.host = node'.host := host.trans host'.symm
      cases node
      cases node'
      simp only [NodeUri.mk.injEq]
      exact ⟨samePassword, sameHost, samePort, sameSni⟩

end Spelling

/-- A link that is built is read back as it was built; a link that is accepted
has its parts; and what is escaped of its password and of the values of its query
does not change the node. -/
theorem uri_round_trip :
    (∀ host port password sni, IsHost host → port ≠ 0 → password ≠ "" → sni ≠ "" →
      NodeUri.parse (buildMirageNodeUri host port password sni) =
        .ok ⟨password, host, port, sni⟩) ∧
      (∀ uri node, NodeUri.parse uri = .ok node →
        ∃ pwdEnc hostport query, Parts (trim uri.toList) pwdEnc hostport query) ∧
        ∀ uri uri' node node' pwdEnc pwdEnc' hostport query query',
          Parts (trim uri.toList) pwdEnc hostport query →
            Parts (trim uri'.toList) pwdEnc' hostport query' → Escaped pwdEnc pwdEnc' →
              List.Forall₂ SamePair (query.splitOn '&') (query'.splitOn '&') →
                NodeUri.parse uri = .ok node → NodeUri.parse uri' = .ok node' → node = node' := by
  refine ⟨?_, ?_, ?_⟩
  · exact fun host port password sni named positive secret masked =>
      parse_build named positive secret masked
  · exact fun uri node parsed => parts_of_parse parsed
  · exact fun uri uri' node node' pwdEnc pwdEnc' hostport query query' parts parts' password pairs
      parsed parsed' => same_node parts parts' password pairs parsed parsed'

/-- No link is read back without an SNI, and an escape in a host is part of its
name. -/
theorem uri_without_sni :
    NodeUri.parse (buildMirageNodeUri "1.2.3.4" 443 "pw" "") =
        fail "missing sni parameter (camouflage domain, must match server)" ∧
      NodeUri.parse "mirage://pw@a:b:443?sni=x.com" = .ok ⟨"pw", "a:b", 443, "x.com"⟩ ∧
        NodeUri.parse "mirage://pw@a%3Ab:443?sni=x.com" = .ok ⟨"pw", "a%3Ab", 443, "x.com"⟩ := by
  decide +kernel

end Mirage.Node
