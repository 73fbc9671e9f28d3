import Mirage.Lib.Text

/-!
Numbers and internet addresses as text, printed and parsed as the source's
standard library does it.
-/

namespace Mirage.NumberText
open Word Text

section Numbers

/-- `str::parse` at an unsigned type with the given bound: digits behind an
optional plus sign. -/
def parseUnsigned (bound : Nat) (text : String) : Option Nat :=
  let digits :=
    match text.toList with
    | '+' :: rest => rest
    | other => other
  if digits ≠ [] ∧ digits.all Char.isDigit ∧ Nat.ofDigitChars 10 digits 0 < bound then
    some (Nat.ofDigitChars 10 digits 0)
  else none

theorem toDigits_digits (n : Nat) : (Nat.toDigits 10 n).all Char.isDigit = true :=
  List.all_eq_true.mpr fun _ member =>
    Nat.isDigit_of_mem_toDigits (by decide) (by decide) member

theorem not_mem_toDigits {c : Char} (other : c.isDigit = false) (n : Nat) :
    c ∉ Nat.toDigits 10 n := by
  intro member
  have := Nat.isDigit_of_mem_toDigits (by decide) (by decide) member
  simp [other] at this

@[simp] theorem parseUnsigned_repr {bound n : Nat} (fits : n < bound) :
    parseUnsigned bound n.repr = some n := by
  have unsigned : ∀ rest, Nat.toDigits 10 n ≠ '+' :: rest := by
    intro rest same
    exact not_mem_toDigits (c := '+') rfl n (same ▸ List.mem_cons_self)
  rw [parseUnsigned, Nat.toList_repr]
  split
  · rename_i rest digits
    exact absurd digits (unsigned rest)
  · rw [Nat.ofDigitChars_ten_toDigits, if_pos ⟨Nat.toDigits_ne_nil, toDigits_digits n, fits⟩]

theorem parseUnsigned_lt {bound n : Nat} {text : String}
    (parsed : parseUnsigned bound text = some n) : n < bound := by
  simp only [parseUnsigned, Option.ite_none_right_eq_some, Option.some.injEq] at parsed
  obtain ⟨⟨-, -, fits⟩, rfl⟩ := parsed
  exact fits

end Numbers

section Addresses

/-- One number of a dotted address: no leading zero, at most 255. -/
def parseOctet (digits : List Char) : Option UInt8 :=
  if digits ≠ [] ∧ digits.length ≤ 3 ∧ digits.all Char.isDigit ∧
      (digits.head? = some '0' → digits.length = 1) ∧ Nat.ofDigitChars 10 digits 0 < 256 then
    some (UInt8.ofNat (Nat.ofDigitChars 10 digits 0))
  else none

/-- `Ipv4Addr::from_str`. -/
def parseIpv4 (text : String) : Option (BitVec 32) :=
  match (text.toList.splitOn '.').map parseOctet with
  | [some a, some b, some c, some d] => some (BitVec.ofNat 32 (ofBe [a, b, c, d]))
  | _ => none

/-- `Ipv4Addr::to_string`. -/
def ipv4Text (ip : BitVec 32) : String :=
  join '.' ((toBe 4 ip.toNat).map fun octet => octet.toNat.repr)

def readGroup (text : List Char) : Option (Nat × List Char) :=
  let digits := (text.takeWhile Char.isHexDigit).take 5
  if digits ≠ [] ∧ digits.length ≤ 4 then
    some (digits.foldl (fun value c => 16 * value + hexValue c) 0, text.drop digits.length)
  else none
where
  hexValue (c : Char) : Nat :=
    if c.isDigit then c.toNat - '0'.toNat else c.toLower.toNat - 'a'.toNat + 10

/-- A dotted address at the end of the text, as two groups. -/
def readIpv4 (text : List Char) : Option (List Nat) :=
  (parseIpv4 (String.ofList text)).map fun ip => [ip.toNat / 65536, ip.toNat % 65536]

/-- Up to `limit` groups with `:` between them, the last two perhaps a dotted
address, which ends them. -/
def readGroups (limit : Nat) (first : Bool) (text : List Char) : List Nat × Bool × List Char :=
  match limit with
  | 0 => ([], false, text)
  | limit + 1 =>
      let body := if first then some text else
        match text with
        | ':' :: rest => some rest
        | _ => none
      match body with
      | none => ([], false, text)
      | some body =>
          match if 0 < limit then readIpv4 body else none with
          | some groups => (groups, true, [])
          | none =>
              match readGroup body with
              | none => ([], false, text)
              | some (group, rest) =>
                  let (groups, dotted, rest) := readGroups limit false rest
                  (group :: groups, dotted, rest)

/-- `Ipv6Addr::from_str`: eight groups, or `::` for the missing ones. -/
def parseIpv6 (text : String) : Option (BitVec 128) :=
  let value (groups : List Nat) : BitVec 128 :=
    BitVec.ofNat 128 (groups.foldl (fun sum group => 65536 * sum + group) 0)
  let (front, dotted, rest) := readGroups 8 true text.toList
  if front.length = 8 then if rest = [] then some (value front) else none
  else if dotted then none
  else
    match rest with
    | ':' :: ':' :: rest =>
        let (back, _, rest) := readGroups (7 - front.length) true rest
        if rest = [] then
          some (value (front ++ List.replicate (8 - front.length - back.length) 0 ++ back))
        else none
    | _ => none

example : parseIpv6 "2001:db8::1:0:0:1" = some 0x20010db8000000000001000000000001 := by decide

def segments (ip : BitVec 128) : List Nat :=
  (List.range 8).map fun i => ip.toNat / 65536 ^ (7 - i) % 65536

/-- The first longest run of zeros: where it starts and how long it is. -/
def longestZeros (values : List Nat) : Nat × Nat :=
  let scan := fun (seen : (Nat × Nat) × (Nat × Nat)) (entry : Nat × Nat) =>
    let (longest, current) := seen
    let (i, value) := entry
    if value = 0 then
      let start := if current.2 = 0 then i else current.1
      let grown := (start, current.2 + 1)
      (if longest.2 < grown.2 then grown else longest, grown)
    else (longest, (0, 0))
  (((List.range values.length).zip values).foldl scan ((0, 0), (0, 0))).1

def hexText (values : List Nat) : String :=
  join ':' (values.map fun value => String.ofList (Nat.toDigits 16 value))

/-- `Ipv6Addr::to_string`. -/
def ipv6Text (ip : BitVec 128) : String :=
  if ip.toNat / 2 ^ 32 = 0xFFFF then "::ffff:" ++ ipv4Text (ip.setWidth 32)
  else
    let (start, len) := longestZeros (segments ip)
    if 1 < len then
      hexText ((segments ip).take start) ++ "::" ++ hexText ((segments ip).drop (start + len))
    else hexText (segments ip)

example : ipv6Text 0x20010db8000000000001000000000001 = "2001:db8::1:0:0:1" := by decide

theorem parseOctet_repr (octet : UInt8) :
    parseOctet (Nat.toDigits 10 octet.toNat) = some octet := by
  have small : ∀ n : Fin 256, parseOctet (Nat.toDigits 10 n) = some (UInt8.ofNat n) := by
    decide +kernel
  have := small ⟨octet.toNat, octet.toNat_lt⟩
  rwa [UInt8.ofNat_toNat] at this

theorem splitOn_digits (n : Nat) :
    (Nat.toDigits 10 n).splitOn '.' = [Nat.toDigits 10 n] :=
  List.splitOn_eq_singleton (not_mem_toDigits rfl n)

@[simp] theorem parseIpv4_ipv4Text (ip : BitVec 32) : parseIpv4 (ipv4Text ip) = some ip := by
  have octets : ((ipv4Text ip).toList.splitOn '.').map parseOctet =
      (toBe 4 ip.toNat).map some := by
    rw [ipv4Text, join, String.toList_ofList, splitOn_intercalate_any (by simp [toBe]),
      List.flatMap_map, List.flatMap_map]
    simp only [Nat.toList_repr, splitOn_digits, List.map_flatMap, List.map_cons, List.map_nil,
      parseOctet_repr]
    rw [List.map_eq_flatMap]
  have value : ofBe (toBe 4 ip.toNat) = ip.toNat := ofBe_toBe ip.isLt
  rw [parseIpv4, octets]
  simp only [toBe, List.nil_append, List.cons_append, List.map_cons, List.map_nil] at value ⊢
  rw [value, BitVec.ofNat_toNat, BitVec.setWidth_eq]

end Addresses

end Mirage.NumberText
