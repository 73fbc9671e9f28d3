import Mirage.Lib.Word

/-!
Text as the source's standard library treats it: ASCII case on bytes and on
characters, `str::to_lowercase` over a case table, and texts joined by a
separator. A join is taken apart again by cutting at the separator, so it
forgets which separators were inside the joined texts and nothing else.
-/

namespace Mirage.Text
open Word

section Ascii

/-- `u8::to_ascii_lowercase`. -/
def toAsciiLowercase (b : UInt8) : UInt8 := if 0x41 ≤ b ∧ b ≤ 0x5A then b + 0x20 else b

theorem utf8_eq (s : String) : utf8 s = s.toList.flatMap String.utf8EncodeChar := by
  rw [utf8, String.toUTF8_eq_toByteArray, ← String.utf8Encode_toList, List.utf8Encode]
  simp

theorem utf8_injective {s t : String} (same : utf8 s = utf8 t) : s = t := by
  have back := congrArg fromUtf8 same
  rw [fromUtf8_utf8, fromUtf8_utf8] at back
  exact Option.some.inj back

theorem utf8_of_fromUtf8 {bytes : Bytes} {s : String} (decoded : fromUtf8 bytes = some s) :
    utf8 s = bytes := by
  rw [fromUtf8, String.fromUTF8?] at decoded
  split at decoded
  · cases decoded
    rfl
  · cases decoded

theorem toLower_of_not_ascii {c : Char} (wide : 128 ≤ c.toNat) : c.toLower = c := by
  apply dif_neg
  rintro ⟨_, upper⟩
  have : c.toNat ≤ 'Z'.toNat := upper
  have : 'Z'.toNat = 90 := rfl
  omega

theorem ascii_cases {P : Char → Prop} (all : ∀ n : Fin 128, P (Char.ofNat n)) {c : Char}
    (ascii : c.toNat < 128) : P c := by
  have at_c := all ⟨c.toNat, ascii⟩
  rwa [Char.ofNat_toNat] at at_c

theorem toAsciiLowercase_of_wide {n : Nat} (wide : 128 ≤ n) (byte : n < 256) :
    toAsciiLowercase (UInt8.ofNat n) = UInt8.ofNat n := by
  rw [toAsciiLowercase, if_neg]
  rintro ⟨_, upper⟩
  rw [UInt8.le_iff_toNat_le, UInt8.toNat_ofNat', Nat.mod_eq_of_lt byte] at upper
  have : (0x5A : UInt8).toNat = 90 := rfl
  omega

/-- Every byte of a wide character is out of the ASCII range. -/
theorem encode_toLower (c : Char) :
    (String.utf8EncodeChar c).map toAsciiLowercase = String.utf8EncodeChar c.toLower := by
  by_cases ascii : c.toNat < 128
  · exact ascii_cases
      (P := fun c => (String.utf8EncodeChar c).map toAsciiLowercase = String.utf8EncodeChar c.toLower)
      (by decide) ascii
  · have value : c.val.toNat = c.toNat := rfl
    rw [toLower_of_not_ascii (Nat.not_lt.mp ascii), String.utf8EncodeChar]
    split
    · omega
    · split
      · simp only [List.map_cons, List.map_nil]
        rw [toAsciiLowercase_of_wide (by omega) (by omega),
          toAsciiLowercase_of_wide (by omega) (by omega)]
      · split
        · simp only [List.map_cons, List.map_nil]
          rw [toAsciiLowercase_of_wide (by omega) (by omega),
            toAsciiLowercase_of_wide (by omega) (by omega),
            toAsciiLowercase_of_wide (by omega) (by omega)]
        · simp only [List.map_cons, List.map_nil]
          rw [toAsciiLowercase_of_wide (by omega) (by omega),
            toAsciiLowercase_of_wide (by omega) (by omega),
            toAsciiLowercase_of_wide (by omega) (by omega),
            toAsciiLowercase_of_wide (by omega) (by omega)]

theorem utf8_map_lower_iff (s t : String) :
    (utf8 s).map toAsciiLowercase = (utf8 t).map toAsciiLowercase ↔
      s.toList.map Char.toLower = t.toList.map Char.toLower := by
  have lower : ∀ u : String,
      (utf8 u).map toAsciiLowercase = utf8 (String.ofList (u.toList.map Char.toLower)) := by
    intro u
    simp only [utf8_eq, String.toList_ofList, List.map_flatMap, List.flatMap_map, encode_toLower]
  rw [lower, lower]
  constructor
  · intro same
    exact String.ofList_injective (utf8_injective same)
  · intro same
    rw [same]

end Ascii

section Lossy

/-- Whether `c` may follow the first byte `b` of a sequence of three or four bytes. -/
def secondFits (b c : UInt8) : Bool :=
  (b = 0xE0 && 0xA0 ≤ c && c ≤ 0xBF) || (0xE1 ≤ b && b ≤ 0xEC && 0x80 ≤ c && c ≤ 0xBF) ||
    (b = 0xED && 0x80 ≤ c && c ≤ 0x9F) || (0xEE ≤ b && b ≤ 0xEF && 0x80 ≤ c && c ≤ 0xBF) ||
    (b = 0xF0 && 0x90 ≤ c && c ≤ 0xBF) || (0xF1 ≤ b && b ≤ 0xF3 && 0x80 ≤ c && c ≤ 0xBF) ||
    (b = 0xF4 && 0x80 ≤ c && c ≤ 0x8F)

/-- The bytes of a broken character that one replacement character stands for. -/
def maximalSubpart (b : UInt8) (rest : Bytes) : Nat :=
  if rest[0]?.any (secondFits b) then
    if 0xF0 ≤ b && rest[1]?.any (fun c => 0x80 ≤ c && c ≤ 0xBF) then 3 else 2
  else 1

def lossyChars : Bytes → List Char
  | [] => []
  | b :: rest =>
      match ByteArray.utf8DecodeChar? ⟨⟨b :: rest⟩⟩ 0 with
      | some c => c :: lossyChars (rest.drop (c.utf8Size - 1))
      | none => '\uFFFD' :: lossyChars (rest.drop (maximalSubpart b rest - 1))
termination_by bytes => bytes.length
decreasing_by all_goals simp only [List.length_drop, List.length_cons]; omega

/-- `String::from_utf8_lossy`. -/
def fromUtf8Lossy (bytes : Bytes) : String := String.ofList (lossyChars bytes)

theorem lossyChars_encode (c : Char) (rest : Bytes) :
    lossyChars (String.utf8EncodeChar c ++ rest) = c :: lossyChars rest := by
  have decoded := ByteArray.utf8DecodeChar?_utf8EncodeChar_append (b := ⟨⟨rest⟩⟩) (c := c)
  have size := String.length_utf8EncodeChar c
  cases encoded : String.utf8EncodeChar c with
  | nil =>
      rw [encoded] at size
      have := c.utf8Size_pos
      simp at size
      omega
  | cons b more =>
      have bytes : (b :: more).toByteArray ++ ⟨⟨rest⟩⟩ = ⟨⟨b :: (more ++ rest)⟩⟩ := by
        ext1
        simp
      rw [encoded, bytes] at decoded
      rw [List.cons_append, lossyChars, decoded]
      have : c.utf8Size - 1 = more.length := by simp [encoded] at size; omega
      simp [this]

@[simp] theorem fromUtf8Lossy_utf8 (s : String) : fromUtf8Lossy (utf8 s) = s := by
  have chars : ∀ l : List Char, lossyChars (l.flatMap String.utf8EncodeChar) = l := by
    intro l
    induction l with
    | nil => simp [lossyChars]
    | cons c l ih => rw [List.flatMap_cons, lossyChars_encode, ih]
  rw [fromUtf8Lossy, utf8_eq, chars, String.ofList_toList]

end Lossy

section Unicode

/-- The Unicode data behind `str::to_lowercase`: lower-case mappings, and the
properties that decide between the two small sigmas. -/
structure CaseTable where
  lower : Char → List Char
  cased : Char → Bool
  caseIgnorable : Char → Bool
  lower_ascii : ∀ c, c.toNat < 128 → lower c = [c.toLower]
  lower_lower : ∀ c d, d ∈ lower c → lower d = [d]
  lower_sigma : lower 'Σ' = ['σ']
  lower_final : lower 'ς' = ['ς']
  cased_toLower : ∀ c, cased c.toLower = cased c
  caseIgnorable_toLower : ∀ c, caseIgnorable c.toLower = caseIgnorable c

variable (table : CaseTable)

def caseIgnorableThenCased (chars : List Char) : Bool :=
  match chars.dropWhile table.caseIgnorable with
  | [] => false
  | c :: _ => table.cased c

/-- The characters so far are kept in reverse for the sigma rule. -/
def lowerFrom (before : List Char) : List Char → List Char
  | [] => []
  | c :: rest =>
      (if c = 'Σ' then
        if caseIgnorableThenCased table before && !caseIgnorableThenCased table rest then ['ς']
        else ['σ']
      else table.lower c) ++ lowerFrom (c :: before) rest

/-- `str::to_lowercase`. -/
def toLowercase (s : String) : String := String.ofList (lowerFrom table [] s.toList)

variable {table}

theorem caseIgnorableThenCased_toLower (chars : List Char) :
    caseIgnorableThenCased table (chars.map Char.toLower) = caseIgnorableThenCased table chars := by
  rw [caseIgnorableThenCased, caseIgnorableThenCased]
  induction chars with
  | nil => rfl
  | cons c rest ih =>
      rw [List.map_cons, List.dropWhile_cons, List.dropWhile_cons, table.caseIgnorable_toLower]
      cases table.caseIgnorable c with
      | true => exact ih
      | false => exact table.cased_toLower c

theorem toLower_eq_sigma {c : Char} : c.toLower = 'Σ' ↔ c = 'Σ' := by
  by_cases ascii : c.toNat < 128
  · exact ascii_cases (P := fun c => c.toLower = 'Σ' ↔ c = 'Σ') (by decide) ascii
  · rw [toLower_of_not_ascii (Nat.not_lt.mp ascii)]

theorem lower_toLower (c : Char) : table.lower c.toLower = table.lower c := by
  by_cases ascii : c.toNat < 128
  · have small : c.toLower.toNat < 128 :=
      ascii_cases (P := fun c => c.toLower.toNat < 128) (by decide) ascii
    have again : c.toLower.toLower = c.toLower :=
      ascii_cases (P := fun c => c.toLower.toLower = c.toLower) (by decide) ascii
    rw [table.lower_ascii c ascii, table.lower_ascii _ small, again]
  · rw [toLower_of_not_ascii (Nat.not_lt.mp ascii)]

theorem lowerFrom_toLower (before chars : List Char) :
    lowerFrom table (before.map Char.toLower) (chars.map Char.toLower) =
      lowerFrom table before chars := by
  induction chars generalizing before with
  | nil => rfl
  | cons c rest ih =>
      have tail := ih (c :: before)
      rw [List.map_cons] at tail ⊢
      simp only [lowerFrom, toLower_eq_sigma, lower_toLower, caseIgnorableThenCased_toLower, tail]

theorem toLowercase_congr {s t : String}
    (same : s.toList.map Char.toLower = t.toList.map Char.toLower) :
    toLowercase table s = toLowercase table t := by
  have folded := congrArg (lowerFrom table []) same
  rw [toLowercase, toLowercase]
  congr 1
  calc lowerFrom table [] s.toList
      = lowerFrom table ([].map Char.toLower) (s.toList.map Char.toLower) :=
        (lowerFrom_toLower [] s.toList).symm
    _ = lowerFrom table ([].map Char.toLower) (t.toList.map Char.toLower) := folded
    _ = lowerFrom table [] t.toList := lowerFrom_toLower [] t.toList

def IsLower (table : CaseTable) (c : Char) : Prop := table.lower c = [c] ∧ c ≠ 'Σ'

theorem isLower_of_mem {c d : Char} (member : d ∈ table.lower c) : IsLower table d := by
  have fixed := table.lower_lower c d member
  refine ⟨fixed, ?_⟩
  rintro rfl
  rw [table.lower_sigma] at fixed
  exact absurd fixed (by decide)

theorem isLower_of_mem_lowerFrom {before chars : List Char} {d : Char}
    (member : d ∈ lowerFrom table before chars) : IsLower table d := by
  have small : IsLower table 'σ' :=
    isLower_of_mem (c := 'Σ') (by rw [table.lower_sigma]; exact List.mem_singleton_self _)
  have final : IsLower table 'ς' := ⟨table.lower_final, by decide⟩
  induction chars generalizing before with
  | nil => cases member
  | cons c rest ih =>
      rw [lowerFrom, List.mem_append] at member
      rcases member with head | tail
      · split at head
        · split at head
          · rwa [List.mem_singleton.mp head]
          · rwa [List.mem_singleton.mp head]
        · exact isLower_of_mem head
      · exact ih tail

theorem lowerFrom_eq_self {before chars : List Char} (lower : ∀ c ∈ chars, IsLower table c) :
    lowerFrom table before chars = chars := by
  induction chars generalizing before with
  | nil => rfl
  | cons c rest ih =>
      obtain ⟨fixed, notSigma⟩ := lower c List.mem_cons_self
      rw [lowerFrom, if_neg notSigma, fixed,
        ih fun d member => lower d (List.mem_cons_of_mem _ member)]
      rfl

theorem lowerFrom_ascii {before chars : List Char} (ascii : ∀ c ∈ chars, c.toNat < 128) :
    lowerFrom table before chars = chars.map Char.toLower := by
  induction chars generalizing before with
  | nil => rfl
  | cons c rest ih =>
      have small := ascii c List.mem_cons_self
      have notSigma : c ≠ 'Σ' := by
        rintro rfl
        exact absurd small (by decide)
      rw [lowerFrom, if_neg notSigma, table.lower_ascii c small,
        ih fun d member => ascii d (List.mem_cons_of_mem _ member)]
      rfl

end Unicode

section Cut

/-- `str::rsplit_once`. -/
def rsplitOnce (separator : Char) : List Char → Option (List Char × List Char)
  | [] => none
  | c :: rest =>
      match rsplitOnce separator rest with
      | some (front, back) => some (c :: front, back)
      | none => if c = separator then some ([], rest) else none

/-- `trim_start_matches` and `trim_end_matches`. -/
def trimMatches (start finish : Char) (text : List Char) : List Char :=
  ((text.dropWhile (· = start)).reverse.dropWhile (· = finish)).reverse

example : rsplitOnce ':' "[::1]:443".toList = some ("[::1]".toList, "443".toList) := by decide

end Cut

section Join

/-- `labels.join(".")`. -/
def join (separator : Char) (parts : List String) : String :=
  String.ofList ([separator].intercalate (parts.map String.toList))

def pieces (separator : Char) (parts : List String) : List (List Char) :=
  parts.flatMap fun part => part.toList.splitOn separator

variable {separator : Char}

theorem splitOn_intercalate_any {parts : List (List Char)} (nonempty : parts ≠ []) :
    ([separator].intercalate parts).splitOn separator = parts.flatMap (·.splitOn separator) := by
  induction parts with
  | nil => exact absurd rfl nonempty
  | cons part rest ih =>
      cases rest with
      | nil => simp
      | cons next more =>
          rw [List.intercalate_cons_cons, List.append_assoc, List.singleton_append,
            List.splitOn_append_cons_self, ih (by simp)]
          rfl

/-- Two joins are the same text if and only if they fall into the same pieces. -/
theorem join_eq_iff {parts others : List String} (nonempty : parts ≠ []) (filled : others ≠ []) :
    join separator parts = join separator others ↔
      pieces separator parts = pieces separator others := by
  have cut : ∀ texts : List String, texts ≠ [] →
      (join separator texts).toList.splitOn separator = pieces separator texts := by
    intro texts some
    rw [join, String.toList_ofList, splitOn_intercalate_any (by simpa using some), pieces,
      List.flatMap_map]
  constructor
  · intro same
    rw [← cut parts nonempty, ← cut others filled, same]
  · intro same
    have text := congrArg ([separator].intercalate ·) same
    rw [← cut parts nonempty, ← cut others filled, List.intercalate_splitOn,
      List.intercalate_splitOn] at text
    exact String.toList_inj.mp text

/-- The pieces and the number of them in each part give the parts back. -/
theorem pieces_inj {parts others : List String}
    (same : pieces separator parts = pieces separator others)
    (cuts : parts.map (fun part => (part.toList.splitOn separator).length) =
      others.map fun part => (part.toList.splitOn separator).length) : parts = others := by
  induction parts generalizing others with
  | nil =>
      cases others with
      | nil => rfl
      | cons _ _ => cases cuts
  | cons part rest ih =>
      cases others with
      | nil => cases cuts
      | cons other more =>
          simp only [pieces, List.flatMap_cons] at same
          rw [List.map_cons, List.map_cons, List.cons.injEq] at cuts
          obtain ⟨head, tail⟩ := List.append_inj same cuts.1
          have text := congrArg ([separator].intercalate ·) head
          rw [List.intercalate_splitOn, List.intercalate_splitOn] at text
          rw [String.toList_inj.mp text, ih tail cuts.2]

/-- Joining lower-case texts by an ASCII separator that has no other case. -/
theorem toLowercase_join {table : CaseTable} (plain : IsLower table separator)
    (parts : List String) :
    toLowercase table (join separator (parts.map (toLowercase table))) =
      join separator (parts.map (toLowercase table)) := by
  rw [toLowercase, lowerFrom_eq_self, String.ofList_toList]
  rw [join, String.toList_ofList, List.map_map]
  induction parts with
  | nil => simp
  | cons part rest ih =>
      have head : ∀ c ∈ (toLowercase table part).toList, IsLower table c := by
        rw [toLowercase, String.toList_ofList]
        intro c member
        exact isLower_of_mem_lowerFrom member
      cases rest with
      | nil => simpa using head
      | cons next more =>
          intro c member
          rw [List.map_cons, List.map_cons, List.intercalate_cons_cons, List.mem_append,
            List.mem_append, List.mem_singleton] at member
          rcases member with (inHead | rfl) | later
          · exact head c inHead
          · exact plain
          · exact ih c later

end Join

section Pairs
variable {Part Seen Known : Type}

theorem eq_of_mem_zip {see : Part → Seen} {parts others : List Part}
    (same : parts.map see = others.map see) {pair : Part × Part}
    (member : pair ∈ parts.zip others) : see pair.1 = see pair.2 := by
  induction parts generalizing others with
  | nil => cases member
  | cons part rest ih =>
      cases others with
      | nil => cases member
      | cons other more =>
          rw [List.map_cons, List.map_cons, List.cons.injEq] at same
          rcases List.mem_cons.mp member with rfl | later
          · exact same.1
          · exact ih same.2 later

/-- Lists that look alike and are not known to be alike differ at a place. -/
theorem exists_mem_zip {see : Part → Seen} {know : Part → Known} {parts others : List Part}
    (same : parts.map see = others.map see) (differ : parts.map know ≠ others.map know) :
    ∃ pair ∈ parts.zip others, see pair.1 = see pair.2 ∧ know pair.1 ≠ know pair.2 := by
  induction parts generalizing others with
  | nil =>
      cases others with
      | nil => exact absurd rfl differ
      | cons _ _ => cases same
  | cons part rest ih =>
      cases others with
      | nil => cases same
      | cons other more =>
          rw [List.map_cons, List.map_cons, List.cons.injEq] at same
          by_cases head : know part = know other
          · rw [List.map_cons, List.map_cons, head, ne_eq, List.cons.injEq, not_and] at differ
            obtain ⟨pair, member, found⟩ := ih same.2 (differ rfl)
            exact ⟨pair, List.mem_cons_of_mem _ member, found⟩
          · exact ⟨(part, other), List.mem_cons_self, same.1, head⟩

end Pairs

end Mirage.Text
