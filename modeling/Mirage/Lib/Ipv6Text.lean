import Mathlib.Data.List.Induction
import Mirage.Lib.NumberText

/-!
An IPv6 address prints to a text that parses to it: the groups in hexadecimal,
the first longest run of zeros as `::`, and the low half of a mapped IPv4
address dotted.
-/

namespace Mirage.NumberText
open Word Text

section Groups

theorem digit_facts : ∀ d < 16, (Nat.digitChar d).isHexDigit = true ∧
    readGroup.hexValue (Nat.digitChar d) = d := by
  decide

theorem hexDigits_of_toDigits {n : Nat} {c : Char} (member : c ∈ Nat.toDigits 16 n) :
    c.isHexDigit = true := by
  induction n using Nat.strong_induction_on with
  | _ n ih =>
      rcases Nat.lt_or_ge n 16 with small | large
      · rw [Nat.toDigits_of_lt_base small] at member
        rw [List.mem_singleton.mp member]
        exact (digit_facts n small).1
      · rw [Nat.toDigits_of_base_le (by decide) large] at member
        obtain front | last := List.mem_append.mp member
        · exact ih (n / 16) (Nat.div_lt_self (by omega) (by decide)) front
        · rw [List.mem_singleton.mp last]
          exact (digit_facts (n % 16) (Nat.mod_lt _ (by decide))).1

theorem value_of_toDigits (n : Nat) :
    (Nat.toDigits 16 n).foldl (fun value c => 16 * value + readGroup.hexValue c) 0 = n := by
  induction n using Nat.strong_induction_on with
  | _ n ih =>
      rcases Nat.lt_or_ge n 16 with small | large
      · rw [Nat.toDigits_of_lt_base small, List.foldl_cons, List.foldl_nil, (digit_facts n small).2]
        omega
      · rw [Nat.toDigits_of_base_le (by decide) large, List.foldl_append,
          ih (n / 16) (Nat.div_lt_self (by omega) (by decide)), List.foldl_cons, List.foldl_nil,
          (digit_facts (n % 16) (Nat.mod_lt _ (by decide))).2]
        omega

def Ends (rest : List Char) : Prop := ∀ c more, rest = c :: more → c.isHexDigit = false

theorem readGroup_toDigits {n : Nat} (small : n < 65536) {rest : List Char} (ends : Ends rest) :
    readGroup (Nat.toDigits 16 n ++ rest) = some (n, rest) := by
  have short : (Nat.toDigits 16 n).length ≤ 4 :=
    (Nat.length_toDigits_le_iff (by decide) (by decide)).mpr small
  have stops : rest.takeWhile Char.isHexDigit = [] := by
    cases rest with
    | nil => rfl
    | cons c more => rw [List.takeWhile_cons, ends c more rfl]; rfl
  have taken : (Nat.toDigits 16 n ++ rest).takeWhile Char.isHexDigit = Nat.toDigits 16 n := by
    rw [List.takeWhile_append_of_pos fun c member => hexDigits_of_toDigits member, stops,
      List.append_nil]
  have five : (Nat.toDigits 16 n).take 5 = Nat.toDigits 16 n :=
    List.take_of_length_le (Nat.le_trans short (by decide))
  simp only [readGroup, taken, five]
  rw [if_pos ⟨Nat.toDigits_ne_nil, short⟩, value_of_toDigits, List.drop_left]

/-- Groups with `:` between them, and before the first one unless it starts the
text. -/
def spelled (first : Bool) (groups : List Nat) (rest : List Char) : List Char :=
  match groups with
  | [] => rest
  | group :: groups =>
      if first then Nat.toDigits 16 group ++ spelled false groups rest
      else ':' :: (Nat.toDigits 16 group ++ spelled false groups rest)

/-- What may follow the last group: nothing, or `::`. -/
def Closes (rest : List Char) : Prop := rest = [] ∨ ∃ more, rest = ':' :: ':' :: more

theorem Closes.ends {rest : List Char} (closes : Closes rest) : Ends rest := by
  intro c more same
  obtain rfl | ⟨tail, rfl⟩ := closes
  · cases same
  · cases same
    decide

theorem spelled_ends {groups : List Nat} {rest : List Char} (ends : Ends rest) :
    Ends (spelled false groups rest) := by
  cases groups with
  | nil => exact ends
  | cons group more =>
      intro c tail same
      cases same
      decide

theorem not_dot_toDigits (n : Nat) : '.' ∉ Nat.toDigits 16 n := fun member =>
  absurd (hexDigits_of_toDigits member) (by decide)

theorem not_dot_spelled {first : Bool} {groups : List Nat} {rest : List Char} (free : '.' ∉ rest) :
    '.' ∉ spelled first groups rest := by
  induction groups generalizing first with
  | nil => exact free
  | cons group more ih =>
      have later := @ih false
      cases first with
      | true => simp [spelled, not_dot_toDigits, later]
      | false => simp [spelled, not_dot_toDigits, later]

theorem readIpv4_eq_none {text : List Char} (free : '.' ∉ text) : readIpv4 text = none := by
  have single : (String.ofList text).toList.splitOn '.' = [text] := by
    rw [String.toList_ofList]
    exact List.splitOn_eq_singleton free
  rw [readIpv4, parseIpv4, single, List.map_singleton]
  cases parseOctet text with
  | none => rfl
  | some octet => rfl

theorem readGroup_eq_none {text : List Char} (ends : Ends text) : readGroup text = none := by
  have none_ : text.takeWhile Char.isHexDigit = [] := by
    cases text with
    | nil => rfl
    | cons c more => rw [List.takeWhile_cons, ends c more rfl]; rfl
  simp only [readGroup, none_, List.take_nil, ne_eq, not_true_eq_false, false_and, ↓reduceIte]

theorem readGroups_spelled {groups : List Nat} {rest : List Char}
    (small : ∀ group ∈ groups, group < 65536) (closes : Closes rest) (free : '.' ∉ rest) :
    ∀ {limit : Nat} {first : Bool}, groups.length ≤ limit →
      readGroups limit first (spelled first groups rest) = (groups, false, rest) := by
  induction groups with
  | nil =>
      intro limit first _
      cases limit with
      | zero => rfl
      | succ limit =>
          cases first with
          | true =>
              simp only [spelled, readGroups, ↓reduceIte, readIpv4_eq_none free, ite_self,
                readGroup_eq_none closes.ends]
          | false =>
              obtain rfl | ⟨more, rfl⟩ := closes
              · rfl
              · have free' : '.' ∉ ':' :: more := fun member =>
                  free (List.mem_cons_of_mem _ member)
                have ends : Ends (':' :: more) := by
                  intro c tail same
                  cases same
                  decide
                simp only [spelled, readGroups, Bool.false_eq_true, ↓reduceIte,
                  readIpv4_eq_none free', ite_self, readGroup_eq_none ends]
  | cons group more ih =>
      intro limit first length
      cases limit with
      | zero => cases length
      | succ limit =>
          have later : readGroups limit false (spelled false more rest) = (more, false, rest) :=
            ih (fun other member => small other (List.mem_cons_of_mem _ member))
              (Nat.le_of_succ_le_succ length)
          have noDot : '.' ∉ Nat.toDigits 16 group ++ spelled false more rest := by
            simp [not_dot_toDigits, not_dot_spelled free]
          have ends : Ends (spelled false more rest) := spelled_ends closes.ends
          have here := readGroup_toDigits (small group List.mem_cons_self) ends
          cases first with
          | true =>
              simp only [spelled, readGroups, ↓reduceIte, readIpv4_eq_none noDot, ite_self, here,
                later]
          | false =>
              simp only [spelled, readGroups, Bool.false_eq_true, ↓reduceIte,
                readIpv4_eq_none noDot, ite_self, here, later]

end Groups

section Runs

def ZeroRun (values : List Nat) (run : Nat × Nat) : Prop :=
  run.1 + run.2 ≤ values.length ∧ ∀ i, run.1 ≤ i → i < run.1 + run.2 → values[i]? = some 0

theorem ZeroRun.append {values : List Nat} {run : Nat × Nat} (zeros : ZeroRun values run)
    (value : Nat) : ZeroRun (values ++ [value]) run := by
  obtain ⟨inside, zero⟩ := zeros
  refine ⟨by rw [List.length_append]; omega, ?_⟩
  intro i after before
  rw [List.getElem?_append_left (by omega)]
  exact zero i after before

theorem ZeroRun.grow {values : List Nat} {run : Nat × Nat} (zeros : ZeroRun values run)
    (last : run.1 + run.2 = values.length) : ZeroRun (values ++ [0]) (run.1, run.2 + 1) := by
  obtain ⟨inside, zero⟩ := zeros
  refine ⟨by rw [List.length_append, List.length_singleton]; omega, ?_⟩
  intro i after before
  rcases Nat.lt_or_ge i values.length with old | new
  · rw [List.getElem?_append_left old]
    exact zero i after (by omega)
  · have here : i = values.length := by
      dsimp only at before
      omega
    rw [here, List.getElem?_concat_length]

/-- The longest run of zeros so far, and the one at the end. -/
def scanZeros (seen : (Nat × Nat) × (Nat × Nat)) (entry : Nat × Nat) :
    (Nat × Nat) × (Nat × Nat) :=
  let (longest, current) := seen
  let (i, value) := entry
  if value = 0 then
    let start := if current.2 = 0 then i else current.1
    let grown := (start, current.2 + 1)
    (if longest.2 < grown.2 then grown else longest, grown)
  else (longest, (0, 0))

theorem longestZeros_eq (values : List Nat) : longestZeros values =
    (((List.range values.length).zip values).foldl scanZeros ((0, 0), (0, 0))).1 := rfl

theorem scanZeros_run (values : List Nat) :
    ZeroRun values (((List.range values.length).zip values).foldl scanZeros ((0, 0), (0, 0))).1 ∧
      ZeroRun values (((List.range values.length).zip values).foldl scanZeros ((0, 0), (0, 0))).2 ∧
        ((((List.range values.length).zip values).foldl scanZeros ((0, 0), (0, 0))).2.2 ≠ 0 →
          (((List.range values.length).zip values).foldl scanZeros ((0, 0), (0, 0))).2.1 +
            (((List.range values.length).zip values).foldl scanZeros ((0, 0), (0, 0))).2.2 =
              values.length) := by
  have nothing : ∀ values : List Nat, ZeroRun values (0, 0) := fun values =>
    ⟨Nat.zero_le _, fun i _ before => absurd before (Nat.not_lt_zero i)⟩
  induction values using List.reverseRecOn with
  | nil => exact ⟨nothing [], nothing [], fun some_ => absurd rfl some_⟩
  | append_singleton values value ih =>
      have zipped : (List.range (values ++ [value]).length).zip (values ++ [value]) =
          (List.range values.length).zip values ++ [(values.length, value)] := by
        rw [List.length_append, List.length_singleton, List.range_succ,
          List.zip_append List.length_range]
        rfl
      rw [zipped, List.foldl_append, List.foldl_cons, List.foldl_nil]
      generalize ((List.range values.length).zip values).foldl scanZeros ((0, 0), (0, 0)) = seen at ih
      obtain ⟨longest, start, len⟩ := seen
      obtain ⟨best, current, last⟩ := ih
      unfold scanZeros
      dsimp only at last ⊢
      by_cases zero : value = 0
      · subst value
        have grown : ZeroRun (values ++ [0]) (if len = 0 then values.length else start, len + 1) ∧
            (if len = 0 then values.length else start) + (len + 1) = (values ++ [0]).length := by
          rw [List.length_append, List.length_singleton]
          by_cases fresh : len = 0
          · subst len
            rw [if_pos rfl]
            have empty : ZeroRun values (values.length, 0) :=
              ⟨Nat.le_refl _, fun i after before => absurd before (Nat.not_lt.mpr after)⟩
            exact ⟨empty.grow rfl, rfl⟩
          · rw [if_neg fresh]
            exact ⟨current.grow (last fresh), by rw [← last fresh]; omega⟩
        rw [if_pos rfl]
        refine ⟨?_, grown.1, fun _ => grown.2⟩
        split
        · exact grown.1
        · exact best.append 0
      · rw [if_neg zero]
        exact ⟨best.append value, nothing _, fun some_ => absurd rfl some_⟩

/-- What `::` stands for. -/
theorem longestZeros_cut (values : List Nat) :
    values.take (longestZeros values).1 ++ List.replicate (longestZeros values).2 0 ++
      values.drop ((longestZeros values).1 + (longestZeros values).2) = values ∧
    (longestZeros values).1 + (longestZeros values).2 ≤ values.length := by
  have run := (scanZeros_run values).1
  rw [← longestZeros_eq] at run
  obtain ⟨inside, zero⟩ := run
  refine ⟨?_, inside⟩
  generalize longestZeros values = run at inside zero
  obtain ⟨start, len⟩ := run
  dsimp only at inside zero ⊢
  have middle : (values.drop start).take len = List.replicate len 0 := by
    apply List.eq_replicate_iff.mpr
    refine ⟨by rw [List.length_take, List.length_drop]; omega, ?_⟩
    intro value member
    obtain ⟨i, found⟩ := List.getElem?_of_mem member
    rcases Nat.lt_or_ge i len with before | after
    · rw [List.getElem?_take_of_lt before, List.getElem?_drop,
        zero (start + i) (Nat.le_add_right _ _) (by omega)] at found
      exact (Option.some.inj found).symm
    · rw [List.getElem?_take_eq_none after] at found
      cases found
  rw [← middle, ← List.drop_drop, List.append_assoc, List.take_append_drop, List.take_append_drop]

end Runs

section RoundTrip

theorem hexText_append (values : List Nat) (rest : List Char) :
    (hexText values).toList ++ rest = spelled true values rest := by
  have tail : ∀ (more : List Nat) (group : Nat),
      [':'].intercalate ((group :: more).map (Nat.toDigits 16)) ++ rest =
        Nat.toDigits 16 group ++ spelled false more rest := by
    intro more
    induction more with
    | nil =>
        intro group
        rw [List.map_singleton, List.intercalate_singleton]
        rfl
    | cons next more ih =>
        intro group
        rw [List.map_cons, List.map_cons, List.intercalate_cons_cons, ← List.map_cons,
          List.append_assoc, List.append_assoc, ih next]
        rfl
  rw [hexText, join, String.toList_ofList, List.map_map]
  cases values with
  | nil => rfl
  | cons group more =>
      have same : String.toList ∘ (fun value => String.ofList (Nat.toDigits 16 value)) =
          Nat.toDigits 16 := by
        funext value
        exact String.toList_ofList
      rw [same, tail]
      rfl

def groupsValue (groups : List Nat) : BitVec 128 :=
  BitVec.ofNat 128 (groups.foldl (fun sum group => 65536 * sum + group) 0)

theorem parseIpv6_full {groups : List Nat} (small : ∀ group ∈ groups, group < 65536)
    (eight : groups.length = 8) :
    parseIpv6 (String.ofList (spelled true groups [])) = some (groupsValue groups) := by
  have read : readGroups 8 true (spelled true groups []) = (groups, false, []) :=
    readGroups_spelled small (Or.inl rfl) List.not_mem_nil (Nat.le_of_eq eight)
  simp only [parseIpv6, String.toList_ofList, read, eight, ↓reduceIte]
  rfl

theorem parseIpv6_cut {front back : List Nat} (small : ∀ group ∈ front ++ back, group < 65536)
    (room : front.length + back.length ≤ 7) :
    parseIpv6 (String.ofList (spelled true front (':' :: ':' :: spelled true back []))) =
      some (groupsValue
        (front ++ List.replicate (8 - front.length - back.length) 0 ++ back)) := by
  have free : '.' ∉ spelled true back [] := not_dot_spelled List.not_mem_nil
  have free' : '.' ∉ ':' :: ':' :: spelled true back [] := by simp [free]
  have head : readGroups 8 true (spelled true front (':' :: ':' :: spelled true back [])) =
      (front, false, ':' :: ':' :: spelled true back []) :=
    readGroups_spelled (fun group member => small group (List.mem_append_left _ member))
      (Or.inr ⟨_, rfl⟩) free' (by omega)
  have tail : readGroups (7 - front.length) true (spelled true back []) = (back, false, []) :=
    readGroups_spelled (fun group member => small group (List.mem_append_right _ member))
      (Or.inl rfl) List.not_mem_nil (by omega)
  have short : front.length ≠ 8 := by omega
  simp only [parseIpv6, String.toList_ofList, head, short, ↓reduceIte, Bool.false_eq_true, tail]
  rfl

theorem segments_small (ip : BitVec 128) : ∀ group ∈ segments ip, group < 65536 := by
  intro group member
  obtain ⟨i, -, rfl⟩ := List.mem_map.mp member
  exact Nat.mod_lt _ (by decide)

theorem segments_length (ip : BitVec 128) : (segments ip).length = 8 := by
  rw [segments, List.length_map, List.length_range]

theorem foldl_segments {n : Nat} (fits : n < 65536 ^ 8) {k : Nat} (most : k ≤ 8) :
    ((List.range k).map fun i => n / 65536 ^ (7 - i) % 65536).foldl
      (fun sum group => 65536 * sum + group) 0 = n / 65536 ^ (8 - k) := by
  induction k with
  | zero => exact (Nat.div_eq_of_lt fits).symm
  | succ k ih =>
      have lower : 8 - k = 7 - k + 1 := by omega
      have same : 8 - (k + 1) = 7 - k := by omega
      rw [List.range_succ, List.map_append, List.foldl_append, ih (Nat.le_of_succ_le most), lower,
        same, Nat.pow_succ, ← Nat.div_div_eq_div_mul]
      exact Nat.div_add_mod _ _

theorem groupsValue_segments (ip : BitVec 128) : groupsValue (segments ip) = ip := by
  have fits : ip.toNat < 65536 ^ 8 := ip.isLt
  rw [groupsValue, segments, foldl_segments fits (Nat.le_refl 8), Nat.sub_self, Nat.pow_zero,
    Nat.div_one, BitVec.ofNat_toNat, BitVec.setWidth_eq]
theorem mem_of_mem_intercalate {separator c : Char} {pieces : List (List Char)}
    (member : c ∈ [separator].intercalate pieces) :
    c = separator ∨ ∃ piece ∈ pieces, c ∈ piece := by
  induction pieces with
  | nil => cases member
  | cons first rest ih =>
      cases rest with
      | nil =>
          rw [List.intercalate_singleton] at member
          exact Or.inr ⟨first, List.mem_cons_self, member⟩
      | cons second rest =>
          rw [List.intercalate_cons_cons] at member
          obtain front | later := List.mem_append.mp member
          · obtain here | sep := List.mem_append.mp front
            · exact Or.inr ⟨first, List.mem_cons_self, here⟩
            · exact Or.inl (List.mem_singleton.mp sep)
          · obtain same | ⟨piece, inside, found⟩ := ih later
            · exact Or.inl same
            · exact Or.inr ⟨piece, List.mem_cons_of_mem _ inside, found⟩

theorem ipv4_chars {text : String} {ip : BitVec 32} (parsed : parseIpv4 text = some ip) {c : Char}
    (member : c ∈ text.toList) : c.isDigit = true ∨ c = '.' := by
  have octets : ∀ piece ∈ text.toList.splitOn '.', piece.all Char.isDigit = true := by
    unfold parseIpv4 at parsed
    split at parsed
    · rename_i a b c d pieces
      intro piece inside
      have digits : ∃ octet, parseOctet piece = some octet := by
        have mapped := List.mem_map_of_mem (f := parseOctet) inside
        rw [pieces] at mapped
        simp only [List.mem_cons, List.not_mem_nil, or_false] at mapped
        rcases mapped with same | same | same | same
        · exact ⟨_, same⟩
        · exact ⟨_, same⟩
        · exact ⟨_, same⟩
        · exact ⟨_, same⟩
      obtain ⟨octet, read⟩ := digits
      unfold parseOctet at read
      split at read
      · rename_i fits
        exact fits.2.2.1
      · cases read
    · cases parsed
  have whole : ['.'].intercalate (text.toList.splitOn '.') = text.toList :=
    List.intercalate_splitOn '.'
  rw [← whole] at member
  obtain dot | ⟨piece, inside, found⟩ := mem_of_mem_intercalate member
  · exact Or.inr dot
  · exact Or.inl (List.all_eq_true.mp (octets piece inside) c found)

theorem parseIpv4_of_colon {text : String} (colon : ':' ∈ text.toList) : parseIpv4 text = none := by
  cases parsed : parseIpv4 text with
  | none => rfl
  | some ip =>
      obtain digit | dot := ipv4_chars parsed colon
      · exact absurd digit (by decide)
      · exact absurd dot (by decide)

theorem readIpv4_of_colon {text : List Char} (colon : ':' ∈ text) : readIpv4 text = none := by
  rw [readIpv4, parseIpv4_of_colon (by rwa [String.toList_ofList])]
  rfl

/-- The low half of a mapped address is read as two groups. -/
theorem parseIpv6_mapped (ip : BitVec 32) :
    parseIpv6 ("::ffff:" ++ ipv4Text ip) =
      some (groupsValue (List.replicate 5 0 ++ [0xFFFF, ip.toNat / 65536, ip.toNat % 65536])) := by
  have chars : ("::ffff:" ++ ipv4Text ip).toList =
      ':' :: ':' :: (Nat.toDigits 16 0xFFFF ++ ':' :: (ipv4Text ip).toList) := by
    rw [String.toList_append, show Nat.toDigits 16 0xFFFF = ['f', 'f', 'f', 'f'] by decide]
    rfl
  have ends : ∀ more, Ends (':' :: more) := by
    intro more c tail same
    cases same
    decide
  have dotted : readIpv4 (ipv4Text ip).toList = some [ip.toNat / 65536, ip.toNat % 65536] := by
    rw [readIpv4, String.ofList_toList, parseIpv4_ipv4Text]
    rfl
  have head : ∀ more, readGroups 8 true (':' :: more) = ([], false, ':' :: more) := by
    intro more
    simp only [readGroups, ↓reduceIte, readIpv4_of_colon List.mem_cons_self, ite_self,
      readGroup_eq_none (ends more)]
  have low : readGroups 6 false (':' :: (ipv4Text ip).toList) =
      ([ip.toNat / 65536, ip.toNat % 65536], true, []) := by
    simp only [readGroups, Bool.false_eq_true, ↓reduceIte, dotted, Nat.zero_lt_succ]
  have tail : readGroups 7 true (Nat.toDigits 16 0xFFFF ++ ':' :: (ipv4Text ip).toList) =
      ([0xFFFF, ip.toNat / 65536, ip.toNat % 65536], true, []) := by
    have colon : ':' ∈ Nat.toDigits 16 0xFFFF ++ ':' :: (ipv4Text ip).toList := by simp
    have small : 0xFFFF < 65536 := by decide
    have group : readGroup (Nat.toDigits 16 0xFFFF ++ ':' :: (ipv4Text ip).toList) =
        some (0xFFFF, ':' :: (ipv4Text ip).toList) := readGroup_toDigits small (ends _)
    generalize Nat.toDigits 16 0xFFFF ++ ':' :: (ipv4Text ip).toList = body at colon group
    rw [readGroups.eq_def]
    simp only [↓reduceIte, readIpv4_of_colon colon, ite_self, group, low]
  simp only [parseIpv6, chars, head, List.length_nil, tail]
  rfl

theorem hexText_whole (values : List Nat) :
    hexText values = String.ofList (spelled true values []) := by
  apply String.toList_injective
  rw [String.toList_ofList, ← hexText_append, List.append_nil]

theorem hexText_cut (front back : List Nat) :
    hexText front ++ "::" ++ hexText back =
      String.ofList (spelled true front (':' :: ':' :: spelled true back [])) := by
  have gap : "::".toList = [':', ':'] := by decide
  apply String.toList_injective
  rw [String.toList_append, String.toList_append, gap, hexText_whole back, String.toList_ofList,
    String.toList_ofList, ← hexText_append front, List.append_assoc, List.cons_append,
    List.cons_append, List.nil_append]

@[simp] theorem parseIpv6_ipv6Text (ip : BitVec 128) : parseIpv6 (ipv6Text ip) = some ip := by
  unfold ipv6Text
  split
  · rename_i mapped
    rw [parseIpv6_mapped, groupsValue]
    congr 1
    apply BitVec.eq_of_toNat_eq
    have fits := ip.isLt
    simp only [BitVec.toNat_setWidth, List.replicate, List.cons_append, List.nil_append,
      List.foldl_cons, List.foldl_nil, BitVec.toNat_ofNat]
    omega
  · have length := segments_length ip
    have small := segments_small ip
    have value := groupsValue_segments ip
    generalize segments ip = values at length small value
    obtain ⟨whole, inside⟩ := longestZeros_cut values
    generalize longestZeros values = run at whole inside
    obtain ⟨start, len⟩ := run
    dsimp only at whole inside ⊢
    split
    · rename_i long
      have front : (values.take start).length = start := List.length_take_of_le (by omega)
      have back : (values.drop (start + len)).length = 8 - (start + len) := by
        rw [List.length_drop, length]
      have gap : 8 - start - (8 - (start + len)) = len := by omega
      have pieces : ∀ group ∈ values.take start ++ values.drop (start + len), group < 65536 := by
        intro group member
        obtain early | late := List.mem_append.mp member
        · exact small group (List.mem_of_mem_take early)
        · exact small group (List.mem_of_mem_drop late)
      rw [hexText_cut, parseIpv6_cut pieces (by omega), front, back, gap, whole, value]
    · rw [hexText_whole, parseIpv6_full small length, value]

/-- The three forms of a text: dotted behind `::ffff:`, with a gap, or whole. -/
theorem ipv6Text_shape (ip : BitVec 128) :
    (∃ low : BitVec 32, (ipv6Text ip).toList = "::ffff:".toList ++ (ipv4Text low).toList) ∨
    (∃ front back, (ipv6Text ip).toList =
      spelled true front (':' :: ':' :: spelled true back [])) ∨
    ∃ first second more, (ipv6Text ip).toList = spelled true (first :: second :: more) [] := by
  have eight := segments_length ip
  unfold ipv6Text
  split
  · exact Or.inl ⟨_, String.toList_append⟩
  · dsimp only
    split
    · have spelt := congrArg String.toList
        (hexText_cut ((segments ip).take (longestZeros (segments ip)).1)
          ((segments ip).drop ((longestZeros (segments ip)).1 + (longestZeros (segments ip)).2)))
      exact Or.inr (Or.inl ⟨_, _, spelt.trans String.toList_ofList⟩)
    · match here : segments ip, eight with
      | first :: second :: more, _ =>
          refine Or.inr (Or.inr ⟨first, second, more, ?_⟩)
          rw [hexText_whole, String.toList_ofList]

theorem mem_spelled {c : Char} {first : Bool} {groups : List Nat} {rest : List Char}
    (member : c ∈ spelled first groups rest) : c.isHexDigit = true ∨ c = ':' ∨ c ∈ rest := by
  induction groups generalizing first with
  | nil => exact Or.inr (Or.inr member)
  | cons group more ih =>
      have tail : c ∈ Nat.toDigits 16 group ++ spelled false more rest →
          c.isHexDigit = true ∨ c = ':' ∨ c ∈ rest := by
        intro inside
        obtain digit | later := List.mem_append.mp inside
        · exact Or.inl (hexDigits_of_toDigits digit)
        · exact ih later
      cases first with
      | true => exact tail member
      | false =>
          obtain colon | later := List.mem_cons.mp member
          · exact Or.inr (Or.inl colon)
          · exact tail later

theorem ipv6_chars {ip : BitVec 128} {c : Char} (member : c ∈ (ipv6Text ip).toList) :
    c.isHexDigit = true ∨ c = ':' ∨ c = '.' := by
  obtain ⟨low, same⟩ | ⟨front, back, same⟩ | ⟨first, second, more, same⟩ := ipv6Text_shape ip
  · rw [same] at member
    obtain start | dotted := List.mem_append.mp member
    · have letters : "::ffff:".toList.all
          (fun letter => decide (letter.isHexDigit = true ∨ letter = ':')) = true := by
        decide
      exact (of_decide_eq_true (List.all_eq_true.mp letters c start)).imp_right Or.inl
    · obtain digit | dot := ipv4_chars (parseIpv4_ipv4Text low) dotted
      · exact Or.inl (by simp [Char.isHexDigit, digit])
      · exact Or.inr (Or.inr dot)
  · rw [same] at member
    obtain digit | colon | later := mem_spelled member
    · exact Or.inl digit
    · exact Or.inr (Or.inl colon)
    · obtain rfl | later := List.mem_cons.mp later
      · exact Or.inr (Or.inl rfl)
      obtain rfl | later := List.mem_cons.mp later
      · exact Or.inr (Or.inl rfl)
      obtain digit | colon | nothing := mem_spelled later
      · exact Or.inl digit
      · exact Or.inr (Or.inl colon)
      · cases nothing
  · rw [same] at member
    obtain digit | colon | nothing := mem_spelled member
    · exact Or.inl digit
    · exact Or.inr (Or.inl colon)
    · cases nothing

theorem mem_spelled_of_mem {c : Char} {first : Bool} {groups : List Nat} {rest : List Char}
    (member : c ∈ rest) : c ∈ spelled first groups rest := by
  induction groups generalizing first with
  | nil => exact member
  | cons group more ih =>
      have later := List.mem_append_right (Nat.toDigits 16 group) (@ih false)
      cases first with
      | true => exact later
      | false => exact List.mem_cons_of_mem _ later

theorem colon_mem_ipv6Text (ip : BitVec 128) : ':' ∈ (ipv6Text ip).toList := by
  obtain ⟨low, same⟩ | ⟨front, back, same⟩ | ⟨first, second, more, same⟩ := ipv6Text_shape ip
  · rw [same]
    exact List.mem_append_left _ (by decide)
  · rw [same]
    exact mem_spelled_of_mem List.mem_cons_self
  · rw [same]
    exact List.mem_append_right _ List.mem_cons_self

end RoundTrip

end Mirage.NumberText
