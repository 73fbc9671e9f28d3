import Mirage.Dns.FakeTable

/-!
The fake-IP table across a restart. The file has one line for each name, so a
name that is empty, has a line feed in it or ends in white space does not come
back as it was; every other table comes back whole, with its cursor.
-/

namespace Mirage.Dns
open Word Text Lines NumberText TwoWay Trace
open Tunnel (isWhitespace trim)

section Restart

variable (table : CaseTable)

structure PersistedMapper where
  mapper : FakeIpMapper
  file : Option String

inductive PersistEvent where
  | lookupOrAssign (name : String)
  | flush (snapshot : List (String × BitVec 32))

namespace PersistedMapper

def flush (state : PersistedMapper) (snapshot : List (String × BitVec 32)) : PersistedMapper :=
  let (content, mapper) := state.mapper.flush snapshot
  ⟨mapper, content.or state.file⟩

/-- The map gives its entries in any order, each of them once. -/
def step (state : PersistedMapper) : PersistEvent → Option PersistedMapper
  | .lookupOrAssign name =>
      some { state with mapper := (state.mapper.lookupOrAssignWithEviction table name).2 }
  | .flush snapshot =>
      if snapshot.isPerm state.mapper.maps.pairs then some (state.flush snapshot) else none

def start (range : FakeRange) : PersistedMapper := ⟨FakeIpMapper.new range, none⟩

end PersistedMapper

def FakeIpMapper.withPersist (range : FakeRange) (file : Option String) : FakeIpMapper :=
  match file with
  | none => new range
  | some content => (new range).load table (utf8 content)

structure SameTable (mapper other : FakeIpMapper) : Prop where
  forward : ∀ domain, mapper.domainToIp.lookup domain = other.domainToIp.lookup domain
  backward : ∀ ip, mapper.lookupDomain ip = other.lookupDomain ip
  cursor : mapper.nextIp = other.nextIp

def FileSafe (domain : String) : Prop :=
  domain ≠ "" ∧ '\n' ∉ domain.toList ∧ ∀ c, domain.toList.getLast? = some c → isWhitespace c = false

end Restart

section Trim

variable {line : List Char} {c : Char}

theorem mem_of_mem_trim (member : c ∈ trim line) : c ∈ line := by
  rw [trim, List.mem_reverse] at member
  have := (List.dropWhile_suffix _).subset member
  exact (List.dropWhile_suffix _).subset (List.mem_reverse.mp this)

theorem getLast?_trim (last : (trim line).getLast? = some c) : isWhitespace c = false := by
  rw [trim, List.getLast?_reverse] at last
  have := List.head?_dropWhile_not isWhitespace (line.dropWhile isWhitespace).reverse
  rw [last] at this
  simpa using this

theorem trim_eq_self {first : Char} (head : line.head? = some first)
    (visible : isWhitespace first = false) (last : line.getLast? = some c)
    (visibleToo : isWhitespace c = false) : trim line = line := by
  have front : line.dropWhile isWhitespace = line := by
    cases line with
    | nil => rfl
    | cons other rest =>
        cases head
        simp [visible]
  have back : line.reverse.dropWhile isWhitespace = line.reverse := by
    cases reversed : line.reverse with
    | nil => rfl
    | cons other rest =>
        have : line.reverse.head? = some c := by rw [List.head?_reverse, last]
        rw [reversed] at this
        cases this
        simp [visibleToo]
  rw [trim, front, back, List.reverse_reverse]

end Trim

section Lines

variable {table : CaseTable} {range : FakeRange} {domain : String} {ip : BitVec 32}

theorem isLower_of_ascii {c : Char} (small : c.toNat < 128) (lower : c.toLower = c) :
    IsLower table c := by
  refine ⟨?_, ?_⟩
  · rw [table.lower_ascii c small, lower]
  · rintro rfl
    exact absurd small (by decide)

theorem toLowercase_eq_self (lower : ∀ c ∈ domain.toList, IsLower table c) :
    toLowercase table domain = domain := by
  rw [toLowercase, lowerFrom_eq_self lower, String.ofList_toList]

def entryLine (entry : String × BitVec 32) : List Char :=
  (ipv4Text entry.2).toList ++ ' ' :: entry.1.toList

theorem ipv4Text_toList (ip : BitVec 32) :
    ∃ a b c d : Nat, (ipv4Text ip).toList =
      Nat.toDigits 10 a ++ '.' :: (Nat.toDigits 10 b ++ '.' ::
        (Nat.toDigits 10 c ++ '.' :: Nat.toDigits 10 d)) :=
  ⟨(UInt8.ofNat (ip.toNat / 256 / 256 / 256)).toNat, (UInt8.ofNat (ip.toNat / 256 / 256)).toNat,
    (UInt8.ofNat (ip.toNat / 256)).toNat, (UInt8.ofNat ip.toNat).toNat, by
    rw [ipv4Text, join, String.toList_ofList]
    simp [toBe, Nat.toList_repr, List.intercalate, List.intersperse]⟩

theorem ipv4Text_chars {c : Char} (member : c ∈ (ipv4Text ip).toList) :
    c.isDigit = true ∨ c = '.' := by
  have digit : ∀ n, c ∈ Nat.toDigits 10 n → c.isDigit = true := by
    intro n inside
    exact Nat.isDigit_of_mem_toDigits (by decide) (by decide) inside
  obtain ⟨w, x, y, z, text⟩ := ipv4Text_toList ip
  rw [text] at member
  simp only [List.mem_append, List.mem_cons] at member
  rcases member with one | dot | two | dot | three | dot | four
  · exact .inl (digit w one)
  · exact .inr dot
  · exact .inl (digit x two)
  · exact .inr dot
  · exact .inl (digit y three)
  · exact .inr dot
  · exact .inl (digit z four)

theorem ipv4Text_head (ip : BitVec 32) :
    ∃ first rest, (ipv4Text ip).toList = first :: rest ∧ first.isDigit = true := by
  obtain ⟨w, x, y, z, text⟩ := ipv4Text_toList ip
  cases digits : Nat.toDigits 10 w with
  | nil => exact absurd digits Nat.toDigits_ne_nil
  | cons first rest =>
      refine ⟨first, _, by rw [text, digits]; rfl, ?_⟩
      exact Nat.isDigit_of_mem_toDigits (b := 10) (n := w) (by decide) (by decide)
        (by rw [digits]; simp)

/-- Digits stand apart from everything the file format gives a meaning. -/
theorem plain_of_isDigit {c : Char} (digit : c.isDigit = true) :
    c ≠ '#' ∧ c ≠ 'n' ∧ c ≠ ' ' ∧ c ≠ '\n' ∧ isWhitespace c = false ∧ c.toNat < 128 ∧
      c.toLower = c := by
  have all : ∀ n : Fin 128, (Char.ofNat n).isDigit = true → Char.ofNat n ≠ '#' ∧
      Char.ofNat n ≠ 'n' ∧ Char.ofNat n ≠ ' ' ∧ Char.ofNat n ≠ '\n' ∧
      isWhitespace (Char.ofNat n) = false ∧ (Char.ofNat n).toNat < 128 ∧
      (Char.ofNat n).toLower = Char.ofNat n := by
    decide
  have small : c.toNat < 128 := by
    simp only [Char.isDigit, Bool.and_eq_true, decide_eq_true_eq] at digit
    have := UInt32.le_iff_toNat_le.mp digit.2
    simp at this
    exact Nat.lt_of_le_of_lt this (by decide)
  exact ascii_cases (P := fun c => c.isDigit = true → c ≠ '#' ∧ c ≠ 'n' ∧ c ≠ ' ' ∧ c ≠ '\n' ∧
    isWhitespace c = false ∧ c.toNat < 128 ∧ c.toLower = c) all small digit

theorem ipv4Text_space {c : Char} (member : c ∈ (ipv4Text ip).toList) : c ≠ ' ' ∧ c ≠ '\n' := by
  rcases ipv4Text_chars member with digit | rfl
  · exact ⟨(plain_of_isDigit digit).2.2.1, (plain_of_isDigit digit).2.2.2.1⟩
  · decide

theorem readLine_mapping (usable : range.Usable ip) (safe : FileSafe domain)
    (lower : ∀ c ∈ domain.toList, IsLower table c) :
    readLine table range (entryLine (domain, ip)) = .mapping ip domain := by
  change readLine table range ((ipv4Text ip).toList ++ ' ' :: domain.toList) = _
  obtain ⟨nonempty, -, visible⟩ := safe
  obtain ⟨first, rest, text, digit⟩ := ipv4Text_head ip
  obtain ⟨notHash, notN, -, -, notSpace, -, -⟩ := plain_of_isDigit digit
  have filled : domain.toList ≠ [] := fun none => nonempty (String.toList_eq_nil_iff.mp none)
  have trimmed : trim ((ipv4Text ip).toList ++ ' ' :: domain.toList) =
      (ipv4Text ip).toList ++ ' ' :: domain.toList := by
    have last := List.getLast?_eq_some_getLast filled
    have head : ((ipv4Text ip).toList ++ ' ' :: domain.toList).head? = some first := by
      rw [text]
      rfl
    apply trim_eq_self head notSpace _ (visible _ last)
    rw [List.getLast?_append_of_ne_nil _ (by simp), List.getLast?_cons_of_ne_nil filled, last]
  have unkeyed : stripPrefix "next_ip=" ((ipv4Text ip).toList ++ ' ' :: domain.toList) = none := by
    rw [stripPrefix, if_neg]
    rw [text]
    rintro ⟨behind, same⟩
    exact notN (List.cons.inj same).1.symm
  have noSpace : ∀ c ∈ (ipv4Text ip).toList, decide (c ≠ ' ') = true := by
    intro c member
    simpa using (ipv4Text_space member).1
  have before : ((ipv4Text ip).toList ++ ' ' :: domain.toList).takeWhile (· ≠ ' ') =
      (ipv4Text ip).toList := by
    rw [List.takeWhile_append_of_pos noSpace]
    simp
  have after : ((ipv4Text ip).toList ++ ' ' :: domain.toList).dropWhile (· ≠ ' ') =
      ' ' :: domain.toList := by
    rw [List.dropWhile_append_of_pos noSpace]
    simp
  have accepted : (!range.contains ip || range.host ip < 2 ||
      range.host ip = range.broadcastHost : Bool) = false := by
    obtain ⟨inside, low, high⟩ := FakeRange.usable_iff.mp usable
    have low' : ¬ range.host ip < 2 := by
      rw [BitVec.lt_def]
      exact Nat.not_lt.mpr low
    rw [inside, decide_eq_false low', decide_eq_false high]
    rfl
  rw [readLine]
  simp only [trimmed, unkeyed, before, after]
  rw [if_neg (by rw [text]; simpa using notHash)]
  cases name : domain.toList with
  | nil => exact absurd name filled
  | cons c more =>
      simp only [String.ofList_toList, parseIpv4_ipv4Text]
      rw [if_neg (by simpa using accepted), ← name, String.ofList_toList,
        toLowercase_eq_self lower]

/-- Whatever the file, a name read from lower-case text can stand in a line. -/
theorem fileSafe_of_mem_fileMappings {content : String}
    (lower : ∀ c ∈ content.toList, IsLower table c)
    (member : (domain, ip) ∈ fileMappings table range (utf8 content)) : FileSafe domain := by
  rw [fileMappings, fromUtf8_utf8, List.mem_filterMap] at member
  obtain ⟨read, found, entry⟩ := member
  obtain ⟨line, among, rfl⟩ := List.mem_map.mp found
  obtain ⟨free, inside⟩ := of_mem_lines among
  simp only [readLine] at entry
  split at entry
  · cases entry
  · split at entry
    · cases entry
    · split at entry
      · cases entry
      · cases entry
      · rename_i space name short behind
        split at entry
        · cases entry
        · split at entry
          · cases entry
          · cases entry
            have suffix : space :: name <:+ trim line := behind ▸ List.dropWhile_suffix _
            have chars : ∀ c ∈ name, c ∈ line := by
              intro c member
              exact mem_of_mem_trim (suffix.subset (List.mem_cons_of_mem _ member))
            have same : toLowercase table (String.ofList name) = String.ofList name := by
              apply toLowercase_eq_self
              intro c member
              rw [String.toList_ofList] at member
              exact lower c (inside c (chars c member))
            have filled : name ≠ [] := by
              rintro rfl
              exact short rfl
            rw [same]
            refine ⟨?_, ?_, ?_⟩
            · intro empty
              exact filled (by rw [← String.toList_ofList (l := name), empty]; rfl)
            · rw [String.toList_ofList]
              exact fun bad => free (chars _ bad)
            · intro c last
              rw [String.toList_ofList] at last
              obtain ⟨front, whole⟩ := suffix
              have ends : (trim line).getLast? = some c := by
                rw [← whole, List.getLast?_append_of_ne_nil _ (by simp),
                  List.getLast?_cons_of_ne_nil filled, last]
              exact getLast?_trim ends

end Lines

section Content

variable {table : CaseTable} {range : FakeRange} {nextIp : BitVec 32}
  {snapshot : List (String × BitVec 32)}

def fileHeader : List Char := "# mirage-rs fake-ip persist v1".toList

def cursorKey : List Char := "next_ip=".toList

theorem fileText_toList (nextIp : BitVec 32) (snapshot : List (String × BitVec 32)) :
    (FakeIpMapper.fileText nextIp snapshot).toList =
      fileHeader ++ '\n' :: ((cursorKey ++ Nat.toDigits 10 nextIp.toNat) ++ '\n' ::
        snapshot.flatMap fun entry => entryLine entry ++ ['\n']) := by
  have header : "# mirage-rs fake-ip persist v1\n".toList = fileHeader ++ ['\n'] := by decide
  have newline : "\n".toList = ['\n'] := rfl
  have space : " ".toList = [' '] := rfl
  have line : ∀ entry : String × BitVec 32,
      (ipv4Text entry.2 ++ " " ++ entry.1 ++ "\n").toList = entryLine entry ++ ['\n'] := by
    intro entry
    simp only [String.toList_append, space, newline, entryLine, List.append_assoc,
      List.cons_append, List.nil_append]
  have entries : (String.join (snapshot.map fun entry =>
      ipv4Text entry.2 ++ " " ++ entry.1 ++ "\n")).toList =
        snapshot.flatMap fun entry => entryLine entry ++ ['\n'] := by
    simp only [String.toList_join, List.flatMap_map, line]
  -- The literals stay variables while the parts are put together.
  have parts : ∀ head key ending body : String, head.toList = fileHeader ++ ['\n'] →
      key.toList = cursorKey → ending.toList = ['\n'] →
      (head ++ (key ++ nextIp.toNat.repr ++ ending) ++ body).toList =
        fileHeader ++ '\n' :: ((cursorKey ++ Nat.toDigits 10 nextIp.toNat) ++ '\n' ::
          body.toList) := by
    intro head key ending body isHeader isKey isEnding
    simp only [String.toList_append, Nat.toList_repr, isHeader, isKey, isEnding,
      List.append_assoc, List.cons_append, List.nil_append]
  rw [← entries]
  exact parts _ _ _ _ header rfl newline

theorem fileText_lower
    (lower : ∀ entry ∈ snapshot, ∀ c ∈ entry.1.toList, IsLower table c) :
    ∀ c ∈ (FakeIpMapper.fileText nextIp snapshot).toList, IsLower table c := by
  have literal : ∀ c ∈ fileHeader ++ cursorKey ++ ['\n', ' ', '.'], IsLower table c := by
    have fixed : (fileHeader ++ cursorKey ++ ['\n', ' ', '.']).all fun c =>
        decide (c.toNat < 128) && c.toLower == c := by decide
    intro c member
    have := List.all_eq_true.mp fixed c member
    rw [Bool.and_eq_true, decide_eq_true_eq, beq_iff_eq] at this
    exact isLower_of_ascii this.1 this.2
  have digit : ∀ {c : Char}, c.isDigit = true → IsLower table c := by
    intro c isDigit
    have plain := plain_of_isDigit isDigit
    exact isLower_of_ascii plain.2.2.2.2.2.1 plain.2.2.2.2.2.2
  have single : ∀ c, c ∈ ['\n', ' ', '.'] → IsLower table c := by
    intro c member
    exact literal c (List.mem_append_right _ member)
  intro c member
  rw [fileText_toList, List.mem_append, List.mem_cons, List.mem_append, List.mem_append,
    List.mem_cons, List.mem_flatMap] at member
  rcases member with header | newline | (key | number) | newline | ⟨entry, among, inside⟩
  · exact literal c (by simp only [List.mem_append]; exact .inl (.inl header))
  · exact single c (by simp [newline])
  · exact literal c (by simp only [List.mem_append]; exact .inl (.inr key))
  · exact digit (Nat.isDigit_of_mem_toDigits (b := 10) (by decide) (by decide) number)
  · exact single c (by simp [newline])
  · rw [entryLine, List.append_assoc, List.mem_append, List.cons_append, List.mem_cons,
      List.mem_append] at inside
    rcases inside with address | space | name | newline
    · rcases ipv4Text_chars address with isDigit | dot
      · exact digit isDigit
      · exact single c (by simp [dot])
    · exact single c (by simp [space])
    · exact lower entry among c name
    · exact single c (List.mem_singleton.mp newline ▸ by simp)

theorem lines_entries (clean : ∀ entry ∈ snapshot, FileSafe entry.1) :
    lines (snapshot.flatMap fun entry => entryLine entry ++ ['\n']) =
      snapshot.map entryLine := by
  induction snapshot with
  | nil => rfl
  | cons entry rest ih =>
      obtain ⟨nonempty, free, visible⟩ := clean entry List.mem_cons_self
      have filled : entry.1.toList ≠ [] :=
        fun none => nonempty (String.toList_eq_nil_iff.mp none)
      have unbroken : '\n' ∉ entryLine entry := by
        simp only [entryLine, List.mem_append, List.mem_cons, not_or]
        exact ⟨fun bad => (ipv4Text_space bad).2 rfl, by decide, free⟩
      have uncut : (entryLine entry).getLast? ≠ some '\r' := by
        rw [entryLine, List.getLast?_append_of_ne_nil _ (by simp), List.getLast?_cons_of_ne_nil filled]
        intro last
        exact absurd (visible '\r' last) (by decide)
      rw [List.flatMap_cons, List.append_assoc, List.singleton_append,
        lines_cons unbroken, chomp_eq_self uncut,
        ih fun other member => clean other (List.mem_cons_of_mem _ member), List.map_cons]

theorem readLine_header : readLine table range fileHeader = .skipped := by
  rw [readLine, if_pos]
  decide

theorem readLine_nextIp (n : BitVec 32) :
    readLine table range (cursorKey ++ Nat.toDigits 10 n.toNat) =
      .nextIp (some n.toNat) := by
  have filled : Nat.toDigits 10 n.toNat ≠ [] := Nat.toDigits_ne_nil
  have digit : ∀ c ∈ Nat.toDigits 10 n.toNat, isWhitespace c = false := by
    intro c member
    exact (plain_of_isDigit
      (Nat.isDigit_of_mem_toDigits (b := 10) (by decide) (by decide) member)).2.2.2.2.1
  have last := List.getLast?_eq_some_getLast filled
  have visible := digit _ (List.getLast_mem filled)
  have whole : trim (cursorKey ++ Nat.toDigits 10 n.toNat) =
      cursorKey ++ Nat.toDigits 10 n.toNat := by
    have head : (cursorKey ++ Nat.toDigits 10 n.toNat).head? = some 'n' := rfl
    apply trim_eq_self head (by decide) _ visible
    rw [List.getLast?_append_of_ne_nil _ filled, last]
  have value : trim (Nat.toDigits 10 n.toNat) = Nat.toDigits 10 n.toNat := by
    cases digits : Nat.toDigits 10 n.toNat with
    | nil => exact absurd digits filled
    | cons first rest =>
        have head : (Nat.toDigits 10 n.toNat).head? = some first := by rw [digits]; rfl
        rw [← digits]
        apply trim_eq_self head _ last visible
        exact digit first (by rw [digits]; exact List.mem_cons_self)
  have key : stripPrefix "next_ip=" (cursorKey ++ Nat.toDigits 10 n.toNat) =
      some (Nat.toDigits 10 n.toNat) := by
    rw [stripPrefix]
    exact (if_pos (List.prefix_append cursorKey _)).trans (congrArg some (List.drop_left' rfl))
  have plain : ¬(cursorKey ++ Nat.toDigits 10 n.toNat = [] ∨
      (cursorKey ++ Nat.toDigits 10 n.toNat).head? = some '#') := by
    rintro (none | hash)
    · exact filled (List.append_eq_nil_iff.mp none).2
    · cases hash
  simp only [readLine, whole, key, value]
  rw [if_neg plain, ← Nat.toList_repr, String.ofList_toList, parseUnsigned_repr n.isLt]

theorem lines_fileText (safe : ∀ entry ∈ snapshot, FileSafe entry.1) :
    lines (FakeIpMapper.fileText nextIp snapshot).toList =
      fileHeader :: (cursorKey ++ Nat.toDigits 10 nextIp.toNat) :: snapshot.map entryLine := by
  have header : '\n' ∉ fileHeader := by decide
  have digit : ∀ c ∈ Nat.toDigits 10 nextIp.toNat, c ≠ '\n' ∧ c ≠ '\r' := by
    intro c member
    have plain := plain_of_isDigit
      (Nat.isDigit_of_mem_toDigits (b := 10) (by decide) (by decide) member)
    refine ⟨plain.2.2.2.1, ?_⟩
    rintro rfl
    exact absurd plain.2.2.2.2.1 (by decide)
  have filled : Nat.toDigits 10 nextIp.toNat ≠ [] := Nat.toDigits_ne_nil
  have cursor : '\n' ∉ cursorKey ++ Nat.toDigits 10 nextIp.toNat := by
    rw [List.mem_append, not_or]
    exact ⟨by decide, fun bad => (digit _ bad).1 rfl⟩
  have uncut : (cursorKey ++ Nat.toDigits 10 nextIp.toNat).getLast? ≠ some '\r' := by
    rw [List.getLast?_append_of_ne_nil _ filled]
    exact fun last => (digit _ (List.mem_of_getLast? last)).2 rfl
  rw [fileText_toList, lines_cons header, lines_cons cursor, lines_entries safe,
    chomp_eq_self uncut, chomp_eq_self (by decide)]

theorem read_fileText (safe : ∀ entry ∈ snapshot, FileSafe entry.1)
    (lower : ∀ entry ∈ snapshot, ∀ c ∈ entry.1.toList, IsLower table c)
    (usable : ∀ entry ∈ snapshot, range.Usable entry.2) :
    (lines (FakeIpMapper.fileText nextIp snapshot).toList).map (readLine table range) =
      .skipped :: .nextIp (some nextIp.toNat) ::
        snapshot.map fun entry => .mapping entry.2 entry.1 := by
  have entries : (snapshot.map entryLine).map (readLine table range) =
      snapshot.map fun entry => .mapping entry.2 entry.1 := by
    rw [List.map_map]
    apply List.map_congr_left
    rintro ⟨domain, ip⟩ member
    rw [Function.comp_apply]
    exact readLine_mapping (usable _ member) (safe _ member) (lower _ member)
  rw [lines_fileText safe, List.map_cons, List.map_cons, entries, readLine_header,
    readLine_nextIp]

theorem load_of_read {text : String}
    (read : (lines text.toList).map (readLine table range) =
      .skipped :: .nextIp (some nextIp.toNat) ::
        snapshot.map fun entry => .mapping entry.2 entry.1)
    (stands : range.Usable nextIp) :
    ((FakeIpMapper.new range).load table (utf8 text)).maps =
        (FakeIpMapper.new range).maps.putAll snapshot ∧
      ((FakeIpMapper.new range).load table (utf8 text)).nextIp = nextIp := by
  have back : (FileLine.entry ∘ fun entry : String × BitVec 32 =>
      FileLine.mapping entry.2 entry.1) = some := by
    funext entry
    rfl
  have mappings : fileMappings table range (utf8 text) = snapshot := by
    rw [fileMappings, fromUtf8_utf8]
    simp only [read]
    rw [List.filterMap_cons_none rfl, List.filterMap_cons_none rfl, List.filterMap_map, back,
      List.filterMap_some]
  -- Only the cursor line says where the cursor is.
  have value : ∀ (entries : List (String × BitVec 32)) (state : FakeIpMapper × Option Nat),
      ((entries.map fun entry => FileLine.mapping entry.2 entry.1).foldl
        FakeIpMapper.loadLine state).2 = state.2 := by
    intro entries
    induction entries with
    | nil => exact fun _ => rfl
    | cons entry rest ih => exact fun state => ih _
  obtain ⟨-, sameRange, -, -⟩ := FakeIpMapper.foldl_loadLine
    (snapshot.map fun entry => FileLine.mapping entry.2 entry.1)
    (FakeIpMapper.new range) (some nextIp.toNat)
  constructor
  · rw [(FakeIpMapper.load_spec _ _ _).1, show (FakeIpMapper.new range).range = range from rfl,
      mappings]
  · rw [FakeIpMapper.load, fromUtf8_utf8]
    simp only [show (FakeIpMapper.new range).range = range from rfl, read]
    rw [List.foldl_cons, List.foldl_cons]
    simp only [FakeIpMapper.loadLine, FakeIpMapper.resume, value, sameRange]
    obtain ⟨inside, -, high⟩ := FakeRange.usable_iff.mp stands
    rw [BitVec.ofNat_toNat, BitVec.setWidth_eq, if_pos]
    simp [FakeIpMapper.new, inside, high]

end Content

section Runs

variable {table : CaseTable} {range : FakeRange} {state next : PersistedMapper}
  {snapshot : List (String × BitVec 32)}

structure PersistedMapper.Kept (table : CaseTable) (range : FakeRange) (state : PersistedMapper) :
    Prop where
  sameRange : state.mapper.range = range
  sound : state.mapper.Sound
  cursor : range.Usable state.mapper.nextIp
  lower : ∀ domain ip, state.mapper.domainToIp.lookup domain = some ip →
    ∀ c ∈ domain.toList, IsLower table c
  saved : state.mapper.dirty = false → state = .start range ∨
    ∃ snapshot, snapshot.Perm state.mapper.maps.pairs ∧
      state.file = some (FakeIpMapper.fileText state.mapper.nextIp snapshot)

namespace PersistedMapper

theorem first_usable (range : FakeRange) : range.Usable (range.network + 2) := by
  have room := range.eight_le
  have two : 2 < 2 ^ range.hostBits := by omega
  obtain ⟨inside, host⟩ := FakeRange.network_add two range.first_toNat
  refine FakeRange.usable_iff.mpr ⟨inside, by omega, ?_⟩
  rw [ne_eq, ← BitVec.toNat_inj, FakeRange.broadcastHost_toNat]
  omega

theorem start_kept : (start range).Kept table range where
  sameRange := rfl
  sound := FakeIpMapper.new_sound range
  cursor := first_usable range
  lower domain ip had := by simp [start, FakeIpMapper.new] at had
  saved _ := .inl rfl

theorem cursor_of_usable {mapper : FakeIpMapper} (usable : mapper.range.Usable mapper.nextIp) :
    mapper.Cursor := by
  obtain ⟨inside, -, high⟩ := FakeRange.usable_iff.mp usable
  exact ⟨inside, high⟩

theorem lookupOrAssign_kept (name : String) (kept : state.Kept table range) :
    (⟨(state.mapper.lookupOrAssignWithEviction table name).2, state.file⟩ :
      PersistedMapper).Kept table range := by
  obtain ⟨sameRange, sound, cursor, lower, saved⟩ := kept
  subst sameRange
  have stands := cursor_of_usable cursor
  have beyond : state.mapper.Unspoiled table (.lookupOrAssign name) :=
    fun _ => ⟨cursor.2.1, cursor.2.2.1⟩
  have still := (FakeIpMapper.lookupOrAssign_exact stands sound).mpr beyond
  rcases FakeIpMapper.lookupOrAssign_cases table state.mapper name with
    ⟨ip, -, same⟩ | ⟨-, next, assigned, maps, range, dirty, nextIp⟩
  · rw [same]
    exact ⟨rfl, sound, cursor, lower, saved⟩
  · rw [FakeIpMapper.call, assigned] at still
    rw [assigned]
    refine ⟨range, still, ?_, ?_, ?_⟩
    · simp only [nextIp]
      split
      · exact first_usable _
      · rename_i high
        obtain ⟨inside, follows⟩ := FakeIpMapper.following_contains stands
        refine FakeRange.usable_iff.mpr ⟨inside, ?_, high⟩
        have := (FakeRange.usable_iff.mp cursor).2.1
        omega
    · intro domain ip had
      have lookup := congrArg (fun maps => maps.forward.lookup domain) maps
      rw [show next.domainToIp.lookup domain = _ from lookup, assign_forward] at had
      split at had
      · rename_i same
        intro c member
        rw [same, toLowercase, String.toList_ofList] at member
        exact isLower_of_mem_lowerFrom member
      · split at had
        · cases had
        · exact lower domain ip had
    · intro clean
      rw [dirty] at clean
      cases clean

theorem flush_kept (ordered : snapshot.Perm state.mapper.maps.pairs)
    (kept : state.Kept table range) : (state.flush snapshot).Kept table range := by
  obtain ⟨sameRange, sound, cursor, lower, saved⟩ := kept
  cases clean : state.mapper.dirty with
  | false =>
      have same : state.flush snapshot = state := by simp [flush, FakeIpMapper.flush, clean]
      rw [same]
      exact ⟨sameRange, sound, cursor, lower, saved⟩
  | true =>
      have written : state.flush snapshot = ⟨{ state.mapper with dirty := false },
          some (FakeIpMapper.fileText state.mapper.nextIp snapshot)⟩ := by
        simp [flush, FakeIpMapper.flush, clean]
      rw [written]
      exact ⟨sameRange, ⟨sound.inverse, sound.assigned, sound.answered, sound.bounded,
        sound.recycled⟩, cursor, lower, fun _ => .inr ⟨snapshot, ordered, rfl⟩⟩

theorem step_kept {event : PersistEvent} (kept : state.Kept table range)
    (stepped : state.step table event = some next) : next.Kept table range := by
  cases event with
  | lookupOrAssign name =>
      cases stepped
      exact lookupOrAssign_kept name kept
  | flush order =>
      simp only [step] at stepped
      split at stepped
      · rename_i ordered
        cases stepped
        exact flush_kept (List.isPerm_iff.mp ordered) kept
      · cases stepped

end PersistedMapper

/-- A file that is up to date brings the table back exactly when each name in
the table can stand in a line. -/
theorem restart_iff (kept : state.Kept table range) (clean : state.mapper.dirty = false) :
    SameTable (FakeIpMapper.withPersist table range state.file) state.mapper ↔
      ∀ domain ip, state.mapper.domainToIp.lookup domain = some ip → FileSafe domain := by
  rcases kept.saved clean with rfl | ⟨snapshot, ordered, file⟩
  · constructor
    · intro _ domain ip had
      simp [PersistedMapper.start, FakeIpMapper.new] at had
    · exact fun _ => ⟨fun _ => rfl, fun _ => rfl, rfl⟩
  · have entry : ∀ {pair}, pair ∈ snapshot →
        state.mapper.domainToIp.lookup pair.1 = some pair.2 :=
      fun member => mem_pairs.mp (ordered.mem_iff.mp member)
    have lower : ∀ pair ∈ snapshot, ∀ c ∈ pair.1.toList, IsLower table c :=
      fun pair member => kept.lower pair.1 pair.2 (entry member)
    rw [file]
    constructor
    · intro same domain ip had
      have loaded := (same.forward domain).trans had
      have maps := (FakeIpMapper.load_spec table (FakeIpMapper.new range)
        (utf8 (FakeIpMapper.fileText state.mapper.nextIp snapshot))).1
      have lookup := congrArg (fun maps => maps.forward.lookup domain) maps
      rw [putAll_forward] at lookup
      have last := lookup.symm.trans loaded
      rw [show (FakeIpMapper.new range).maps.forward.lookup domain = none from rfl,
        Option.or_none] at last
      exact fileSafe_of_mem_fileMappings (fileText_lower lower) (mem_of_lastOf last)
    · intro safe
      obtain ⟨maps, nextIp⟩ := load_of_read
        (read_fileText (fun pair member => safe pair.1 pair.2 (entry member)) lower
          fun pair member => kept.sameRange ▸ kept.sound.assigned pair.1 pair.2 (entry member))
        kept.cursor
      obtain ⟨forward, backward⟩ := putAll_of_perm kept.sound.inverse ordered
      refine ⟨?_, ?_, nextIp⟩
      · intro domain
        exact (congrArg (fun maps => maps.forward.lookup domain) maps).trans (forward domain)
      · intro ip
        exact (congrArg (fun maps => maps.backward.lookup ip) maps).trans (backward ip)

theorem lookupOrAssign_same (table : CaseTable) {mapper other : FakeIpMapper} (range : mapper.range = other.range)
    (same : SameTable mapper other) (name : String) :
    (mapper.lookupOrAssignWithEviction table name).1 =
        (other.lookupOrAssignWithEviction table name).1 ∧
      (mapper.lookupOrAssignWithEviction table name).2.range =
        (other.lookupOrAssignWithEviction table name).2.range ∧
      SameTable (mapper.lookupOrAssignWithEviction table name).2
        (other.lookupOrAssignWithEviction table name).2 := by
  have backward : ∀ ip, mapper.ipToDomain.lookup ip = other.ipToDomain.lookup ip := same.backward
  have owner : mapper.ipToDomain.lookup mapper.nextIp = other.ipToDomain.lookup other.nextIp := by
    rw [same.cursor]
    exact backward _
  rcases FakeIpMapper.lookupOrAssign_cases table mapper name with
    ⟨ip, had, unchanged⟩ | ⟨fresh, next, assigned, maps, nextRange, -, nextIp⟩
  · have hadToo := (same.forward _).symm.trans had
    have unchangedToo : other.lookupOrAssignWithEviction table name = ((ip, none), other) := by
      simp only [FakeIpMapper.lookupOrAssignWithEviction, hadToo]
    rw [unchanged, unchangedToo]
    exact ⟨rfl, range, same⟩
  · have freshToo := (same.forward _).symm.trans fresh
    rcases FakeIpMapper.lookupOrAssign_cases table other name with
      ⟨ip, hadToo, -⟩ | ⟨-, nextToo, assignedToo, mapsToo, nextRangeToo, -, nextIpToo⟩
    · rw [freshToo] at hadToo
      cases hadToo
    · refine ⟨?_, ?_, ?_, ?_, ?_⟩
      · rw [assigned, assignedToo, same.cursor, same.backward]
      · rw [assigned, assignedToo, nextRange, nextRangeToo, range]
      · intro domain
        rw [assigned, assignedToo]
        have one := congrArg (fun maps => maps.forward.lookup domain) maps
        have two := congrArg (fun maps => maps.forward.lookup domain) mapsToo
        rw [assign_forward] at one two
        refine one.trans (Eq.trans ?_ two.symm)
        by_cases own : domain = toLowercase table name
        · rw [if_pos own, if_pos own, same.cursor]
        · rw [if_neg own, if_neg own]
          by_cases lost : mapper.ipToDomain.lookup mapper.nextIp = some domain
          · exact (if_pos lost).trans (if_pos (owner.symm.trans lost)).symm
          · exact (if_neg lost).trans
              ((same.forward domain).trans (if_neg fun had => lost (owner.trans had)).symm)
      · intro ip
        rw [assigned, assignedToo]
        have one := congrArg (fun maps => maps.backward.lookup ip) maps
        have two := congrArg (fun maps => maps.backward.lookup ip) mapsToo
        rw [assign_backward] at one two
        refine one.trans (Eq.trans ?_ two.symm)
        simp only [FakeIpMapper.maps, backward, same.cursor]
      · rw [assigned, assignedToo]
        simp only [nextIp, nextIpToo, same.cursor, range]

/-- From one table on, two mappers answer alike for good. -/
theorem answers_same {mapper other : FakeIpMapper} (range : mapper.range = other.range)
    (same : SameTable mapper other) (names : List String) (name : String) :
    answer (FakeIpMapper.lookupOrAssignWithEviction table) mapper names name =
      answer (FakeIpMapper.lookupOrAssignWithEviction table) other names name := by
  induction names generalizing mapper other with
  | nil => exact (lookupOrAssign_same table range same name).1
  | cons first rest ih =>
      obtain ⟨-, rangeToo, sameToo⟩ := lookupOrAssign_same table range same first
      exact ih rangeToo sameToo

/-- Flushed at any time of a run and started again, a mapper has the table it
had exactly when each name in it can stand in a line; and with the same table
it answers every name as it would have. -/
theorem restart_keeps_table_iff {events : List PersistEvent}
    (reached : follow (PersistedMapper.step table) (PersistedMapper.start range) events =
      some state)
    (ordered : snapshot.Perm state.mapper.maps.pairs) :
    let restarted := FakeIpMapper.withPersist table range (state.flush snapshot).file
    (SameTable restarted state.mapper ↔
        ∀ domain ip, state.mapper.domainToIp.lookup domain = some ip → FileSafe domain) ∧
      (SameTable restarted state.mapper → ∀ names name,
        answer (FakeIpMapper.lookupOrAssignWithEviction table) restarted names name =
          answer (FakeIpMapper.lookupOrAssignWithEviction table) state.mapper names name) := by
  have kept : state.Kept table range :=
    follow_keeps (PersistedMapper.Kept table range) PersistedMapper.step_kept
      PersistedMapper.start_kept reached
  -- After the flush the file is up to date, and the table is still the same one.
  have flushed := PersistedMapper.flush_kept ordered kept
  have written : (state.flush snapshot).mapper.dirty = false ∧
      (state.flush snapshot).mapper.domainToIp = state.mapper.domainToIp ∧
      (state.flush snapshot).mapper.ipToDomain = state.mapper.ipToDomain ∧
      (state.flush snapshot).mapper.nextIp = state.mapper.nextIp := by
    cases dirty : state.mapper.dirty <;> simp [PersistedMapper.flush, FakeIpMapper.flush, dirty]
  obtain ⟨clean, forward, backward, nextIp⟩ := written
  have still : ∀ restarted, SameTable restarted (state.flush snapshot).mapper ↔
      SameTable restarted state.mapper := by
    intro restarted
    have known : ∀ ip, (state.flush snapshot).mapper.lookupDomain ip =
        state.mapper.lookupDomain ip := by
      intro ip
      rw [FakeIpMapper.lookupDomain, backward]
      rfl
    constructor
    · rintro ⟨one, two, three⟩
      exact ⟨fun domain => forward ▸ one domain, fun ip => (two ip).trans (known ip),
        nextIp ▸ three⟩
    · rintro ⟨one, two, three⟩
      exact ⟨fun domain => forward.symm ▸ one domain, fun ip => (two ip).trans (known ip).symm,
        nextIp.symm ▸ three⟩
  constructor
  · rw [← still, restart_iff flushed clean, forward]
  · intro same names name
    apply answers_same _ same
    rw [kept.sameRange]
    cases (state.flush snapshot).file with
    | none => rfl
    | some content => exact (FakeIpMapper.load_spec table (FakeIpMapper.new range) _).2.1

theorem restart_keeps_table_one :
    SameTable
      (FakeIpMapper.withPersist sampleCase sampleRange
        (PersistedMapper.flush ⟨((FakeIpMapper.new sampleRange).lookupOrAssignWithEviction
          sampleCase "a.com").2, none⟩ [("a.com", 0xC6120002)]).file)
      ((FakeIpMapper.new sampleRange).lookupOrAssignWithEviction sampleCase "a.com").2 :=
  (@restart_keeps_table_iff sampleCase sampleRange
    ⟨((FakeIpMapper.new sampleRange).lookupOrAssignWithEviction sampleCase "a.com").2, none⟩
    [("a.com", 0xC6120002)] [.lookupOrAssign "a.com"] rfl
    (List.isPerm_iff.mp (by decide +kernel))).1.mpr fun domain ip had => by
      have only : (domain, ip) ∈ [("a.com", (0xC6120002 : BitVec 32))] := by
        rw [← show ((FakeIpMapper.new sampleRange).lookupOrAssignWithEviction sampleCase
          "a.com").2.maps.pairs = [("a.com", (0xC6120002 : BitVec 32))] by decide +kernel]
        exact mem_pairs.mpr had
      cases List.mem_singleton.mp only
      refine ⟨by decide, by decide, ?_⟩
      intro c last
      have ends : "a.com".toList.getLast? = some 'm' := by decide
      rw [ends] at last
      cases last
      decide

/-- A query for a name with a line feed in it: after a restart the name is gone,
and what stood behind the line feed has an address. -/
theorem line_feed_breaks_file :
    ∃ query : Bytes, isWellformedQuery query = true ∧
      extractDomain sampleCase query = some "a\n198.18.0.9 b" ∧
      ¬ SameTable
        (FakeIpMapper.withPersist sampleCase sampleRange
          (PersistedMapper.flush ⟨((FakeIpMapper.new sampleRange).lookupOrAssignWithEviction
            sampleCase "a\n198.18.0.9 b").2, none⟩ [("a\n198.18.0.9 b", 0xC6120002)]).file)
        ((FakeIpMapper.new sampleRange).lookupOrAssignWithEviction sampleCase
          "a\n198.18.0.9 b").2 := by
  refine ⟨[0, 1, 1, 0, 0, 1, 0, 0, 0, 0, 0, 0, 14] ++ utf8 "a\n198.18.0.9 b" ++ [0, 0, 1, 0, 1],
    by decide +kernel, by decide +kernel, ?_⟩
  intro same
  have poisoned := same.forward "b"
  exact absurd poisoned (by decide +kernel)

end Runs

end Mirage.Dns
