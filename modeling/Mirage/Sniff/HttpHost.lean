import Mathlib.Data.List.Infix
import Mathlib.Data.List.TakeWhile
import Mirage.Lib.Lines
import Mirage.Lib.Utf8
import Mirage.Sniff.ServerName
import Mirage.Tunnel.Cipher

/-!
`parse_http_host` of proxy/sniff.rs and what is sniffed of a stream, against request
heads as HTTP/1.x writes them. The bytes behind the `Host` header are arbitrary.
-/

namespace Mirage.Sniff
open Word Text Utf8
open Lines (lines chomp)
open Tunnel (isWhitespace trim)

section Source

/-- `&line[bytes..]`, which panics inside a character. -/
def sliceFrom : Nat → List Char → Option (List Char)
  | 0, text => some text
  | _ + 1, [] => none
  | bytes + 1, c :: rest =>
      if c.utf8Size ≤ bytes + 1 then sliceFrom (bytes + 1 - c.utf8Size) rest else none

variable (table : CaseTable)

def hostColon : List Char := ['h', 'o', 's', 't', ':']

def hostIn : List (List Char) → Option (Option String)
  | [] => some none
  | line :: rest =>
      if (trim line).isEmpty then some none
      else if hostColon.isPrefixOf (lowerFrom table [] line) then
        (sliceFrom 5 line).map fun value =>
          some (String.ofList ((trim value).takeWhile fun c => c ≠ ':'))
      else hostIn rest

def parseHttpHost (data : Bytes) : Option (Option String) :=
  match fromUtf8 data with
  | some text => hostIn table (lines text.toList)
  | none => some none

def methods : List String := ["GET ", "POST ", "CONNECT ", "PUT ", "HEAD ", "OPTIONS "]

/-- `sniff_with_timeout` on what is peeked in time. -/
def sniff (peeked : Bytes) : Option (Option String) :=
  match peeked with
  | [] => some none
  | first :: _ =>
      if first = 0x16 ∧ 5 < peeked.length then parseTlsSni peeked
      else if methods.any fun method => (utf8 method).isPrefixOf peeked then
        parseHttpHost table peeked
      else some none

end Source

section Heads

inductive LineEnd where
  | crlf
  | lf
  deriving DecidableEq

def LineEnd.bytes : LineEnd → Bytes
  | .crlf => [13, 10]
  | .lf => [10]

def Inline (content : Bytes) : Prop := 10 ∉ content ∧ 13 ∉ content

def IsToken (name : List Char) : Prop :=
  name ≠ [] ∧ ∀ c ∈ name, 0x21 ≤ c.toNat ∧ c.toNat ≤ 0x7E ∧ c ≠ ':'

structure Field where
  name : List Char
  value : Bytes
  lineEnd : LineEnd
  token : IsToken name
  inline : Inline value

def Field.bytes (field : Field) : Bytes :=
  encode field.name ++ (58 :: (field.value ++ field.lineEnd.bytes))

def IsHost (name : List Char) : Prop := name.map Char.toLower = ['h', 'o', 's', 't']

/-- A name, an IPv4 address or a bracketed literal. -/
def IsHostPart (host : List Char) : Prop :=
  (∀ c ∈ host, isWhitespace c = false) ∧
    (':' ∉ host ∨ ∃ inside, host = '[' :: (inside ++ [']']))

def portText : Option (List Char) → List Char
  | none => []
  | some digits => ':' :: digits

/-- A request head up to and with its first `Host` header. -/
structure RequestHead where
  method : List Char
  target : Bytes
  requestEnd : LineEnd
  before : List Field
  hostName : List Char
  left : List Char
  host : List Char
  port : Option (List Char)
  right : List Char
  hostEnd : LineEnd
  methodToken : IsToken method
  targetInline : Inline target
  others : ∀ field ∈ before, ¬ IsHost field.name
  hostNamed : IsHost hostName
  leftBlank : ∀ c ∈ left, c = ' ' ∨ c = '\t'
  hostPart : IsHostPart host
  portDigits : ∀ digits, port = some digits → ∀ c ∈ digits, c.isDigit = true
  rightBlank : ∀ c ∈ right, c = ' ' ∨ c = '\t'

namespace RequestHead

def requestLine (head : RequestHead) : Bytes :=
  encode head.method ++ (32 :: (head.target ++ head.requestEnd.bytes))

def value (head : RequestHead) : List Char :=
  head.left ++ ((head.host ++ portText head.port) ++ head.right)

def hostLine (head : RequestHead) : Bytes :=
  encode head.hostName ++ (58 :: (encode head.value ++ head.hostEnd.bytes))

def bytes (head : RequestHead) : Bytes :=
  head.requestLine ++ (head.before.flatMap Field.bytes ++ head.hostLine)

end RequestHead

end Heads

theorem forall_of_all {chars : List Char} {holds : Char → Prop} [DecidablePred holds]
    (all : (chars.all fun c => decide (holds c)) = true) : ∀ c ∈ chars, holds c :=
  fun c member => of_decide_eq_true (List.all_eq_true.mp all c member)

section Lines

variable {table : CaseTable} {chars : List Char}

theorem lines_cut {content rest : Bytes} {lineEnd : LineEnd} (inline : Inline content)
    (whole : encode chars = content ++ (lineEnd.bytes ++ rest)) :
    ∃ line more, lines chars = line :: lines more ∧ encode line = content ∧
      encode more = rest := by
  have free : ∀ {line : List Char}, encode line = content → '\n' ∉ line ∧ '\r' ∉ line := by
    intro line same
    refine ⟨fun member => inline.1 ?_, fun member => inline.2 ?_⟩
    · rw [← same]
      exact mem_encode member (by decide)
    · rw [← same]
      exact mem_encode member (by decide)
  cases lineEnd with
  | lf =>
      obtain ⟨line, more, rfl, here, behind⟩ := @exists_cut chars '\n' content rest (by decide) whole
      refine ⟨line, more, ?_, here, behind⟩
      have plain : line.getLast? ≠ some '\r' :=
        fun last => (free here).2 (List.mem_of_getLast? last)
      rw [Lines.lines_cons (free here).1, Lines.chomp_eq_self plain]
  | crlf =>
      have split : encode chars = (content ++ [13]) ++ (10 :: rest) := by
        rw [whole, LineEnd.bytes]
        simp
      obtain ⟨long, more, rfl, here, behind⟩ := @exists_cut chars '\n' _ rest (by decide) split
      obtain ⟨line, nothing, rfl, start, empty⟩ := @exists_cut long '\r' content [] (by decide) here
      have none_ : nothing = [] := encode_injective (empty.trans encode_nil.symm)
      subst none_
      refine ⟨line, more, ?_, start, behind⟩
      have clean : '\n' ∉ line ++ ['\r'] := by
        rw [List.mem_append, List.mem_singleton]
        rintro (member | same)
        · exact (free start).1 member
        · exact absurd same (by decide)
      rw [Lines.lines_cons clean, chomp, List.getLast?_concat, if_pos rfl, List.dropLast_concat]

theorem trim_ne_nil {c : Char} (member : c ∈ chars) (visible : isWhitespace c = false) :
    trim chars ≠ [] := by
  intro empty
  rw [trim, List.reverse_eq_nil_iff, List.dropWhile_eq_nil_iff] at empty
  have kept : c ∈ chars.dropWhile isWhitespace := by
    rw [← List.takeWhile_append_dropWhile (p := isWhitespace) (l := chars)] at member
    rcases List.mem_append.mp member with front | back
    · exact absurd (List.mem_takeWhile_imp front) (by rw [visible]; decide)
    · exact back
  have blank := empty c (List.mem_reverse.mpr kept)
  rw [visible] at blank
  cases blank

theorem trim_blanks {left core right : List Char} (before : ∀ c ∈ left, isWhitespace c = true)
    (visible : ∀ c ∈ core, isWhitespace c = false) (after : ∀ c ∈ right, isWhitespace c = true) :
    trim (left ++ (core ++ right)) = core := by
  have strip : ∀ {front back : List Char}, (∀ c ∈ front, isWhitespace c = true) →
      (∀ c ∈ back.head?, isWhitespace c = false) →
        (front ++ back).dropWhile isWhitespace = back := by
    intro front back blank seen
    rw [List.dropWhile_append_of_pos blank]
    cases back with
    | nil => rfl
    | cons c rest => exact List.dropWhile_cons_of_neg (by rw [seen c rfl]; decide)
  cases core with
  | nil =>
      have all : ∀ c ∈ left ++ right, isWhitespace c = true := by
        intro c member
        exact (List.mem_append.mp member).elim (before c) (after c)
      rw [List.nil_append, trim, List.dropWhile_eq_nil_iff.mpr all]
      rfl
  | cons c rest =>
      rw [trim, strip before (fun d first => visible d (by cases first; exact List.mem_cons_self)),
        List.reverse_append, strip (fun d member => after d (List.mem_reverse.mp member)),
        List.reverse_reverse]
      intro d last
      refine visible d (List.mem_reverse.mp (List.mem_of_head? ?_))
      exact last

theorem lowerFrom_ascii_append {name rest : List Char} (ascii : ∀ c ∈ name, c.toNat < 128)
    (before : List Char) : ∃ tail,
      lowerFrom table before (name ++ rest) = name.map Char.toLower ++ tail := by
  induction name generalizing before with
  | nil => exact ⟨_, rfl⟩
  | cons c name ih =>
      obtain ⟨tail, same⟩ := ih (fun d member => ascii d (List.mem_cons_of_mem _ member)) (c :: before)
      have small := ascii c List.mem_cons_self
      have notSigma : c ≠ 'Σ' := by
        rintro rfl
        exact absurd small (by decide)
      refine ⟨tail, ?_⟩
      rw [List.cons_append, lowerFrom, if_neg notSigma, table.lower_ascii c small, same]
      rfl

end Lines

section Fields

variable {table : CaseTable}

theorem IsToken.ascii {name : List Char} (token : IsToken name) : ∀ c ∈ name, c.toNat < 128 := by
  intro c member
  have bounds := token.2 c member
  omega

/-- What a name is lowercased to has neither a colon nor a space. -/
theorem IsToken.lowered {name : List Char} (token : IsToken name) :
    ∀ c ∈ name.map Char.toLower, decide (c ≠ ':' ∧ c ≠ ' ') = true := by
  intro c member
  obtain ⟨d, inside, rfl⟩ := List.mem_map.mp member
  obtain ⟨low, high, other⟩ := token.2 d inside
  have cases_ := ascii_cases (P := fun d : Char => (decide (0x21 ≤ d.toNat) → d ≠ ':' →
    decide (d.toLower ≠ ':' ∧ d.toLower ≠ ' ') = true)) (by decide) (token.ascii d inside)
  exact cases_ (by simpa using low) other

theorem IsToken.visible {name : List Char} (token : IsToken name) :
    ∃ c ∈ name, isWhitespace c = false := by
  obtain ⟨some, bounds⟩ := token
  obtain ⟨c, rest, rfl⟩ := List.exists_cons_of_ne_nil some
  obtain ⟨low, high, -⟩ := bounds c List.mem_cons_self
  refine ⟨c, List.mem_cons_self, ?_⟩
  have cases_ := ascii_cases (P := fun c : Char => (decide (0x21 ≤ c.toNat) →
    decide (c.toNat ≤ 0x7E) → isWhitespace c = false)) (by decide) (by omega : c.toNat < 128)
  exact cases_ (by simpa using low) (by simpa using high)

theorem IsToken.inline_append {name : List Char} (token : IsToken name) {b : UInt8}
    {value : Bytes} (separator : b ≠ 10 ∧ b ≠ 13) (inline : Inline value) :
    Inline (encode name ++ b :: value) := by
  have free : ∀ {c : Char}, c.toNat < 0x21 → UInt8.ofNat c.toNat ∉ encode name := by
    intro c low member
    have bounds := token.2 c (mem_of_mem_encode (by omega) member)
    omega
  constructor
  · simp only [List.mem_append, List.mem_cons, not_or]
    exact ⟨@free '\n' (by decide), separator.1.symm, inline.1⟩
  · simp only [List.mem_append, List.mem_cons, not_or]
    exact ⟨@free '\r' (by decide), separator.2.symm, inline.2⟩

/-- Two texts that go on behind their first separators agree up to them. -/
theorem cut_unique {Item : Type} {front front' rest rest' : List Item} {c c' : Item}
    {inside : Item → Bool}
    (all : ∀ d ∈ front, inside d = true) (all' : ∀ d ∈ front', inside d = true)
    (stop : inside c = false) (stop' : inside c' = false)
    (same : front ++ c :: rest = front' ++ c' :: rest') : front = front' ∧ c = c' := by
  have fronts := congrArg (List.takeWhile inside) same
  have backs := congrArg (List.dropWhile inside) same
  rw [List.takeWhile_append_of_pos all, List.takeWhile_append_of_pos all',
    List.takeWhile_cons_of_neg (by rw [stop]; decide),
    List.takeWhile_cons_of_neg (by rw [stop']; decide), List.append_nil, List.append_nil] at fronts
  rw [List.dropWhile_append_of_pos all, List.dropWhile_append_of_pos all',
    List.dropWhile_cons_of_neg (by rw [stop]; decide),
    List.dropWhile_cons_of_neg (by rw [stop']; decide)] at backs
  exact ⟨fronts, (List.cons.inj backs).1⟩

theorem hostColon_iff {name value : List Char} (token : IsToken name) {separator : Char}
    (sep : separator = ' ' ∨ separator = ':') :
    hostColon.isPrefixOf (lowerFrom table [] (name ++ separator :: value)) = true ↔
      IsHost name ∧ separator = ':' := by
  have small : separator.toNat < 128 := by
    rcases sep with rfl | rfl <;> decide
  have fixed : separator.toLower = separator := by
    rcases sep with rfl | rfl <;> decide
  have stop : decide (separator ≠ ':' ∧ separator ≠ ' ') = false := by
    rcases sep with rfl | rfl <;> decide
  have ascii : ∀ c ∈ name ++ [separator], c.toNat < 128 := by
    intro c member
    rcases List.mem_append.mp member with inside | last
    · exact token.ascii c inside
    · rw [List.mem_singleton.mp last]
      exact small
  obtain ⟨tail, lowered⟩ := @lowerFrom_ascii_append table _ value ascii []
  rw [List.append_assoc, List.singleton_append, List.map_append, List.map_singleton, fixed,
    List.append_assoc, List.singleton_append] at lowered
  rw [lowered, List.isPrefixOf_iff_prefix]
  constructor
  · rintro ⟨rest, same⟩
    have parts := @cut_unique Char ['h', 'o', 's', 't'] (name.map Char.toLower) rest tail ':' separator
      (fun c => decide (c ≠ ':' ∧ c ≠ ' ')) (forall_of_all (by decide)) token.lowered (by decide)
      stop same
    exact ⟨parts.1.symm, parts.2.symm⟩
  · rintro ⟨named, rfl⟩
    rw [named]
    exact ⟨tail, rfl⟩

theorem hostIn_skip {name value : List Char} (token : IsToken name) {separator : Char}
    (sep : separator = ' ' ∨ separator = ':') (other : ¬ (IsHost name ∧ separator = ':'))
    (rest : List (List Char)) :
    hostIn table ((name ++ separator :: value) :: rest) = hostIn table rest := by
  obtain ⟨c, member, visible⟩ := token.visible
  have some := trim_ne_nil (List.mem_append_left (separator :: value) member) visible
  rw [hostIn, if_neg (by simpa using some), if_neg (by rw [hostColon_iff token sep]; exact other)]

theorem IsHost.token {name : List Char} (named : IsHost name) : IsToken name := by
  refine ⟨?_, ?_⟩
  · rintro rfl
    cases named
  · intro c member
    have lowered : c.toLower ∈ ['h', 'o', 's', 't'] := by
      rw [← named]
      exact List.mem_map_of_mem member
    have small : c.toNat < 128 := by
      by_contra wide
      rw [toLower_of_not_ascii (Nat.not_lt.mp wide)] at lowered
      have all : ∀ d ∈ ['h', 'o', 's', 't'], d.toNat < 128 := forall_of_all (by decide)
      exact wide (all c lowered)
    exact ascii_cases (P := fun c : Char => c.toLower ∈ ['h', 'o', 's', 't'] →
      0x21 ≤ c.toNat ∧ c.toNat ≤ 0x7E ∧ c ≠ ':') (by decide) small lowered

theorem sliceFrom_ascii {front : List Char} (ascii : ∀ c ∈ front, c.toNat < 128)
    (rest : List Char) : sliceFrom front.length (front ++ rest) = some rest := by
  induction front with
  | nil => rw [List.length_nil, List.nil_append, sliceFrom]
  | cons c front ih =>
      have one : c.utf8Size = 1 := by
        rw [← String.length_utf8EncodeChar, encode_ascii (ascii c List.mem_cons_self)]
        rfl
      rw [List.length_cons, List.cons_append, sliceFrom, one, if_pos (by omega), Nat.add_sub_cancel,
        ih fun d member => ascii d (List.mem_cons_of_mem _ member)]

theorem hostIn_host {name value : List Char} (named : IsHost name) (rest : List (List Char)) :
    hostIn table ((name ++ ':' :: value) :: rest) =
      some (some (String.ofList ((trim value).takeWhile fun c => c ≠ ':'))) := by
  have token := named.token
  obtain ⟨c, member, visible⟩ := token.visible
  have some := trim_ne_nil (List.mem_append_left (':' :: value) member) visible
  have five : (name ++ [':']).length = 5 := by
    have length := congrArg List.length named
    rw [List.length_map] at length
    rw [List.length_append, length]
    rfl
  have ascii : ∀ c ∈ name ++ [':'], c.toNat < 128 := by
    intro c member
    rcases List.mem_append.mp member with inside | last
    · exact token.ascii c inside
    · rw [List.mem_singleton.mp last]
      decide
  have cut := sliceFrom_ascii ascii value
  rw [five, List.append_assoc, List.singleton_append] at cut
  rw [hostIn, if_neg (by simpa using some),
    if_pos ((hostColon_iff token (Or.inr rfl)).mpr ⟨named, rfl⟩), cut]
  rfl

end Fields

namespace RequestHead

variable {table : CaseTable} (head : RequestHead) {rest : Bytes}

theorem isWhitespace_blank {c : Char} (blank : c = ' ' ∨ c = '\t') : isWhitespace c = true := by
  rcases blank with rfl | rfl <;> decide

theorem port_visible : ∀ c ∈ portText head.port, isWhitespace c = false := by
  intro c member
  cases port : head.port with
  | none =>
      rw [port] at member
      cases member
  | some digits =>
      rw [port] at member
      rcases List.mem_cons.mp member with rfl | inside
      · decide
      · have digit := head.portDigits digits port c inside
        have small : c.toNat < 128 := by
          simp only [Char.isDigit, Bool.and_eq_true, decide_eq_true_eq] at digit
          have top : c.val ≤ 57 := digit.2
          have value : c.val.toNat = c.toNat := rfl
          have number := UInt32.le_iff_toNat_le.mp top
          have bound : (57 : UInt32).toNat = 57 := rfl
          omega
        exact ascii_cases (P := fun c : Char => c.isDigit = true → isWhitespace c = false)
          (by decide) small digit

theorem trim_value : trim head.value = head.host ++ portText head.port := by
  rw [value]
  refine trim_blanks (fun c member => isWhitespace_blank (head.leftBlank c member)) ?_
    (fun c member => isWhitespace_blank (head.rightBlank c member))
  intro c member
  rcases List.mem_append.mp member with inside | port
  · exact head.hostPart.1 c inside
  · exact head.port_visible c port

theorem takeWhile_value : (trim head.value).takeWhile (fun c => decide (c ≠ ':')) =
    head.host.takeWhile fun c => decide (c ≠ ':') := by
  rw [head.trim_value]
  by_cases plain : ':' ∈ head.host
  · obtain ⟨front, back, free, whole⟩ :
        ∃ front back, (∀ c ∈ front, decide (c ≠ ':') = true) ∧ head.host = front ++ ':' :: back := by
      obtain ⟨front, back, whole, free⟩ := List.eq_append_cons_of_mem plain
      refine ⟨front, back, fun c member => ?_, whole⟩
      rw [decide_eq_true_eq]
      rintro rfl
      exact free member
    rw [whole, List.append_assoc, List.takeWhile_append_of_pos free,
      List.takeWhile_append_of_pos free, List.cons_append,
      List.takeWhile_cons_of_neg (by decide), List.takeWhile_cons_of_neg (by decide)]
  · have free : ∀ c ∈ head.host, decide (c ≠ ':') = true := by
      intro c member
      rw [decide_eq_true_eq]
      rintro rfl
      exact plain member
    rw [List.takeWhile_append_of_pos free]
    have last : (portText head.port).takeWhile (fun c => decide (c ≠ ':')) = [] := by
      cases head.port with
      | none => rfl
      | some digits => exact List.takeWhile_cons_of_neg (by decide)
    rw [last, List.append_nil, List.takeWhile_eq_self_iff.mpr free]

theorem hostIn_fields {fields : List Field} (others : ∀ field ∈ fields, ¬ IsHost field.name)
    {chars : List Char} {rest : Bytes}
    (whole : encode chars = fields.flatMap Field.bytes ++ rest) :
    ∃ more, hostIn table (lines chars) = hostIn table (lines more) ∧ encode more = rest := by
  induction fields generalizing chars with
  | nil => exact ⟨chars, rfl, whole⟩
  | cons field fields ih =>
      have split : encode chars = (encode field.name ++ (58 :: field.value)) ++
          (field.lineEnd.bytes ++ (fields.flatMap Field.bytes ++ rest)) := by
        rw [whole, List.flatMap_cons, Field.bytes]
        simp only [List.append_assoc, List.cons_append]
      have inline := field.token.inline_append (b := 58) (by decide) field.inline
      obtain ⟨line, more, cut, here, behind⟩ := lines_cut inline split
      obtain ⟨name, value, rfl, named, -⟩ := @exists_cut line ':' _ _ (by decide) here
      obtain rfl := encode_injective named
      obtain ⟨last, same, final⟩ :=
        ih (fun other member => others other (List.mem_cons_of_mem _ member)) behind
      refine ⟨last, ?_, final⟩
      rw [cut, hostIn_skip field.token (Or.inr rfl), same]
      exact fun named => others field List.mem_cons_self named.1

theorem value_inline : Inline (encode head.value) := by
  have free : ∀ {c : Char}, c = '\n' ∨ c = '\r' → UInt8.ofNat c.toNat ∉ encode head.value := by
    intro c lineEnd member
    have small : c.toNat < 128 := by
      rcases lineEnd with rfl | rfl <;> decide
    have blank : isWhitespace c = true := by
      rcases lineEnd with rfl | rfl <;> decide
    have other : ¬ (c = ' ' ∨ c = '\t') := by
      rcases lineEnd with rfl | rfl <;> decide
    have inside := mem_of_mem_encode small member
    simp only [value, List.mem_append] at inside
    rcases inside with left | (host | port) | right
    · exact other (head.leftBlank c left)
    · exact absurd (head.hostPart.1 c host) (by rw [blank]; decide)
    · exact absurd (head.port_visible c port) (by rw [blank]; decide)
    · exact other (head.rightBlank c right)
  exact ⟨@free '\n' (Or.inl rfl), @free '\r' (Or.inr rfl)⟩

/-- What is found in a head that is all text with what follows. -/
theorem parseHttpHost_text {text : String} (decoded : fromUtf8 (head.bytes ++ rest) = some text) :
    parseHttpHost table (head.bytes ++ rest) =
      some (some (String.ofList (head.host.takeWhile fun c => decide (c ≠ ':')))) := by
  have whole : encode text.toList = (encode head.method ++ (32 :: head.target)) ++
      (head.requestEnd.bytes ++ (head.before.flatMap Field.bytes ++ (head.hostLine ++ rest))) := by
    rw [← utf8_eq_encode, utf8_of_fromUtf8 decoded, bytes, requestLine]
    simp only [List.append_assoc, List.cons_append]
  obtain ⟨first, more, cut, here, behind⟩ :=
    lines_cut (head.methodToken.inline_append (by decide) head.targetInline) whole
  obtain ⟨method, target, rfl, same, -⟩ := @exists_cut first ' ' _ _ (by decide) here
  obtain rfl := encode_injective same
  obtain ⟨last, passed, hostLine_⟩ := @hostIn_fields table _ head.others _ _ behind
  have split : encode last = (encode head.hostName ++ (58 :: encode head.value)) ++
      (head.hostEnd.bytes ++ rest) := by
    rw [hostLine_, hostLine]
    simp only [List.append_assoc, List.cons_append]
  obtain ⟨line, after, cutLast, hereLast, -⟩ :=
    lines_cut (head.hostNamed.token.inline_append (by decide) head.value_inline) split
  obtain ⟨name, value, rfl, named, valued⟩ := @exists_cut line ':' _ _ (by decide) hereLast
  obtain rfl := encode_injective named
  obtain rfl := encode_injective valued
  rw [parseHttpHost, decoded]
  dsimp only
  rw [cut, hostIn_skip head.methodToken (Or.inl rfl) (fun both => absurd both.2 (by decide)), passed,
    cutLast, hostIn_host head.hostNamed, head.takeWhile_value]

theorem parseHttpHost_iff :
    parseHttpHost table (head.bytes ++ rest) = some (some (String.ofList head.host)) ↔
      (fromUtf8 (head.bytes ++ rest)).isSome ∧ ':' ∉ head.host := by
  cases decoded : fromUtf8 (head.bytes ++ rest) with
  | none =>
      rw [parseHttpHost, decoded]
      simp
  | some text =>
      rw [head.parseHttpHost_text decoded]
      simp only [Option.some.injEq, Option.isSome_some, true_and]
      constructor
      · intro same colon
        have chars := String.ofList_injective same
        rw [← chars] at colon
        exact absurd (List.mem_takeWhile_imp colon) (by decide)
      · intro plain
        congr 1
        rw [List.takeWhile_eq_self_iff]
        intro c member
        rw [decide_eq_true_eq]
        rintro rfl
        exact plain member

end RequestHead

section Peeked
variable {table : CaseTable}

theorem methods_start : ∀ method ∈ methods, ∃ name : List Char,
    utf8 method = encode name ++ [32] ∧ 32 ∉ encode name ∧ (utf8 method).head? ≠ some 0x16 := by
  have cut : ∀ method ∈ methods, utf8 method = encode method.toList.dropLast ++ [32] ∧
      32 ∉ encode method.toList.dropLast ∧ (utf8 method).head? ≠ some 0x16 := by
    decide
  exact fun method member => ⟨_, cut method member⟩

/-- Of a hello, in whatever part it is peeked, the parser's answer is given. -/
theorem ClientHello.sniff_prefix (hello : ClientHello) (behind : Bytes) {data : Bytes}
    (front : data <+: hello.record ++ behind) :
    sniff table data = some (if data.length < hello.nameEnd then none else some hello.name) := by
  have far : 5 < hello.nameEnd := by
    rw [HelloFields.nameEnd, HelloFields.extensionsStart]
    omega
  cases data with
  | nil => exact congrArg some (if_pos (Nat.zero_lt_of_lt far)).symm
  | cons first rest =>
      obtain ⟨more, whole⟩ := front
      obtain rfl : first = 0x16 := (List.cons.inj whole).1
      by_cases long : 5 < (0x16 :: rest : Bytes).length
      · rw [sniff, if_pos ⟨rfl, long⟩]
        exact hello.parseTlsSni_prefix behind ⟨more, whole⟩
      · have other : ¬ (methods.any fun method => (utf8 method).isPrefixOf (0x16 :: rest)) = true := by
          rw [List.any_eq_true]
          rintro ⟨method, member, starts⟩
          obtain ⟨name, cut, -, head⟩ := methods_start method member
          obtain ⟨tail, same⟩ := List.isPrefixOf_iff_prefix.mp starts
          cases bytes : utf8 method with
          | nil => exact absurd (cut.symm.trans bytes) (by simp)
          | cons b text =>
              rw [bytes] at same head
              exact head (congrArg some (List.cons.inj same).1)
        rw [sniff, if_neg (fun both => long both.2), if_neg other, if_pos (by omega)]

/-- The method is one that is looked for. -/
def RequestHead.Known (head : RequestHead) : Prop := String.ofList (head.method ++ [' ']) ∈ methods

variable {head : RequestHead} {rest : Bytes}

theorem RequestHead.known_iff :
    (methods.any fun method => (utf8 method).isPrefixOf (head.bytes ++ rest)) = true ↔
      head.Known := by
  have split : head.bytes ++ rest = encode head.method ++ 32 :: (head.target ++
      (head.requestEnd.bytes ++ (head.before.flatMap Field.bytes ++ (head.hostLine ++ rest)))) := by
    rw [RequestHead.bytes, RequestHead.requestLine]
    simp only [List.append_assoc, List.cons_append]
  have own : utf8 (String.ofList (head.method ++ [' '])) = encode head.method ++ [32] := by
    rw [utf8_eq_encode, String.toList_ofList, encode_append]
    rfl
  have free : 32 ∉ encode head.method := by
    intro member
    have bounds := head.methodToken.2 ' ' (mem_of_mem_encode (c := ' ') (by decide) member)
    exact absurd bounds.1 (by decide)
  rw [List.any_eq_true, split]
  constructor
  · rintro ⟨method, known, starts⟩
    obtain ⟨name, cut, apart, -⟩ := methods_start method known
    obtain ⟨tail, same⟩ := List.isPrefixOf_iff_prefix.mp starts
    rw [cut, List.append_assoc] at same
    have names := (@cut_unique UInt8 _ _ _ _ _ _ (fun b => decide (b ≠ 32))
      (fun b member => decide_eq_true fun space => apart (space ▸ member))
      (fun b member => decide_eq_true fun space => free (space ▸ member)) (by decide) (by decide)
      same).1
    have texts : utf8 method = utf8 (String.ofList (head.method ++ [' '])) := by
      rw [cut, own, names]
    rwa [RequestHead.Known, ← utf8_injective texts]
  · intro known
    refine ⟨_, known, List.isPrefixOf_iff_prefix.mpr ?_⟩
    rw [own]
    exact ⟨_, by rw [List.append_assoc]; rfl⟩

/-- Of a request the host is found just when the method is looked for, the bytes are all
text and the host has no colon. -/
theorem RequestHead.sniff_iff :
    sniff table (head.bytes ++ rest) = some (some (String.ofList head.host)) ↔
      head.Known ∧ (fromUtf8 (head.bytes ++ rest)).isSome ∧ ':' ∉ head.host := by
  obtain ⟨c, name, named⟩ := List.exists_cons_of_ne_nil head.methodToken.1
  have bounds := head.methodToken.2 c (by rw [named]; exact List.mem_cons_self)
  have peeked : ∃ more, head.bytes ++ rest = UInt8.ofNat c.toNat :: more := by
    rw [RequestHead.bytes, RequestHead.requestLine, named, encode_cons, encode_ascii (by omega)]
    exact ⟨_, rfl⟩
  have request : UInt8.ofNat c.toNat ≠ 0x16 := by
    intro same
    have number := congrArg UInt8.toNat same
    rw [UInt8.toNat_ofNat', Nat.mod_eq_of_lt (by omega)] at number
    exact absurd bounds.1 (by rw [number]; decide)
  have known := @RequestHead.known_iff head rest
  have read := @RequestHead.parseHttpHost_iff table head rest
  obtain ⟨more, same⟩ := peeked
  rw [same] at known read ⊢
  rw [sniff, if_neg (fun both => request both.1)]
  by_cases looked : head.Known
  · rw [if_pos (known.mpr looked), read]
    exact (and_iff_right looked).symm
  · rw [if_neg (fun any => looked (known.mp any))]
    exact iff_of_false (fun none_ => Option.some_ne_none _ (Option.some.inj none_).symm)
      (fun all => looked all.1)

end Peeked

def literalRequest : RequestHead where
  method := ['G', 'E', 'T']
  target := [47]
  requestEnd := .crlf
  before := []
  hostName := ['H', 'o', 's', 't']
  left := [' ']
  host := ['[', ':', ':', '1', ']']
  port := none
  right := []
  hostEnd := .crlf
  methodToken := ⟨by decide, forall_of_all (by decide)⟩
  targetInline := ⟨by decide, by decide⟩
  others := fun _ member => absurd member List.not_mem_nil
  hostNamed := by unfold IsHost; decide
  leftBlank := forall_of_all (by decide)
  hostPart := ⟨forall_of_all (by decide), Or.inr ⟨[':', ':', '1'], rfl⟩⟩
  portDigits := fun _ none_ => (nomatch none_)
  rightBlank := fun _ member => absurd member List.not_mem_nil

/-- A literal is cut, and a body that is no text hides every host. -/
theorem literal_cut :
    (∀ table, parseHttpHost table (literalRequest.bytes ++ [13, 10]) = some (some "[")) ∧
    ∀ table, parseHttpHost table (literalRequest.bytes ++ [13, 10, 0xFF]) = some none := by
  refine ⟨fun table => ?_, fun table => ?_⟩
  · have text : fromUtf8 (literalRequest.bytes ++ [13, 10]) =
        some "GET /\r\nHost: [::1]\r\n\r\n" := by
      decide +kernel
    exact literalRequest.parseHttpHost_text text
  · have none_ : fromUtf8 (literalRequest.bytes ++ [13, 10, 0xFF]) = none := by decide +kernel
    rw [parseHttpHost, none_]

/-- No access to a hello is out of bounds; a hello gives its name from the end of the
extension on and none before; of a request head the host is found just when the
bytes are all text and no colon is in it. -/
theorem sniffed_host_iff (data : Bytes) (table : CaseTable) (head : RequestHead) (rest : Bytes) :
    (parseTlsSni data).isSome ∧
    (∀ (hello : ClientHello) (behind : Bytes), data <+: hello.record ++ behind →
      parseTlsSni data =
        some (if data.length < hello.nameEnd then none else some hello.name)) ∧
    (parseHttpHost table (head.bytes ++ rest) = some (some (String.ofList head.host)) ↔
      (fromUtf8 (head.bytes ++ rest)).isSome ∧ ':' ∉ head.host) := by
  refine ⟨?_, fun hello behind front => ?_, ?_⟩
  · rw [parseTlsSni_eq]
    rfl
  · exact hello.parseTlsSni_prefix behind front
  · exact head.parseHttpHost_iff

end Mirage.Sniff
