import Mathlib.Data.List.Induction
import Mathlib.Data.List.TakeWhile
import Mirage.Lib.Lines
import Mirage.Resolver.Messages

/-!
What an answer has to be for its addresses to belong to the question, and what a
query has to be to ask for a name. Both readers leave some of it out.
-/

namespace Mirage.Resolver
open Word Text Utf8 Dns

section Answers

/-- One question, with the name and the type of the query. -/
structure SameQuestion (query resp : Bytes) : Prop where
  single : u16At resp 4 = 1
  name : SameName resp query
  inside : nameEnd resp 12 + 4 ≤ resp.length
  qtype : u16At resp (nameEnd resp 12) = u16At query (nameEnd query 12)

structure Genuine (qtype : Nat) (query resp : Bytes) (used : List Record) : Prop where
  id : u16At resp 0 = u16At query 0
  response : resp.getD 2 0 &&& 0x80 ≠ 0
  success : resp.getD 3 0 &&& 0x0F = 0
  question : SameQuestion query resp
  records : ∀ record ∈ used, record.rtype = qtype ∧ record.rclass = 1

def Lifetime (used : List Record) (ttl : Nat) : Prop :=
  ∃ least, (used.map Record.ttl).min? = some least ∧ ttl = max ttlMin (min least ttlMax)

theorem queryHeader_length (id : UInt16) : (queryHeader id).length = 12 := rfl

theorem u16At_header (id : UInt16) (rest : Bytes) : u16At (queryHeader id ++ rest) 0 = id.toNat := by
  have fits : id.toNat < 2 ^ 16 := id.toNat_lt
  have here := fromBe16_be16 fits
  exact here

theorem u16At_query {id : UInt16} {name : List Char} {query : Bytes}
    (built : buildQuery id name = .ok query) : u16At query 0 = id.toNat := by
  rw [buildQuery] at built
  split at built
  · cases built
  · cases built
    rw [List.append_assoc]
    exact u16At_header id _

theorem u16At_dnsQuery {tx qtype : UInt16} {host : List Char} {query : Bytes}
    (built : buildDnsQuery tx host qtype = some query) : u16At query 0 = tx.toNat := by
  rw [buildDnsQuery] at built
  dsimp only at built
  split at built
  · cases built
  · split at built
    · cases built
    · cases built
      rw [List.append_assoc, List.append_assoc]
      exact u16At_header tx _

theorem foldl_min (ttl : Nat) (ttls : List Nat) (most : Nat) :
    (ttl :: ttls).foldl min most = min most (ttls.foldl min ttl) := by
  rw [List.foldl_cons, List.foldl_assoc]

theorem lifetime_of_foldl {used : List Record} (some : used ≠ []) :
    Lifetime used (max ttlMin (min ((used.map Record.ttl).foldl min ttlMax) ttlMax)) := by
  obtain ⟨record, rest, rfl⟩ := List.exists_cons_of_ne_nil some
  refine ⟨(rest.map Record.ttl).foldl min record.ttl, List.min?_cons', ?_⟩
  rw [List.map_cons, foldl_min]
  congr 1
  omega

variable {resp query : Bytes}

theorem parseARecords_checked {id : UInt16} {ips : List Bytes} {ttl : Nat}
    (read : parseARecords resp id = .ok (ips, ttl)) :
    u16At resp 0 = id.toNat ∧ resp.getD 2 0 &&& 0x80 ≠ 0 ∧ resp.getD 3 0 &&& 0x0F = 0 ∧
      tunnelRecords resp ≠ [] ∧ ips = (tunnelRecords resp).map Record.rdata ∧
      ttl = max ttlMin (min (((tunnelRecords resp).map Record.ttl).foldl min ttlMax) ttlMax) := by
  rw [parseARecords] at read
  split at read
  · cases read
  split at read
  · cases read
  rename_i short other
  split at read
  · cases read
  rename_i response
  split at read
  · cases read
  split at read
  · cases read
  rename_i success
  cases questions : skipQuestions resp (u16At resp 4) 12 with
  | error message =>
      rw [questions] at read
      cases read
  | ok pos =>
      rw [questions] at read
      dsimp only [Except.bind] at read
      cases loop : answerLoop resp (u16At resp 6) pos [] ttlMax with
      | error message =>
          rw [loop] at read
          cases read
      | ok found =>
          have collected := answerLoop_ok _ _ _ _ loop
          have records : tunnelRecords resp =
              (answers (tunnelSkip resp) resp (u16At resp 6) pos).1.filter Record.isA := by
            rw [tunnelRecords, questions]
          rw [← records] at collected
          dsimp only at collected
          rw [List.nil_append] at collected
          rw [loop] at read
          dsimp only at read
          split at read
          · cases read
          · rename_i some
            cases read
            refine ⟨not_not.mp other, response, not_not.mp success, ?_, ?_, ?_⟩
            · intro nothing
              rw [collected, nothing] at some
              exact some rfl
            · rw [collected]
            · rw [collected]

/-- What the tunnel's reader returns, and what it has not checked. -/
theorem parseARecords_ok {id : UInt16} {name : List Char} {ips : List Bytes} {ttl : Nat}
    (built : buildQuery id name = .ok query) (read : parseARecords resp id = .ok (ips, ttl)) :
    ips = (tunnelRecords resp).map Record.rdata ∧ Lifetime (tunnelRecords resp) ttl ∧
      (Genuine 1 query resp (tunnelRecords resp) ↔
        SameQuestion query resp ∧ ∀ record ∈ tunnelRecords resp, record.rclass = 1) := by
  obtain ⟨same, response, success, some, addresses, lifetime⟩ := parseARecords_checked read
  refine ⟨addresses, ?_, ?_⟩
  · rw [lifetime]
    exact lifetime_of_foldl some
  · constructor
    · intro genuine
      exact ⟨genuine.question, fun record member => (genuine.records record member).2⟩
    · rintro ⟨question, classes⟩
      refine ⟨same.trans (u16At_query built).symm, response, success, question, ?_⟩
      intro record member
      have isA : record.isA = true := by
        rw [tunnelRecords] at member
        split at member
        · exact (List.mem_filter.mp member).2
        · cases member
      exact ⟨(Record.isA_iff.mp isA).1, classes record member⟩

theorem parseAnswerIps_eq {tx qtype : UInt16} {host : List Char}
    (built : buildDnsQuery tx host qtype = some query) (found : parseAnswerIps resp tx ≠ []) :
    parseAnswerIps resp tx = (tcpRecords resp).map Record.rdata ∧
      (Genuine qtype.toNat query resp (tcpRecords resp) ↔
        resp.getD 3 0 &&& 0x0F = 0 ∧ SameQuestion query resp ∧
          ∀ record ∈ tcpRecords resp, record.rtype = qtype.toNat ∧ record.rclass = 1) := by
  rw [parseAnswerIps] at found ⊢
  split at found
  · exact absurd rfl found
  rename_i header
  rw [if_neg header]
  split at found
  · exact absurd rfl found
  rename_i checked
  obtain ⟨same, response⟩ := not_or.mp checked
  rw [if_neg checked, answerLoopTcp_eq, List.nil_append]
  refine ⟨rfl, ?_⟩
  constructor
  · intro genuine
    exact ⟨genuine.success, genuine.question, genuine.records⟩
  · rintro ⟨success, question, records⟩
    exact ⟨(not_not.mp same).trans (u16At_dnsQuery built).symm, response, success, question,
      records⟩

end Answers

section Names

open List (splitOn intercalate)

/-- A query for the name, which may be written with a dot at its end. -/
def Encodes (query : Bytes) (qtype : UInt16) (name : List Char) : Prop :=
  ∃ labels : List (List Char),
    (name = ['.'].intercalate labels ∨ name = ['.'].intercalate labels ++ ['.']) ∧
    (∀ label ∈ labels, LabelFits (encode label) ∧ '.' ∉ label) ∧
    query.drop 12 = encodeName (labels.map encode) ++ (be16 qtype.toNat ++ [0x00, 0x01])

/-- No empty label but at the end, or the root alone. -/
def Dotted (name : List Char) : Prop :=
  (∀ label ∈ (name.splitOn '.').dropLast, label ≠ []) ∨ name = ['.']

variable {name host : List Char} {query : Bytes}

theorem labels_unique {labels other : List (List Char)} {tail : Bytes}
    (fits : ∀ label ∈ labels, LabelFits (encode label))
    (fits' : ∀ label ∈ other, LabelFits (encode label))
    (same : encodeName (labels.map encode) ++ tail = encodeName (other.map encode) ++ tail) :
    labels = other := by
  have read : ∀ {list : List (List Char)}, (∀ label ∈ list, LabelFits (encode label)) →
      nameAt (encodeName (list.map encode) ++ tail) 0 = (list.map encode, .root) := by
    intro list fit
    apply nameAt_encodeName List.drop_zero
    intro label member
    obtain ⟨text, inside, rfl⟩ := List.mem_map.mp member
    exact fit text inside
  have first := read fits
  rw [same, read fits'] at first
  exact ((List.map_inj_right fun _ _ => encode_injective).mp (Prod.mk.inj first).1).symm

/-- A split text without its last part, which is empty after a dot. -/
theorem exists_split (name : List Char) : ∃ front last, name.splitOn '.' = front ++ [last] ∧
    name = ['.'].intercalate (front ++ [last]) := by
  have some := List.splitOn_ne_nil '.' name
  refine ⟨(name.splitOn '.').dropLast, (name.splitOn '.').getLast some, ?_, ?_⟩
  · rw [List.dropLast_concat_getLast]
  · rw [List.dropLast_concat_getLast, List.intercalate_splitOn]

theorem intercalate_append_nil {front : List (List Char)} (some : front ≠ []) :
    ['.'].intercalate (front ++ [[]]) = ['.'].intercalate front ++ ['.'] := by
  induction front with
  | nil => exact absurd rfl some
  | cons label rest ih =>
      cases rest with
      | nil => simp [List.intercalate]
      | cons other more =>
          have tail := ih (List.cons_ne_nil _ _)
          simp only [List.cons_append] at tail ⊢
          rw [List.intercalate_cons_cons, List.intercalate_cons_cons, tail]
          simp

theorem mem_splitOn_free {label : List Char} (member : label ∈ name.splitOn '.') :
    '.' ∉ label := (Lines.of_mem_splitOn member).1

/-- A name that is dotted as it should be is the join of its labels. -/
theorem dotted_iff : Dotted name ↔ ∃ labels : List (List Char),
    labels = (name.splitOn '.').filter (!·.isEmpty) ∧
      (name = ['.'].intercalate labels ∨ name = ['.'].intercalate labels ++ ['.']) := by
  obtain ⟨front, last, split, whole⟩ := exists_split name
  have someOf : ∀ {label : List Char}, (!label.isEmpty) = true ↔ label ≠ [] := by
    intro label
    simp
  constructor
  · rintro (inner | rfl)
    · rw [split, List.dropLast_concat] at inner
      have kept : front.filter (!·.isEmpty) = front :=
        List.filter_eq_self.mpr fun label member => someOf.mpr (inner label member)
      refine ⟨_, rfl, ?_⟩
      rw [split, List.filter_append, kept]
      cases last with
      | nil =>
          have dropped : [([] : List Char)].filter (!·.isEmpty) = [] := rfl
          rw [dropped, List.append_nil]
          cases front with
          | nil => exact Or.inl whole
          | cons label rest =>
              right
              rw [← intercalate_append_nil (List.cons_ne_nil _ _)]
              exact whole
      | cons c rest => exact Or.inl whole
    · exact ⟨[], by decide, Or.inr rfl⟩
  · rintro ⟨labels, rfl, forms⟩
    have free : ∀ label ∈ (name.splitOn '.').filter (!·.isEmpty), '.' ∉ label :=
      fun label member => mem_splitOn_free (List.mem_filter.mp member).1
    have some : ∀ label ∈ (name.splitOn '.').filter (!·.isEmpty), label ≠ [] :=
      fun label member => someOf.mp (List.mem_filter.mp member).2
    generalize (name.splitOn '.').filter (!·.isEmpty) = labels at forms free some
    by_cases nothing : labels = []
    · subst nothing
      rcases forms with rfl | rfl
      · exact Or.inl (by decide)
      · exact Or.inr rfl
    · left
      rcases forms with rfl | rfl
      · rw [List.splitOn_intercalate _ free nothing]
        exact fun label member => some label ((List.dropLast_prefix _).subset member)
      · rw [← intercalate_append_nil nothing, List.splitOn_intercalate, List.dropLast_concat]
        · exact some
        · intro label member
          rcases List.mem_append.mp member with inside | last
          · exact free label inside
          · rw [List.mem_singleton.mp last]
            exact List.not_mem_nil
        · exact List.append_ne_nil_of_right_ne_nil _ (List.cons_ne_nil _ _)

theorem labelFits_of {label : List Char} (some : label ≠ [])
    (short : ¬ 63 < (encode label).length) : LabelFits (encode label) := by
  refine ⟨?_, Nat.not_lt.mp short⟩
  rw [List.length_pos_iff]
  intro empty
  exact some (encode_injective (empty.trans encode_nil.symm))

/-- The tunnel's query asks for the name just when the name is dotted as it should be. -/
theorem encodes_iff_dotted {id : UInt16} (built : buildQuery id name = .ok query) :
    Encodes query 1 name ↔ Dotted name := by
  rw [buildQuery] at built
  split at built
  · cases built
  rename_i short
  have fits : ∀ label ∈ (name.splitOn '.').filter (!·.isEmpty), LabelFits (encode label) := by
    intro label member
    have some : label ≠ [] := by simpa using (List.mem_filter.mp member).2
    exact labelFits_of some (by simpa using List.find?_eq_none.mp short label member)
  cases built
  rw [dotted_iff, Encodes, List.append_assoc, List.drop_left' (queryHeader_length id)]
  constructor
  · rintro ⟨labels, forms, labelsFit, same⟩
    have unique := labels_unique fits (fun label member => (labelsFit label member).1) same
    exact ⟨labels, unique.symm, forms⟩
  · rintro ⟨labels, rfl, forms⟩
    refine ⟨_, forms, fun label member => ⟨fits label member, ?_⟩, rfl⟩
    exact mem_splitOn_free (List.mem_filter.mp member).1

theorem exists_dots (text : List Char) :
    ∃ dots, text = trimEndDots text ++ dots ∧ ∀ c ∈ dots, c = '.' := by
  refine ⟨(text.reverse.takeWhile (· = '.')).reverse, ?_, ?_⟩
  · rw [trimEndDots, ← List.reverse_append, List.takeWhile_append_dropWhile, List.reverse_reverse]
  · intro c member
    have dot := List.mem_takeWhile_imp (List.mem_reverse.mp member)
    exact of_decide_eq_true dot

/-- The query over TCP asks for the name just when at most one dot ends it. -/
theorem encodes_iff_not_dots {tx qtype : UInt16}
    (built : buildDnsQuery tx host qtype = some query) :
    Encodes query qtype host ↔ ¬ ['.', '.'] <:+ host := by
  rw [buildDnsQuery] at built
  dsimp only at built
  split at built
  · cases built
  rename_i valid
  split at built
  · cases built
  cases built
  have fits : ∀ label ∈ (trimEndDots host).splitOn '.', LabelFits (encode label) := by
    intro label member
    rw [List.any_eq_true] at valid
    have plain := not_exists.mp valid label
    simp only [member, true_and, Bool.or_eq_true, not_or, decide_eq_true_eq] at plain
    exact labelFits_of (by simpa using plain.1) plain.2
  have whole : ['.'].intercalate ((trimEndDots host).splitOn '.') = trimEndDots host :=
    List.intercalate_splitOn '.'
  have last := getLast?_trimEndDots host
  rw [Encodes, List.append_assoc, List.append_assoc, List.drop_left' (queryHeader_length tx)]
  constructor
  · rintro ⟨labels, forms, labelsFit, same⟩
    have unique := labels_unique fits (fun label member => (labelsFit label member).1) same
    rw [← unique, whole] at forms
    rintro ⟨front, dots⟩
    rcases forms with plain | dotted
    · rw [← plain, ← dots] at last
      have two : (front ++ ['.', '.']).getLast? = some '.' := by simp
      exact last two
    · have shorter : trimEndDots host = front ++ ['.'] := by
        have regrouped : trimEndDots host ++ ['.'] = (front ++ ['.']) ++ ['.'] := by
          rw [← dotted, ← dots, List.append_assoc]
          rfl
        exact List.append_cancel_right regrouped
      rw [shorter, List.getLast?_concat] at last
      exact last rfl
  · intro few
    refine ⟨_, ?_, fun label member => ⟨fits label member, mem_splitOn_free member⟩, rfl⟩
    rw [whole]
    obtain ⟨dots, same, all⟩ := exists_dots host
    match dots with
    | [] => exact Or.inl (by rw [List.append_nil] at same; exact same)
    | [c] =>
        right
        rw [all c (List.mem_singleton_self _)] at same
        exact same
    | c :: d :: rest =>
        exfalso
        have dotsOnly : c :: d :: rest = List.replicate (rest.length + 2) '.' := by
          rw [List.eq_replicate_iff]
          exact ⟨rfl, all⟩
        have ending : c :: d :: rest = List.replicate rest.length '.' ++ ['.', '.'] := by
          rw [dotsOnly, List.replicate_add]
          rfl
        refine few ⟨trimEndDots host ++ List.replicate rest.length '.', ?_⟩
        rw [List.append_assoc, ← ending]
        exact same.symm

end Names

section Cache

def cacheCap : Nat := 1024

/-- The answers that the tunnel keeps, with when they expire, in nanoseconds. -/
structure TunnelDns where
  cache : List (List Char × (List Bytes × Nat))

/-- One call of `resolve`: the time it begins, its id, and what is received in time. -/
structure Lookup where
  name : List Char
  now : Nat
  id : UInt16
  response : Option (Bytes × Nat)

namespace TunnelDns

def new : TunnelDns := ⟨[]⟩

def cached (self : TunnelDns) (name : List Char) (now : Nat) : Option (List Bytes) :=
  (self.cache.lookup name).bind fun entry => if now < entry.2 then some entry.1 else none

def store (self : TunnelDns) (name : List Char) (ips : List Bytes) (ttl now : Nat) : TunnelDns :=
  let kept :=
    if cacheCap ≤ self.cache.length then
      let alive := self.cache.filter fun entry => now < entry.2.2
      if cacheCap ≤ alive.length then [] else alive
    else self.cache
  ⟨(name, ips, now + ttl * 10 ^ 9) :: kept.filter fun entry => entry.1 ≠ name⟩

/-- `ips[0]` -/
def first (ips : List Bytes) : Except String Bytes :=
  match ips with
  | ip :: _ => .ok ip
  | [] => .error "index out of bounds"

def resolve (literal : List Char → Option Bytes) (self : TunnelDns) (lookup : Lookup) :
    Except String Bytes × TunnelDns :=
  match literal lookup.name with
  | some ip => (.ok ip, self)
  | none =>
      match self.cached lookup.name lookup.now with
      | some ips => (first ips, self)
      | none =>
          match buildQuery lookup.id lookup.name with
          | .error message => (.error message, self)
          | .ok _ =>
              match lookup.response with
              | none => (.error "in-tunnel DNS query timed out (5s)", self)
              | some (resp, arrived) =>
                  match parseARecords resp lookup.id with
                  | .error message => (.error message, self)
                  | .ok (ips, ttl) => (first ips, self.store lookup.name ips ttl arrived)

def after (literal : List Char → Option Bytes) (past : List Lookup) : TunnelDns :=
  past.foldl (fun self lookup => (self.resolve literal lookup).2) new

end TunnelDns

/-- The answer to one of the lookups for the name, until its lifetime ends. -/
def Sourced (past : List Lookup) (name : List Char) (ips : List Bytes) (expires : Nat) : Prop :=
  ∃ lookup ∈ past, lookup.name = name ∧ ∃ query resp arrived ttl,
    buildQuery lookup.id name = .ok query ∧ lookup.response = some (resp, arrived) ∧
      parseARecords resp lookup.id = .ok (ips, ttl) ∧ expires = arrived + ttl * 10 ^ 9

variable {literal : List Char → Option Bytes} {past : List Lookup}

theorem Sourced.later {name : List Char} {ips : List Bytes} {expires : Nat}
    (sourced : Sourced past name ips expires) (lookup : Lookup) :
    Sourced (past ++ [lookup]) name ips expires := by
  obtain ⟨earlier, member, rest⟩ := sourced
  exact ⟨earlier, List.mem_append_left _ member, rest⟩

theorem mem_store {self : TunnelDns} {name : List Char} {ips : List Bytes} {ttl now : Nat}
    {entry : List Char × (List Bytes × Nat)} (member : entry ∈ (self.store name ips ttl now).cache) :
    entry = (name, ips, now + ttl * 10 ^ 9) ∨ entry ∈ self.cache := by
  rw [TunnelDns.store] at member
  rcases List.mem_cons.mp member with same | kept
  · exact Or.inl same
  · right
    have inside := (List.mem_filter.mp kept).1
    split at inside
    · dsimp only at inside
      split at inside
      · cases inside
      · exact (List.mem_filter.mp inside).1
    · exact inside

/-- A lookup adds nothing to the cache but its own answer. -/
theorem resolve_sourced {self : TunnelDns}
    (sourced : ∀ entry ∈ self.cache, Sourced past entry.1 entry.2.1 entry.2.2) (lookup : Lookup) :
    ∀ entry ∈ (self.resolve literal lookup).2.cache,
      Sourced (past ++ [lookup]) entry.1 entry.2.1 entry.2.2 := by
  intro entry member
  rw [TunnelDns.resolve] at member
  split at member
  · exact (sourced entry member).later lookup
  split at member
  · exact (sourced entry member).later lookup
  split at member
  · exact (sourced entry member).later lookup
  rename_i query built
  split at member
  · exact (sourced entry member).later lookup
  rename_i resp arrived response
  split at member
  · exact (sourced entry member).later lookup
  rename_i ips ttl read
  rcases mem_store member with rfl | old
  · exact ⟨lookup, List.mem_append_right _ (List.mem_singleton_self _), rfl, query, resp, arrived,
      ttl, built, response, read, rfl⟩
  · exact (sourced entry old).later lookup

theorem after_sourced (past : List Lookup) :
    ∀ entry ∈ (TunnelDns.after literal past).cache,
      Sourced past entry.1 entry.2.1 entry.2.2 := by
  induction past using List.reverseRecOn with
  | nil => exact fun entry member => absurd member List.not_mem_nil
  | append_singleton past lookup ih =>
      rw [TunnelDns.after, List.foldl_append]
      exact resolve_sourced ih lookup

/-- What a lookup returns for a name is the answer to a lookup for this name, and has
not expired when it comes from the cache. -/
theorem returned_sourced (past : List Lookup) (lookup : Lookup)
    (name : literal lookup.name = none) {ip : Bytes}
    (returned : ((TunnelDns.after literal past).resolve literal lookup).1 = .ok ip) :
    ∃ ips expires, Sourced (past ++ [lookup]) lookup.name ips expires ∧ ips.head? = some ip ∧
      (Sourced [lookup] lookup.name ips expires ∨ lookup.now < expires) := by
  have head : ∀ {ips : List Bytes}, TunnelDns.first ips = .ok ip → ips.head? = some ip := by
    intro ips taken
    cases ips with
    | nil => cases taken
    | cons first rest =>
        cases taken
        rfl
  rw [TunnelDns.resolve, name] at returned
  dsimp only at returned
  split at returned
  · rename_i ips found
    rw [TunnelDns.cached] at found
    obtain ⟨entry, stored, alive⟩ := Option.bind_eq_some_iff.mp found
    split at alive
    · rename_i early
      cases alive
      obtain ⟨before, later, whole, -⟩ := List.lookup_eq_some_iff.mp stored
      have member : (lookup.name, entry) ∈ (TunnelDns.after literal past).cache := by
        rw [whole]
        exact List.mem_append_right _ List.mem_cons_self
      have sourced := after_sourced past _ member
      exact ⟨_, _, sourced.later lookup, head returned, Or.inr early⟩
    · cases alive
  split at returned
  · cases returned
  rename_i query built
  split at returned
  · cases returned
  rename_i resp arrived response
  split at returned
  · cases returned
  rename_i ips ttl read
  have here : Sourced [lookup] lookup.name ips (arrived + ttl * 10 ^ 9) :=
    ⟨lookup, List.mem_singleton_self _, rfl, query, resp, arrived, ttl, built, response, read, rfl⟩
  obtain ⟨source, member, rest⟩ := here
  refine ⟨ips, _, ⟨source, List.mem_append_right _ member, rest⟩, head returned, Or.inl ?_⟩
  exact ⟨source, member, rest⟩

end Cache

section Instances

/-- An answer to another question: its name is `b`, its record one of class CH. -/
def strayAnswer : Bytes :=
  [0, 7, 0x81, 0x80, 0, 1, 0, 1, 0, 0, 0, 0] ++ [1, 98, 0, 0, 1, 0, 1] ++
    [0xC0, 0x0C, 0, 1, 0, 3, 0, 0, 0, 60, 0, 4, 6, 6, 6, 6]

/-- An answer for `b` is returned and kept for `a`; two dots are asked for as one. -/
theorem stray_answer_kept :
    (∃ query, buildQuery 7 ['a'] = .ok query ∧
      parseARecords strayAnswer 7 = .ok ([[6, 6, 6, 6]], 60) ∧
      parseAnswerIps strayAnswer 7 = [[6, 6, 6, 6]] ∧ ¬ SameName strayAnswer query) ∧
    (buildQuery 7 ['a', '.', '.', 'b']).toOption = (buildQuery 7 ['a', '.', 'b']).toOption := by
  refine ⟨⟨queryHeader 7 ++ encodeName [[97]] ++ [0x00, 0x01, 0x00, 0x01], by decide +kernel,
    by decide +kernel, by decide +kernel, ?_⟩, by decide +kernel⟩
  rintro ⟨labels, -⟩
  have names : (questionName strayAnswer).1 = [[98]] ∧
      (questionName (queryHeader 7 ++ encodeName [[97]] ++ [0x00, 0x01, 0x00, 0x01])).1 = [[97]] := by
    decide +kernel
  rw [names.1, names.2] at labels
  exact absurd labels (by decide)

/-- What both readers return is what the records that they use say, with the least
TTL; it belongs to the question just where what they do not check holds. A query
asks for the name just when the name is dotted as it should be. What the tunnel's
resolver keeps and returns for a name is an answer to a lookup for this name. -/
theorem resolver_answers_iff (id tx qtype : UInt16) (name host : List Char) (query resp : Bytes)
    (literal : List Char → Option Bytes) (past : List Lookup) :
    (∀ (ips : List Bytes) (ttl : Nat),
      buildQuery id name = .ok query → parseARecords resp id = .ok (ips, ttl) →
      ips = (tunnelRecords resp).map Record.rdata ∧ Lifetime (tunnelRecords resp) ttl ∧
        (Genuine 1 query resp (tunnelRecords resp) ↔
          SameQuestion query resp ∧ ∀ record ∈ tunnelRecords resp, record.rclass = 1)) ∧
    (buildDnsQuery tx host qtype = some query → parseAnswerIps resp tx ≠ [] →
      parseAnswerIps resp tx = (tcpRecords resp).map Record.rdata ∧
        (Genuine qtype.toNat query resp (tcpRecords resp) ↔
          resp.getD 3 0 &&& 0x0F = 0 ∧ SameQuestion query resp ∧
            ∀ record ∈ tcpRecords resp, record.rtype = qtype.toNat ∧ record.rclass = 1)) ∧
    (buildQuery id name = .ok query → (Encodes query 1 name ↔ Dotted name)) ∧
    (buildDnsQuery tx host qtype = some query →
      (Encodes query qtype host ↔ ¬ ['.', '.'] <:+ host)) ∧
    (∀ entry ∈ (TunnelDns.after literal past).cache,
      Sourced past entry.1 entry.2.1 entry.2.2) ∧
      ∀ (lookup : Lookup) (ip : Bytes), literal lookup.name = none →
        ((TunnelDns.after literal past).resolve literal lookup).1 = .ok ip →
        ∃ ips expires, Sourced (past ++ [lookup]) lookup.name ips expires ∧
          ips.head? = some ip ∧
          (Sourced [lookup] lookup.name ips expires ∨ lookup.now < expires) := by
  refine ⟨?_, ?_, ?_, ?_, after_sourced past, ?_⟩
  · intro ips ttl built read
    exact parseARecords_ok built read
  · intro built found
    exact parseAnswerIps_eq built found
  · intro built
    exact encodes_iff_dotted built
  · intro built
    exact encodes_iff_not_dots built
  · intro lookup ip name returned
    exact returned_sourced past lookup name returned

end Instances

end Mirage.Resolver
