import Mirage.Dns.Wire

/-!
The keys under which queries share answers: the cache key of `DnsCache` and
the single-flight key. A key holds the name as one lower-case text with dots
between the labels. What that text forgets is where the labels were cut, how
the name stopped, and which characters only Unicode takes for the same.
-/

namespace Mirage.Dns
open Word Text

inductive ResolvePath where
  | cn
  | remote
  deriving DecidableEq

structure CacheKey where
  path : ResolvePath
  domain : String
  qtype : Nat
  doBit : Bool
  cdBit : Bool
  bucket : Nat
  deriving DecidableEq

/-- The key that every method of `DnsCache` builds, unless it passes the query by. -/
def cacheKey (path : ResolvePath) (domain : String) (qtype : Nat) (query : Bytes) :
    Option CacheKey :=
  let edns := ednsInfo query
  if getQclass query ≠ some 1 ∨ edns.hasOptions = true then none
  else some ⟨path, domain, qtype, edns.doBit, edns.cdBit, edns.bucket⟩

/-- The key of a query as `process_query` and `resolve_cached` call the cache. -/
def queryKey (table : CaseTable) (path : ResolvePath) (query : Bytes) : Option CacheKey :=
  (extractDomain table query).bind fun domain =>
    cacheKey path (toLowercase table domain) ((getQtype query).getD 0) query

structure FlightKey where
  domain : String
  qtype : Nat
  doBit : Bool
  cdBit : Bool
  size : Nat
  deriving DecidableEq

def singleflightKey (table : CaseTable) (req : Bytes) : Option FlightKey := do
  let domain ← extractDomain table req
  if domain.isEmpty then none
  else
    let qtype ← getQtype req
    let e := ednsInfo req
    if getQclass req ≠ some 1 ∨ e.hasOptions = true then none
    else return ⟨toLowercase table domain, qtype, e.doBit, e.cdBit,
      if e.hasOpt then e.maxUdp else 0⟩

section Specification
variable (table : CaseTable)

def ShareKey (first second : Bytes) : Prop :=
  (∃ path key, queryKey table path first = some key ∧ queryKey table path second = some key) ∨
    ∃ key, singleflightKey table first = some key ∧ singleflightKey table second = some key

def KeepsApart (first second : Bytes) : Prop :=
  ShareKey table first second →
    SameName first second ∧ getQtype first = getQtype second ∧
      (ednsInfo first).doBit = (ednsInfo second).doBit ∧
      (ednsInfo first).cdBit = (ednsInfo second).cdBit

/-- Same type in class IN, same bits and payload class, and no EDNS options. -/
structure SameQuestion (first second : Bytes) : Prop where
  firstIn : getQclass first = some 1
  secondIn : getQclass second = some 1
  firstPlain : (ednsInfo first).hasOptions = false
  secondPlain : (ednsInfo second).hasOptions = false
  qtype : getQtype first = getQtype second
  doBit : (ednsInfo first).doBit = (ednsInfo second).doBit
  cdBit : (ednsInfo first).cdBit = (ednsInfo second).cdBit
  bucket : (ednsInfo first).bucket = (ednsInfo second).bucket

/-- The labels of a query as lower-case texts, if it has any and all are UTF-8. -/
def lowerLabels (query : Bytes) : Option (List String) :=
  match decodeLabels (questionName query).1 with
  | none | some [] => none
  | some texts => some (texts.map (toLowercase table))

def cuts (labels : List String) : List Nat :=
  labels.map fun label => (label.toList.splitOn '.').length

/-- The lower-case names fall into the same pieces at all dots, but the pieces
are not cut into labels alike, or the names do not stop alike, or two labels
are the same in lower case and not in ASCII lower case. -/
def Confusable (first second : Bytes) : Prop :=
  SameQuestion first second ∧
    ∃ labels others, lowerLabels table first = some labels ∧
      lowerLabels table second = some others ∧ pieces '.' labels = pieces '.' others ∧
      (cuts labels ≠ cuts others ∨ (questionName first).2 ≠ (questionName second).2 ∨
        ∃ texts more, decodeLabels (questionName first).1 = some texts ∧
          decodeLabels (questionName second).1 = some more ∧
          ∃ pair ∈ texts.zip more, toLowercase table pair.1 = toLowercase table pair.2 ∧
            pair.1.toList.map Char.toLower ≠ pair.2.toList.map Char.toLower)

end Specification

section Keys
variable {table : CaseTable} {first second : Bytes}

theorem lowerLabels_eq_some {query : Bytes} {labels : List String} :
    lowerLabels table query = some labels ↔
      ∃ texts, decodeLabels (questionName query).1 = some texts ∧ texts ≠ [] ∧
        labels = texts.map (toLowercase table) := by
  rw [lowerLabels]
  cases decodeLabels (questionName query).1 with
  | none => simp
  | some texts =>
      cases texts with
      | nil => simp
      | cons text rest => simp [eq_comm]

theorem dot_isLower : IsLower table '.' :=
  ⟨table.lower_ascii '.' (by decide), by decide⟩

theorem extractDomain_eq_some {query : Bytes} (long : 12 ≤ query.length) {domain : String} :
    extractDomain table query = some domain ↔
      ∃ labels, lowerLabels table query = some labels ∧ domain = join '.' labels := by
  rw [extractDomain, if_neg (Nat.not_lt.mpr long), extractLabels_eq, lowerLabels, questionName]
  cases decodeLabels (nameAt query 12).1 with
  | none => simp
  | some texts =>
      cases texts with
      | nil => simp
      | cons text rest => simp [eq_comm]

theorem long_of_in {query : Bytes} (inClass : getQclass query = some 1) : 14 ≤ query.length := by
  have inside := questionEnd_le query
  rw [getQclass] at inClass
  split at inClass
  · cases inClass
  · omega

theorem exists_qtype {query : Bytes} (inClass : getQclass query = some 1) :
    ∃ qtype, getQtype query = some qtype := by
  rw [getQclass] at inClass
  split at inClass
  · cases inClass
  · exact ⟨_, if_neg (by omega)⟩

theorem queryKey_eq_some {query : Bytes} {path : ResolvePath} {key : CacheKey} :
    queryKey table path query = some key ↔
      getQclass query = some 1 ∧ (ednsInfo query).hasOptions = false ∧
        ∃ labels, lowerLabels table query = some labels ∧
          key = ⟨path, join '.' labels, (getQtype query).getD 0, (ednsInfo query).doBit,
            (ednsInfo query).cdBit, (ednsInfo query).bucket⟩ := by
  have fixed : ∀ labels, lowerLabels table query = some labels →
      toLowercase table (join '.' labels) = join '.' labels := by
    intro labels read
    obtain ⟨texts, _, _, rfl⟩ := lowerLabels_eq_some.mp read
    exact toLowercase_join dot_isLower texts
  rw [queryKey, Option.bind_eq_some_iff]
  constructor
  · rintro ⟨domain, read, found⟩
    rw [cacheKey] at found
    split at found
    · cases found
    next served =>
      rw [not_or, not_not, Bool.not_eq_true] at served
      obtain ⟨labels, lower, rfl⟩ :=
        (extractDomain_eq_some (Nat.le_trans (by decide) (long_of_in served.1))).mp read
      rw [fixed labels lower] at found
      exact ⟨served.1, served.2, labels, lower, (Option.some.inj found).symm⟩
  · rintro ⟨inClass, plain, labels, lower, rfl⟩
    refine ⟨join '.' labels,
      (extractDomain_eq_some (Nat.le_trans (by decide) (long_of_in inClass))).mpr
        ⟨labels, lower, rfl⟩, ?_⟩
    rw [cacheKey, if_neg (by simp [inClass, plain]), fixed labels lower]

/-- Sharing a cache key is agreeing on the question and on the pieces of the name. -/
theorem share_queryKey_iff :
    (∃ path key, queryKey table path first = some key ∧ queryKey table path second = some key) ↔
      SameQuestion first second ∧
        ∃ labels others, lowerLabels table first = some labels ∧
          lowerLabels table second = some others ∧ pieces '.' labels = pieces '.' others := by
  have filled : ∀ {query : Bytes} {labels : List String},
      lowerLabels table query = some labels → labels ≠ [] := by
    intro query labels read
    obtain ⟨texts, _, some, rfl⟩ := lowerLabels_eq_some.mp read
    simpa using some
  constructor
  · rintro ⟨path, key, one, two⟩
    obtain ⟨firstIn, firstPlain, labels, lower, rfl⟩ := queryKey_eq_some.mp one
    obtain ⟨secondIn, secondPlain, others, lowerOthers, same⟩ := queryKey_eq_some.mp two
    obtain ⟨qtype, asked⟩ := exists_qtype firstIn
    obtain ⟨other, askedOther⟩ := exists_qtype secondIn
    rw [CacheKey.mk.injEq] at same
    obtain ⟨_, domain, types, doBit, cdBit, bucket⟩ := same
    rw [asked, askedOther] at types
    refine ⟨⟨firstIn, secondIn, firstPlain, secondPlain, ?_, doBit, cdBit, bucket⟩,
      labels, others, lower, lowerOthers, (join_eq_iff (filled lower) (filled lowerOthers)).mp domain⟩
    rw [asked, askedOther, show qtype = other from types]
  · rintro ⟨same, labels, others, lower, lowerOthers, split⟩
    have domain := (join_eq_iff (filled lower) (filled lowerOthers)).mpr split
    refine ⟨.cn, _, queryKey_eq_some.mpr ⟨same.firstIn, same.firstPlain, labels, lower, rfl⟩,
      queryKey_eq_some.mpr ⟨same.secondIn, same.secondPlain, others, lowerOthers, ?_⟩⟩
    rw [domain, same.qtype, same.doBit, same.cdBit, same.bucket]

theorem hasOpt_size (query : Bytes) :
    (ednsInfo query).hasOpt = true → 512 ≤ (ednsInfo query).maxUdp := by
  have found : ∀ count pos info, findOpt query count pos = some info → 512 ≤ info.maxUdp := by
    intro count
    induction count with
    | zero =>
        intro pos info read
        cases read
    | succ count ih =>
        intro pos info read
        simp only [findOpt, Option.bind_eq_bind, Option.bind_eq_some_iff] at read
        obtain ⟨rrtypeAt, _, rrtype, _, payload, _, ttl, _, rest⟩ := read
        split at rest
        · simp only [Option.bind_eq_some_iff] at rest
          obtain ⟨rdlen, _, same⟩ := rest
          cases same
          simp only [dnsUdpBuf]
          omega
        · simp only [Option.bind_eq_some_iff] at rest
          obtain ⟨next, _, later⟩ := rest
          exact ih next info later
  intro opt
  rw [ednsInfo] at opt ⊢
  cases parsed : parseOpt query with
  | none =>
      rw [parsed] at opt
      cases opt
  | some info =>
      rw [parseOpt] at parsed
      split at parsed
      · cases parsed
      · simp only [Option.bind_eq_bind, Option.bind_eq_some_iff] at parsed
        obtain ⟨_, _, pos, _, read⟩ := parsed
        exact found _ _ _ read

/-- The single-flight key is the finer one: an exact size decides the bucket. -/
theorem share_queryKey_of_flight {key : FlightKey} (one : singleflightKey table first = some key)
    (two : singleflightKey table second = some key) :
    ∃ path key, queryKey table path first = some key ∧ queryKey table path second = some key := by
  have unfold : ∀ {query : Bytes}, singleflightKey table query = some key →
      ∃ domain qtype, extractDomain table query = some domain ∧ getQtype query = some qtype ∧
        getQclass query = some 1 ∧ (ednsInfo query).hasOptions = false ∧
        key = ⟨toLowercase table domain, qtype, (ednsInfo query).doBit, (ednsInfo query).cdBit,
          if (ednsInfo query).hasOpt then (ednsInfo query).maxUdp else 0⟩ := by
    intro query read
    simp only [singleflightKey, Option.bind_eq_bind, Option.bind_eq_some_iff] at read
    obtain ⟨domain, named, read⟩ := read
    split at read
    · cases read
    · simp only [Option.bind_eq_some_iff] at read
      obtain ⟨qtype, asked, read⟩ := read
      split at read
      · cases read
      next served =>
        rw [not_or, not_not, Bool.not_eq_true] at served
        exact ⟨domain, qtype, named, asked, served.1, served.2, (Option.some.inj read).symm⟩
  obtain ⟨domain, qtype, named, asked, firstIn, firstPlain, rfl⟩ := unfold one
  obtain ⟨other, type, namedOther, askedOther, secondIn, secondPlain, same⟩ := unfold two
  rw [FlightKey.mk.injEq] at same
  obtain ⟨names, types, doBit, cdBit, sizes⟩ := same
  -- Without OPT the size is 0, which no OPT declares.
  have opt : (ednsInfo first).hasOpt = (ednsInfo second).hasOpt := by
    cases firstOpt : (ednsInfo first).hasOpt with
    | true =>
        have size := hasOpt_size first firstOpt
        rw [firstOpt, if_pos rfl] at sizes
        by_contra differ
        rw [if_neg (fun secondOpt => differ secondOpt.symm)] at sizes
        omega
    | false =>
        cases secondOpt : (ednsInfo second).hasOpt with
        | true =>
            have size := hasOpt_size second secondOpt
            rw [firstOpt, secondOpt, if_neg Bool.false_ne_true, if_pos rfl] at sizes
            omega
        | false => rfl
  have bucket : (ednsInfo first).bucket = (ednsInfo second).bucket := by
    rw [EdnsInfo.bucket, EdnsInfo.bucket, opt]
    split
    next declared =>
      rw [if_pos (opt.trans declared), if_pos declared] at sizes
      rw [sizes]
    · rfl
  refine ⟨.cn, ⟨.cn, toLowercase table domain, qtype, (ednsInfo first).doBit,
    (ednsInfo first).cdBit, (ednsInfo first).bucket⟩, ?_, ?_⟩
  · simp [queryKey, named, cacheKey, firstIn, firstPlain, asked]
  · simp [queryKey, namedOther, cacheKey, secondIn, secondPlain, askedOther, names, types, doBit,
      cdBit, bucket]

theorem shareKey_iff :
    ShareKey table first second ↔
      SameQuestion first second ∧
        ∃ labels others, lowerLabels table first = some labels ∧
          lowerLabels table second = some others ∧ pieces '.' labels = pieces '.' others := by
  rw [← share_queryKey_iff, ShareKey, or_iff_left_of_imp]
  rintro ⟨key, one, two⟩
  exact share_queryKey_of_flight one two

end Keys

section Sharing
variable {table : CaseTable} {first second : Bytes}

theorem sameName_iff {texts others : List String}
    (decoded : decodeLabels (questionName first).1 = some texts)
    (decodedOthers : decodeLabels (questionName second).1 = some others) :
    SameName first second ↔
      texts.map (fun text => text.toList.map Char.toLower) =
          others.map (fun text => text.toList.map Char.toLower) ∧
        (questionName first).2 = (questionName second).2 := by
  rw [SameName, ← decodeLabels_utf8 decoded, ← decodeLabels_utf8 decodedOthers, List.map_map,
    List.map_map]
  refine and_congr_left fun _ => ?_
  constructor
  · intro same
    by_contra differ
    obtain ⟨pair, _, bytes, chars⟩ := exists_mem_zip same differ
    exact chars ((utf8_map_lower_iff _ _).mp bytes)
  · intro same
    by_contra differ
    obtain ⟨pair, _, chars, bytes⟩ := exists_mem_zip same differ
    exact bytes ((utf8_map_lower_iff _ _).mpr chars)

/-- Names with the same pieces differ in one of three ways. -/
theorem not_sameName_iff {texts others : List String}
    (decoded : decodeLabels (questionName first).1 = some texts)
    (decodedOthers : decodeLabels (questionName second).1 = some others)
    (same : pieces '.' (texts.map (toLowercase table)) =
      pieces '.' (others.map (toLowercase table))) :
    ¬ SameName first second ↔
      cuts (texts.map (toLowercase table)) ≠ cuts (others.map (toLowercase table)) ∨
        (questionName first).2 ≠ (questionName second).2 ∨
        ∃ pair ∈ texts.zip others, toLowercase table pair.1 = toLowercase table pair.2 ∧
          pair.1.toList.map Char.toLower ≠ pair.2.toList.map Char.toLower := by
  rw [sameName_iff decoded decodedOthers]
  constructor
  · intro differ
    by_cases cut : cuts (texts.map (toLowercase table)) = cuts (others.map (toLowercase table))
    · by_cases stop : (questionName first).2 = (questionName second).2
      · have lower := pieces_inj same cut
        exact Or.inr (Or.inr (exists_mem_zip lower fun chars => differ ⟨chars, stop⟩))
      · exact Or.inr (Or.inl stop)
    · exact Or.inl cut
  · rintro (cut | stop | ⟨pair, member, _, chars⟩) ⟨names, stops⟩
    · -- ASCII case does not move the dots.
      have lower : texts.map (toLowercase table) = others.map (toLowercase table) := by
        by_contra differ
        obtain ⟨pair, _, chars, lower⟩ := exists_mem_zip names differ
        exact lower (toLowercase_congr chars)
      exact cut (by rw [lower])
    · exact stop stops
    · exact chars (eq_of_mem_zip names member)

theorem sameName_of_share (safe : ¬ Confusable table first second)
    (share : ShareKey table first second) : SameName first second := by
  obtain ⟨same, labels, others, lower, lowerOthers, split⟩ := shareKey_iff.mp share
  obtain ⟨texts, decoded, _, rfl⟩ := lowerLabels_eq_some.mp lower
  obtain ⟨more, decodedMore, _, rfl⟩ := lowerLabels_eq_some.mp lowerOthers
  by_contra differ
  refine safe ⟨same, _, _, lower, lowerOthers, split, ?_⟩
  refine ((not_sameName_iff decoded decodedMore split).mp differ).imp_right (Or.imp_right ?_)
  intro places
  exact ⟨texts, more, decoded, decodedMore, places⟩

/-- Whether or not they are well formed, two queries keep apart if and only if
they are not confusable. -/
theorem keepsApart_iff (table : CaseTable) (first second : Bytes) :
    KeepsApart table first second ↔ ¬ Confusable table first second := by
  constructor
  · rintro apart ⟨same, labels, others, lower, lowerOthers, split, differ⟩
    obtain ⟨names, _⟩ := apart (shareKey_iff.mpr ⟨same, labels, others, lower, lowerOthers, split⟩)
    obtain ⟨texts, decoded, _, rfl⟩ := lowerLabels_eq_some.mp lower
    obtain ⟨more, decodedMore, _, rfl⟩ := lowerLabels_eq_some.mp lowerOthers
    refine (not_sameName_iff decoded decodedMore split).mpr ?_ names
    refine differ.imp_right (Or.imp_right ?_)
    rintro ⟨_, _, found, foundMore, places⟩
    rw [decoded] at found
    rw [decodedMore] at foundMore
    cases found
    cases foundMore
    exact places
  · intro safe share
    obtain ⟨same, _⟩ := shareKey_iff.mp share
    exact ⟨sameName_of_share safe share, same.qtype, same.doBit, same.cdBit⟩

/-- An ASCII name without a dot inside a label, ended by the root. -/
structure PlainName (query : Bytes) : Prop where
  ascii : ∃ texts, decodeLabels (questionName query).1 = some texts ∧
    ∀ text ∈ texts, ∀ c ∈ text.toList, c.toNat < 128 ∧ c ≠ '.'
  root : (questionName query).2 = .root

theorem not_confusable_of_plain (plain : PlainName first) (plainOther : PlainName second) :
    ¬ Confusable table first second := by
  have lower : ∀ text : String, (∀ c ∈ text.toList, c.toNat < 128 ∧ c ≠ '.') →
      (toLowercase table text).toList = text.toList.map Char.toLower := by
    intro text ascii
    rw [toLowercase, String.toList_ofList, lowerFrom_ascii fun c member => (ascii c member).1]
  have undotted : ∀ text : String, (∀ c ∈ text.toList, c.toNat < 128 ∧ c ≠ '.') →
      (toLowercase table text).toList.splitOn '.' = [(toLowercase table text).toList] := by
    intro text ascii
    apply List.splitOn_eq_singleton
    rw [lower text ascii, List.mem_map]
    rintro ⟨c, member, dot⟩
    obtain ⟨small, other⟩ := ascii c member
    exact other (ascii_cases (P := fun c => c.toLower = '.' → c = '.') (by decide) small dot)
  have whole : ∀ texts : List String,
      (∀ text ∈ texts, ∀ c ∈ text.toList, c.toNat < 128 ∧ c ≠ '.') →
      pieces '.' (texts.map (toLowercase table)) =
        (texts.map (toLowercase table)).map String.toList := by
    intro texts ascii
    induction texts with
    | nil => rfl
    | cons text rest ih =>
        have tail := ih fun other member => ascii other (List.mem_cons_of_mem _ member)
        rw [pieces] at tail ⊢
        rw [List.map_cons, List.flatMap_cons, tail, undotted text (ascii text List.mem_cons_self)]
        rfl
  rintro ⟨_, labels, others, read, readOthers, same, differ⟩
  obtain ⟨texts, decoded, ascii⟩ := plain.ascii
  obtain ⟨more, decodedMore, asciiMore⟩ := plainOther.ascii
  obtain ⟨_, found, _, rfl⟩ := lowerLabels_eq_some.mp read
  obtain ⟨_, foundMore, _, rfl⟩ := lowerLabels_eq_some.mp readOthers
  rw [decoded] at found
  rw [decodedMore] at foundMore
  cases found
  cases foundMore
  rcases differ with cut | stop | ⟨_, _, found, foundMore, pair, member, lowered, chars⟩
  · rw [whole texts ascii, whole more asciiMore] at same
    have names := List.map_inj_right (fun _ _ => String.toList_inj.mp) |>.mp same
    exact cut (by rw [names])
  · exact stop (plain.root.trans plainOther.root.symm)
  · rw [decoded] at found
    rw [decodedMore] at foundMore
    cases found
    cases foundMore
    have inTexts := ascii _ (List.of_mem_zip member).1
    have inMore := asciiMore _ (List.of_mem_zip member).2
    have texts := congrArg String.toList lowered
    rw [lower _ inTexts, lower _ inMore] at texts
    exact chars texts

/-- The part of the Unicode table that the examples use: ASCII, the sigmas and
the Kelvin sign. -/
def sampleCase : CaseTable where
  lower c := if c = 'Σ' then ['σ'] else if c = 'K' then ['k'] else [c.toLower]
  cased c := c.isAlpha || c = 'Σ' || c = 'σ' || c = 'ς' || c = 'K'
  caseIgnorable c := c = '.' || c = ':'
  lower_ascii c ascii := ascii_cases
    (P := fun c => (if c = 'Σ' then ['σ'] else if c = 'K' then ['k'] else [c.toLower]) =
      [c.toLower]) (by decide) ascii
  lower_lower c d member := by
    split at member
    · rw [List.mem_singleton.mp member]
      decide
    · split at member
      · rw [List.mem_singleton.mp member]
        decide
      next notSigma notKelvin =>
        by_cases ascii : c.toNat < 128
        · rw [List.mem_singleton.mp member]
          exact ascii_cases (P := fun c => (if c.toLower = 'Σ' then ['σ'] else
            if c.toLower = 'K' then ['k'] else [c.toLower.toLower]) = [c.toLower]) (by decide) ascii
        · rw [toLower_of_not_ascii (Nat.not_lt.mp ascii)] at member
          rw [List.mem_singleton.mp member, if_neg notSigma, if_neg notKelvin,
            toLower_of_not_ascii (Nat.not_lt.mp ascii)]
  lower_sigma := by decide
  lower_final := by decide
  cased_toLower c := by
    by_cases ascii : c.toNat < 128
    · exact ascii_cases (P := fun c => (c.toLower.isAlpha || c.toLower = 'Σ' || c.toLower = 'σ' ||
        c.toLower = 'ς' || c.toLower = 'K') =
        (c.isAlpha || c = 'Σ' || c = 'σ' || c = 'ς' || c = 'K')) (by decide) ascii
    · rw [toLower_of_not_ascii (Nat.not_lt.mp ascii)]
  caseIgnorable_toLower c := by
    by_cases ascii : c.toNat < 128
    · exact ascii_cases (P := fun c => (decide (c.toLower = '.') || decide (c.toLower = ':')) =
        (decide (c = '.') || decide (c = ':'))) (by decide) ascii
    · rw [toLower_of_not_ascii (Nat.not_lt.mp ascii)]

def queryHeader : Bytes := [0x12, 0x34, 0x01, 0x00, 0, 1, 0, 0, 0, 0, 0, 0]

def dottedQuery : Bytes := queryHeader ++ 8 :: utf8 "bank.com" ++ [0, 0, 1, 0, 1]

def bankQuery : Bytes := queryHeader ++ 4 :: utf8 "bank" ++ 3 :: utf8 "com" ++ [0, 0, 1, 0, 1]

theorem dotted_label_shares :
    isWellformedQuery dottedQuery = true ∧ isWellformedQuery bankQuery = true ∧
      ¬ KeepsApart sampleCase dottedQuery bankQuery := by
  refine ⟨by decide +kernel, by decide +kernel, fun apart => ?_⟩
  have first : queryKey sampleCase .cn dottedQuery =
      some ⟨.cn, "bank.com", 1, false, false, 3⟩ := by decide +kernel
  have second : queryKey sampleCase .cn bankQuery =
      some ⟨.cn, "bank.com", 1, false, false, 3⟩ := by decide +kernel
  obtain ⟨⟨labels, _⟩, _⟩ := apart (Or.inl ⟨.cn, _, first, second⟩)
  exact absurd labels (by decide +kernel)

end Sharing

end Mirage.Dns
