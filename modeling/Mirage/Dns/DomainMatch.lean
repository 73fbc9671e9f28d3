import Mathlib.Data.List.Infix
import Mirage.Lib.Text
import Mirage.Tunnel.Cipher

/-!
`DomainMatcher` of dns/domain_match.rs and its naive reading. The regular
expressions and the Unicode data are parameters: which patterns are valid, which
sets of them compile together, and what a pattern matches.
-/

namespace Mirage.Dns
open Text
open Tunnel (isWhitespace trim)

/-- Unicode data in which no character is lowercased to nothing, and no other one to
a dot. -/
structure DomainTable extends CaseTable where
  lower_ne_nil : ∀ c, lower c ≠ []
  lower_dot : ∀ c, '.' ∈ lower c → c = '.'

structure RegexCrate where
  valid : String → Bool
  compiles : List String → Bool
  isMatch : String → String → Bool

structure DomainRuleSet where
  domain : List String
  domainSuffix : List String
  domainKeyword : List String
  domainRegex : List String

structure DomainMatcher where
  full : List (List Char)
  suffix : List (List Char)
  keyword : List (List Char)
  regex : Option (List String)

variable (table : DomainTable) (crate : RegexCrate)

/-- `trim_end_matches('.')` -/
def trimEndDots (text : List Char) : List Char := (text.reverse.dropWhile (· = '.')).reverse

/-- `trim_start_matches("*.")` -/
def trimStartStarDot : List Char → List Char
  | '*' :: '.' :: rest => trimStartStarDot rest
  | other => other

def lowercase (text : List Char) : List Char := lowerFrom table.toCaseTable [] text

def exactName (rule : String) : List Char :=
  lowercase table (trimEndDots (trim rule.toList))

/-- A suffix without `*.` and `.` in front. -/
def bare (text : List Char) : List Char := (trimStartStarDot text).dropWhile (· = '.')

def keywordText (rule : String) : List Char := lowercase table (trim rule.toList)

def validRegexes (regex : List String) : List String :=
  ((regex.map fun s => String.ofList (trim s.toList)).filter fun r =>
    !r.toList.isEmpty && crate.valid r).map ("(?i)" ++ ·)

def normalDomain (domain : String) : List Char := lowercase table (trimEndDots domain.toList)

namespace DomainMatcher

def fromParts (exact suffix keyword regex : List String) : DomainMatcher where
  full := (exact.map (exactName table)).filter (!·.isEmpty)
  suffix := (suffix.map fun s => bare (lowercase table (trim s.toList))).filter (!·.isEmpty)
  keyword := (keyword.map (keywordText table)).filter (!·.isEmpty)
  regex :=
    let patterns := validRegexes crate regex
    if patterns.isEmpty then none else if crate.compiles patterns then some patterns else none

def fromRuleset (rs : DomainRuleSet) : DomainMatcher :=
  fromParts table crate rs.domain rs.domainSuffix rs.domainKeyword rs.domainRegex

def isEmpty (self : DomainMatcher) : Bool :=
  self.full.isEmpty && self.suffix.isEmpty && self.keyword.isEmpty && self.regex.isNone

def «matches» (self : DomainMatcher) (domain : String) : Bool :=
  if self.isEmpty then false
  else
    let d := normalDomain table domain
    if d ∈ self.full then true
    else if self.suffix.any fun s => d == s || ('.' :: s).isSuffixOf d then true
    else if self.keyword.any fun k => decide (k <:+: d) then true
    else
      match self.regex with
      | some patterns => patterns.any fun p => crate.isMatch p (String.ofList d)
      | none => false

end DomainMatcher

def suffixName (rule : String) : List Char :=
  bare (lowercase table (trimEndDots (trim rule.toList)))

def Under (d suffix : List Char) : Prop := suffix ≠ [] ∧ (d = suffix ∨ ('.' :: suffix) <:+ d)

/-- Some valid pattern matches, whatever the case of the letters. -/
def RegexMatch (rs : DomainRuleSet) (d : List Char) : Prop :=
  ∃ p ∈ validRegexes crate rs.domainRegex, crate.isMatch p (String.ofList d) = true

def Naive (rs : DomainRuleSet) (domain : String) : Prop :=
  let d := normalDomain table domain
  (∃ rule ∈ rs.domain, exactName table rule ≠ [] ∧ d = exactName table rule) ∨
  (∃ rule ∈ rs.domainSuffix, Under d (suffixName table rule)) ∨
  (∃ rule ∈ rs.domainKeyword, keywordText table rule ≠ [] ∧ keywordText table rule <:+: d) ∨
  RegexMatch crate rs d

/-- What the matcher does not see: a suffix that ends in a dot, and patterns that do
not compile together. -/
def Unseen (rs : DomainRuleSet) (domain : String) : Prop :=
  let d := normalDomain table domain
  (∃ rule ∈ rs.domainSuffix, (trim rule.toList).getLast? = some '.' ∧
    Under d (suffixName table rule)) ∨
  crate.compiles (validRegexes crate rs.domainRegex) = false ∧ RegexMatch crate rs d

def DomainRuleSet.kept (rs : DomainRuleSet) : DomainRuleSet :=
  { rs with
    domainSuffix := rs.domainSuffix.filter fun rule => (trim rule.toList).getLast? ≠ some '.'
    domainRegex := if crate.compiles (validRegexes crate rs.domainRegex) then rs.domainRegex
      else [] }

section Reading

variable {table crate} {rs : DomainRuleSet} {domain : String}

theorem trimEndDots_of_last {text : List Char} (last : text.getLast? ≠ some '.') :
    trimEndDots text = text := by
  rw [← List.head?_reverse] at last
  rw [trimEndDots]
  cases reversed : text.reverse with
  | nil =>
      rw [List.reverse_eq_nil_iff.mp reversed]
      rfl
  | cons c rest =>
      have other : c ≠ '.' := by
        rintro rfl
        rw [reversed] at last
        exact last rfl
      rw [List.dropWhile_cons_of_neg (by simpa using other), ← reversed, List.reverse_reverse]

theorem getLast?_trimEndDots (text : List Char) : (trimEndDots text).getLast? ≠ some '.' := by
  rw [trimEndDots, List.getLast?_reverse]
  intro first
  have kept := List.head?_dropWhile_not (fun c => decide (c = '.')) text.reverse
  rw [first] at kept
  simp at kept

/-- The last character is lowercased on its own, but for what a sigma sees. -/
theorem lowerFrom_concat (before front : List Char) (c : Char) :
    ∃ start last, lowerFrom table.toCaseTable before (front ++ [c]) = start ++ last ∧
      (last = table.lower c ∨ last = ['ς'] ∨ last = ['σ']) ∧ (c ≠ 'Σ' → last = table.lower c) := by
  induction front generalizing before with
  | nil =>
      refine ⟨[], lowerFrom table.toCaseTable before [c], rfl, ?_⟩
      rw [lowerFrom, lowerFrom, List.append_nil]
      by_cases sigma : c = 'Σ'
      · rw [if_pos sigma]
        refine ⟨?_, fun other => absurd sigma other⟩
        split
        · exact Or.inr (Or.inl rfl)
        · exact Or.inr (Or.inr rfl)
      · rw [if_neg sigma]
        exact ⟨Or.inl rfl, fun _ => rfl⟩
  | cons d rest ih =>
      obtain ⟨start, last, whole, kinds⟩ := ih (d :: before)
      rw [List.cons_append, lowerFrom, whole, ← List.append_assoc]
      exact ⟨_, last, rfl, kinds⟩

/-- A dot at the end stays there, and none comes there. -/
theorem getLast?_lowercase_iff (text : List Char) :
    (lowercase table text).getLast? = some '.' ↔ text.getLast? = some '.' := by
  obtain rfl | ⟨front, c, rfl⟩ := List.eq_nil_or_concat text
  · rfl
  · obtain ⟨start, last, whole, kinds, plain⟩ := @lowerFrom_concat table [] front c
    rw [List.concat_eq_append] at *
    rw [lowercase, whole, List.getLast?_concat]
    have some : last ≠ [] := by
      obtain rfl | rfl | rfl := kinds
      · exact table.lower_ne_nil c
      · exact List.cons_ne_nil _ _
      · exact List.cons_ne_nil _ _
    rw [List.getLast?_append_of_ne_nil _ some]
    constructor
    · intro dotted
      have member := List.mem_of_getLast? dotted
      obtain rfl | rfl | rfl := kinds
      · rw [table.lower_dot c member]
      · exact absurd member (by decide)
      · exact absurd member (by decide)
    · intro same
      cases same
      rw [plain (by decide), table.lower_ascii '.' (by decide)]
      rfl

theorem bare_suffix (text : List Char) : bare text <:+ text := by
  have star : trimStartStarDot text <:+ text := by
    induction text using trimStartStarDot.induct with
    | case1 rest ih =>
        rw [trimStartStarDot]
        exact ih.trans ((List.suffix_cons '.' rest).trans (List.suffix_cons '*' _))
    | case2 other shape =>
        unfold trimStartStarDot
        split
        · exact absurd rfl (shape _)
        · exact List.suffix_rfl
  exact (List.dropWhile_suffix _).trans star

/-- The last character of a suffix is that of the text, if there is one left. -/
theorem getLast?_of_suffix {text tail : List Char} (suffix : tail <:+ text) (some : tail ≠ []) :
    tail.getLast? = text.getLast? := by
  obtain ⟨front, rfl⟩ := suffix
  rw [List.getLast?_append_of_ne_nil _ some]

theorem getLast?_normalDomain (domain : String) :
    (normalDomain table domain).getLast? ≠ some '.' := by
  rw [normalDomain, Ne, getLast?_lowercase_iff]
  exact getLast?_trimEndDots _

/-- Nothing is under a suffix that ends in a dot. -/
theorem not_under_of_dotted {suffix : List Char} (dotted : suffix.getLast? = some '.') :
    ¬ Under (normalDomain table domain) suffix := by
  rintro ⟨some, same | below⟩
  · exact getLast?_normalDomain domain (same ▸ dotted)
  · have last := getLast?_of_suffix below (List.cons_ne_nil _ _)
    rw [List.getLast?_cons_of_ne_nil some, dotted] at last
    exact getLast?_normalDomain domain last.symm

theorem DomainMatcher.matches_eq_true (self : DomainMatcher) :
    self.matches table crate domain = true ↔
      normalDomain table domain ∈ self.full ∨
      (self.suffix.any fun s => normalDomain table domain == s ||
        ('.' :: s).isSuffixOf (normalDomain table domain)) = true ∨
      (self.keyword.any fun k => decide (k <:+: normalDomain table domain)) = true ∨
      (match self.regex with
        | some patterns => patterns.any fun p =>
            crate.isMatch p (String.ofList (normalDomain table domain))
        | none => false) = true := by
  obtain ⟨full, suffix, keyword, regex⟩ := self
  rw [DomainMatcher.matches]
  by_cases empty : (⟨full, suffix, keyword, regex⟩ : DomainMatcher).isEmpty = true
  · rw [if_pos empty]
    simp only [DomainMatcher.isEmpty, Bool.and_eq_true, List.isEmpty_iff,
      Option.isNone_iff_eq_none] at empty
    obtain ⟨⟨⟨rfl, rfl⟩, rfl⟩, rfl⟩ := empty
    simp
  · rw [if_neg empty]
    dsimp only
    by_cases named : normalDomain table domain ∈ full
    · simp only [named, if_true, true_or]
    rw [if_neg named, or_iff_right named]
    by_cases below : (suffix.any fun s => normalDomain table domain == s ||
        ('.' :: s).isSuffixOf (normalDomain table domain)) = true
    · rw [if_pos below]
      exact iff_of_true rfl (Or.inl below)
    rw [if_neg below, or_iff_right below]
    by_cases inside : (keyword.any fun k => decide (k <:+: normalDomain table domain)) = true
    · rw [if_pos inside]
      exact iff_of_true rfl (Or.inl inside)
    rw [if_neg inside, or_iff_right inside]

theorem matches_iff :
    ((DomainMatcher.fromRuleset table crate rs).matches table crate domain = true ↔
      (∃ rule ∈ rs.domain, exactName table rule ≠ [] ∧
        normalDomain table domain = exactName table rule) ∨
      (∃ rule ∈ rs.domainSuffix,
        Under (normalDomain table domain) (bare (lowercase table (trim rule.toList)))) ∨
      (∃ rule ∈ rs.domainKeyword, keywordText table rule ≠ [] ∧
        keywordText table rule <:+: normalDomain table domain) ∨
      crate.compiles (validRegexes crate rs.domainRegex) = true ∧
        RegexMatch crate rs (normalDomain table domain)) := by
  have exact_ : normalDomain table domain ∈
      (DomainMatcher.fromRuleset table crate rs).full ↔
        ∃ rule ∈ rs.domain, exactName table rule ≠ [] ∧
          normalDomain table domain = exactName table rule := by
    simp only [DomainMatcher.fromRuleset, DomainMatcher.fromParts, List.mem_filter, List.mem_map,
      Bool.not_eq_true', List.isEmpty_eq_false_iff]
    constructor
    · rintro ⟨⟨rule, member, same⟩, some⟩
      exact ⟨rule, member, same ▸ some, same.symm⟩
    · rintro ⟨rule, member, some, same⟩
      exact ⟨⟨rule, member, same.symm⟩, same ▸ some⟩
  have suffix : ((DomainMatcher.fromRuleset table crate rs).suffix.any fun s =>
      normalDomain table domain == s || ('.' :: s).isSuffixOf (normalDomain table domain)) = true ↔
        ∃ rule ∈ rs.domainSuffix,
          Under (normalDomain table domain) (bare (lowercase table (trim rule.toList))) := by
    simp only [DomainMatcher.fromRuleset, DomainMatcher.fromParts, List.any_filter, List.any_map,
      List.any_eq_true, Function.comp_apply, Bool.and_eq_true, Bool.not_eq_true',
      List.isEmpty_eq_false_iff, Bool.or_eq_true, beq_iff_eq, List.isSuffixOf_iff_suffix, Under]
  have keyword : ((DomainMatcher.fromRuleset table crate rs).keyword.any fun k =>
      decide (k <:+: normalDomain table domain)) = true ↔
        ∃ rule ∈ rs.domainKeyword, keywordText table rule ≠ [] ∧
          keywordText table rule <:+: normalDomain table domain := by
    simp only [DomainMatcher.fromRuleset, DomainMatcher.fromParts, List.any_filter, List.any_map,
      List.any_eq_true, Function.comp_apply, Bool.and_eq_true, Bool.not_eq_true',
      List.isEmpty_eq_false_iff, decide_eq_true_eq]
  have regex : (match (DomainMatcher.fromRuleset table crate rs).regex with
      | some patterns => patterns.any fun p =>
          crate.isMatch p (String.ofList (normalDomain table domain))
      | none => false) = true ↔
        crate.compiles (validRegexes crate rs.domainRegex) = true ∧
          RegexMatch crate rs (normalDomain table domain) := by
    simp only [DomainMatcher.fromRuleset, DomainMatcher.fromParts, RegexMatch]
    by_cases nothing : validRegexes crate rs.domainRegex = []
    · simp [nothing]
    · rw [if_neg (by simpa using nothing)]
      by_cases compiled : crate.compiles (validRegexes crate rs.domainRegex) = true
      · rw [if_pos compiled]
        simp only [List.any_eq_true, compiled, true_and]
      · simp [compiled]
  rw [DomainMatcher.matches_eq_true, exact_, suffix, keyword, regex]

/-- A suffix that does not end in a dot is used as it is read. -/
theorem under_iff_of_not_dotted {rule : String} (plain : (trim rule.toList).getLast? ≠ some '.')
    {d : List Char} :
    Under d (bare (lowercase table (trim rule.toList))) ↔ Under d (suffixName table rule) := by
  rw [suffixName, trimEndDots_of_last plain]

theorem not_under_of_dotted_rule {rule : String}
    (dotted : (trim rule.toList).getLast? = some '.') :
    ¬ Under (normalDomain table domain) (bare (lowercase table (trim rule.toList))) := by
  intro under
  refine not_under_of_dotted ?_ under
  rw [getLast?_of_suffix (bare_suffix _) under.1, getLast?_lowercase_iff]
  exact dotted

/-- The matcher reads the rules that it sees naively. -/
theorem matches_iff_kept :
    (DomainMatcher.fromRuleset table crate rs).matches table crate domain = true ↔
      Naive table crate (rs.kept crate) domain := by
  have suffix : (∃ rule ∈ rs.domainSuffix,
      Under (normalDomain table domain) (bare (lowercase table (trim rule.toList)))) ↔
        ∃ rule ∈ (rs.kept crate).domainSuffix,
          Under (normalDomain table domain) (suffixName table rule) := by
    simp only [DomainRuleSet.kept, List.mem_filter, decide_eq_true_eq]
    constructor
    · rintro ⟨rule, member, under⟩
      have plain : (trim rule.toList).getLast? ≠ some '.' :=
        fun dotted => not_under_of_dotted_rule dotted under
      exact ⟨rule, ⟨member, plain⟩, (under_iff_of_not_dotted plain).mp under⟩
    · rintro ⟨rule, ⟨member, plain⟩, under⟩
      exact ⟨rule, member, (under_iff_of_not_dotted plain).mpr under⟩
  have regex : crate.compiles (validRegexes crate rs.domainRegex) = true ∧
      RegexMatch crate rs (normalDomain table domain) ↔
        RegexMatch crate (rs.kept crate) (normalDomain table domain) := by
    simp only [RegexMatch, DomainRuleSet.kept]
    by_cases compiled : crate.compiles (validRegexes crate rs.domainRegex) = true
    · simp only [compiled, true_and, if_true]
    · have none : validRegexes crate [] = [] := rfl
      simp only [compiled, Bool.false_eq_true, if_false, none, false_and, List.not_mem_nil,
        exists_false]
  rw [matches_iff, suffix, regex]
  rfl

theorem naive_of_kept (kept : Naive table crate (rs.kept crate) domain) :
    Naive table crate rs domain := by
  obtain named | ⟨rule, member, under⟩ | inside | expression := kept
  · exact Or.inl named
  · exact Or.inr (Or.inl ⟨rule, List.mem_of_mem_filter member, under⟩)
  · exact Or.inr (Or.inr (Or.inl inside))
  · refine Or.inr (Or.inr (Or.inr ?_))
    obtain ⟨p, member, found⟩ := expression
    rw [DomainRuleSet.kept] at member
    dsimp only at member
    split at member
    · exact ⟨p, member, found⟩
    · exact absurd member List.not_mem_nil

theorem naive_of_unseen (unseen : Unseen table crate rs domain) :
    Naive table crate rs domain := by
  obtain ⟨rule, member, -, under⟩ | ⟨-, expression⟩ := unseen
  · exact Or.inr (Or.inl ⟨rule, member, under⟩)
  · exact Or.inr (Or.inr (Or.inr expression))

theorem unseen_or_kept (naive : Naive table crate rs domain) :
    Unseen table crate rs domain ∨ Naive table crate (rs.kept crate) domain := by
  obtain named | ⟨rule, member, under⟩ | inside | expression := naive
  · exact Or.inr (Or.inl named)
  · by_cases dotted : (trim rule.toList).getLast? = some '.'
    · exact Or.inl (Or.inl ⟨rule, member, dotted, under⟩)
    · have kept : rule ∈ (rs.kept crate).domainSuffix :=
        List.mem_filter.mpr ⟨member, by simpa using dotted⟩
      exact Or.inr (Or.inr (Or.inl ⟨rule, kept, under⟩))
  · exact Or.inr (Or.inr (Or.inr (Or.inl inside)))
  · by_cases compiled : crate.compiles (validRegexes crate rs.domainRegex) = true
    · refine Or.inr (Or.inr (Or.inr (Or.inr ?_)))
      simpa only [RegexMatch, DomainRuleSet.kept, compiled, if_true] using expression
    · exact Or.inl (Or.inr ⟨by simpa using compiled, expression⟩)

end Reading

section Variants

variable {table : DomainTable} {crate : RegexCrate}

def SameLetters (text other : List Char) : Prop := text.map Char.toLower = other.map Char.toLower

def SameDomain (domain other : String) : Prop :=
  SameLetters (trimEndDots domain.toList) (trimEndDots other.toList)

/-- The same name or suffix in other letters, between other spaces, with or without
dots at the end. -/
def SameRule (rule other : String) : Prop :=
  SameLetters (trimEndDots (trim rule.toList)) (trimEndDots (trim other.toList))

theorem lowercase_congr {text other : List Char} (same : SameLetters text other) :
    lowercase table text = lowercase table other := by
  have folded := congrArg (lowerFrom table.toCaseTable []) same
  have empty : ([] : List Char).map Char.toLower = [] := rfl
  rw [← empty, lowerFrom_toLower, lowerFrom_toLower] at folded
  exact folded

theorem normalDomain_congr {domain other : String} (same : SameDomain domain other) :
    normalDomain table domain = normalDomain table other :=
  lowercase_congr same

theorem naive_congr {rs rs' : DomainRuleSet} {domain other : String}
    (names : List.Forall₂ SameRule rs.domain rs'.domain)
    (suffixes : List.Forall₂ SameRule rs.domainSuffix rs'.domainSuffix)
    (keywords : rs.domainKeyword = rs'.domainKeyword) (regexes : rs.domainRegex = rs'.domainRegex)
    (same : SameDomain domain other) :
    Naive table crate rs domain ↔ Naive table crate rs' other := by
  have each : ∀ {rules others : List String}, List.Forall₂ SameRule rules others →
      ∀ read : List Char → Prop, ∀ form : String → List Char,
        (∀ rule other, SameRule rule other → form rule = form other) →
        ((∃ rule ∈ rules, read (form rule)) ↔ ∃ rule ∈ others, read (form rule)) := by
    intro rules others pairs read form keeps
    induction pairs with
    | nil => rfl
    | cons here _ ih =>
        simp only [List.mem_cons, exists_eq_or_imp, keeps _ _ here, ih]
  have name : ∀ rule other, SameRule rule other → exactName table rule = exactName table other :=
    fun rule other alike => lowercase_congr alike
  have suffix : ∀ rule other, SameRule rule other →
      suffixName table rule = suffixName table other :=
    fun rule other alike => congrArg bare (lowercase_congr alike)
  unfold Naive RegexMatch
  dsimp only
  rw [normalDomain_congr same, keywords, regexes,
    each names (fun form => form ≠ [] ∧ normalDomain table other = form) (exactName table) name,
    each suffixes (Under (normalDomain table other)) (suffixName table) suffix]

end Variants

theorem ignorable_toLower (c : Char) :
    (decide (c.toLower = '.') || decide (c.toLower = ':')) =
      (decide (c = '.') || decide (c = ':')) := by
  by_cases ascii : c.toNat < 128
  · exact ascii_cases (P := fun c => (decide (c.toLower = '.') || decide (c.toLower = ':')) =
      (decide (c = '.') || decide (c = ':'))) (by decide) ascii
  · rw [toLower_of_not_ascii (Nat.not_lt.mp ascii)]

def sampleDomainTable : DomainTable where
  lower c := if c = 'Σ' then ['σ'] else [c.toLower]
  cased c := c.isAlpha || c = 'Σ' || c = 'σ' || c = 'ς'
  caseIgnorable c := c = '.' || c = ':'
  lower_ascii c ascii := ascii_cases
    (P := fun c => (if c = 'Σ' then ['σ'] else [c.toLower]) = [c.toLower]) (by decide) ascii
  lower_lower c d member := by
    split at member
    · rw [List.mem_singleton.mp member]
      decide
    next notSigma =>
      by_cases ascii : c.toNat < 128
      · rw [List.mem_singleton.mp member]
        exact ascii_cases (P := fun c => (if c.toLower = 'Σ' then ['σ'] else
          [c.toLower.toLower]) = [c.toLower]) (by decide) ascii
      · rw [toLower_of_not_ascii (Nat.not_lt.mp ascii)] at member
        rw [List.mem_singleton.mp member, if_neg notSigma,
          toLower_of_not_ascii (Nat.not_lt.mp ascii)]
  lower_sigma := by decide
  lower_final := by decide
  cased_toLower c := by
    by_cases ascii : c.toNat < 128
    · exact ascii_cases (P := fun c => (c.toLower.isAlpha || c.toLower = 'Σ' || c.toLower = 'σ' ||
        c.toLower = 'ς') = (c.isAlpha || c = 'Σ' || c = 'σ' || c = 'ς')) (by decide) ascii
    · rw [toLower_of_not_ascii (Nat.not_lt.mp ascii)]
  caseIgnorable_toLower := ignorable_toLower
  lower_ne_nil c := by
    split
    · exact List.cons_ne_nil _ _
    · exact List.cons_ne_nil _ _
  lower_dot c member := by
    split at member
    · exact absurd member (by decide)
    · by_cases ascii : c.toNat < 128
      · exact ascii_cases (P := fun c => decide ('.' ∈ [c.toLower] → c = '.') = true)
          (by decide) ascii |> of_decide_eq_true <| member
      · rw [toLower_of_not_ascii (Nat.not_lt.mp ascii)] at member
        exact (List.mem_singleton.mp member).symm

/-- A suffix written with its trailing dot matches nothing. -/
theorem dotted_suffix_unmatched :
    ∃ (table : DomainTable) (crate : RegexCrate) (rs : DomainRuleSet) (domain : String),
      (DomainMatcher.fromRuleset table crate rs).matches table crate domain = false ∧
      Naive table crate rs domain := by
  refine ⟨sampleDomainTable, ⟨fun _ => true, fun _ => true, fun _ _ => false⟩,
    ⟨[], ["apple.com."], [], []⟩, "www.apple.com", by decide +kernel, Or.inr (Or.inl ?_)⟩
  exact ⟨"apple.com.", List.mem_singleton_self _, by decide +kernel, Or.inr (by decide +kernel)⟩

/-- The matcher follows the naive reading exactly where what it does not see is also
covered by a rule that it keeps. The reading does not change with case, spaces and dots at the
end, and neither does the matcher with those of the domain. -/
theorem domain_matcher_naive_iff (table : DomainTable) (crate : RegexCrate) :
    (∀ (rs : DomainRuleSet) (domain : String),
      ((DomainMatcher.fromRuleset table crate rs).matches table crate domain = true ↔
        Naive table crate rs domain) ↔
      (Unseen table crate rs domain → Naive table crate (rs.kept crate) domain)) ∧
    (∀ (rs rs' : DomainRuleSet) (domain other : String),
      List.Forall₂ SameRule rs.domain rs'.domain →
      List.Forall₂ SameRule rs.domainSuffix rs'.domainSuffix →
      rs.domainKeyword = rs'.domainKeyword → rs.domainRegex = rs'.domainRegex →
      SameDomain domain other →
        (Naive table crate rs domain ↔ Naive table crate rs' other)) ∧
    (∀ (rs : DomainRuleSet) (domain other : String), SameDomain domain other →
      (DomainMatcher.fromRuleset table crate rs).matches table crate domain =
        (DomainMatcher.fromRuleset table crate rs).matches table crate other) := by
  refine ⟨?_, ?_, ?_⟩
  · intro rs domain
    constructor
    · intro follows unseen
      exact matches_iff_kept.mp (follows.mpr (naive_of_unseen unseen))
    · intro covered
      rw [matches_iff_kept]
      exact ⟨naive_of_kept, fun naive => (unseen_or_kept naive).elim covered id⟩
  · intro rs rs' domain other names suffixes keywords regexes same
    exact naive_congr names suffixes keywords regexes same
  · intro rs domain other same
    simp only [DomainMatcher.matches, normalDomain_congr same]

end Mirage.Dns
