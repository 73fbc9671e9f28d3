import Mirage.Router.Engine

/-!
What the shared tables hold after `new`. `filed` lists every entry with the
rule it was filed for; the tries, the exact map and the parallel pattern lists
are projections of that list, so no hit can leak from one rule to another.
-/

namespace Mirage.Router
open AddressPrefix PrefixTrie KeywordScan

def filed (geo : GeoData) (rules : List Rule) : List (RuleId × Entry) :=
  rules.flatMap fun rule => (ruleEntries geo rule).map fun entry => (rule.id, entry)

section Projections

def suffixOf : RuleId × Entry → Option (List (List Char) × RuleId)
  | (id, .suffix domain) => some (reversedLabels domain, id)
  | _ => none

def fullOf (domain : String) : RuleId × Entry → Option RuleId
  | (id, .full other) => if domain = other then some id else none
  | _ => none

def keywordOf : RuleId × Entry → Option (List Char × RuleId)
  | (id, .keyword text) => some (text.toList, id)
  | _ => none

def regexOf : RuleId × Entry → Option (String × RuleId)
  | (id, .regex pattern) => some (pattern, id)
  | _ => none

def v4Of : RuleId × Entry → Option (Ipv4Net × RuleId)
  | (id, .cidr (.v4 net)) => some (net, id)
  | _ => none

def v6Of : RuleId × Entry → Option (Ipv6Net × RuleId)
  | (id, .cidr (.v6 net)) => some (net, id)
  | _ => none

end Projections

def netPath {width : Nat} (entry : Net width × RuleId) : List Bool × RuleId :=
  (path entry.1, entry.2)

structure Represents (tables : Tables) (entries : List (RuleId × Entry)) : Prop where
  domainTrie : tables.domainTrie = insertAll (entries.filterMap suffixOf) PrefixTrie.empty
  exactDomain : ∀ domain, tables.exactDomain domain = entries.filterMap (fullOf domain)
  patterns : tables.patterns = (entries.filterMap keywordOf).map Prod.fst
  patternToRuleId : tables.patternToRuleId = (entries.filterMap keywordOf).map Prod.snd
  regexPatterns : tables.regexPatterns = (entries.filterMap regexOf).map Prod.fst
  regexToRuleId : tables.regexToRuleId = (entries.filterMap regexOf).map Prod.snd
  rootV4 : tables.rootV4 = insertAll ((entries.filterMap v4Of).map netPath) PrefixTrie.empty
  rootV6 : tables.rootV6 = insertAll ((entries.filterMap v6Of).map netPath) PrefixTrie.empty
  allV4Cidrs : tables.allV4Cidrs = entries.filterMap v4Of

theorem empty_represents : Represents Tables.empty [] :=
  ⟨rfl, fun _ => rfl, rfl, rfl, rfl, rfl, rfl, rfl, rfl⟩

theorem add_represents {tables : Tables} {entries : List (RuleId × Entry)}
    (rep : Represents tables entries) (id : RuleId) (entry : Entry) :
    Represents (tables.add id entry) (entries ++ [(id, entry)]) := by
  obtain ⟨trie, exact, patterns, ids, regexes, regexIds, v4, v6, cidrs⟩ := rep
  cases entry with
  | cidr net =>
      cases net <;> constructor <;>
        simp [Tables.add, suffixOf, fullOf, keywordOf, regexOf, v4Of, v6Of, netPath,
          List.filterMap_cons, insertAll, *]
  | full domain =>
      constructor
      case exactDomain =>
        intro other
        by_cases same : other = domain
        · subst other
          simp [Tables.add, fullOf, exact]
        · simp [Tables.add, fullOf, exact, same]
      all_goals
        simp [Tables.add, suffixOf, keywordOf, regexOf, v4Of, v6Of, List.filterMap_cons, *]
  | suffix _ | keyword _ | regex _ =>
      constructor <;>
        simp [Tables.add, suffixOf, fullOf, keywordOf, regexOf, v4Of, v6Of,
          List.filterMap_cons, insertAll, *]

theorem foldl_add_represents {tables : Tables} {entries : List (RuleId × Entry)}
    (rep : Represents tables entries) (id : RuleId) (added : List Entry) :
    Represents (added.foldl (Tables.add id) tables)
      (entries ++ added.map fun entry => (id, entry)) := by
  induction added generalizing tables entries with
  | nil => simpa using rep
  | cons entry rest ih =>
      simpa using ih (add_represents rep id entry)

theorem ruleEntries_bare (geo : GeoData) (rule : Rule) (bare : rule.hasNetworkFilters = false) :
    ruleEntries geo rule = [] := by
  simp only [Rule.hasNetworkFilters, Rule.hasDomainFilters, Rule.hasIpFilters,
    Bool.or_eq_false_iff, Bool.not_eq_false', List.isEmpty_iff] at bare
  obtain ⟨⟨⟨⟨suffix, keyword⟩, regex⟩, site⟩, cidr, geoip⟩ := bare
  simp [ruleEntries, suffix, keyword, regex, site, cidr, geoip]

theorem addRule_represents (geo : GeoData) {tables : Tables} {entries : List (RuleId × Entry)}
    (rep : Represents tables entries) (rule : Rule) :
    Represents (tables.addRule geo rule) (entries ++ filed geo [rule]) := by
  rw [Tables.addRule]
  cases bare : rule.hasNetworkFilters with
  | true => simpa [filed] using foldl_add_represents rep rule.id (ruleEntries geo rule)
  | false =>
      obtain ⟨trie, exact, patterns, ids, regexes, regexIds, v4, v6, cidrs⟩ := rep
      simp only [filed, List.flatMap_singleton, ruleEntries_bare geo rule bare, List.map_nil,
        List.append_nil]
      exact ⟨trie, exact, patterns, ids, regexes, regexIds, v4, v6, cidrs⟩

theorem foldl_add_any (id : RuleId) (added : List Entry) (tables : Tables) :
    (added.foldl (Tables.add id) tables).anyNetworkRules = tables.anyNetworkRules := by
  induction added generalizing tables with
  | nil => rfl
  | cons entry rest ih =>
      rw [List.foldl_cons, ih]
      rcases entry with (net | net) | _ | _ | _ | _ <;> rfl

theorem addRule_any (geo : GeoData) (tables : Tables) (rule : Rule) :
    (tables.addRule geo rule).anyNetworkRules =
      tables.anyNetworkRules ++ if rule.hasNetworkFilters then [] else [rule.id] := by
  rw [Tables.addRule]
  cases bare : rule.hasNetworkFilters with
  | true => simp [foldl_add_any]
  | false => simp

theorem foldl_addRule (geo : GeoData) (rules : List Rule) {tables : Tables}
    {entries : List (RuleId × Entry)} (rep : Represents tables entries) :
    Represents (rules.foldl (Tables.addRule geo) tables) (entries ++ filed geo rules) ∧
      (rules.foldl (Tables.addRule geo) tables).anyNetworkRules = tables.anyNetworkRules ++
        (rules.filter fun rule => !rule.hasNetworkFilters).map Rule.id := by
  induction rules generalizing tables entries with
  | nil => simpa [filed] using rep
  | cons rule rest ih =>
      obtain ⟨tail, any⟩ := ih (addRule_represents geo rep rule)
      constructor
      · simpa [filed] using tail
      · rw [List.foldl_cons, any, addRule_any]
        cases bare : rule.hasNetworkFilters <;> simp [bare]

theorem mem_filed (geo : GeoData) (table : RuleTable) (id : RuleId) (entry : Entry) :
    (id, entry) ∈ filed geo table.rules ↔
      ∃ rule, table.rules[id]? = some rule ∧ entry ∈ ruleEntries geo rule := by
  simp only [filed, List.mem_flatMap, List.mem_map, Prod.mk.injEq]
  constructor
  · rintro ⟨rule, member, other, inside, rfl, rfl⟩
    exact ⟨rule, (table.mem_iff rule).mp member, inside⟩
  · rintro ⟨rule, here, inside⟩
    exact ⟨rule, List.mem_of_getElem? here, entry, inside, table.aligned id rule here, rfl⟩

theorem parallel_slot {α β : Type} (pairs : List (α × β)) {slot : Nat} {left : α} {right : β} :
    (pairs.map Prod.fst)[slot]? = some left ∧ (pairs.map Prod.snd)[slot]? = some right ↔
      pairs[slot]? = some (left, right) := by
  simp only [List.getElem?_map, Option.map_eq_some_iff]
  constructor
  · rintro ⟨⟨first, here, rfl⟩, ⟨second, there, rfl⟩⟩
    rw [here] at there
    cases there
    exact here
  · intro here
    exact ⟨⟨_, here, rfl⟩, ⟨_, here, rfl⟩⟩

section Membership
variable {tables : Tables} {entries : List (RuleId × Entry)}

theorem mem_suffix_search (rep : Represents tables entries) (query : List (List Char))
    (id : RuleId) :
    id ∈ search query tables.domainTrie ↔
      ∃ domain, (id, Entry.suffix domain) ∈ entries ∧ reversedLabels domain <+: query := by
  rw [rep.domainTrie, mem_search_insertAll]
  simp only [search_empty, List.not_mem_nil, false_or, List.mem_filterMap]
  constructor
  · rintro ⟨_, ⟨⟨other, entry⟩, member, shape⟩, below⟩
    cases entry <;> simp only [suffixOf, reduceCtorEq, Option.some.injEq, Prod.mk.injEq] at shape
    obtain ⟨rfl, rfl⟩ := shape
    exact ⟨_, member, below⟩
  · rintro ⟨domain, member, below⟩
    exact ⟨_, ⟨_, member, rfl⟩, below⟩

theorem mem_exact (rep : Represents tables entries) (domain : String) (id : RuleId) :
    id ∈ tables.exactDomain domain ↔ (id, Entry.full domain) ∈ entries := by
  rw [rep.exactDomain, List.mem_filterMap]
  constructor
  · rintro ⟨⟨other, entry⟩, member, shape⟩
    cases entry with
    | full name =>
        simp only [fullOf] at shape
        split at shape
        · rename_i same
          cases shape
          rwa [same]
        · cases shape
    | cidr _ | suffix _ | keyword _ | regex _ => cases shape
  · intro member
    exact ⟨_, member, by simp [fullOf]⟩

theorem mem_v4Of (net : Ipv4Net) (id : RuleId) :
    (net, id) ∈ entries.filterMap v4Of ↔ (id, Entry.cidr (.v4 net)) ∈ entries := by
  rw [List.mem_filterMap]
  constructor
  · rintro ⟨⟨other, entry⟩, member, shape⟩
    rcases entry with (found | found) | _ | _ | _ | _ <;> cases shape
    exact member
  · intro member
    exact ⟨_, member, rfl⟩

theorem mem_v6Of (net : Ipv6Net) (id : RuleId) :
    (net, id) ∈ entries.filterMap v6Of ↔ (id, Entry.cidr (.v6 net)) ∈ entries := by
  rw [List.mem_filterMap]
  constructor
  · rintro ⟨⟨other, entry⟩, member, shape⟩
    rcases entry with (found | found) | _ | _ | _ | _ <;> cases shape
    exact member
  · intro member
    exact ⟨_, member, rfl⟩

/-- The address tries hold every prefix that was filed, and nothing else. -/
theorem mem_searchIp (rep : Represents tables entries) (ip : IpAddr) (id : RuleId) :
    id ∈ tables.searchIp ip ↔
      ∃ net, (id, Entry.cidr net) ∈ entries ∧ net.contains ip = true := by
  cases ip with
  | v4 ip =>
      rw [Tables.searchIp, rep.rootV4, mem_search_insertAll]
      simp only [search_empty, List.not_mem_nil, false_or, List.mem_map]
      constructor
      · rintro ⟨_, ⟨⟨net, other⟩, member, shape⟩, below⟩
        obtain ⟨rfl, rfl⟩ := Prod.mk.inj shape
        exact ⟨.v4 net, (mem_v4Of net other).mp member, (path_prefix_iff net ip).mp below⟩
      · rintro ⟨net | net, member, inside⟩
        · exact ⟨path net, ⟨(net, id), (mem_v4Of net id).mpr member, rfl⟩,
            (path_prefix_iff net ip).mpr inside⟩
        · cases inside
  | v6 ip =>
      rw [Tables.searchIp, rep.rootV6, mem_search_insertAll]
      simp only [search_empty, List.not_mem_nil, false_or, List.mem_map]
      constructor
      · rintro ⟨_, ⟨⟨net, other⟩, member, shape⟩, below⟩
        obtain ⟨rfl, rfl⟩ := Prod.mk.inj shape
        exact ⟨.v6 net, (mem_v6Of net other).mp member, (path_prefix_iff net ip).mp below⟩
      · rintro ⟨net | net, member, inside⟩
        · cases inside
        · exact ⟨path net, ⟨(net, id), (mem_v6Of net id).mpr member, rfl⟩,
            (path_prefix_iff net ip).mpr inside⟩

theorem mem_keywordOf (text : List Char) (id : RuleId) :
    (text, id) ∈ entries.filterMap keywordOf ↔
      ∃ keyword, (id, Entry.keyword keyword) ∈ entries ∧ keyword.toList = text := by
  rw [List.mem_filterMap]
  constructor
  · rintro ⟨⟨other, entry⟩, member, shape⟩
    cases entry <;> cases shape
    exact ⟨_, member, rfl⟩
  · rintro ⟨keyword, member, rfl⟩
    exact ⟨_, member, rfl⟩

theorem mem_regexOf (pattern : String) (id : RuleId) :
    (pattern, id) ∈ entries.filterMap regexOf ↔ (id, Entry.regex pattern) ∈ entries := by
  rw [List.mem_filterMap]
  constructor
  · rintro ⟨⟨other, entry⟩, member, shape⟩
    cases entry <;> cases shape
    exact member
  · intro member
    exact ⟨_, member, rfl⟩

end Membership

end Mirage.Router
