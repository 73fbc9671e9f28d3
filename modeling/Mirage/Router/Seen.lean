import Mirage.Router.Match

/-!
Hits and verdicts of a built engine. `domainHit` and `ipHit` say that the
engine reports a rule for the host or the address; `sees` is what the counting
in `route_matched` makes of the two, and `route_matched` picks the first rule
the engine sees. `stops` is the rule at which `route_decision` ends its walk.
-/

namespace Mirage.Router
open AddressPrefix PrefixTrie KeywordScan Tally FirstMatch

namespace RouterEngine
variable (engine : RouterEngine)

/-- The keyword search names a keyword of the rule somewhere in the host. -/
def reports (host : String) (id : RuleId) : Bool :=
  (engine.crates.findIter engine.tables.patterns host.toList).any fun hit =>
    engine.tables.patternToRuleId[hit.pattern]? == some id

def reported (req : RoutingRequest) (id : RuleId) : Bool :=
  match req.domain with
  | some host => engine.reports host id
  | none => false

def domainHit (req : RoutingRequest) (id : RuleId) : Bool :=
  match req.domain with
  | some host => (engine.matchDomainRuleIds host).contains id
  | none => false

def ipHit (req : RoutingRequest) (id : RuleId) : Bool :=
  match req.ip with
  | some ip => (engine.tables.searchIp ip).contains id
  | none => false

def sees (req : RoutingRequest) (id : RuleId) : Bool :=
  match engine.ruleTable[id]? with
  | some rule => rule.eligible req && rule.counted (engine.domainHit req id) (engine.ipHit req id)
  | none => false

end RouterEngine

def outboundOf (table : RuleTable) (fallback : OutboundTag) (id : RuleId) : OutboundTag :=
  (table.rules[id]?.map Rule.outbound).getD fallback

namespace Rule

/-- `route_decision` ends its walk at a rule, given whether the domain hits. -/
def stops (rule : Rule) (domainHit : Bool) : Bool :=
  if rule.mode = "and" then !rule.hasDomainFilters || domainHit
  else domainHit || rule.hasIpFilters || !rule.hasNetworkFilters

/-- The walk ends at the rule without an answer, because an address is needed. -/
def defers (rule : Rule) (domainHit : Bool) : Bool :=
  if rule.mode = "and" then rule.hasIpFilters else !domainHit && rule.hasIpFilters

end Rule

structure Built (crates : Crates) (geo : GeoData) (table : RuleTable) (fallback : OutboundTag)
    (engine : RouterEngine) : Prop where
  crates : engine.crates = crates
  ruleTable : engine.ruleTable = table.rules
  defaultOutbound : engine.defaultOutbound = fallback
  tables : Represents engine.tables (filed geo table.rules)
  anyNetworkRules : engine.tables.anyNetworkRules =
    (table.rules.filter fun rule => !rule.hasNetworkFilters).map Rule.id

theorem built_of_new {crates : Crates} {geo : GeoData} {table : RuleTable}
    {fallback : OutboundTag} {engine : RouterEngine}
    (made : RouterEngine.new crates geo table.rules fallback = some engine) :
    Built crates geo table fallback engine := by
  simp only [RouterEngine.new] at made
  split at made
  · cases made
  · split at made
    · cases made
    · cases made
      obtain ⟨tables, any⟩ := foldl_addRule geo table.rules empty_represents
      exact ⟨rfl, rfl, rfl, by simpa using tables, by simpa [Tables.empty] using any⟩

section Hits
variable {crates : Crates} {geo : GeoData} {table : RuleTable} {fallback : OutboundTag}
  {engine : RouterEngine}

theorem mem_regexIds (built : Built crates geo table fallback engine) (host : String)
    (id : RuleId) :
    (id ∈ (List.range engine.tables.regexPatterns.length).filterMap fun i =>
        if engine.crates.regexMatch (engine.tables.regexPatterns.getD i "") host
        then engine.tables.regexToRuleId[i]? else none) ↔
      ∃ pattern, (id, Entry.regex pattern) ∈ filed geo table.rules ∧
        crates.regexMatch pattern host = true := by
  simp only [List.mem_filterMap, List.mem_range, built.crates]
  constructor
  · rintro ⟨i, inside, found⟩
    split at found
    · rename_i matched
      have named : engine.tables.regexPatterns[i]? =
          some (engine.tables.regexPatterns.getD i "") := by
        rw [List.getD_eq_getElem?_getD, List.getElem?_eq_getElem inside, Option.getD_some]
      rw [built.tables.regexPatterns] at named
      rw [built.tables.regexToRuleId] at found
      have pair := (parallel_slot _).mp ⟨named, found⟩
      rw [← built.tables.regexPatterns] at pair
      exact ⟨_, (mem_regexOf _ id).mp (List.mem_of_getElem? pair), matched⟩
    · cases found
  · rintro ⟨pattern, member, matched⟩
    obtain ⟨i, slot⟩ := List.mem_iff_getElem?.mp ((mem_regexOf pattern id).mpr member)
    obtain ⟨named, numbered⟩ := (parallel_slot _).mpr slot
    rw [← built.tables.regexPatterns] at named
    rw [← built.tables.regexToRuleId] at numbered
    refine ⟨i, (List.getElem?_eq_some_iff.mp named).1, ?_⟩
    rw [List.getD_eq_getElem?_getD, named, Option.getD_some, if_pos matched, numbered]

theorem mem_keywordIds (host : String) (id : RuleId) :
    (id ∈ (engine.crates.findIter engine.tables.patterns host.toList).filterMap
        fun hit => engine.tables.patternToRuleId[hit.pattern]?) ↔
      engine.reports host id = true := by
  simp [RouterEngine.reports, List.mem_filterMap]

theorem reports_sound (built : Built crates geo table fallback engine) {host : String}
    {id : RuleId} (reported : engine.reports host id = true) :
    ∃ keyword, (id, Entry.keyword keyword) ∈ filed geo table.rules ∧
      keyword.toList <:+: host.toList := by
  simp only [RouterEngine.reports, List.any_eq_true, beq_iff_eq] at reported
  obtain ⟨hit, found, numbered⟩ := reported
  rw [built.crates] at found
  obtain ⟨text, named, occurs, _⟩ := crates.standard.sound _ _ hit found
  rw [built.tables.patterns] at named
  rw [built.tables.patternToRuleId] at numbered
  have pair := (parallel_slot _).mp ⟨named, numbered⟩
  obtain ⟨keyword, member, rfl⟩ := (mem_keywordOf _ _).mp (List.mem_of_getElem? pair)
  exact ⟨keyword, member, infix_of_occursAt occurs⟩

theorem reports_nothing (built : Built crates geo table fallback engine) {host : String}
    (empty : engine.tables.patterns = []) (id : RuleId) : engine.reports host id = false := by
  cases reported : engine.reports host id with
  | false => rfl
  | true =>
      obtain ⟨keyword, member, _⟩ := reports_sound built reported
      have listed := (mem_keywordOf keyword.toList id).mpr ⟨keyword, member, rfl⟩
      have named := List.mem_map_of_mem (f := Prod.fst) listed
      rw [← built.tables.patterns, empty] at named
      cases named

/-- The domain hits of a rule: its plain conditions in full, and of its
keywords those the search reports. -/
theorem mem_matchDomainRuleIds (built : Built crates geo table fallback engine) (host : String)
    (id : RuleId) :
    id ∈ engine.matchDomainRuleIds host ↔
      (∃ rule, table.rules[id]? = some rule ∧ rule.plainPart crates geo (some host) = true) ∨
        engine.reports host id = true := by
  have keywords : (id ∈ (if engine.tables.patterns.isEmpty then [] else
      (engine.crates.findIter engine.tables.patterns host.toList).filterMap
        fun hit => engine.tables.patternToRuleId[hit.pattern]?)) ↔
      engine.reports host id = true := by
    split
    · rename_i empty
      simp [reports_nothing built (List.isEmpty_iff.mp empty) id]
    · exact mem_keywordIds host id
  have regexes : (id ∈ (if engine.tables.regexPatterns.isEmpty then [] else
      (List.range engine.tables.regexPatterns.length).filterMap fun i =>
        if engine.crates.regexMatch (engine.tables.regexPatterns.getD i "") host
        then engine.tables.regexToRuleId[i]? else none)) ↔
      ∃ pattern, (id, Entry.regex pattern) ∈ filed geo table.rules ∧
        crates.regexMatch pattern host = true := by
    rw [← mem_regexIds built host id]
    split
    · rename_i empty
      simp [List.isEmpty_iff.mp empty]
    · rfl
  simp only [RouterEngine.matchDomainRuleIds, mem_sortDedup, List.mem_append, keywords, regexes,
    mem_exact built.tables, mem_suffix_search built.tables, reversedLabels_prefix, mem_filed]
  constructor
  · rintro (((⟨rule, here, member⟩ | ⟨domain, ⟨rule, here, member⟩, label⟩) | reported) |
      ⟨pattern, ⟨rule, here, member⟩, matched⟩)
    · exact Or.inl ⟨rule, here, List.any_eq_true.mpr
        ⟨_, member, by simp [Entry.isKeyword, Entry.meetsDomain]⟩⟩
    · exact Or.inl ⟨rule, here, List.any_eq_true.mpr
        ⟨_, member, by simp [Entry.isKeyword, Entry.meetsDomain, label]⟩⟩
    · exact Or.inr reported
    · exact Or.inl ⟨rule, here, List.any_eq_true.mpr
        ⟨_, member, by simp [Entry.isKeyword, Entry.meetsDomain, matched]⟩⟩
  · rintro (⟨rule, here, part⟩ | reported)
    · obtain ⟨entry, member, meets⟩ := List.any_eq_true.mp part
      cases entry with
      | cidr net => simp [Entry.meetsDomain] at meets
      | keyword text => simp [Entry.isKeyword] at meets
      | full domain =>
          have same : domain = host := by simpa [Entry.isKeyword, Entry.meetsDomain] using meets
          subst same
          exact Or.inl (Or.inl (Or.inl ⟨rule, here, member⟩))
      | suffix domain =>
          have label : LabelSuffix domain.toList host.toList := by
            simpa [Entry.isKeyword, Entry.meetsDomain] using meets
          exact Or.inl (Or.inl (Or.inr ⟨domain, ⟨rule, here, member⟩, label⟩))
      | regex pattern =>
          have matched : crates.regexMatch pattern host = true := by
            simpa [Entry.isKeyword, Entry.meetsDomain] using meets
          exact Or.inr ⟨pattern, ⟨rule, here, member⟩, matched⟩
    · exact Or.inl (Or.inr reported)

theorem ipHit_eq (built : Built crates geo table fallback engine) (req : RoutingRequest)
    {id : RuleId} {rule : Rule} (here : table.rules[id]? = some rule) :
    engine.ipHit req id = rule.ipPart geo req.ip := by
  cases ip : req.ip with
  | none => simp [RouterEngine.ipHit, Rule.ipPart, ip]
  | some address =>
      rw [Bool.eq_iff_iff]
      simp only [RouterEngine.ipHit, ip, List.contains_iff_mem, mem_searchIp built.tables,
        mem_filed, here, Option.some.injEq, exists_eq_left', Rule.ipPart, List.any_eq_true]
      constructor
      · rintro ⟨net, member, inside⟩
        exact ⟨_, member, inside⟩
      · rintro ⟨entry, member, meets⟩
        cases entry with
        | cidr net => exact ⟨net, member, meets⟩
        | full _ | suffix _ | keyword _ | regex _ => cases meets

theorem domainHit_none (req : RoutingRequest) (missing : req.domain = none) (id : RuleId) :
    engine.domainHit req id = false := by
  simp [RouterEngine.domainHit, missing]

theorem domainHit_sound (built : Built crates geo table fallback engine) {req : RoutingRequest}
    {id : RuleId} {rule : Rule} (here : table.rules[id]? = some rule)
    (hit : engine.domainHit req id = true) : rule.domainPart crates geo req.domain = true := by
  cases domain : req.domain with
  | none => simp [domainHit_none req domain] at hit
  | some host =>
      simp only [RouterEngine.domainHit, domain, List.contains_iff_mem,
        mem_matchDomainRuleIds built] at hit
      rw [Rule.domainPart, List.any_eq_true]
      rcases hit with ⟨other, there, part⟩ | reported
      · rw [here] at there
        cases there
        obtain ⟨entry, member, meets⟩ := List.any_eq_true.mp part
        exact ⟨entry, member, (Bool.and_eq_true_iff.mp meets).2⟩
      · obtain ⟨keyword, member, inside⟩ := reports_sound built reported
        obtain ⟨other, there, listed⟩ := (mem_filed geo table id _).mp member
        rw [here] at there
        cases there
        exact ⟨_, listed, by simpa [Entry.meetsDomain] using inside⟩

/-- A rule's domain hit is a plain condition that holds or a keyword named by
the shared search. -/
theorem domainHit_eq (built : Built crates geo table fallback engine) (req : RoutingRequest)
    {id : RuleId} {rule : Rule} (here : table.rules[id]? = some rule) :
    engine.domainHit req id =
      (rule.plainPart crates geo req.domain || engine.reported req id) := by
  cases domain : req.domain with
  | none => simp [RouterEngine.domainHit, RouterEngine.reported, Rule.plainPart, domain]
  | some host =>
      rw [Bool.eq_iff_iff]
      simp only [RouterEngine.domainHit, RouterEngine.reported, domain, List.contains_iff_mem,
        mem_matchDomainRuleIds built, here, Option.some.injEq, exists_eq_left', Bool.or_eq_true]

end Hits

section Counting
variable {crates : Crates} {geo : GeoData} {table : RuleTable} {fallback : OutboundTag}
  {engine : RouterEngine}

theorem count_anyNetworkRules (built : Built crates geo table fallback engine)
    {id : RuleId} {rule : Rule} (here : table.rules[id]? = some rule) :
    engine.tables.anyNetworkRules.count id = if rule.hasNetworkFilters then 0 else 1 := by
  have unique : engine.tables.anyNetworkRules.Nodup := by
    rw [built.anyNetworkRules]
    exact table.ids_nodup.sublist (List.filter_sublist.map _)
  have member : id ∈ engine.tables.anyNetworkRules ↔ rule.hasNetworkFilters = false := by
    simp only [built.anyNetworkRules, List.mem_map, List.mem_filter, Bool.not_eq_true']
    constructor
    · rintro ⟨other, ⟨listed, bare⟩, same⟩
      rw [table.mem_iff, same, here] at listed
      cases listed
      exact bare
    · intro bare
      exact ⟨rule, ⟨List.mem_of_getElem? here, bare⟩, table.aligned id rule here⟩
  cases bare : rule.hasNetworkFilters with
  | true => exact List.count_eq_zero.mpr (by simp [member, bare])
  | false => exact List.count_eq_one_of_mem unique (member.mpr bare)

/-- Each table contributes one vote at most. -/
theorem count_candidateIds (built : Built crates geo table fallback engine)
    (req : RoutingRequest) {id : RuleId} {rule : Rule} (here : table.rules[id]? = some rule) :
    (engine.candidateIds req).count id =
      (if engine.domainHit req id then 1 else 0) + (if engine.ipHit req id then 1 else 0) +
        if rule.hasNetworkFilters then 0 else 1 := by
  rw [RouterEngine.candidateIds, List.count_append, List.count_append,
    count_anyNetworkRules built here]
  congr 2
  · cases domain : req.domain with
    | none => simp [RouterEngine.domainHit, domain]
    | some host =>
        simp only [RouterEngine.domainHit, domain, List.contains_iff_mem,
          RouterEngine.matchDomainRuleIds, count_sortDedup, mem_sortDedup]
  · cases ip : req.ip with
    | none => simp [RouterEngine.ipHit, ip]
    | some address => simp [RouterEngine.ipHit, ip, count_sortDedup]

theorem required_le_iff (rule : Rule) (domainHit ipHit : Bool) :
    (0 < (if domainHit then 1 else 0) + (if ipHit then 1 else 0) +
        (if rule.hasNetworkFilters then 0 else 1) ∧
      rule.required ≤ (if domainHit then 1 else 0) + (if ipHit then 1 else 0) +
        if rule.hasNetworkFilters then 0 else 1) ↔
      rule.counted domainHit ipHit = true := by
  by_cases mode : rule.mode = "and" <;> cases domains : rule.hasDomainFilters <;>
    cases addresses : rule.hasIpFilters <;> cases domainHit <;> cases ipHit <;>
    simp [Rule.required, Rule.counted, Rule.hasNetworkFilters, mode, domains, addresses]

theorem mem_validCandidates (built : Built crates geo table fallback engine)
    (req : RoutingRequest) (id : RuleId) :
    id ∈ engine.validCandidates req ↔ ∃ rule, table.rules[id]? = some rule ∧
      rule.counted (engine.domainHit req id) (engine.ipHit req id) = true := by
  simp only [RouterEngine.validCandidates, List.mem_insertionSort, List.mem_map, List.mem_filter,
    Prod.exists, mem_tally, built.ruleTable]
  constructor
  · rintro ⟨other, count, ⟨⟨rfl, positive⟩, enough⟩, rfl⟩
    cases here : table.rules[other]? with
    | none => simp [here] at enough
    | some rule =>
        simp only [here, decide_eq_true_eq] at enough
        rw [count_candidateIds built req here] at positive enough
        exact ⟨rule, rfl, (required_le_iff rule _ _).mp ⟨positive, enough⟩⟩
  · rintro ⟨rule, here, counted⟩
    have votes := (required_le_iff rule _ _).mpr counted
    rw [← count_candidateIds built req here] at votes
    exact ⟨id, _, ⟨⟨rfl, votes.1⟩, by simpa [here] using votes.2⟩, rfl⟩

theorem sees_iff (built : Built crates geo table fallback engine) (req : RoutingRequest)
    {id : RuleId} {rule : Rule} (here : table.rules[id]? = some rule) :
    engine.sees req id = (rule.eligible req &&
      rule.counted (engine.domainHit req id) (rule.ipPart geo req.ip)) := by
  simp only [RouterEngine.sees, built.ruleTable, here, ipHit_eq built req here]

theorem routeMatched_eq (built : Built crates geo table fallback engine) (req : RoutingRequest) :
    engine.routeMatched req =
      (pick (fun id => engine.sees req id = true) table.rules.length).map
        (outboundOf table fallback) := by
  have sorted : (engine.validCandidates req).Pairwise (· ≤ ·) :=
    List.pairwise_insertionSort (· ≤ ·) _
  have seen : ∀ id, (id ∈ engine.validCandidates req ∧ engine.eligibleAt req id = true) ↔
      (id < table.rules.length ∧ engine.sees req id = true) := by
    intro id
    rw [mem_validCandidates built, RouterEngine.eligibleAt, RouterEngine.sees, built.ruleTable]
    cases here : table.rules[id]? with
    | none => simp
    | some rule =>
        have inside := (List.getElem?_eq_some_iff.mp here).1
        simp [inside, and_comm]
  have chosen : (engine.validCandidates req).find? (engine.eligibleAt req) =
      pick (fun id => engine.sees req id = true) table.rules.length := by
    ext id
    rw [find_ascending sorted, pick_eq_some]
    exact First.congr seen
  rw [RouterEngine.routeMatched, chosen]
  cases picked : pick (fun id => engine.sees req id = true) table.rules.length with
  | none => rfl
  | some id =>
      obtain ⟨⟨inside, _⟩, _⟩ := pick_eq_some.mp picked
      simp [built.ruleTable, outboundOf, List.getElem?_eq_getElem inside]

end Counting

end Mirage.Router
