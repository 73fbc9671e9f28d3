import Mirage.Router.Seen

/-!
`route_matched` against the naive reading: the first rule of the list whose own
conditions hold. A rule is masked when its only domain hit is a keyword that
the shared search skipped, because it overlaps a keyword reported before. A
rule leaks when it is an `and` rule with domain conditions only and prefixes
from a geosite file: the single vote it needs may then come from the address.
-/

namespace Mirage.Router
open AddressPrefix PrefixTrie KeywordScan Tally FirstMatch

section Policy
variable (crates : Crates) (geo : GeoData) (table : RuleTable)

def naiveAt (req : RoutingRequest) (id : RuleId) : Bool :=
  match table.rules[id]? with
  | some rule => rule.naive crates geo req
  | none => false

def keywords : List (List Char × RuleId) := (filed geo table.rules).filterMap keywordOf

/-- The search for all keywords at once finds one of the rule in the host. -/
def named (req : RoutingRequest) (id : RuleId) : Bool :=
  match req.domain with
  | some host => (crates.findIter ((keywords geo table).map Prod.fst) host.toList).any fun hit =>
      (keywords geo table)[hit.pattern]?.map Prod.snd == some id
  | none => false

/-- A keyword of the rule stands in the host but goes unreported, no other
domain condition holds, and that decides the rule. -/
def masks (req : RoutingRequest) (id : RuleId) : Bool :=
  match table.rules[id]? with
  | some rule => rule.eligible req && rule.domainPart crates geo req.domain &&
      !(rule.plainPart crates geo req.domain || named crates geo table req id) &&
      (if rule.mode = "and" && rule.hasIpFilters then rule.ipPart geo req.ip
        else !rule.ipPart geo req.ip)
  | none => false

def leaks (req : RoutingRequest) (id : RuleId) : Bool :=
  match table.rules[id]? with
  | some rule => rule.eligible req && decide (rule.mode = "and") && rule.hasDomainFilters &&
      !rule.hasIpFilters && rule.ipPart geo req.ip && !rule.domainPart crates geo req.domain
  | none => false

end Policy

/-- The router is first-match for the request. -/
def FirstMatches (crates : Crates) (geo : GeoData) (table : RuleTable) (engine : RouterEngine)
    (req : RoutingRequest) : Prop :=
  engine.routeMatched req =
    (table.rules.find? fun rule => rule.naive crates geo req).map Rule.outbound

/-- Where the naive reading and the engine first part, the one that goes on
comes to the same target. -/
def Harmless (crates : Crates) (geo : GeoData) (table : RuleTable) (fallback : OutboundTag)
    (req : RoutingRequest) : Prop :=
  ∀ i, (∀ k < i, naiveAt crates geo table req k = false ∧ leaks crates geo table req k = false) →
    (masks crates geo table req i = true → ∃ j,
      First (fun k => (naiveAt crates geo table req k && !masks crates geo table req k ||
        leaks crates geo table req k) = true) j ∧
      outboundOf table fallback j = outboundOf table fallback i) ∧
    (leaks crates geo table req i = true → ∃ j,
      First (fun k => naiveAt crates geo table req k = true) j ∧
      outboundOf table fallback j = outboundOf table fallback i)

namespace Rule
variable {rule : Rule} {domainPart domainHit ipPart : Bool}

/-- Votes against conditions: they differ by a masked or a leaking rule. -/
theorem counted_eq (soundHit : domainHit = true → domainPart = true)
    (declared : domainPart = true → rule.hasDomainFilters = true)
    (addressed : ipPart = true → rule.hasNetworkFilters = true) :
    rule.counted domainHit ipPart =
      (rule.combine domainPart ipPart &&
          !(domainPart && !domainHit &&
            (if rule.mode = "and" && rule.hasIpFilters then ipPart else !ipPart)) ||
        (decide (rule.mode = "and") && rule.hasDomainFilters && !rule.hasIpFilters &&
          ipPart && !domainPart)) := by
  by_cases mode : rule.mode = "and" <;> cases domains : rule.hasDomainFilters <;>
    cases addresses : rule.hasIpFilters <;> cases domainPart <;> cases domainHit <;>
    cases ipPart <;> simp_all [counted, combine, hasNetworkFilters]

theorem combine_of_masked (missed : domainPart = true)
    (decides : (if rule.mode = "and" && rule.hasIpFilters then ipPart else !ipPart) = true) :
    rule.combine domainPart ipPart = true := by
  by_cases mode : rule.mode = "and" <;> cases addresses : rule.hasIpFilters <;>
    simp_all [combine]

theorem combine_of_leaking (mode : rule.mode = "and") (domains : rule.hasDomainFilters = true) :
    rule.combine false ipPart = false := by
  simp [combine, mode, domains]

end Rule

section Agreement
variable {crates : Crates} {geo : GeoData} {table : RuleTable} {fallback : OutboundTag}
  {engine : RouterEngine}

theorem reported_eq (built : Built crates geo table fallback engine) (req : RoutingRequest)
    (id : RuleId) : engine.reported req id = named crates geo table req id := by
  cases domain : req.domain with
  | none => simp only [RouterEngine.reported, named, domain]
  | some host =>
      simp only [RouterEngine.reported, RouterEngine.reports, named, keywords, domain,
        built.crates, built.tables.patterns, built.tables.patternToRuleId, List.getElem?_map]

theorem sees_eq (built : Built crates geo table fallback engine) (req : RoutingRequest)
    (id : RuleId) :
    engine.sees req id =
      (naiveAt crates geo table req id && !masks crates geo table req id ||
        leaks crates geo table req id) := by
  cases here : table.rules[id]? with
  | none => simp [RouterEngine.sees, built.ruleTable, naiveAt, masks, leaks, here]
  | some rule =>
      rw [sees_iff built req here, Rule.counted_eq (domainHit_sound built here)
        domainPart_hasDomainFilters ipPart_hasNetworkFilters]
      simp only [naiveAt, masks, leaks, here, Rule.naive, ← reported_eq built,
        ← domainHit_eq built req here]
      cases rule.eligible req <;> simp

/-- What a masked rule's keyword is hidden by: where it stands in the host, a
report of another rule's keyword ends before it does. -/
theorem masks_overtaken {req : RoutingRequest} {id : RuleId}
    (masked : masks crates geo table req id = true) :
    ∃ host keyword, req.domain = some host ∧ (keyword, id) ∈ keywords geo table ∧
      (∃ offset, OccursAt keyword host.toList offset) ∧
      ∀ offset, OccursAt keyword host.toList offset →
        ∃ hit ∈ crates.findIter ((keywords geo table).map Prod.fst) host.toList, ∃ entry,
          (keywords geo table)[hit.pattern]? = some entry ∧ entry.2 ≠ id ∧
            hit.stop = hit.start + entry.1.length ∧ offset ≤ hit.stop ∧
              hit.stop ≤ offset + keyword.length ∧ (keyword ≠ [] → offset < hit.stop) := by
  cases here : table.rules[id]? with
  | none => simp [masks, here] at masked
  | some rule =>
      simp only [masks, here, Bool.and_eq_true, Bool.not_eq_true', Bool.or_eq_false_iff] at masked
      obtain ⟨⟨⟨-, holds⟩, plain, unnamed⟩, -⟩ := masked
      cases domain : req.domain with
      | none =>
          rw [domain] at holds
          cases holds
      | some host =>
          rw [domain] at holds plain
          obtain ⟨entry, member, meets⟩ := List.any_eq_true.mp holds
          have only := List.any_eq_false.mp plain entry member
          rw [meets, Bool.and_true, Bool.not_eq_true, Bool.not_eq_false'] at only
          cases entry with
          | keyword text =>
              have listed : (text.toList, id) ∈ keywords geo table :=
                (mem_keywordOf _ _).mpr ⟨text, (mem_filed geo table id _).mpr ⟨rule, here, member⟩, rfl⟩
              refine ⟨host, text.toList, rfl, listed,
                exists_occursAt (by simpa [Entry.meetsDomain] using meets), ?_⟩
              intro offset occurs
              have inside : text.toList ∈ (keywords geo table).map Prod.fst :=
                List.mem_map_of_mem (f := Prod.fst) listed
              obtain ⟨hit, reported, other, at_other, -, reached⟩ :=
                crates.standard.overtaken inside occurs
              rw [List.getElem?_map] at at_other
              obtain ⟨entry, slot, rfl⟩ := Option.map_eq_some_iff.mp at_other
              refine ⟨hit, reported, entry, slot, ?_, reached⟩
              rintro rfl
              simp only [named, domain] at unnamed
              have other := List.any_eq_false.mp unnamed hit reported
              rw [slot] at other
              exact other (beq_self_eq_true _)
          | cidr net | full text | suffix text | regex text => cases only

/-- A rule goes unnamed if a report reaches into every place where one of its
keywords stands, and is not the report of that place. -/
theorem unnamed_of_overlapped {req : RoutingRequest} {id : RuleId} {host : String}
    (domain : req.domain = some host)
    (overlapped : ∀ keyword, (keyword, id) ∈ keywords geo table → ∀ offset,
      OccursAt keyword host.toList offset →
        ∃ hit ∈ crates.findIter ((keywords geo table).map Prod.fst) host.toList,
          hit.start < offset + keyword.length ∧ offset < hit.stop ∧
            ¬ (hit.start = offset ∧ hit.stop = offset + keyword.length)) :
    named crates geo table req id = false := by
  simp only [named, domain, List.any_eq_false, beq_iff_eq]
  intro hit reported own
  obtain ⟨entry, slot, rfl⟩ := Option.map_eq_some_iff.mp own
  obtain ⟨keyword, at_hit, stands, stop⟩ := crates.standard.sound _ _ hit reported
  rw [List.getElem?_map, slot] at at_hit
  cases at_hit
  obtain ⟨other, also, before, after, elsewhere⟩ :=
    overlapped entry.1 (List.mem_of_getElem? slot) hit.start stands
  rw [← stop] at before elsewhere
  have same := crates.standard.apart reported also after before
  exact elsewhere (same ▸ ⟨rfl, rfl⟩)

theorem naiveAt_of_masks {req : RoutingRequest} {id : RuleId}
    (masked : masks crates geo table req id = true) :
    naiveAt crates geo table req id = true := by
  cases here : table.rules[id]? with
  | none => simp [masks, here] at masked
  | some rule =>
      simp only [masks, here, Bool.and_eq_true] at masked
      obtain ⟨⟨⟨able, holds⟩, _⟩, decides⟩ := masked
      simp only [naiveAt, here, Rule.naive, able, Bool.true_and]
      exact Rule.combine_of_masked holds (by simpa only [Bool.and_eq_true] using decides)

theorem naiveAt_of_leaks {req : RoutingRequest} {id : RuleId}
    (leaking : leaks crates geo table req id = true) :
    naiveAt crates geo table req id = false := by
  cases here : table.rules[id]? with
  | none => simp [leaks, here] at leaking
  | some rule =>
      simp only [leaks, here, Bool.and_eq_true, decide_eq_true_eq, Bool.not_eq_true'] at leaking
      obtain ⟨⟨⟨⟨⟨_, mode⟩, domains⟩, _⟩, _⟩, misses⟩ := leaking
      simp [naiveAt, here, Rule.naive, misses, Rule.combine_of_leaking mode domains]

theorem naiveAt_inside {req : RoutingRequest} {id : RuleId}
    (holds : naiveAt crates geo table req id = true) : id < table.rules.length := by
  cases here : table.rules[id]? with
  | none => simp [naiveAt, here] at holds
  | some rule => exact (List.getElem?_eq_some_iff.mp here).1

theorem leaks_inside {req : RoutingRequest} {id : RuleId}
    (leaking : leaks crates geo table req id = true) : id < table.rules.length := by
  cases here : table.rules[id]? with
  | none => simp [leaks, here] at leaking
  | some rule => exact (List.getElem?_eq_some_iff.mp here).1

theorem naiveAt_eq_any (req : RoutingRequest) (id : RuleId) : naiveAt crates geo table req id =
    table.rules[id]?.any fun rule => rule.naive crates geo req := by
  rw [naiveAt]
  cases table.rules[id]? <;> rfl

theorem find_naive (fallback : OutboundTag) (req : RoutingRequest) :
    (table.rules.find? fun rule => rule.naive crates geo req).map Rule.outbound =
      (pick (fun id => naiveAt crates geo table req id = true) table.rules.length).map
        (outboundOf table fallback) := by
  simp only [naiveAt_eq_any]
  exact find_eq_pick _ _ _ fallback

theorem firstMatches_iff_harmless (built : Built crates geo table fallback engine)
    (req : RoutingRequest) :
    FirstMatches crates geo table engine req ↔
      Harmless crates geo table fallback req := by
  have quiet : ∀ k, (¬ naiveAt crates geo table req k = true ∧ ¬ engine.sees req k = true) ↔
      (naiveAt crates geo table req k = false ∧ leaks crates geo table req k = false) := by
    intro k
    rw [sees_eq built]
    cases naiveAt crates geo table req k <;> simp
  have seenInside : ∀ k, engine.sees req k = true → k < table.rules.length := by
    intro k seen
    rw [sees_eq built, Bool.or_eq_true, Bool.and_eq_true] at seen
    exact seen.elim (fun plain => naiveAt_inside plain.1) leaks_inside
  have firstSeen : ∀ j, First (fun k => k < table.rules.length ∧ engine.sees req k = true) j ↔
      First (fun k => (naiveAt crates geo table req k && !masks crates geo table req k ||
        leaks crates geo table req k) = true) j := by
    intro j
    apply First.congr
    intro k
    rw [← sees_eq built]
    exact ⟨And.right, fun seen => ⟨seenInside k seen, seen⟩⟩
  have firstNaive : ∀ j, First (fun k => k < table.rules.length ∧
      naiveAt crates geo table req k = true) j ↔
      First (fun k => naiveAt crates geo table req k = true) j := fun j =>
    First.congr fun k => ⟨And.right, fun holds => ⟨naiveAt_inside holds, holds⟩⟩
  -- Both sides are the first index of a predicate, one of the rules and one of what the engine
  -- sees.
  rw [FirstMatches, routeMatched_eq built, find_naive fallback req, eq_comm, picks_agree_iff]
  simp only [Recovers, quiet, firstSeen, firstNaive]
  constructor
  · intro recovers i fresh
    constructor
    · intro masked
      have holds := naiveAt_of_masks masked
      have unseen : ¬ engine.sees req i = true := by
        rw [sees_eq built, masked]
        simp only [Bool.not_true, Bool.and_false, Bool.false_or]
        intro leaking
        rw [naiveAt_of_leaks leaking] at holds
        cases holds
      exact (recovers i (naiveAt_inside holds) fresh).1 holds unseen
    · intro leaking
      have seen : engine.sees req i = true := by simp [sees_eq built, leaking]
      exact (recovers i (leaks_inside leaking) fresh).2 seen
        (by simp [naiveAt_of_leaks leaking])
  · intro harmless i inside fresh
    constructor
    · intro holds unseen
      rw [sees_eq built, holds] at unseen
      have masked : masks crates geo table req i = true := by
        cases masked : masks crates geo table req i with
        | true => rfl
        | false => simp [masked] at unseen
      exact (harmless i fresh).1 masked
    · intro seen misses
      rw [sees_eq built, Bool.eq_false_iff.mpr misses] at seen
      exact (harmless i fresh).2 (by simpa using seen)

/-- The router is first-match exactly on the requests whose first masked or
leaking rule is harmless, and then later rules do not matter. -/
theorem firstMatches_iff
    (made : RouterEngine.new crates geo table.rules fallback = some engine)
    (req : RoutingRequest) :
    (FirstMatches crates geo table engine req ↔
      Harmless crates geo table fallback req) ∧
    ∀ (longer : RuleTable) (later : List Rule) (grown : RouterEngine),
      longer.rules = table.rules ++ later →
      RouterEngine.new crates geo longer.rules fallback = some grown →
      Harmless crates geo table fallback req →
      Harmless crates geo longer fallback req →
      ∀ tag, engine.routeMatched req = some tag → grown.routeMatched req = some tag := by
  have agrees := firstMatches_iff_harmless (built_of_new made) req
  refine ⟨agrees, fun longer later grown extends_ madeLonger harmless harmlessLonger tag => ?_⟩
  have here := agrees.mpr harmless
  have there := (firstMatches_iff_harmless (built_of_new madeLonger) req).mpr harmlessLonger
  rw [FirstMatches] at here there
  rw [here, there, extends_, List.find?_append]
  intro matched
  obtain ⟨rule, found, rfl⟩ := Option.map_eq_some_iff.mp matched
  rw [found]
  rfl

end Agreement

def overlapTable : RuleTable :=
  .number [{ Rule.always "first" with domainKeyword := ["bcd"] },
    { Rule.always "second" with domainKeyword := ["abc"] }]

theorem firstMatches_iff_overlap : ∃ engine,
    RouterEngine.new literalCrates noGeoData overlapTable.rules "default" = some engine ∧
      (FirstMatches literalCrates noGeoData overlapTable engine (.toHost "abcd") ↔
        Harmless literalCrates noGeoData overlapTable "default" (.toHost "abcd")) :=
  ⟨_, rfl, (firstMatches_iff rfl _).1⟩

/-- The keyword `abc` is reported first and hides `bcd` of the earlier rule. -/
theorem overlapping_keyword_masked : ∃ engine,
    RouterEngine.new literalCrates noGeoData overlapTable.rules "default" = some engine ∧
      ¬ FirstMatches literalCrates noGeoData overlapTable engine (.toHost "abcd") :=
  ⟨_, rfl, by unfold FirstMatches; decide⟩

end Mirage.Router
