import Mirage.Router.Seen

/-!
The addresses that the kernel sends out directly, against what user space
would have done with the flow. A direct prefix is exported unless a prefix of
another rule with a different target overlaps it; rules without prefixes and
the default outbound have no say in that.
-/

namespace Mirage.Router
open AddressPrefix PrefixTrie KeywordScan Tally FirstMatch

inductive OutboundNode where
  | mirage
  | wireguard
  | direct
  | block
  | shadowsocks
  | urltest
  | fallback
  | selector
  | loadBalance
  deriving DecidableEq

/-- The part of config_watcher.rs's `CoreState` that decides the export. -/
structure CoreState where
  router : RouterEngine
  outbounds : OutboundTag → Option OutboundNode

namespace CoreState

def isDirect (state : CoreState) (tag : OutboundTag) : Bool :=
  decide (state.outbounds tag = some .direct)

def directV4Cidrs (state : CoreState) : List Ipv4Net :=
  state.router.directV4Cidrs state.isDirect

def Diverts (state : CoreState) (ip : BitVec 32) : Prop :=
  ∃ net ∈ state.directV4Cidrs, net.contains ip = true

/-- A request to the address for which no domain is known. -/
def Plain (req : RoutingRequest) (ip : BitVec 32) : Prop :=
  req.domain = none ∧ req.ip = some (.v4 ip)

def BypassSound (state : CoreState) : Prop :=
  ∀ ip, state.Diverts ip → ∀ req, Plain req ip →
    ∀ tag, state.router.routeMatched req = some tag → state.isDirect tag = true

/-- The same with the default outbound for requests no rule matches. -/
def DiversionSound (state : CoreState) : Prop :=
  ∀ ip, state.Diverts ip → ∀ req, Plain req ip →
    state.isDirect (state.router.route req) = true

end CoreState

section Conditions
variable (geo : GeoData) (table : RuleTable) (state : CoreState)

/-- A direct rule has a prefix around the address that is clear of every prefix
of the other rules. -/
def Cleared (ip : BitVec 32) : Prop :=
  ∃ rule ∈ table.rules, ∃ net : Ipv4Net, state.isDirect rule.outbound = true ∧
    Entry.cidr (.v4 net) ∈ ruleEntries geo rule ∧ net.contains ip = true ∧
    ∀ other ∈ table.rules, state.isDirect other.outbound = false →
      ∀ blocked : Ipv4Net, Entry.cidr (.v4 blocked) ∈ ruleEntries geo other →
        overlaps net blocked = false

/-- A request without a domain meets the rule. -/
def claimsAt (req : RoutingRequest) (id : RuleId) : Bool :=
  match table.rules[id]? with
  | some rule => rule.eligible req && rule.counted false (rule.ipPart geo req.ip)
  | none => false

/-- Every proxy rule without domain and address conditions comes too late for
the request. -/
def BareRulesShadowed (req : RoutingRequest) : Prop :=
  ∀ (i : RuleId) (rule : Rule), table.rules[i]? = some rule → rule.hasNetworkFilters = false →
    rule.eligible req = true → state.isDirect rule.outbound = false →
    ∃ j < i, claimsAt geo table req j = true

end Conditions

namespace Rule

theorem counted_bare {rule : Rule} (bare : rule.hasNetworkFilters = false)
    (domainHit ipHit : Bool) : rule.counted domainHit ipHit = true := by
  obtain ⟨domains, addresses⟩ := Bool.or_eq_false_iff.mp bare
  simp [counted, bare, domains, addresses]

theorem bare_of_counted {rule : Rule} (counted : rule.counted false false = true) :
    rule.hasNetworkFilters = false := by
  rw [Rule.counted] at counted
  split at counted
  · cases counted
  · simpa using counted

end Rule

section Export
variable {crates : Crates} {geo : GeoData} {table : RuleTable} {fallback : OutboundTag}
  {state : CoreState}

theorem mem_allV4Cidrs (built : Built crates geo table fallback state.router) (net : Ipv4Net)
    (id : RuleId) :
    (net, id) ∈ state.router.tables.allV4Cidrs ↔ ∃ rule, table.rules[id]? = some rule ∧
      Entry.cidr (.v4 net) ∈ ruleEntries geo rule := by
  rw [built.tables.allV4Cidrs, mem_v4Of, mem_filed]

theorem diverts_iff (built : Built crates geo table fallback state.router) (ip : BitVec 32) :
    state.Diverts ip ↔ Cleared geo table state ip := by
  have target : ∀ {id : RuleId} {rule : Rule}, table.rules[id]? = some rule →
      ((state.router.ruleTable[id]?.map fun rule => state.isDirect rule.outbound).getD false) =
        state.isDirect rule.outbound := by
    intro id rule here
    rw [built.ruleTable, here]
    rfl
  simp only [CoreState.Diverts, CoreState.directV4Cidrs, RouterEngine.directV4Cidrs, mem_dedup,
    List.mem_insertionSort, List.mem_filter, List.mem_map, Prod.exists, exists_and_right,
    exists_eq_right, mem_allV4Cidrs built, List.any_eq_true, Bool.not_eq_true',
    Bool.eq_false_iff, ne_eq, not_exists, not_and]
  constructor
  · rintro ⟨net, ⟨⟨id, ⟨rule, here, filed⟩, direct⟩, clear⟩, inside⟩
    rw [target here] at direct
    refine ⟨rule, List.mem_of_getElem? here, net, direct, filed, inside, ?_⟩
    intro other listed proxied blocked blockedBy
    have there := (table.mem_iff other).mp listed
    refine Bool.eq_false_iff.mpr (clear blocked ⟨other.id, ⟨other, there, blockedBy⟩, ?_⟩)
    rw [target there, proxied]
    simp
  · rintro ⟨rule, listed, net, direct, filed, inside, clear⟩
    have here := (table.mem_iff rule).mp listed
    refine ⟨net, ⟨⟨rule.id, ⟨rule, here, filed⟩, (target here).trans direct⟩, ?_⟩, inside⟩
    rintro blocked ⟨id, ⟨other, there, blockedBy⟩, proxied⟩
    rw [target there] at proxied
    exact Bool.eq_false_iff.mp (clear other (List.mem_of_getElem? there)
      (Bool.eq_false_iff.mpr proxied) blocked blockedBy)

/-- Inside an exported prefix no other rule's prefix can hold the address. -/
theorem ipPart_of_cleared {ip : BitVec 32} (cleared : Cleared geo table state ip) {rule : Rule}
    (listed : rule ∈ table.rules) (proxied : state.isDirect rule.outbound = false) :
    rule.ipPart geo (some (.v4 ip)) = false := by
  obtain ⟨_, _, net, _, _, inside, clear⟩ := cleared
  rw [Bool.eq_false_iff]
  intro part
  obtain ⟨entry, filed, meets⟩ := List.any_eq_true.mp part
  cases entry with
  | full _ | suffix _ | keyword _ | regex _ => cases meets
  | cidr found =>
      cases found with
      | v6 _ => cases meets
      | v4 blocked =>
          have common := overlaps_of_common inside meets
          rw [clear rule listed proxied blocked filed] at common
          cases common

theorem claimsAt_eq (built : Built crates geo table fallback state.router)
    {req : RoutingRequest} (nameless : req.domain = none) (id : RuleId) :
    state.router.sees req id = claimsAt geo table req id := by
  cases here : table.rules[id]? with
  | none => simp [RouterEngine.sees, built.ruleTable, claimsAt, here]
  | some rule => rw [sees_iff built req here, domainHit_none req nameless]; simp [claimsAt, here]

theorem routeMatched_direct_iff (built : Built crates geo table fallback state.router)
    {ip : BitVec 32} (cleared : Cleared geo table state ip) {req : RoutingRequest}
    (plain : CoreState.Plain req ip) :
    (∀ tag, state.router.routeMatched req = some tag → state.isDirect tag = true) ↔
      BareRulesShadowed geo table state req := by
  obtain ⟨nameless, addressed⟩ := plain
  rw [routeMatched_eq built]
  simp only [claimsAt_eq built nameless]
  constructor
  · intro sound i rule here bare able proxied
    by_contra late
    have claims : claimsAt geo table req i = true := by
      simp [claimsAt, here, able, Rule.counted_bare bare]
    have first : First (fun k => k < table.rules.length ∧ claimsAt geo table req k = true) i :=
      ⟨⟨(List.getElem?_eq_some_iff.mp here).1, claims⟩,
        fun k before other => late ⟨k, before, other.2⟩⟩
    have direct := sound rule.outbound (by simp [pick_eq_some.mpr first, outboundOf, here])
    rw [proxied] at direct
    cases direct
  · intro shadowed tag matched
    obtain ⟨i, chosen, rfl⟩ := Option.map_eq_some_iff.mp matched
    obtain ⟨⟨inside, claims⟩, least⟩ := pick_eq_some.mp chosen
    have here := List.getElem?_eq_getElem inside
    have target : outboundOf table fallback i = (table.rules[i]).outbound := by
      simp [outboundOf, here]
    rw [target]
    by_contra other
    have proxied := Bool.eq_false_iff.mpr other
    have outside := ipPart_of_cleared cleared (List.getElem_mem inside) proxied
    simp only [claimsAt, here, addressed, outside, Bool.and_eq_true] at claims
    -- Without a domain and outside the rule's prefixes only a bare rule is seen.
    have bare := Rule.bare_of_counted claims.2
    obtain ⟨j, before, earlier⟩ := shadowed i _ here bare claims.1 proxied
    exact least j before ⟨Nat.lt_trans before inside, earlier⟩

theorem route_direct_iff (built : Built crates geo table fallback state.router)
    {ip : BitVec 32} (cleared : Cleared geo table state ip) {req : RoutingRequest}
    (plain : CoreState.Plain req ip) :
    state.isDirect (state.router.route req) = true ↔
      BareRulesShadowed geo table state req ∧
        (state.isDirect fallback = true ∨ ∃ j, claimsAt geo table req j = true) := by
  rw [← routeMatched_direct_iff built cleared plain, RouterEngine.route, built.defaultOutbound,
    routeMatched_eq built]
  simp only [claimsAt_eq built plain.1]
  cases chosen : pick (fun id => claimsAt geo table req id = true) table.rules.length with
  | some i =>
      have claims := (pick_eq_some.mp chosen).1.2
      have taken : ∃ j, claimsAt geo table req j = true := ⟨i, claims⟩
      simp [taken]
  | none =>
      have idle : ¬ ∃ j, claimsAt geo table req j = true := by
        rintro ⟨j, claims⟩
        cases here : table.rules[j]? with
        | none => simp [claimsAt, here] at claims
        | some rule =>
            exact pick_eq_none.mp chosen j (List.getElem?_eq_some_iff.mp here).1 claims
      simp [idle]

/-- The export is sound exactly when every proxy rule without domain and
address conditions is shadowed on the exported addresses, and with the default
outbound counted in, when that is direct too or never reached. -/
theorem bypassSound_iff
    (made : RouterEngine.new crates geo table.rules fallback = some state.router) :
    (state.BypassSound ↔ ∀ ip, Cleared geo table state ip → ∀ req, CoreState.Plain req ip →
      BareRulesShadowed geo table state req) ∧
    (state.DiversionSound ↔ ∀ ip, Cleared geo table state ip → ∀ req, CoreState.Plain req ip →
      BareRulesShadowed geo table state req ∧
        (state.isDirect fallback = true ∨ ∃ j, claimsAt geo table req j = true)) := by
  have built := built_of_new made
  simp only [CoreState.BypassSound, CoreState.DiversionSound, diverts_iff built]
  constructor
  · exact forall_congr' fun ip => forall_congr' fun cleared => forall_congr' fun req =>
      forall_congr' fun plain => routeMatched_direct_iff built cleared plain
  · exact forall_congr' fun ip => forall_congr' fun cleared => forall_congr' fun req =>
      forall_congr' fun plain => route_direct_iff built cleared plain

end Export

def portTable : RuleTable :=
  .number [{ Rule.always "proxy" with port := [443] },
    { Rule.always "direct" with ipCidr := [.v4 ⟨0x0a000000#32, 8, by decide⟩] }]

def proxyOutbounds (tag : OutboundTag) : Option OutboundNode :=
  if tag = "proxy" then some .mirage else if tag = "direct" then some .direct else none

theorem bypassSound_iff_port : ∃ state : CoreState,
    state.outbounds = proxyOutbounds ∧
    RouterEngine.new literalCrates noGeoData portTable.rules "direct" = some state.router ∧
      (state.BypassSound ↔ ∀ ip, Cleared noGeoData portTable state ip → ∀ req,
        CoreState.Plain req ip → BareRulesShadowed noGeoData portTable state req) :=
  ⟨⟨_, proxyOutbounds⟩, rfl, rfl, (bypassSound_iff rfl).1⟩

/-- Port 443 is proxied by the first rule, and 10.0.0.0/8 is exported. -/
theorem port_rule_bypassed : ∃ state : CoreState,
    state.outbounds = proxyOutbounds ∧
    RouterEngine.new literalCrates noGeoData portTable.rules "direct" = some state.router ∧
      ¬ state.BypassSound := by
  refine ⟨⟨_, proxyOutbounds⟩, rfl, rfl, fun sound => ?_⟩
  have direct := sound 0x0a010203#32
    ⟨⟨0x0a000000#32, 8, by decide⟩, by decide, by decide⟩
    { RoutingRequest.toHost "" with domain := none, ip := some (.v4 0x0a010203#32) }
    ⟨rfl, rfl⟩ "proxy" (by decide)
  revert direct
  decide

end Mirage.Router
