import Mirage.Router.Seen

/-!
`route_decision` against `route_matched` after the name is resolved. The walk
of `route_decision` ends at the first rule that `stops`; a rule that stops for
good is also seen with every address. What can go wrong is the other way
round: a rule whose only addresses come from a geosite file reports no address
condition, so the walk passes over it although some addresses match it.
-/

namespace Mirage.Router
open AddressPrefix PrefixTrie KeywordScan Tally FirstMatch

def RoutingRequest.resolved (req : RoutingRequest) (ip : IpAddr) : RoutingRequest :=
  { req with ip := some ip }

namespace RouterEngine
variable (engine : RouterEngine)

def stopsAt (req : RoutingRequest) (id : RuleId) : Bool :=
  match engine.ruleTable[id]? with
  | some rule => rule.eligible req && rule.stops (engine.domainHit req id)
  | none => false

def defersAt (req : RoutingRequest) (id : RuleId) : Bool :=
  match engine.ruleTable[id]? with
  | some rule => rule.defers (engine.domainHit req id)
  | none => false

/-- The rule holds the address but declares no address condition, and its
domain conditions miss the host. -/
def hides (geo : GeoData) (req : RoutingRequest) (ip : IpAddr) (id : RuleId) : Bool :=
  match engine.ruleTable[id]? with
  | some rule => rule.eligible req && !engine.domainHit req id && !rule.hasIpFilters &&
      rule.ipPart geo (some ip)
  | none => false

/-- No answer given without an address is contradicted by any address. -/
def FastPathAgrees (req : RoutingRequest) : Prop :=
  ∀ ip : IpAddr,
    (∀ tag, engine.routeDecision req = .matched tag →
      engine.routeMatched (req.resolved ip) = some tag) ∧
    (∀ tag, engine.routeDecision req = .default tag →
      engine.routeMatched (req.resolved ip) = none)

end RouterEngine

namespace Rule
variable {rule : Rule} {domainHit : Bool}

/-- Once the walk ends with an answer, no address changes the verdict. -/
theorem counted_of_stops (stopped : rule.stops domainHit = true)
    (final : rule.defers domainHit = false) (ipHit : Bool) :
    rule.counted domainHit ipHit = true := by
  by_cases mode : rule.mode = "and" <;> cases domains : rule.hasDomainFilters <;>
    cases addresses : rule.hasIpFilters <;> cases domainHit <;>
    simp_all [stops, defers, counted, hasNetworkFilters]

/-- A rule the walk passes over is seen later exactly for a hidden address. -/
theorem counted_of_passed (passed : rule.stops domainHit = false) (ipHit : Bool) :
    rule.counted domainHit ipHit = (!domainHit && !rule.hasIpFilters && ipHit) := by
  by_cases mode : rule.mode = "and" <;> cases domains : rule.hasDomainFilters <;>
    cases addresses : rule.hasIpFilters <;> cases domainHit <;>
    simp_all [stops, counted, hasNetworkFilters]

end Rule

section Walk
variable {crates : Crates} {geo : GeoData} {table : RuleTable} {fallback : OutboundTag}
  {engine : RouterEngine}

def decided (engine : RouterEngine) (table : RuleTable) (fallback : OutboundTag)
    (req : RoutingRequest) : Option RuleId → RouteDecision
  | some id =>
      if engine.defersAt req id then .needIp else .matched (outboundOf table fallback id)
  | none => .default fallback

theorem decideFrom_cons (engine : RouterEngine) (req : RoutingRequest) (host : String)
    (domain : req.domain = some host) (id : RuleId) (rule : Rule) (rest : List Rule) :
    engine.decideFrom req (engine.matchDomainRuleIds host) id (rule :: rest) =
      if rule.eligible req && rule.stops (engine.domainHit req id) then
        if rule.defers (engine.domainHit req id) then .needIp else .matched rule.outbound
      else engine.decideFrom req (engine.matchDomainRuleIds host) (id + 1) rest := by
  have hit : engine.domainHit req id = (engine.matchDomainRuleIds host).contains id := by
    simp [RouterEngine.domainHit, domain]
  rw [RouterEngine.decideFrom, Rule.eligible, hit]
  cases rule.matchesPort req.port <;> cases rule.matchesExtra req <;>
    by_cases mode : rule.mode = "and" <;> cases domains : rule.hasDomainFilters <;>
    cases addresses : rule.hasIpFilters <;>
    cases (engine.matchDomainRuleIds host).contains id <;>
    simp [Rule.stops, Rule.defers, Rule.hasNetworkFilters, mode, domains, addresses]

theorem decideFrom_eq (built : Built crates geo table fallback engine) {req : RoutingRequest}
    {host : String} (domain : req.domain = some host) (rest : List Rule) (start : RuleId)
    (suffix : table.rules.drop start = rest) :
    engine.decideFrom req (engine.matchDomainRuleIds host) start rest =
      decided engine table fallback req
        ((List.range' start rest.length).find? fun id => engine.stopsAt req id) := by
  induction rest generalizing start with
  | nil => simp [RouterEngine.decideFrom, decided, built.defaultOutbound]
  | cons rule rest ih =>
      have here : table.rules[start]? = some rule := by
        rw [← List.head?_drop, suffix, List.head?_cons]
      have later : table.rules.drop (start + 1) = rest := by
        rw [← List.tail_drop, suffix, List.tail_cons]
      have stops : engine.stopsAt req start =
          (rule.eligible req && rule.stops (engine.domainHit req start)) := by
        simp [RouterEngine.stopsAt, built.ruleTable, here]
      rw [decideFrom_cons engine req host domain, ← stops, List.length_cons,
        List.range'_succ, List.find?_cons]
      cases ended : engine.stopsAt req start with
      | true => simp [decided, RouterEngine.defersAt, built.ruleTable, here, outboundOf]
      | false => simpa using ih (start + 1) later

theorem routeDecision_eq (built : Built crates geo table fallback engine) {req : RoutingRequest}
    {host : String} (domain : req.domain = some host) (unresolved : req.ip = none) :
    engine.routeDecision req = decided engine table fallback req
      (pick (fun id => engine.stopsAt req id = true) table.rules.length) := by
  have walk := decideFrom_eq built domain table.rules 0 rfl
  rw [← List.range_eq_range'] at walk
  simpa [RouterEngine.routeDecision, domain, unresolved, built.ruleTable, pick] using walk

/-- On the rules the walk stops at for good, both paths agree; on the others
the resolved path sees the hidden addresses. -/
theorem sees_resolved (built : Built crates geo table fallback engine) (req : RoutingRequest)
    (ip : IpAddr) {id : RuleId} (inside : id < table.rules.length) :
    (engine.stopsAt req id = true → engine.defersAt req id = false →
      engine.sees (req.resolved ip) id = true) ∧
    (engine.stopsAt req id = false →
      engine.sees (req.resolved ip) id = engine.hides geo req ip id) := by
  have here := List.getElem?_eq_getElem inside
  have same : engine.domainHit (req.resolved ip) id = engine.domainHit req id := rfl
  have able : (table.rules[id]).eligible (req.resolved ip) = (table.rules[id]).eligible req := rfl
  rw [sees_iff built (req.resolved ip) here, same, able]
  simp only [RouterEngine.stopsAt, RouterEngine.defersAt, RouterEngine.hides, built.ruleTable,
    here, Bool.and_eq_true, Bool.and_eq_false_iff]
  constructor
  · rintro ⟨meets, stopped⟩ final
    exact ⟨meets, Rule.counted_of_stops stopped final _⟩
  · intro passed
    cases meets : (table.rules[id]).eligible req with
    | false => simp
    | true =>
        rw [Rule.counted_of_passed (passed.resolve_left (by simp [meets]))]
        simp [RoutingRequest.resolved, Bool.and_assoc]

theorem stopsAt_inside (built : Built crates geo table fallback engine) {req : RoutingRequest}
    {id : RuleId} (stopped : engine.stopsAt req id = true) : id < table.rules.length := by
  rw [RouterEngine.stopsAt, built.ruleTable] at stopped
  cases here : table.rules[id]? with
  | none => simp [here] at stopped
  | some rule => exact (List.getElem?_eq_some_iff.mp here).1

theorem hides_inside (built : Built crates geo table fallback engine) {req : RoutingRequest}
    {ip : IpAddr} {id : RuleId} (hidden : engine.hides geo req ip id = true) :
    id < table.rules.length := by
  rw [RouterEngine.hides, built.ruleTable] at hidden
  cases here : table.rules[id]? with
  | none => simp [here] at hidden
  | some rule => exact (List.getElem?_eq_some_iff.mp here).1

theorem first_stop (built : Built crates geo table fallback engine) (req : RoutingRequest)
    (j : RuleId) :
    First (fun k => k < table.rules.length ∧ engine.stopsAt req k = true) j ↔
      First (fun k => engine.stopsAt req k = true) j :=
  First.congr fun _ => ⟨And.right, fun stopped => ⟨stopsAt_inside built stopped, stopped⟩⟩

/-- A rule that hides an address ahead of the walk's end is made good there. -/
def MadeGood (engine : RouterEngine) (geo : GeoData) (req : RoutingRequest) (ip : IpAddr)
    (good : RuleId → RuleId → Prop) : Prop :=
  ∀ i, engine.hides geo req ip i = true →
    (∀ k < i, engine.stopsAt req k = false ∧ engine.hides geo req ip k = false) →
    ∃ j, First (fun k => engine.stopsAt req k = true) j ∧ good i j

/-- Where the walk ends with an answer, one address agrees with it exactly when
every rule that hides the address is made good by the answer itself. -/
theorem resolved_agrees_iff (built : Built crates geo table fallback engine)
    (req : RoutingRequest) (ip : IpAddr)
    (final : ∀ j, First (fun k => engine.stopsAt req k = true) j → engine.defersAt req j = false) :
    engine.routeMatched (req.resolved ip) =
        (pick (fun k => engine.stopsAt req k = true) table.rules.length).map
          (outboundOf table fallback) ↔
      MadeGood engine geo req ip fun i j =>
        outboundOf table fallback j = outboundOf table fallback i := by
  rw [routeMatched_eq built, eq_comm, picks_agree_iff]
  have seen := fun {id : RuleId} (inside : id < table.rules.length) =>
    sees_resolved built req ip inside
  constructor
  · intro recovers i hidden fresh
    have inside := hides_inside built hidden
    have idle : ∀ k < i, ¬ engine.stopsAt req k = true ∧
        ¬ engine.sees (req.resolved ip) k = true := by
      intro k before
      obtain ⟨passed, clear⟩ := fresh k before
      rw [(seen (Nat.lt_trans before inside)).2 passed, clear, passed]
      simp
    by_cases stopped : engine.stopsAt req i = true
    · exact ⟨i, ⟨stopped, fun k before => (idle k before).1⟩, rfl⟩
    · have visible := (seen inside).2 (Bool.eq_false_iff.mpr stopped)
      obtain ⟨j, first, same⟩ := (recovers i inside idle).2 (visible.trans hidden) stopped
      exact ⟨j, (first_stop built req j).mp first, same⟩
  · intro good i inside idle
    constructor
    · intro stopped unseen
      have first : First (fun k => engine.stopsAt req k = true) i :=
        ⟨stopped, fun k before => (idle k before).1⟩
      exact absurd ((seen inside).1 stopped (final i first)) unseen
    · intro visible stopped
      have passed := Bool.eq_false_iff.mpr stopped
      rw [(seen inside).2 passed] at visible
      have fresh : ∀ k < i, engine.stopsAt req k = false ∧ engine.hides geo req ip k = false := by
        intro k before
        have passedBefore := Bool.eq_false_iff.mpr (idle k before).1
        refine ⟨passedBefore, ?_⟩
        rw [← (seen (Nat.lt_trans before inside)).2 passedBefore]
        exact Bool.eq_false_iff.mpr (idle k before).2
      obtain ⟨j, first, same⟩ := good i visible fresh
      exact ⟨j, (first_stop built req j).mpr first, same⟩

/-- The fast path is right exactly when every rule that hides an address ahead
of the end of the walk is made good there: the walk asks for the address, or
goes where the hiding rule would have gone. -/
theorem fastPathAgrees_iff
    (made : RouterEngine.new crates geo table.rules fallback = some engine)
    (req : RoutingRequest) (named : req.domain.isSome = true) (unresolved : req.ip = none) :
    engine.FastPathAgrees req ↔ ∀ ip, MadeGood engine geo req ip fun i j =>
      engine.defersAt req j = true ∨
        outboundOf table fallback j = outboundOf table fallback i := by
  have built := built_of_new made
  obtain ⟨host, domain⟩ := Option.isSome_iff_exists.mp named
  have ends := routeDecision_eq built domain unresolved
  by_cases asks : ∃ j, First (fun k => engine.stopsAt req k = true) j ∧
      engine.defersAt req j = true
  · obtain ⟨j, first, deferred⟩ := asks
    rw [pick_eq_some.mpr ((first_stop built req j).mpr first)] at ends
    simp only [decided, deferred, if_true] at ends
    constructor
    · intro _ ip i _ _
      exact ⟨j, first, Or.inl deferred⟩
    · intro _ ip
      simp [ends]
  · have final : ∀ j, First (fun k => engine.stopsAt req k = true) j →
        engine.defersAt req j = false := by
      intro j first
      exact Bool.eq_false_iff.mpr fun deferred => asks ⟨j, first, deferred⟩
    refine forall_congr' fun ip => ?_
    have agrees := resolved_agrees_iff built req ip final
    have sameGood : (MadeGood engine geo req ip fun i j => engine.defersAt req j = true ∨
          outboundOf table fallback j = outboundOf table fallback i) ↔
        MadeGood engine geo req ip fun i j =>
          outboundOf table fallback j = outboundOf table fallback i := by
      constructor
      · intro good i hidden fresh
        obtain ⟨j, first, deferred | same⟩ := good i hidden fresh
        · rw [final j first] at deferred
          cases deferred
        · exact ⟨j, first, same⟩
      · intro good i hidden fresh
        obtain ⟨j, first, same⟩ := good i hidden fresh
        exact ⟨j, first, Or.inr same⟩
    rw [sameGood, ← agrees, ends]
    cases chosen : pick (fun k => engine.stopsAt req k = true) table.rules.length with
    | none => simp [decided]
    | some j =>
        have first := (first_stop built req j).mp (pick_eq_some.mp chosen)
        simp [decided, final j first, eq_comm]

end Walk

theorem eight_le_width : 8 ≤ 32 := by decide

def cidrGeosite : GeoData :=
  { noGeoData with
    loadSingboxJson := fun _ =>
      some ([⟨.rootDomain, "a.com"⟩], [.v4 ⟨0x0a000000#32, 8, eight_le_width⟩]) }

def geositeTable : RuleTable :=
  .number [{ Rule.always "proxy" with geosite := ["set.json"] }]

theorem fastPathAgrees_iff_geosite : ∃ engine,
    RouterEngine.new literalCrates cidrGeosite geositeTable.rules "direct" = some engine ∧
      (engine.FastPathAgrees (.toHost "b.com") ↔
        ∀ ip, MadeGood engine cidrGeosite (.toHost "b.com") ip fun i j =>
          engine.defersAt (.toHost "b.com") j = true ∨
            outboundOf geositeTable "direct" j = outboundOf geositeTable "direct" i) :=
  ⟨_, rfl, fastPathAgrees_iff rfl _ rfl rfl⟩

/-- The walk answers with the default outbound, but the file holds 10.1.2.3. -/
theorem geosite_cidr_missed : ∃ engine,
    RouterEngine.new literalCrates cidrGeosite geositeTable.rules "direct" = some engine ∧
      ¬ engine.FastPathAgrees (.toHost "b.com") := by
  refine ⟨_, rfl, fun agrees => ?_⟩
  have resolved := (agrees (.v4 0x0a010203#32)).2 "direct" (by decide)
  revert resolved
  decide

end Mirage.Router
