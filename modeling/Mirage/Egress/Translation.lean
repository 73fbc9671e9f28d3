import Mirage.Router.FirstRule
import Mirage.Egress.FailClosed

/-!
The rules of a configuration as config_watcher.rs hands them to the client's
router: those of device profiles under their networks, then the global ones,
with the addresses that parse.
-/

namespace Mirage.Egress
open Router FirstMatch Programs

structure DeviceProfile where
  sourceIpCidr : List String
  profile : String

structure RoutingConfig extends Config where
  profiles : String → Option (List RuleConfig)
  deviceProfiles : List DeviceProfile

section Source
variable (parsers : Parsers)

def itemNet (item : String) : Option IpNet :=
  (parsers.ipNet item).orElse fun _ => (parseIpAddr item).map netOf

/-- What does not parse is dropped. -/
def nets (items : List String) : List IpNet := items.filterMap (itemNet parsers)

def RuleConfig.toRule (config : RuleConfig) (id : Nat) (ipCidr srcCidrs : List IpNet) : Rule where
  id := id
  mode := if config.modeAnd then "and" else "or"
  outbound := config.outbound
  domainSuffix := config.domainSuffix
  domainKeyword := config.domainKeyword
  domainRegex := config.domainRegex
  geosite := config.geosite
  ipCidr := ipCidr
  geoip := config.geoip
  sourceIpCidr := srcCidrs
  sourceMac := config.sourceMac
  protocol := config.protocol
  port := config.port
  inbound := config.inbound
  processName := config.processName
  user := config.user

namespace RoutingConfig
variable (config : RoutingConfig)

def hasServerInbound : Bool := !config.serverTags.isEmpty

def isPureServer : Bool :=
  !config.inbounds.isEmpty && config.inbounds.all fun inbound =>
    match inbound with
    | .mirageServer .. => true
    | .other _ => false

/-- The networks of a device entry are put in the place of a rule's own. -/
def allRuleCfgs : List RuleConfig :=
  let deviceRules := config.deviceProfiles.flatMap fun dp =>
    match config.profiles dp.profile with
    | some profileRules => profileRules.map ({ · with sourceIpCidr := dp.sourceIpCidr })
    | none => []
  if config.isPureServer then [] else deviceRules ++ config.rules

def clientTable : RuleTable where
  rules := config.allRuleCfgs.mapIdx fun i r =>
    r.toRule i (nets parsers r.ipCidr) (nets parsers r.sourceIpCidr)
  aligned := by
    intro i rule here
    simp only [List.getElem?_mapIdx, Option.map_eq_some_iff] at here
    obtain ⟨source, _, rfl⟩ := here
    rfl

def missing (running : List String) : List String :=
  ((config.defaultOutbound :: (config.clientTable parsers).rules.map Rule.outbound).filter
    fun tag => !running.contains tag).dedup.mergeSort

end RoutingConfig

variable {Outlet : Type} (upstreams : Upstreams Outlet) (crates : Crates) (geo : GeoData)

/-- A configuration without server inbounds needs no server table. -/
def srvState (config : RoutingConfig) (prev : Option (ServerRouterState Outlet)) :
    Except String (Option (ServerRouterState Outlet)) :=
  if config.hasServerInbound then
    (buildServerRouterState upstreams parsers crates geo config.toConfig prev).map some
  else .ok none

/-- The server's table and the client's router of `build_state`. On a reload the
outbounds go on running, and the routing may name no others. -/
def buildState (config : RoutingConfig) (running : Option (List String))
    (prev : Option (ServerRouterState Outlet)) :
    Except String (Option (ServerRouterState Outlet) × RouterEngine) := do
  let srvState ← srvState parsers upstreams crates geo config prev
  let missing := (running.map (config.missing parsers)).getD []
  if config.isPureServer = false ∧ missing ≠ [] then
    .error ("routing references non-existent outbound [" ++
      ", ".intercalate (missing.map parsers.debugStr) ++ "] at runtime (adding/removing outbounds " ++
      "does not support hot reload), reload rejected, please restart service")
  else
    match RouterEngine.new crates geo (config.clientTable parsers).rules config.defaultOutbound with
    | some engine => .ok (srvState, engine)
    | none => .error "router"

end Source

/-- A rule as configured, with the networks of the device entry it is for. -/
structure Configured where
  scope : Option (List String)
  rule : RuleConfig

section Meaning
variable (parsers : Parsers) (crates : Crates) (geo : GeoData)

/-- In the order in which they are asked. A pure server has no client requests. -/
def RoutingConfig.configured (config : RoutingConfig) : List Configured :=
  if config.isPureServer then []
  else (config.deviceProfiles.flatMap fun dp =>
    ((config.profiles dp.profile).getD []).map fun rule => ⟨some dp.sourceIpCidr, rule⟩) ++
      config.rules.map fun rule => ⟨none, rule⟩

/-- An item that does not parse holds no address. -/
def within (items : List String) (source : Option IpAddr) : Bool :=
  match source with
  | some ip => items.any fun item => (itemNet parsers item).any fun net => net.contains ip
  | none => false

namespace Configured
variable (configured : Configured) (req : RoutingRequest)

def sourceHolds (source : Option IpAddr) : Bool :=
  (configured.rule.sourceIpCidr.isEmpty || within parsers configured.rule.sourceIpCidr source) &&
    match configured.scope with
    | some networks => within parsers networks source
    | none => true

/-- The rule without its source networks. -/
def unscoped : Rule := configured.rule.toRule 0 (nets parsers configured.rule.ipCidr) []

/-- All of a rule's conditions, an address condition being one whatever its
items are. -/
def holds : Bool :=
  let rule := configured.unscoped parsers
  let domainPart := rule.domainPart crates geo req.domain
  let ipPart := rule.ipPart geo req.ip
  let hasIpFilters := !configured.rule.ipCidr.isEmpty || !configured.rule.geoip.isEmpty
  rule.eligible req && configured.sourceHolds parsers req.sourceIp &&
    if configured.rule.modeAnd then
      (!rule.hasDomainFilters || domainPart) && (!hasIpFilters || ipPart)
    else domainPart || ipPart || !(rule.hasDomainFilters || hasIpFilters)

def srcCidrs : List IpNet := nets parsers (configured.scope.getD configured.rule.sourceIpCidr)

def translated (id : Nat) : Rule :=
  configured.rule.toRule id (nets parsers configured.rule.ipCidr) (configured.srcCidrs parsers)

/-- The only address condition is a list of which no item parses. -/
def ipLost : Bool :=
  !configured.rule.ipCidr.isEmpty && (nets parsers configured.rule.ipCidr).isEmpty &&
    configured.rule.geoip.isEmpty

/-- What is left of the rule holds, but the request comes from elsewhere, or a
lost address condition was needed. -/
def widened : Bool :=
  (configured.translated parsers 0).naive crates geo req &&
    (!configured.sourceHolds parsers req.sourceIp ||
      configured.ipLost parsers &&
        (configured.rule.modeAnd || !(configured.unscoped parsers).hasDomainFilters) &&
          !(configured.unscoped parsers).ipPart geo req.ip)

variable {parsers crates geo} {configured req}

theorem within_eq (items : List String) (source : Option IpAddr) :
    within parsers items source = match source with
      | some ip => (nets parsers items).any fun net => net.contains ip
      | none => false := by
  cases source with
  | none => rfl
  | some ip =>
      simp only [within, nets, List.any_filterMap]
      congr 1

theorem eligible_scoped (rule : Rule) (sources : List IpNet) :
    ({ rule with sourceIpCidr := sources } : Rule).eligible req =
      (({ rule with sourceIpCidr := [] } : Rule).eligible req && (sources.isEmpty ||
        match req.sourceIp with
        | some source => sources.any fun net => net.contains source
        | none => false)) := by
  simp only [Rule.eligible, Rule.matchesExtra, Rule.matchesPort, List.isEmpty_nil, Bool.not_true,
    Bool.false_and, Bool.false_eq_true, if_false]
  generalize (if rule.port.isEmpty = true then true else rule.port.contains req.port) = port
  generalize (!rule.protocol.isEmpty && !rule.protocol.contains req.protocol) = protocol
  generalize (!rule.sourceMac.isEmpty && !rule.sourceMac.contains (req.sourceMac.getD "")) = mac
  generalize Rule.admits rule.inbound req.inbound = inbound
  generalize Rule.admits rule.processName req.processName = process
  generalize Rule.admits rule.user req.user = user
  generalize sources.isEmpty = all
  cases req.sourceIp with
  | none =>
      cases all <;> cases port <;> cases protocol <;> cases mac <;> cases inbound <;>
        cases process <;> cases user <;> rfl
  | some source =>
      cases found : (sources.any fun net => net.contains source) <;> simp only [found] <;>
        cases all <;> cases port <;> cases protocol <;> cases mac <;>
        cases inbound <;> cases process <;> cases user <;> rfl

theorem eligible_translated (id : Nat) :
    (configured.translated parsers id).eligible req =
      ((configured.unscoped parsers).eligible req && ((configured.srcCidrs parsers).isEmpty ||
        within parsers (configured.scope.getD configured.rule.sourceIpCidr) req.sourceIp)) := by
  rw [within_eq]
  exact eligible_scoped (configured.translated parsers id) (configured.srcCidrs parsers)

/-- The source the router checks is no narrower than the configured one. -/
theorem source_of_holds (inside : configured.sourceHolds parsers req.sourceIp = true) :
    ((configured.srcCidrs parsers).isEmpty ||
      within parsers (configured.scope.getD configured.rule.sourceIpCidr) req.sourceIp) = true := by
  simp only [sourceHolds, Bool.and_eq_true, Bool.or_eq_true] at inside ⊢
  cases scope : configured.scope with
  | some networks =>
      rw [scope] at inside
      exact Or.inr inside.2
  | none =>
      rcases inside.1 with open_ | own
      · left
        rw [srcCidrs, scope, Option.getD_none, List.isEmpty_iff.mp open_]
        rfl
      · exact Or.inr own

/-- A rule holds as configured where its translation does without being widened. -/
theorem holds_eq (id : Nat) :
    configured.holds parsers crates geo req =
      ((configured.translated parsers id).naive crates geo req &&
        !configured.widened parsers crates geo req) := by
  have source := @source_of_holds parsers configured req
  have named := @domainPart_hasDomainFilters crates geo (configured.unscoped parsers) req.domain
  have domains : (configured.translated parsers id).hasDomainFilters =
    (configured.unscoped parsers).hasDomainFilters := rfl
  have domainPart : (configured.translated parsers id).domainPart crates geo req.domain =
    (configured.unscoped parsers).domainPart crates geo req.domain := rfl
  have ipPart : (configured.translated parsers id).ipPart geo req.ip =
    (configured.unscoped parsers).ipPart geo req.ip := rfl
  have addresses : (configured.translated parsers id).hasIpFilters =
    (!(nets parsers configured.rule.ipCidr).isEmpty || !configured.rule.geoip.isEmpty) := rfl
  have mode : (configured.translated parsers id).mode =
    if configured.rule.modeAnd then "and" else "or" := rfl
  have sameNaive : (configured.translated parsers 0).naive crates geo req =
    (configured.translated parsers id).naive crates geo req := rfl
  have declared : configured.rule.ipCidr.isEmpty = true →
      (nets parsers configured.rule.ipCidr).isEmpty = true := by
    intro empty
    rw [List.isEmpty_iff.mp empty]
    rfl
  unfold widened
  rw [sameNaive]
  simp only [holds, Rule.naive, eligible_translated, Rule.combine, Rule.hasNetworkFilters, domains,
    domainPart, ipPart, addresses, mode, ipLost]
  generalize ((configured.srcCidrs parsers).isEmpty || within parsers (configured.scope.getD
    configured.rule.sourceIpCidr) req.sourceIp) = loose at source ⊢
  generalize configured.sourceHolds parsers req.sourceIp = strict at source ⊢
  generalize (configured.unscoped parsers).domainPart crates geo req.domain = domainPart at named ⊢
  generalize (configured.unscoped parsers).ipPart geo req.ip = ipPart
  generalize (configured.unscoped parsers).hasDomainFilters = domains at named ⊢
  generalize (configured.unscoped parsers).eligible req = able
  generalize (nets parsers configured.rule.ipCidr).isEmpty = noNets at declared ⊢
  generalize configured.rule.ipCidr.isEmpty = noItems at declared ⊢
  generalize configured.rule.geoip.isEmpty = noGeoip
  generalize configured.rule.modeAnd = modeAnd
  have both : ((if modeAnd then "and" else "or") = "and") = (modeAnd = true) := by
    cases modeAnd <;> simp
  simp only [both]
  revert named declared source
  decide +revert

end Configured

theorem allRuleCfgs_eq (config : RoutingConfig) :
    config.allRuleCfgs = config.configured.map fun configured =>
      { configured.rule with
        sourceIpCidr := configured.scope.getD configured.rule.sourceIpCidr } := by
  unfold RoutingConfig.allRuleCfgs RoutingConfig.configured
  cases config.isPureServer with
  | true => rfl
  | false =>
      simp only [Bool.false_eq_true, if_false, List.map_append, List.map_flatMap, List.map_map]
      congr 1
      · congr 1
        funext dp
        cases config.profiles dp.profile <;> rfl
      · exact (List.map_id _).symm

theorem clientTable_get (config : RoutingConfig) (i : Nat) :
    (config.clientTable parsers).rules[i]? =
      config.configured[i]?.map fun configured => configured.translated parsers i := by
  rw [RoutingConfig.clientTable, List.getElem?_mapIdx, allRuleCfgs_eq, List.getElem?_map,
    Option.map_map]
  rfl

namespace RoutingConfig
variable (config : RoutingConfig) (req : RoutingRequest)

def holdsAt (i : Nat) : Bool :=
  config.configured[i]?.any fun configured => configured.holds parsers crates geo req

def widenedAt (i : Nat) : Bool :=
  config.configured[i]?.any fun configured => configured.widened parsers crates geo req

def outboundAt (i : Nat) : OutboundTag :=
  (config.configured[i]?.map fun configured => configured.rule.outbound).getD config.defaultOutbound

/-- The router's reading of a translated rule, with the keywords it misses and
the addresses it counts for domains. -/
def takenAt (i : Nat) : Bool :=
  naiveAt crates geo (config.clientTable parsers) req i &&
      !masks crates geo (config.clientTable parsers) req i ||
    leaks crates geo (config.clientTable parsers) req i

end RoutingConfig

/-- The client routes by the first configured rule that holds. -/
def RoutesByFirst (config : RoutingConfig) (engine : RouterEngine) (req : RoutingRequest) : Prop :=
  engine.routeMatched req =
    (config.configured.find? fun configured => configured.holds parsers crates geo req).map
      fun configured => configured.rule.outbound

/-- Where the first rule is reached that holds or is taken, and it does not hold
as configured or is not taken, the other side comes to the same outbound. -/
def Kept (config : RoutingConfig) (req : RoutingRequest) : Prop :=
  let table := config.clientTable parsers
  ∀ i, (∀ k < i, config.holdsAt parsers crates geo req k = false ∧
      config.takenAt parsers crates geo req k = false) →
    (masks crates geo table req i = true → config.widenedAt parsers crates geo req i = false →
      ∃ j, First (fun k => config.takenAt parsers crates geo req k = true) j ∧
        config.outboundAt j = config.outboundAt i) ∧
    (config.widenedAt parsers crates geo req i = true ∧ masks crates geo table req i = false ∨
        leaks crates geo table req i = true →
      ∃ j, First (fun k => config.holdsAt parsers crates geo req k = true) j ∧
        config.outboundAt j = config.outboundAt i)

section Client
variable {parsers crates geo} {config : RoutingConfig} {engine : RouterEngine} {req : RoutingRequest}

theorem naiveAt_eq (i : Nat) : naiveAt crates geo (config.clientTable parsers) req i =
    config.configured[i]?.any fun configured =>
      (configured.translated parsers i).naive crates geo req := by
  rw [naiveAt, clientTable_get]
  cases config.configured[i]? <;> rfl

theorem holdsAt_eq (i : Nat) : config.holdsAt parsers crates geo req i =
    (naiveAt crates geo (config.clientTable parsers) req i &&
      !config.widenedAt parsers crates geo req i) := by
  rw [naiveAt_eq, RoutingConfig.holdsAt, RoutingConfig.widenedAt]
  cases config.configured[i]? with
  | none => rfl
  | some configured => exact Configured.holds_eq i

theorem naiveAt_of_widened {i : Nat} (wider : config.widenedAt parsers crates geo req i = true) :
    naiveAt crates geo (config.clientTable parsers) req i = true := by
  rw [naiveAt_eq]
  rw [RoutingConfig.widenedAt] at wider
  cases here : config.configured[i]? with
  | none =>
      rw [here] at wider
      cases wider
  | some configured =>
      rw [here] at wider
      exact (Bool.and_eq_true_iff.mp wider).1

theorem outboundAt_eq (i : Nat) : outboundOf (config.clientTable parsers) config.defaultOutbound i =
    config.outboundAt i := by
  rw [outboundOf, clientTable_get, RoutingConfig.outboundAt]
  cases config.configured[i]? <;> rfl

theorem routesByFirst_iff
    (built : Built crates geo (config.clientTable parsers) config.defaultOutbound engine) :
    RoutesByFirst parsers crates geo config engine req ↔
      Kept parsers crates geo config req := by
  have size : (config.clientTable parsers).rules.length = config.configured.length := by
    rw [RoutingConfig.clientTable, List.length_mapIdx, allRuleCfgs_eq, List.length_map]
  have labels : outboundOf (config.clientTable parsers) config.defaultOutbound = config.outboundAt :=
    funext outboundAt_eq
  have seen : ∀ k, engine.sees req k = config.takenAt parsers crates geo req k :=
    sees_eq built req
  have holdsInside : ∀ k, config.holdsAt parsers crates geo req k = true →
      k < config.configured.length := by
    intro k holds
    rw [holdsAt_eq, Bool.and_eq_true] at holds
    exact Nat.lt_of_lt_of_eq (naiveAt_inside holds.1) size
  have takenInside : ∀ k, config.takenAt parsers crates geo req k = true →
      k < config.configured.length := by
    intro k taken
    rw [RoutingConfig.takenAt, Bool.or_eq_true, Bool.and_eq_true] at taken
    exact Nat.lt_of_lt_of_eq (taken.elim (fun plain => naiveAt_inside plain.1) leaks_inside) size
  have firstHolds : ∀ j, First (fun k => k < config.configured.length ∧
      config.holdsAt parsers crates geo req k = true) j ↔
        First (fun k => config.holdsAt parsers crates geo req k = true) j := fun j =>
    First.congr fun k => ⟨And.right, fun holds => ⟨holdsInside k holds, holds⟩⟩
  have firstTaken : ∀ j, First (fun k => k < config.configured.length ∧
      config.takenAt parsers crates geo req k = true) j ↔
        First (fun k => config.takenAt parsers crates geo req k = true) j := fun j =>
    First.congr fun k => ⟨And.right, fun taken => ⟨takenInside k taken, taken⟩⟩
  -- Both sides pick the first rule of a predicate, one that holds and one that is taken.
  have routes : RoutesByFirst parsers crates geo config engine req ↔
      (pick (fun k => config.holdsAt parsers crates geo req k = true) config.configured.length).map
          config.outboundAt =
        (pick (fun k => config.takenAt parsers crates geo req k = true)
          config.configured.length).map config.outboundAt := by
    rw [RoutesByFirst, routeMatched_eq built, find_eq_pick _ _ _ config.defaultOutbound, size, labels]
    simp only [seen]
    exact eq_comm
  rw [routes, picks_agree_iff]
  simp only [Recovers, firstHolds, firstTaken, Bool.not_eq_true]
  -- A rule is missed that holds, or taken that does not: one half of `Kept` for each.
  constructor
  · intro recovers i fresh
    constructor
    · intro masked plain
      have naive := naiveAt_of_masks masked
      have holds : config.holdsAt parsers crates geo req i = true := by
        rw [holdsAt_eq, naive, plain]
        rfl
      have untaken : config.takenAt parsers crates geo req i = false := by
        rw [RoutingConfig.takenAt, masked, Bool.not_true, Bool.and_false, Bool.false_or]
        cases leaking : leaks crates geo (config.clientTable parsers) req i with
        | false => rfl
        | true => rw [naiveAt_of_leaks leaking] at naive; cases naive
      exact (recovers i (holdsInside i holds) fresh).1 holds untaken
    · intro wrong
      have taken : config.takenAt parsers crates geo req i = true := by
        rw [RoutingConfig.takenAt]
        rcases wrong with ⟨wider, plain⟩ | leaking
        · rw [naiveAt_of_widened wider, plain]
          rfl
        · rw [leaking, Bool.or_true]
      have misses : config.holdsAt parsers crates geo req i = false := by
        rw [holdsAt_eq]
        rcases wrong with ⟨wider, _⟩ | leaking
        · rw [wider, Bool.not_true, Bool.and_false]
        · rw [naiveAt_of_leaks leaking, Bool.false_and]
      exact (recovers i (takenInside i taken) fresh).2 taken misses
  · intro kept i inside fresh
    constructor
    · intro holds untaken
      rw [holdsAt_eq, Bool.and_eq_true, Bool.not_eq_true'] at holds
      rw [RoutingConfig.takenAt, holds.1, Bool.true_and, Bool.or_eq_false_iff, Bool.not_eq_false']
        at untaken
      exact (kept i fresh).1 untaken.1 holds.2
    · intro taken misses
      rw [RoutingConfig.takenAt, Bool.or_eq_true, Bool.and_eq_true, Bool.not_eq_true'] at taken
      rw [holdsAt_eq] at misses
      refine (kept i fresh).2 (taken.imp_left fun plain => ⟨?_, plain.2⟩)
      rwa [plain.1, Bool.true_and, Bool.not_eq_false'] at misses

end Client

section Server
variable {parsers crates geo}

theorem parseIpNets_cons (item : String) (rest : List String) :
    parseIpNets parsers (item :: rest) =
      match itemNet parsers item with
      | some net => (parseIpNets parsers rest).map (net :: ·)
      | none => .error item := rfl

theorem nets_of_parsed {items : List String} {list : List IpNet}
    (parsed : parseIpNets parsers items = .ok list) :
    nets parsers items = list ∧ items.length = list.length := by
  induction items generalizing list with
  | nil =>
      cases parsed
      exact ⟨rfl, rfl⟩
  | cons item rest ih =>
      rw [parseIpNets_cons] at parsed
      cases found : itemNet parsers item with
      | none =>
          rw [found] at parsed
          cases parsed
      | some net =>
          rw [found] at parsed
          cases tail : parseIpNets parsers rest with
          | error bad =>
              rw [tail] at parsed
              cases parsed
          | ok nets =>
              rw [tail] at parsed
              cases parsed
              obtain ⟨same, size⟩ := ih tail
              rw [← same]
              exact ⟨List.filterMap_cons_some found, by rw [List.length_cons, size, same]; rfl⟩

theorem isEmpty_of_parsed {items : List String} {list : List IpNet}
    (parsed : parseIpNets parsers items = .ok list) :
    (nets parsers items).isEmpty = items.isEmpty := by
  obtain ⟨rfl, size⟩ := nets_of_parsed parsed
  rw [Bool.eq_iff_iff, List.isEmpty_iff_length_eq_zero, List.isEmpty_iff_length_eq_zero, size]

theorem rule_holds {ruleCfg : RuleConfig} {id : Nat} {rule : Rule}
    (parsed : ruleCfg.rule parsers id = .ok rule) (req : RoutingRequest) :
    rule.naive crates geo req =
      (Configured.mk none ruleCfg).holds parsers crates geo req := by
  rw [RuleConfig.rule] at parsed
  split at parsed
  · cases parsed
  · next ipCidr addresses =>
    split at parsed
    · cases parsed
    · next srcCidrs sources =>
      have translated : rule = (Configured.mk none ruleCfg).translated parsers id := by
        cases parsed
        rw [Configured.translated, Configured.srcCidrs, Option.getD_none,
          (nets_of_parsed addresses).1, (nets_of_parsed sources).1]
        rfl
      have kept : (Configured.mk none ruleCfg).ipLost parsers = false := by
        rw [Configured.ipLost, isEmpty_of_parsed addresses]
        cases ruleCfg.ipCidr.isEmpty <;> rfl
      rw [translated, Configured.holds_eq id]
      cases naive : ((Configured.mk none ruleCfg).translated parsers id).naive crates geo req with
      | false => rfl
      | true =>
          have inside : (Configured.mk none ruleCfg).sourceHolds parsers req.sourceIp = true := by
            have able := (Bool.and_eq_true_iff.mp naive).1
            rw [Configured.eligible_translated, Bool.and_eq_true] at able
            rw [Configured.sourceHolds, Bool.and_true, ← isEmpty_of_parsed sources]
            exact able.2
          rw [Configured.widened, inside, kept]
          simp

end Server

/-- The server's router has each of its rules as configured. There is none where
nothing is routed, or for a configuration from before servers routed. -/
def ServerSame {Outlet : Type} (config : RoutingConfig) (server : Option (ServerRouterState Outlet)) :
    Prop :=
  ∀ state ∈ server, match state.router with
    | some router => router.ruleTable.length = config.ruleCfgs.length ∧
        ∀ (i : Nat) (rule : Rule), router.ruleTable[i]? = some rule →
          ∃ ruleCfg, config.ruleCfgs[i]? = some ruleCfg ∧ rule.outbound = ruleCfg.outbound ∧
            ∀ req, rule.naive crates geo req =
              (Configured.mk none ruleCfg).holds parsers crates geo req
    | none => config.ruleCfgs = [] ∧ config.serverDefault = "direct" ∨ config.legacy = true

section Whole
variable {Outlet : Type} {upstreams : Upstreams Outlet} {parsers crates geo} {config : RoutingConfig}
  {running : Option (List String)} {prev : Option (ServerRouterState Outlet)}
  {server : Option (ServerRouterState Outlet)} {engine : RouterEngine}

theorem buildState_spec
    (built : buildState parsers upstreams crates geo config running prev = .ok (server, engine)) :
    RouterEngine.new crates geo (config.clientTable parsers).rules config.defaultOutbound =
        some engine ∧
      ∀ state ∈ server,
        buildServerRouterState upstreams parsers crates geo config.toConfig prev = .ok state := by
  rw [buildState] at built
  obtain ⟨own, made, built⟩ := bind_eq_ok.mp built
  have served : ∀ state ∈ own,
      buildServerRouterState upstreams parsers crates geo config.toConfig prev = .ok state := by
    intro state member
    rw [Option.mem_def] at member
    subst member
    rw [srvState] at made
    split at made
    · cases served : buildServerRouterState upstreams parsers crates geo config.toConfig prev with
      | error bad =>
          rw [served] at made
          cases made
      | ok other =>
          rw [served] at made
          cases made
          rfl
    · cases made
  dsimp only at built
  split at built
  · cases built
  · split at built
    · next made =>
      cases built
      exact ⟨made, served⟩
    · cases built

/-- A state that was built routes as configured exactly where no rule that lost
its networks, and none that the router misreads, comes first. -/
theorem translation_iff
    (built : buildState parsers upstreams crates geo config running prev = .ok (server, engine))
    (req : RoutingRequest) :
    RoutesByFirst parsers crates geo config engine req ∧
        ServerSame parsers crates geo config server ↔
      Kept parsers crates geo config req := by
  obtain ⟨made, served⟩ := buildState_spec built
  have same : ServerSame parsers crates geo config server := by
    intro state member
    obtain ⟨_, clean, routing⟩ := buildServerRouterState_spec (served state member)
    cases routed : state.router with
    | none =>
        rw [routed] at routing
        exact routing.symm.imp (fun bare => ⟨ruleCfgs_nil clean bare.1, bare.2⟩) And.left
    | some router =>
        rw [routed] at routing
        have table := (@built_of_new _ _ (ruleTable parsers config.toConfig clean) _ _
          routing).ruleTable
        refine ⟨?_, fun i rule here => ?_⟩
        · rw [table]
          have whole := congrArg List.length (values_of_no_errors clean)
          rw [List.length_mapIdx, List.length_map] at whole
          exact whole.symm
        · rw [table] at here
          obtain ⟨ruleCfg, there, parsed⟩ := (rules_getElem? clean i rule).mp here
          exact ⟨ruleCfg, there, (rule_spec parsed).2, rule_holds parsed⟩
  rw [and_iff_left same]
  exact routesByFirst_iff (built_of_new made)

end Whole

end Meaning

def ruleFor (outbound : String) (domainSuffix ipCidr : List String) : RuleConfig where
  modeAnd := false
  outbound := outbound
  domainSuffix := domainSuffix
  domainKeyword := []
  domainRegex := []
  geosite := []
  ipCidr := ipCidr
  geoip := []
  sourceIpCidr := []
  sourceMac := []
  protocol := []
  port := []
  inbound := []
  processName := []
  user := []

/-- A rule whose only prefix is too long, and a device entry with a wrong address. -/
def mistypedConfig : RoutingConfig where
  inbounds := [.other "in"]
  outbounds := [.direct "direct", .block "block", .other "us"]
  rules := [ruleFor "us" ["a.com"] [], ruleFor "block" [] ["10.0.0.0/33"]]
  defaultOutbound := "direct"
  profiles name := if name = "kids" then some [ruleFor "block" ["ads.com"] []] else none
  deviceProfiles := [⟨["192.168.1.300"], "kids"⟩]

theorem translation_iff_mistyped : ∃ engine,
    buildState plainParsers plainUpstreams literalCrates noGeoData mistypedConfig none none =
        .ok (none, engine) ∧
      Kept plainParsers literalCrates noGeoData mistypedConfig (.toHost "a.com") := by
  obtain ⟨engine, built, routes⟩ : ∃ engine, buildState plainParsers plainUpstreams literalCrates
        noGeoData mistypedConfig none none = .ok (none, engine) ∧
      RoutesByFirst plainParsers literalCrates noGeoData mistypedConfig engine (.toHost "a.com") :=
    ⟨_, rfl, rfl⟩
  exact ⟨engine, built, (translation_iff built _).mp ⟨routes, fun _ missing => (nomatch missing)⟩⟩

/-- The rule takes every request, and the profile of one device that of all. -/
theorem mistyped_rules_widen :
    (¬ ∀ (config : RoutingConfig) (running : Option (List String))
        (prev : Option (ServerRouterState UpstreamConfig))
        (server : Option (ServerRouterState UpstreamConfig)) (engine : RouterEngine)
        (req : RoutingRequest),
      buildState plainParsers plainUpstreams literalCrates noGeoData config running prev =
        .ok (server, engine) →
      RoutesByFirst plainParsers literalCrates noGeoData config engine req ∧
        ServerSame plainParsers literalCrates noGeoData config server) ∧
    ∃ engine, buildState plainParsers plainUpstreams literalCrates noGeoData mistypedConfig none none =
        .ok (none, engine) ∧
      engine.routeMatched (.toHost "b.com") = some "block" ∧
      engine.routeMatched (.toHost "ads.com") = some "block" := by
  refine ⟨fun always => ?_, _, rfl, rfl, rfl⟩
  have routes := (always mistypedConfig none none none _ (.toHost "b.com") rfl).1
  cases routes

end Mirage.Egress
