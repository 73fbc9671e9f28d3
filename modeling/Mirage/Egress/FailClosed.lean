import Mirage.Egress.ServerRouter
import Mirage.Router.FastPath

/-!
What a server may dial directly. Whatever configuration and earlier table the
state is built from, a request that is routed goes out directly only through a
direct outbound under the tag that routing selects.
-/

namespace Mirage.Egress
open Router FirstMatch Programs

section Table
variable {Outlet : Type} {upstreams : Upstreams Outlet} {parsers : Parsers}

def OutboundConfig.Serves (outbound : OutboundConfig) : ServerOutboundTarget Outlet → Prop
  | .direct => outbound = .direct outbound.tag
  | .reject => outbound = .block outbound.tag
  | .upstream _ => outbound.isUpstream = true

/-- Each entry of the table is an outbound of the configuration. -/
def Backed (outbounds : List OutboundConfig)
    (table : String → Option (ServerOutboundTarget Outlet)) : Prop :=
  ∀ tag target, table tag = some target →
    ∃ outbound ∈ outbounds, outbound.tag = tag ∧ outbound.Serves target

theorem backed_update {outbounds : List OutboundConfig}
    {table : String → Option (ServerOutboundTarget Outlet)} {outbound : OutboundConfig}
    {target : ServerOutboundTarget Outlet} (backed : Backed outbounds table)
    (member : outbound ∈ outbounds) (serves : outbound.Serves target) :
    Backed outbounds (Function.update table outbound.tag (some target)) := by
  intro tag other found
  by_cases same : tag = outbound.tag
  · subst same
    rw [Function.update_self] at found
    cases found
    exact ⟨outbound, member, rfl, serves⟩
  · rw [Function.update_of_ne same] at found
    exact backed tag other found

theorem addOutbound_backed {outbounds : List OutboundConfig}
    {prev : Option (ServerRouterState Outlet)} {wanted : String → Bool}
    {table next : (String → Option (ServerOutboundTarget Outlet)) × Outlets Outlet}
    {outbound : OutboundConfig} (member : outbound ∈ outbounds)
    (backed : Backed outbounds table.1)
    (added : addOutbound upstreams parsers prev wanted table outbound = .ok next) :
    Backed outbounds next.1 := by
  cases outbound with
  | direct tag =>
      cases added
      exact backed_update backed member rfl
  | block tag =>
      cases added
      exact backed_update backed member rfl
  | other tag =>
      cases added
      exact backed
  | shadowsocks | wireguard =>
      simp only [addOutbound, OutboundConfig.upstream] at added
      split at added
      · cases added
        exact backed
      · obtain ⟨⟨outlet, outlets⟩, _, rest⟩ := bind_eq_ok.mp added
        cases outlet with
        | none =>
            cases rest
            exact backed
        | some outlet =>
            cases rest
            exact backed_update backed member rfl

end Table

section Selection

/-- The rule that routing settles on: the first the walk by name ends at or,
when that one needs the address, the first seen with the address found. -/
def matchedRule (router : RouterEngine) (req : RoutingRequest) (found : Option IpAddr) :
    Option Rule :=
  let size := router.ruleTable.length
  let id :=
    match req.ip, req.domain with
    | none, some _ =>
        (pick (fun id => router.stopsAt req id = true) size).bind fun id =>
          if router.defersAt req id then
            pick (fun id => router.sees { req with ip := found } id = true) size
          else some id
    | _, _ => pick (fun id => router.sees req id = true) size
  id.bind (router.ruleTable[·]?)

variable {crates : Crates} {geo : GeoData} {table : RuleTable} {fallback : OutboundTag}
  {router : RouterEngine}

theorem routeTag_eq (built : Built crates geo table fallback router)
    (resolveFirst : String → UInt16 → Option IpAddr) (req : RoutingRequest) :
    routeTag router resolveFirst req =
      ((matchedRule router req (req.domain.bind (resolveFirst · req.port))).map
        Rule.outbound).getD fallback := by
  have resolved : ∀ req, router.route req =
      (((pick (fun id => router.sees req id = true) router.ruleTable.length).bind
        (router.ruleTable[·]?)).map Rule.outbound).getD fallback := by
    intro req
    rw [RouterEngine.route, routeMatched_eq built, built.defaultOutbound, built.ruleTable]
    cases picked : pick (fun id => router.sees req id = true) table.rules.length with
    | none => rfl
    | some id =>
        obtain ⟨⟨inside, _⟩, _⟩ := pick_eq_some.mp picked
        simp [outboundOf, List.getElem?_eq_getElem inside]
  have atOnce : (∀ host, req.ip = none → req.domain ≠ some host) →
      routeTag router resolveFirst req = router.route req := by
    intro known
    have decision : router.routeDecision req =
        ((router.routeMatched req).map RouteDecision.matched).getD
          (.default router.defaultOutbound) := by
      rw [RouterEngine.routeDecision]
      split
      · next host none named => exact absurd named (known host none)
      · cases router.routeMatched req <;> rfl
    rw [routeTag, decision, RouterEngine.route]
    cases router.routeMatched req with
    | none => rfl
    | some tag => rfl
  cases unresolved : req.ip with
  | some ip =>
      rw [atOnce (fun _ none => by cases unresolved.symm.trans none), resolved, matchedRule,
        unresolved]
  | none =>
      cases domain : req.domain with
      | none =>
          rw [atOnce (fun _ _ named => by cases domain.symm.trans named), resolved, matchedRule,
            unresolved, domain]
      | some host =>
          rw [routeTag, routeDecision_eq built domain unresolved, matchedRule, unresolved, domain,
            ← built.ruleTable]
          cases picked : pick (fun id => router.stopsAt req id = true) router.ruleTable.length with
          | none => rfl
          | some id =>
              dsimp only [decided, Option.bind_some]
              by_cases defers : router.defersAt req id = true
              · rw [if_pos defers, if_pos defers]
                dsimp only
                rw [← resolved]
                cases resolveFirst host req.port with
                | some ip => rfl
                | none =>
                    have same : { req with domain := some host, ip := none } = req := by
                      rw [← domain, ← unresolved]
                    exact congrArg router.route same.symm
              · rw [if_neg defers, if_neg defers]
                rw [outboundOf, built.ruleTable]
                rfl

end Selection

section Rules
variable {parsers : Parsers} {config : Config}

theorem rule_spec {ruleCfg : RuleConfig} {id : Nat} {rule : Rule}
    (parsed : ruleCfg.rule parsers id = .ok rule) :
    rule.id = id ∧ rule.outbound = ruleCfg.outbound := by
  rw [RuleConfig.rule] at parsed
  split at parsed
  · cases parsed
  · split at parsed
    · cases parsed
    · cases parsed
      exact ⟨rfl, rfl⟩

/-- Without errors each rule of the configuration has its place in the table. -/
theorem rules_getElem? (clean : (config.rulesAndErrors parsers).2 = []) (i : Nat) (rule : Rule) :
    (config.rulesAndErrors parsers).1[i]? = some rule ↔
      ∃ ruleCfg, config.ruleCfgs[i]? = some ruleCfg ∧ ruleCfg.rule parsers i = .ok rule := by
  have whole := congrArg (·[i]?) (values_of_no_errors clean)
  simp only [List.getElem?_mapIdx, List.getElem?_map] at whole
  change _ = (config.rulesAndErrors parsers).1[i]?.map _ at whole
  constructor
  · intro here
    rw [here] at whole
    exact Option.map_eq_some_iff.mp whole
  · rintro ⟨ruleCfg, here, parsed⟩
    rw [here, Option.map_some, parsed] at whole
    obtain ⟨other, found, same⟩ := Option.map_eq_some_iff.mp whole.symm
    cases same
    exact found

theorem ruleCfgs_nil (clean : (config.rulesAndErrors parsers).2 = [])
    (none : (config.rulesAndErrors parsers).1 = []) : config.ruleCfgs = [] := by
  have whole := values_of_no_errors clean
  change _ = (config.rulesAndErrors parsers).1.map _ at whole
  rw [none] at whole
  exact List.mapIdx_eq_nil_iff.mp whole

def ruleTable (parsers : Parsers) (config : Config)
    (clean : (config.rulesAndErrors parsers).2 = []) : RuleTable where
  rules := (config.rulesAndErrors parsers).1
  aligned := by
    intro i rule here
    obtain ⟨ruleCfg, _, parsed⟩ := (rules_getElem? clean i rule).mp here
    exact (rule_spec parsed).1

theorem buildServerRouterState_spec {Outlet : Type} {upstreams : Upstreams Outlet}
    {crates : Crates} {geo : GeoData} {prev : Option (ServerRouterState Outlet)}
    {state : ServerRouterState Outlet}
    (built : buildServerRouterState upstreams parsers crates geo config prev = .ok state) :
    Backed config.outbounds state.outbounds ∧
      (config.rulesAndErrors parsers).2 = [] ∧
      match state.router with
      | some router =>
          RouterEngine.new crates geo (config.rulesAndErrors parsers).1 config.serverDefault =
            some router
      | none =>
          (config.legacy = true ∧
            ∃ ref ∈ config.references, config.defined ref.2 = true ∧
              state.outbounds ref.2 = none) ∨
          ((config.rulesAndErrors parsers).1 = [] ∧ config.serverDefault = "direct") := by
  rw [buildServerRouterState] at built
  obtain ⟨⟨inboundUpstreams, outlets⟩, _, built⟩ := bind_eq_ok.mp built
  obtain ⟨⟨outbounds, final⟩, made, built⟩ := bind_eq_ok.mp built
  have backed : Backed config.outbounds outbounds := by
    refine foldlM_keeps (fun table => Backed config.outbounds table.1) ?_ ?_ made
    · intro table outbound next member before added
      exact addOutbound_backed member before added
    · intro tag target none
      cases none
  dsimp only at built
  split at built
  · cases built
  · next clean =>
    obtain ⟨noneInvalid, supported⟩ := not_or.mp clean
    have noErrors : (config.rulesAndErrors parsers).2 = [] :=
      (List.append_eq_nil_iff.mp (not_not.mp noneInvalid)).2
    split at built
    -- A reference that no outbound serves is let pass only in a configuration of before.
    · next unsupported =>
      cases built
      refine ⟨backed, noErrors, .inl ⟨?_, ?_⟩⟩
      · rw [← Bool.not_eq_false]
        exact fun current => supported ⟨unsupported, current⟩
      · obtain ⟨text, member⟩ := List.exists_mem_of_ne_nil _ unsupported
        obtain ⟨ref, filtered, _⟩ := List.mem_map.mp member
        obtain ⟨referenced, bad⟩ := List.mem_filter.mp filtered
        rw [Bool.and_eq_true, Bool.not_eq_true', Option.isSome_eq_false_iff,
          Option.isNone_iff_eq_none] at bad
        exact ⟨ref, referenced, bad⟩
    · split at built
      · next empty =>
        cases built
        rw [Bool.and_eq_true, List.isEmpty_iff, decide_eq_true_iff] at empty
        exact ⟨backed, noErrors, .inr empty⟩
      · split at built
        · next engine made =>
          cases built
          exact ⟨backed, noErrors, made⟩
        · cases built

end Rules

/-- A server that routes dials directly only through a direct outbound under
the tag of the matched rule, or of the default when no rule matches, and refuses
when nothing but block outbounds carry that tag, whatever names resolve to. An
inbound with an upstream of its own always goes there, and a state without a
router is one of a configuration from before servers routed, or without rules. -/
theorem egress_fail_closed {Outlet : Type} {upstreams : Upstreams Outlet} {parsers : Parsers}
    {crates : Crates} {geo : GeoData} {config : Config} {prev : Option (ServerRouterState Outlet)}
    {state : ServerRouterState Outlet}
    (built : buildServerRouterState upstreams parsers crates geo config prev = .ok state)
    (resolveFirst : String → UInt16 → Option IpAddr) (inboundTag : Option String)
    (target protocol : String) (clientIp : Option IpAddr) (user : String) :
    let decision := state.route upstreams resolveFirst inboundTag target protocol clientIp user
    let req := routingRequest inboundTag target protocol clientIp user
    match inboundTag.bind state.inboundUpstreams, state.router with
    | some outlet, _ => decision.target = .upstream outlet
    | none, none =>
        decision.target = .direct ∧
          ((config.legacy = true ∧ ∃ ref ∈ config.references, config.defined ref.2 = true ∧
              state.outbounds ref.2 = none) ∨
            (config.ruleCfgs = [] ∧ config.serverDefault = "direct"))
    | none, some router =>
        let matched := matchedRule router req (req.domain.bind (resolveFirst · req.port))
        decision.tag = (matched.map Rule.outbound).getD config.serverDefault ∧
          (∀ rule, matched = some rule →
            ∃ i, ∃ ruleCfg ∈ config.ruleCfgs, ruleCfg.rule parsers i = .ok rule) ∧
          (decision.target = .direct → .direct decision.tag ∈ config.outbounds) ∧
          ((∀ outbound ∈ config.outbounds, outbound.tag = decision.tag →
            outbound = .block decision.tag) → decision.target = .reject) := by
  obtain ⟨backed, clean, routing⟩ := buildServerRouterState_spec built
  intro decision req
  cases own : inboundTag.bind state.inboundUpstreams with
  | some outlet =>
      simp only [decision, ServerRouterState.route, own]
  | none =>
      cases made : state.router with
      | none =>
          rw [made] at routing
          refine ⟨by simp only [decision, ServerRouterState.route, own, made], ?_⟩
          rcases routing with old | ⟨none, plain⟩
          · exact .inl old
          · exact .inr ⟨ruleCfgs_nil clean none, plain⟩
      | some router =>
          rw [made] at routing
          have engine : Built crates geo (ruleTable parsers config clean) config.serverDefault
              router := built_of_new routing
          have tag : decision.tag = routeTag router resolveFirst req := by
            simp only [decision, ServerRouterState.route, own, made, req]
          have outlet : decision.target = (state.outbounds decision.tag).getD .reject := by
            simp only [decision, ServerRouterState.route, own, made]
          refine ⟨tag.trans (routeTag_eq engine resolveFirst req), ?_, ?_, ?_⟩
          · intro rule matched
            obtain ⟨id, _, here⟩ := Option.bind_eq_some_iff.mp matched
            rw [engine.ruleTable] at here
            obtain ⟨ruleCfg, there, parsed⟩ := (rules_getElem? clean id rule).mp here
            exact ⟨id, ruleCfg, List.mem_of_getElem? there, parsed⟩
          · intro direct
            rw [outlet] at direct
            cases found : state.outbounds decision.tag with
            | none =>
                rw [found] at direct
                cases direct
            | some target =>
                rw [found] at direct
                cases direct
                obtain ⟨outbound, member, same, serves⟩ := backed _ _ found
                rw [← same, ← serves]
                exact member
          -- An upstream under this tag would serve an outbound that is not a block.
          · intro onlyBlock
            rw [outlet]
            cases found : state.outbounds decision.tag with
            | none => rfl
            | some target =>
                obtain ⟨outbound, member, same, serves⟩ := backed _ _ found
                have blocks := onlyBlock outbound member same
                cases target with
                | reject => rfl
                | direct =>
                    rw [OutboundConfig.Serves, blocks] at serves
                    cases serves
                | upstream other =>
                    rw [OutboundConfig.Serves, blocks] at serves
                    cases serves

/-- A configuration copied from a client: no upstream outbound, a rule for one
that a server cannot use, and a rule that blocks. -/
def copiedConfig : Config where
  inbounds := [.mirageServer "srv" none]
  outbounds := [.direct "direct", .block "block", .other "us"]
  rules :=
    [{ modeAnd := false, outbound := "block", domainSuffix := ["ads.example"],
       domainKeyword := [], domainRegex := [], geosite := [], ipCidr := [], geoip := [],
       sourceIpCidr := [], sourceMac := [], protocol := [], port := [], inbound := [],
       processName := [], user := [] },
     { modeAnd := false, outbound := "us", domainSuffix := ["example.org"],
       domainKeyword := [], domainRegex := [], geosite := [], ipCidr := [], geoip := [],
       sourceIpCidr := [], sourceMac := [], protocol := [], port := [], inbound := [],
       processName := [], user := [] }]
  defaultOutbound := "direct"

def serverConfig : Config :=
  { copiedConfig with
    outbounds := [.direct "direct", .block "block",
      .shadowsocks "us" "192.0.2.1" 8388 "aes-128-gcm" "secret" none] }

/-- Outlets are the configurations they are built from. -/
def plainUpstreams : Upstreams UpstreamConfig where
  buildUpstream upstream := .ok (some upstream)
  isWireguard upstream :=
    match upstream with
    | .wireguard .. => true
    | .shadowsocks .. => false
  withUdp upstream _ := upstream

def plainParsers : Parsers := ⟨fun _ => none, fun text => text⟩

def inboundConfig : Config :=
  { serverConfig with
    inbounds := [.mirageServer "srv"
      (some (.shadowsocks "192.0.2.1" 8388 "secret" "aes-128-gcm" .block))] }

/-- The blocked name is refused. -/
theorem egress_fail_closed_block :
    ∃ state, buildServerRouterState plainUpstreams plainParsers literalCrates noGeoData
        serverConfig none = .ok state ∧
      (state.route plainUpstreams (fun _ _ => none) (some "srv") "x.ads.example:443" "tcp" none
        "default").target = .reject := by
  obtain ⟨state, built, own, routes, tag⟩ : ∃ state,
      buildServerRouterState plainUpstreams plainParsers literalCrates noGeoData serverConfig none =
        .ok state ∧ (some "srv").bind state.inboundUpstreams = none ∧ state.router.isSome = true ∧
      (state.route plainUpstreams (fun _ _ => none) (some "srv") "x.ads.example:443" "tcp" none
        "default").tag = "block" := ⟨_, rfl, rfl, rfl, rfl⟩
  obtain ⟨router, made⟩ := Option.isSome_iff_exists.mp routes
  have spec := egress_fail_closed built (fun _ _ => none) (some "srv") "x.ads.example:443" "tcp"
    none "default"
  simp only [own, made, tag] at spec
  refine ⟨state, built, spec.2.2.2 ?_⟩
  intro outbound member same
  simp only [serverConfig, copiedConfig, List.mem_cons, List.not_mem_nil, or_false] at member
  rcases member with rfl | rfl | rfl
  · exact absurd same (by decide)
  · rfl
  · exact absurd same (by decide)

/-- With the copied configuration the server dials what its rules block, and an
inbound with an upstream sends it there. -/
theorem blocked_name_dialed :
    (∃ state, buildServerRouterState plainUpstreams plainParsers literalCrates noGeoData
        copiedConfig none = .ok state ∧
      (state.route plainUpstreams (fun _ _ => none) (some "srv") "x.ads.example:443" "tcp" none
        "default").target = .direct) ∧
    (∃ router, RouterEngine.new literalCrates noGeoData
        (copiedConfig.rulesAndErrors plainParsers).1 copiedConfig.serverDefault = some router ∧
      (matchedRule router (routingRequest (some "srv") "x.ads.example:443" "tcp" none "default")
        none).map Rule.outbound = some "block") ∧
    ∃ state, buildServerRouterState plainUpstreams plainParsers literalCrates noGeoData
        inboundConfig none = .ok state ∧
      (state.route plainUpstreams (fun _ _ => none) (some "srv") "x.ads.example:443" "tcp" none
        "default").target ≠ .reject := by
  refine ⟨⟨_, rfl, rfl⟩, ⟨_, rfl, rfl⟩, ⟨_, rfl, ?_⟩⟩
  rintro ⟨⟩

end Mirage.Egress
