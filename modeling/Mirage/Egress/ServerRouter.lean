import Mathlib.Data.String.Basic
import Mirage.Lib.Programs
import Mirage.Lib.NumberText
import Mirage.Router.Engine

/-!
The outbound table and the routing of a server,
proxy/mirage_server/server_router.rs. Upstream outlets are opaque; `Upstreams`
holds what the table needs of them, and `Parsers` what it needs of other crates.
Which address a name resolves to is arbitrary.
-/

namespace Mirage.Egress
open Router NumberText Programs

inductive UdpPolicy where
  | block
  | direct
  | tunnel
  deriving DecidableEq

inductive UpstreamConfig where
  | shadowsocks (server : String) (serverPort : UInt16) (password method : String)
      (udp : UdpPolicy)
  | wireguard (privateKey peerPublicKey : String) (presharedKey : Option String)
      (endpoint address : String) (mtu : Nat) (persistentKeepalive : Option UInt16)
      (udp : UdpPolicy) (dns : Option String)

/-- `other` stands for the kinds a server cannot use: `mirage`, `urltest`,
`fallback`, `selector` and `load_balance`. -/
inductive OutboundConfig where
  | direct (tag : String)
  | block (tag : String)
  | shadowsocks (tag server : String) (serverPort : UInt16) (method password : String)
      (udp : Option UdpPolicy)
  | wireguard (tag endpoint address privateKey peerPublicKey : String)
      (presharedKey : Option String) (mtu : Nat) (persistentKeepalive : Option UInt16)
      (dns : Option String) (udp : Option UdpPolicy)
  | other (tag : String)

inductive InboundConfig where
  | mirageServer (tag : String) (upstream : Option UpstreamConfig)
  | other (tag : String)

structure RuleConfig where
  modeAnd : Bool
  outbound : String
  domainSuffix : List String
  domainKeyword : List String
  domainRegex : List String
  geosite : List String
  ipCidr : List String
  geoip : List String
  sourceIpCidr : List String
  sourceMac : List String
  protocol : List String
  port : List UInt16
  inbound : List String
  processName : List String
  user : List String

structure Config where
  inbounds : List InboundConfig
  outbounds : List OutboundConfig
  rules : List RuleConfig
  defaultOutbound : String

namespace OutboundConfig

/-- `outbound_tag`. -/
def tag : OutboundConfig → String
  | .direct tag | .block tag | .shadowsocks tag .. | .wireguard tag .. | .other tag => tag

def isUpstream : OutboundConfig → Bool
  | .shadowsocks .. | .wireguard .. => true
  | _ => false

/-- The upstream that `build_server_router_state` makes of the outbound. -/
def upstream : OutboundConfig → Option UpstreamConfig
  | .shadowsocks _ server serverPort method password udp =>
      some (.shadowsocks server serverPort password method (udp.getD .block))
  | .wireguard _ endpoint address privateKey peerPublicKey presharedKey mtu keepalive dns udp =>
      some (.wireguard privateKey peerPublicKey presharedKey endpoint address mtu keepalive
        (udp.getD .tunnel) dns)
  | _ => none

end OutboundConfig

structure Upstreams (Outlet : Type) where
  buildUpstream : UpstreamConfig → Except String (Option Outlet)
  isWireguard : Outlet → Bool
  withUdp : Outlet → UdpPolicy → Outlet

structure Parsers where
  /-- `IpNet::from_str` of the ipnet crate. -/
  ipNet : String → Option IpNet
  /-- The `Debug` form of a string. -/
  debugStr : String → String

inductive ServerOutboundTarget (Outlet : Type) where
  | direct
  | upstream (outlet : Outlet)
  | reject
  deriving DecidableEq

structure ServerRouteDecision (Outlet : Type) where
  tag : String
  target : ServerOutboundTarget Outlet

structure ServerRouterState (Outlet : Type) where
  router : Option RouterEngine
  outbounds : String → Option (ServerOutboundTarget Outlet)
  inboundUpstreams : String → Option Outlet
  defaultOutbound : String
  fingerprints : List (String × String)
  freshWg : List Outlet

section Fingerprints
variable (parsers : Parsers)

def debugPolicy : UdpPolicy → String
  | .block => "Block"
  | .direct => "Direct"
  | .tunnel => "Tunnel"

def debugOption {α : Type} (debug : α → String) : Option α → String
  | some value => "Some(" ++ debug value ++ ")"
  | none => "None"

def wgTunnelFingerprint : UpstreamConfig → Option String
  | .wireguard privateKey peerPublicKey presharedKey endpoint address mtu keepalive _ dns =>
      some ("wg|" ++ privateKey ++ "|" ++ peerPublicKey ++ "|" ++
        debugOption parsers.debugStr presharedKey ++ "|" ++ endpoint ++ "|" ++ address ++ "|" ++
        mtu.repr ++ "|" ++ debugOption (·.toNat.repr) keepalive ++ "|" ++
        debugOption parsers.debugStr dns)
  | .shadowsocks .. => none

def upstreamFingerprint (upstream : UpstreamConfig) : String :=
  match upstream with
  | .shadowsocks server serverPort password method udp =>
      "ss|" ++ server ++ "|" ++ serverPort.toNat.repr ++ "|" ++ password ++ "|" ++ method ++ "|" ++
        debugPolicy udp
  | .wireguard _ _ _ _ _ _ _ udp _ =>
      (wgTunnelFingerprint parsers upstream).getD "" ++ "|udp=" ++ debugPolicy udp

/-- `rsplit_once`: what stands before the last occurrence of the pattern. -/
def beforeLast (pattern text : List Char) : Option (List Char) :=
  ((List.range (text.length + 1)).reverse.find? fun i => pattern.isPrefixOf (text.drop i)).map
    text.take

end Fingerprints

section Building
variable {Outlet : Type} (upstreams : Upstreams Outlet) (parsers : Parsers)

/-- What `outlet_for` collects while the table is built. -/
structure Outlets (Outlet : Type) where
  fingerprints : List (String × String)
  built : List (String × Outlet)
  freshWg : List Outlet

/-- `HashMap::insert`. -/
def put {α : Type} (key : String) (value : α) (map : List (String × α)) : List (String × α) :=
  map.filter (fun entry => !decide (entry.1 = key)) ++ [(key, value)]

def ServerRouterState.outletAt (state : ServerRouterState Outlet) (key : String) :
    Option Outlet :=
  let name := "inbound:".toList
  if name.isPrefixOf key.toList then
    state.inboundUpstreams (String.ofList (key.toList.drop name.length))
  else
    match state.outbounds key with
    | some (.upstream outlet) => some outlet
    | _ => none

def sharedTunnel (upstream : UpstreamConfig) (prev : Option (ServerRouterState Outlet))
    (outlets : Outlets Outlet) : Option Outlet := do
  let want ← wgTunnelFingerprint parsers upstream
  let sameTunnel (fp : String) : Bool := beforeLast "|udp=".toList fp.toList = some want.toList
  match outlets.built.find? fun entry => sameTunnel entry.1 with
  | some entry => some entry.2
  | none =>
      let before ← prev
      let entry ← before.fingerprints.find? fun entry => sameTunnel entry.2
      before.outletAt entry.1

def outletFor (key fp : String) (upstream : UpstreamConfig)
    (prev : Option (ServerRouterState Outlet)) (outlets : Outlets Outlet) :
    Except String (Option Outlet × Outlets Outlet) :=
  let reused := prev.bind fun before =>
    (before.fingerprints.find? fun entry => decide (entry.2 = fp)).bind fun entry =>
      before.outletAt entry.1
  let outlets := { outlets with fingerprints := put key fp outlets.fingerprints }
  match outlets.built.find? fun entry => decide (entry.1 = fp) with
  | some entry => .ok (some entry.2, outlets)
  | none =>
      let done (outlet : Option Outlet) (outlets : Outlets Outlet) :=
        match outlet with
        | some outlet => (some outlet, { outlets with built := put fp outlet outlets.built })
        | none => (none, outlets)
      let shared := if reused.isNone then sharedTunnel parsers upstream prev outlets else none
      let fresh : Except String (Option Outlet × Outlets Outlet) := do
        let outlet ← upstreams.buildUpstream upstream
        match outlet with
        | some outlet =>
            if upstreams.isWireguard outlet then
              .ok (done (some outlet) { outlets with freshWg := outlets.freshWg ++ [outlet] })
            else .ok (done (some outlet) outlets)
        | none => .ok (none, outlets)
      match reused, shared, upstream with
      | some outlet, _, _ => .ok (done (some outlet) outlets)
      | none, some base, .wireguard _ _ _ _ _ _ _ udp _ =>
          if upstreams.isWireguard base then .ok (done (some (upstreams.withUdp base udp)) outlets)
          else fresh
      | _, _, _ => fresh

def addInbound (prev : Option (ServerRouterState Outlet))
    (table : (String → Option Outlet) × Outlets Outlet) (inbound : InboundConfig) :
    Except String ((String → Option Outlet) × Outlets Outlet) :=
  match inbound with
  | .mirageServer tag (some upstream) => do
      let (outlet, outlets) ← outletFor upstreams parsers ("inbound:" ++ tag)
        (upstreamFingerprint parsers upstream) upstream prev table.2
      match outlet with
      | some outlet => .ok (Function.update table.1 tag (some outlet), outlets)
      | none => .ok (table.1, outlets)
  | _ => .ok table

def addOutbound (prev : Option (ServerRouterState Outlet)) (wanted : String → Bool)
    (table : (String → Option (ServerOutboundTarget Outlet)) × Outlets Outlet)
    (outbound : OutboundConfig) :
    Except String ((String → Option (ServerOutboundTarget Outlet)) × Outlets Outlet) :=
  match outbound, outbound.upstream with
  | .direct tag, _ => .ok (Function.update table.1 tag (some .direct), table.2)
  | .block tag, _ => .ok (Function.update table.1 tag (some .reject), table.2)
  | _, some upstream =>
      if !wanted outbound.tag then .ok table
      else do
        let (outlet, outlets) ← outletFor upstreams parsers outbound.tag
          (upstreamFingerprint parsers upstream) upstream prev table.2
        match outlet with
        | some outlet =>
            .ok (Function.update table.1 outbound.tag (some (.upstream outlet)), outlets)
        | none => .ok (table.1, outlets)
  | _, none => .ok table

/-- `IpAddr::from_str`. -/
def parseIpAddr (text : String) : Option IpAddr :=
  match parseIpv4 text with
  | some ip => some (.v4 ip)
  | none => (parseIpv6 text).map .v6

/-- `IpNet::from(IpAddr)`. -/
def netOf : IpAddr → IpNet
  | .v4 ip => .v4 ⟨ip, 32, Nat.le_refl _⟩
  | .v6 ip => .v6 ⟨ip, 128, Nat.le_refl _⟩

/-- The nets, or the first item that is neither a net nor an address. -/
def parseIpNets : List String → Except String (List IpNet)
  | [] => .ok []
  | item :: rest =>
      match (parsers.ipNet item).orElse fun _ => (parseIpAddr item).map netOf with
      | some net => (parseIpNets rest).map (net :: ·)
      | none => .error item

def RuleConfig.rule (config : RuleConfig) (id : Nat) : Except String Rule :=
  match parseIpNets parsers config.ipCidr with
  | .error bad => .error ("规则 ip_cidr 含非法项 `" ++ bad ++ "`")
  | .ok ipCidr =>
      match parseIpNets parsers config.sourceIpCidr with
      | .error bad => .error ("规则 source_ip_cidr 含非法项 `" ++ bad ++ "`")
      | .ok sourceIpCidr =>
          .ok
            { id := id
              mode := if config.modeAnd then "and" else "or"
              outbound := config.outbound
              domainSuffix := config.domainSuffix
              domainKeyword := config.domainKeyword
              domainRegex := config.domainRegex
              geosite := config.geosite
              ipCidr := ipCidr
              geoip := config.geoip
              sourceIpCidr := sourceIpCidr
              sourceMac := config.sourceMac
              protocol := config.protocol
              port := config.port
              inbound := config.inbound
              processName := config.processName
              user := config.user }

namespace Config
variable (config : Config)

def serverTags : List String :=
  config.inbounds.filterMap fun inbound =>
    match inbound with
    | .mirageServer tag _ => some tag
    | .other _ => none

def mixed : Bool := config.serverTags.length < config.inbounds.length

/-- In a mixed configuration only rules that name a server inbound are the server's. -/
def ruleCfgs : List RuleConfig :=
  config.rules.filter fun rule =>
    !config.mixed || rule.inbound.any config.serverTags.contains

def wanted (tag : String) : Bool :=
  !config.mixed || config.ruleCfgs.any fun rule => rule.outbound = tag

/-- Nothing but client outbounds: the configuration is from before servers routed. -/
def legacy : Bool := !config.outbounds.any OutboundConfig.isUpstream

def serverDefault : String := if config.mixed then "direct" else config.defaultOutbound

def references : List (String × String) :=
  (if config.mixed then [] else [("routing.default_outbound", config.defaultOutbound)]) ++
    config.ruleCfgs.mapIdx fun i rule =>
      ("服务端规则[" ++ i.repr ++ "].outbound", rule.outbound)

def defined (tag : String) : Bool := config.outbounds.any fun outbound => outbound.tag = tag

/-- References to outbounds that do not exist, then to those a server cannot use. -/
def undefinedRefs : List String :=
  (config.references.filter fun ref => !config.defined ref.2).map fun ref =>
    ref.1 ++ " = `" ++ ref.2 ++ "` 未定义"

def unsupportedRefs (usable : String → Bool) : List String :=
  (config.references.filter fun ref => config.defined ref.2 && !usable ref.2).map fun ref =>
    ref.1 ++ " = `" ++ ref.2 ++
      "` 不是服务端可用的出站 (仅 direct / block / shadowsocks / wireguard)"

def rulesAndErrors : List Rule × List String :=
  let parsed := config.ruleCfgs.mapIdx fun i rule => rule.rule parsers i
  (parsed.filterMap Except.toOption, parsed.filterMap errorOf)

end Config

variable (crates : Crates) (geo : GeoData)

def buildServerRouterState (config : Config) (prev : Option (ServerRouterState Outlet)) :
    Except String (ServerRouterState Outlet) := do
  let (inboundUpstreams, outlets) ←
    config.inbounds.foldlM (addInbound upstreams parsers prev) (fun _ => none, ⟨[], [], []⟩)
  let (outbounds, outlets) ←
    config.outbounds.foldlM (addOutbound upstreams parsers prev config.wanted)
      (fun _ => none, outlets)
  let unsupported := config.unsupportedRefs fun tag => (outbounds tag).isSome
  let (rules, ruleErrors) := config.rulesAndErrors parsers
  let invalid := config.undefinedRefs ++ ruleErrors
  let state (router : Option RouterEngine) : ServerRouterState Outlet :=
    { router, outbounds, inboundUpstreams, defaultOutbound := config.serverDefault,
      fingerprints := outlets.fingerprints, freshWg := outlets.freshWg }
  if invalid ≠ [] ∨ unsupported ≠ [] ∧ config.legacy = false then
    .error ("Server routing configuration invalid: " ++
      "; ".intercalate (invalid ++ unsupported))
  else if unsupported ≠ [] then .ok (state none)
  else if rules.isEmpty && config.serverDefault = "direct" then .ok (state none)
  else
    match RouterEngine.new crates geo rules config.serverDefault with
    | some engine => .ok (state (some engine))
    | none => .error "router"

end Building

section Routing
variable {Outlet : Type} (upstreams : Upstreams Outlet)

/-- `rsplitn(2, ':')`, the port, and the host without brackets. -/
def splitHostPort (target : String) : Option (String × UInt16) :=
  match target.toList.reverse.span (· ≠ ':') with
  | (_, []) => none
  | (port, _ :: host) => do
      let port ← parseUnsigned 65536 (String.ofList port.reverse)
      let host := host.reverse
      let host :=
        if host.head? = some '[' ∧ host.getLast? = some ']' then (host.drop 1).dropLast else host
      some (String.ofList host, UInt16.ofNat port)

def routingRequest (inboundTag : Option String) (target protocol : String)
    (clientIp : Option IpAddr) (user : String) : RoutingRequest :=
  let (host, port) := (splitHostPort target).getD (target, 0)
  let ip := parseIpAddr host
  { domain := if ip.isNone then some host else none
    ip := ip
    port := port
    protocol := protocol
    sourceIp := clientIp
    sourceMac := none
    inbound := inboundTag
    processName := none
    user := some user }

/-- The tag routing selects; `resolveFirst` is how names resolve. -/
def routeTag (router : RouterEngine) (resolveFirst : String → UInt16 → Option IpAddr)
    (req : RoutingRequest) : String :=
  match router.routeDecision req with
  | .matched tag => tag
  | .default tag => tag
  | .needIp =>
      match req.domain.bind (resolveFirst · req.port) with
      | some ip => router.route { req with ip := some ip }
      | none => router.route req

def ServerRouterState.route (state : ServerRouterState Outlet)
    (resolveFirst : String → UInt16 → Option IpAddr) (inboundTag : Option String)
    (target protocol : String) (clientIp : Option IpAddr) (user : String) :
    ServerRouteDecision Outlet :=
  match inboundTag.bind state.inboundUpstreams with
  | some outlet =>
      ⟨if upstreams.isWireguard outlet then "wg-upstream" else "ss-upstream", .upstream outlet⟩
  | none =>
      match state.router with
      | none => ⟨"direct", .direct⟩
      | some router =>
          let tag := routeTag router resolveFirst
            (routingRequest inboundTag target protocol clientIp user)
          ⟨tag, (state.outbounds tag).getD .reject⟩

end Routing

end Mirage.Egress
