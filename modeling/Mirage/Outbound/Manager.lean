import Mathlib.Logic.Function.Basic
import Mirage.Lib.Rounds
import Mirage.Lib.Word
import Mirage.Router.Rule
import Mirage.Shadowsocks.Reader

/-!
`OutboundManager::new` of proxy/outbound.rs and `OutboundConfig::group_members`
of config.rs. An `Arc` of a node is the node's place in the list of all nodes
made so far. `Tools` holds what other crates and the file of selector choices
answer. Probes, counters, rate control and log lines are left out.
-/

namespace Mirage.Outbound
open Word Rounds Function Router Shadowsocks

inductive Transport where
  | tcp
  | quic
  deriving DecidableEq

structure MirageConfig where
  tag : String
  server : String
  serverPort : UInt16
  password : String
  camouflageHost : String
  poolSize : Nat
  underlying : Option String
  pfs : Bool
  transport : Transport
  quicWindowMb : Option Nat
  quicErasureCc : Option Bool
  quicSni : Option String
  quicLowSrcPort : Option Bool
  quicPrePacket : Option Bool
  quicObfs : Option String
  quicPin : Option String

structure ShadowsocksConfig where
  tag : String
  server : String
  serverPort : UInt16
  method : String
  password : String
  underlying : Option String

structure WireguardConfig where
  tag : String
  privateKey : String
  peerPublicKey : String
  presharedKey : Option String
  endpoint : String
  address : String
  mtu : Nat
  persistentKeepalive : Option UInt16
  dns : Option String

inductive GroupKind where
  | urltest (tolerance : Nat) (testType : String)
  | fallback
  | selector
  | loadBalance
  deriving DecidableEq

namespace GroupKind

def name : GroupKind → String
  | urltest _ _ => "urltest"
  | fallback => "fallback"
  | selector => "selector"
  | loadBalance => "load_balance"

end GroupKind

/-- The fields that `Urltest`, `Fallback`, `Selector` and `LoadBalance` share. -/
structure GroupConfig where
  kind : GroupKind
  tag : String
  outbounds : List String
  filter : Option String

inductive OutboundConfig where
  | mirage (config : MirageConfig)
  | shadowsocks (config : ShadowsocksConfig)
  | wireguard (config : WireguardConfig)
  | direct (tag : String)
  | block (tag : String)
  | group (config : GroupConfig)

structure Tools where
  /-- `Regex::new` and `is_match`. -/
  regex : String → Except String (String → Bool)
  /-- Base64 of the trimmed text. -/
  base64 : String → Option Bytes
  parseIp : String → Option IpAddr
  /-- The recorded choices of selectors. -/
  persisted : String → Option String

namespace OutboundConfig

def tag : OutboundConfig → String
  | mirage config => config.tag
  | shadowsocks config => config.tag
  | wireguard config => config.tag
  | direct tag | block tag => tag
  | group config => config.tag

def isLeafProxy : OutboundConfig → Bool
  | mirage _ | wireguard _ | shadowsocks _ => true
  | _ => false

def isSelector : OutboundConfig → Bool
  | group config => config.kind = .selector
  | _ => false

end OutboundConfig

section Members
variable (tools : Tools)

def addCandidate (config : GroupConfig) (isMatch : String → Bool) (result : List String)
    (cand : OutboundConfig) : List String :=
  if cand.tag = config.tag then result
  else if cand.isLeafProxy && isMatch cand.tag && !result.any (· = cand.tag) then
    result ++ [cand.tag]
  else result

def GroupConfig.groupMembers (config : GroupConfig) (all : List OutboundConfig) :
    Except String (List String) :=
  match config.filter with
  | none => .ok config.outbounds
  | some pattern =>
      match tools.regex pattern with
      | .error e =>
          .error s!"{config.kind.name} `{config.tag}` filter `{pattern}` is not a valid regex: {e}"
      | .ok isMatch => .ok (all.foldl (addCandidate config isMatch) config.outbounds)

/-- A filter that is no regular expression adds nothing. -/
def GroupConfig.childTags (config : GroupConfig) (all : List OutboundConfig) : List String :=
  match config.groupMembers tools all with
  | .ok tags => tags
  | .error _ => config.outbounds

end Members

structure PoolConfig where
  serverHost : String
  serverPort : UInt16
  password : String
  camouflageHost : String
  poolSize : Nat
  underlying : Option Nat
  pfs : Bool
  transport : Transport
  quicWindowMb : Nat
  quicErasureCc : Bool
  quicSni : String
  quicLowSrcPort : Bool
  quicPrePacket : Bool
  quicObfs : Option String
  quicPin : Option String

structure SsConfig where
  server : String
  port : UInt16
  password : String
  method : Method
  blockUdp : Bool

structure WgConfig where
  privateKey : Bytes
  peerPublicKey : Bytes
  presharedKey : Option Bytes
  endpoint : String
  address : IpAddr
  mtu : Nat
  persistentKeepalive : Option UInt16
  dns : Option IpAddr

inductive OutboundNode where
  | mirage (tag : String) (pool : PoolConfig)
  | wireguard (tag : String) (cfg : WgConfig)
  | direct (tag : String)
  | block (tag : String)
  | shadowsocks (tag : String) (cfg : SsConfig) (underlying : Option Nat)
  | urltest (tag : String) (children : List Nat) (tolerance : Nat) (testType : String)
  | fallback (tag : String) (children : List Nat)
  | selector (tag : String) (children : List Nat) (current : Option Nat)
  | loadBalance (tag : String) (children : List Nat)

namespace OutboundNode

def tag : OutboundNode → String
  | mirage tag _ | wireguard tag _ | direct tag | block tag | shadowsocks tag _ _
  | urltest tag _ _ _ | fallback tag _ | selector tag _ _ | loadBalance tag _ => tag

def references : OutboundNode → List Nat
  | mirage _ pool => pool.underlying.toList
  | shadowsocks _ _ underlying => underlying.toList
  | urltest _ children _ _ | fallback _ children | loadBalance _ children => children
  | selector _ children current => children ++ current.toList
  | wireguard _ _ | direct _ | block _ => []

end OutboundNode

inductive BuildError where
  /-- `Method::parse` refuses the cipher. -/
  | cipher (message : String)
  | unresolved (pending : List OutboundConfig)
  /-- An `unreachable!`. -/
  | unreachable

def Method.parse (s : String) : Except BuildError Method :=
  match s.toLower with
  | "aes-128-gcm" => .ok .aes128Gcm
  | "aes-256-gcm" => .ok .aes256Gcm
  | "chacha20-ietf-poly1305" | "chacha20-poly1305" => .ok .chacha20IetfPoly1305
  | "2022-blake3-aes-128-gcm" => .ok .ss2022Aes128Gcm
  | "2022-blake3-aes-256-gcm" => .ok .ss2022Aes256Gcm
  | "2022-blake3-chacha20-poly1305" => .ok .ss2022Chacha20Poly1305
  | other => .error (.cipher ("unsupported Shadowsocks cipher `" ++ other ++ "`. Supported: " ++
      "aes-128-gcm / aes-256-gcm / chacha20-ietf-poly1305 (SIP004), " ++
      "2022-blake3-aes-128-gcm / 2022-blake3-aes-256-gcm / " ++
      "2022-blake3-chacha20-poly1305 (SIP022). " ++
      "(legacy stream ciphers such as aes-256-cfb lack integrity verification and are " ++
      "deprecated, not supported)"))

def defaultQuicWindowMb : Nat := 8

def buildMirage (config : MirageConfig) (underlying : Option Nat) : OutboundNode :=
  .mirage config.tag
    { serverHost := config.server
      serverPort := config.serverPort
      password := config.password
      camouflageHost := config.camouflageHost
      poolSize := config.poolSize
      underlying
      pfs := config.pfs
      transport := config.transport
      quicWindowMb := config.quicWindowMb.getD defaultQuicWindowMb
      quicErasureCc := config.quicErasureCc.getD true
      quicSni := config.quicSni.getD config.camouflageHost
      quicLowSrcPort := config.quicLowSrcPort.getD false
      quicPrePacket := config.quicPrePacket.getD false
      quicObfs := config.quicObfs
      quicPin := config.quicPin }

def buildSs (config : ShadowsocksConfig) (underlying : Option Nat) :
    Except BuildError OutboundNode :=
  match Method.parse config.method with
  | .error e => .error e
  | .ok method =>
      .ok (.shadowsocks config.tag
        { server := config.server
          port := config.serverPort
          password := config.password
          method
          blockUdp := true }
        underlying)

section Wireguard
variable (tools : Tools)

def decodeWgKey (b64 : String) : Option Bytes :=
  (tools.base64 b64).bind fun raw => if raw.length ≠ 32 then none else some raw

def wgConfig (config : WireguardConfig) : Option WgConfig := do
  let privateKey ← decodeWgKey tools config.privateKey
  let peerPublicKey ← decodeWgKey tools config.peerPublicKey
  let presharedKey ← config.presharedKey.mapM (decodeWgKey tools)
  let address ← tools.parseIp config.address
  let dns ← config.dns.mapM tools.parseIp
  return {
    privateKey
    peerPublicKey
    presharedKey
    endpoint := config.endpoint
    address
    mtu := config.mtu
    persistentKeepalive := config.persistentKeepalive
    dns }

/-- A bad configuration rejects its traffic rather than sending it direct. -/
def buildWireguard (config : WireguardConfig) : OutboundNode :=
  match wgConfig tools config with
  | some cfg => .wireguard config.tag cfg
  | none => .block config.tag

end Wireguard

/-- The nodes made so far, the table of outbounds and the selectors whose
recorded choice is no member any more. -/
structure Built where
  nodes : List OutboundNode
  table : String → Option Nat
  stale : List String

namespace Built

def empty : Built := ⟨[], fun _ => none, []⟩

def insert (built : Built) (node : OutboundNode) : Built :=
  { built with
    nodes := built.nodes ++ [node]
    table := update built.table node.tag (some built.nodes.length) }

def tagOf (built : Built) (id : Nat) : Option String := (built.nodes[id]?).map OutboundNode.tag

/-- Auto-add of the implicit direct and block. -/
def insertMissing (built : Built) (node : OutboundNode) : Built :=
  if (built.table node.tag).isNone then built.insert node else built

def selected (built : Built) (choice : Option String) (children : List Nat) : Option Nat :=
  match choice with
  | none => children.head?
  | some target =>
      match children.find? fun id => built.tagOf id = some target with
      | some child => some child
      | none => children.head?

def isStale (built : Built) (choice : Option String) (children : List Nat) : Bool :=
  match choice with
  | none => false
  | some target => (children.find? fun id => built.tagOf id = some target).isNone

def groupNode (built : Built) (choices : String → Option String) (config : GroupConfig)
    (children : List Nat) : OutboundNode :=
  match config.kind with
  | .urltest tolerance testType => .urltest config.tag children tolerance testType
  | .selector => .selector config.tag children (built.selected (choices config.tag) children)
  | .loadBalance => .loadBalance config.tag children
  | .fallback => .fallback config.tag children

def insertGroup (built : Built) (choices : String → Option String) (config : GroupConfig)
    (children : List Nat) : Built :=
  let stale := config.kind = .selector ∧ built.isStale (choices config.tag) children
  { built.insert (built.groupNode choices config children) with
    stale := if stale then built.stale ++ [config.tag] else built.stale }

end Built

section New
variable (tools : Tools) (all : List OutboundConfig)

/-- Pass 1 with one definition: a leaf is inserted, anything else deferred. -/
def passOne (pass : Built × List OutboundConfig) (oc : OutboundConfig) :
    Except BuildError (Built × List OutboundConfig) :=
  match oc with
  | .mirage config =>
      if config.underlying.isSome then .ok (pass.1, pass.2 ++ [oc])
      else .ok (pass.1.insert (buildMirage config none), pass.2)
  | .wireguard config => .ok (pass.1.insert (buildWireguard tools config), pass.2)
  | .direct tag => .ok (pass.1.insert (.direct tag), pass.2)
  | .block tag => .ok (pass.1.insert (.block tag), pass.2)
  | .shadowsocks config =>
      if config.underlying.isSome then .ok (pass.1, pass.2 ++ [oc])
      else
        match buildSs config none with
        | .error e => .error e
        | .ok node => .ok (pass.1.insert node, pass.2)
  | .group _ => .ok (pass.1, pass.2 ++ [oc])

/-- Pass 2 with one definition: `none` leaves it for the next round. -/
def attempt (choices : String → Option String) (built : Built) (oc : OutboundConfig) :
    Except BuildError (Option Built) :=
  match oc with
  | .mirage config =>
      match config.underlying with
      | none => .error .unreachable
      | some utag =>
          match built.table utag with
          | some u => .ok (some (built.insert (buildMirage config (some u))))
          | none => .ok none
  | .shadowsocks config =>
      match config.underlying with
      | none => .error .unreachable
      | some utag =>
          match built.table utag with
          | some u =>
              match buildSs config (some u) with
              | .error e => .error e
              | .ok node => .ok (some (built.insert node))
          | none => .ok none
  | .group config =>
      match (config.childTags tools all).mapM built.table with
      | some children => .ok (some (built.insertGroup choices config children))
      | none => .ok none
  | .wireguard _ | .direct _ | .block _ => .error .unreachable

def persistedChoices : String → Option String :=
  if all.any OutboundConfig.isSelector then tools.persisted else fun _ => none

def OutboundManager.new : Except BuildError Built :=
  match all.foldlM (passOne tools) (Built.empty, []) with
  | .error e => .error e
  | .ok (built, deferred) =>
      let built := built.insertMissing (.direct "direct")
      let built := built.insertMissing (.block "block")
      resolve (attempt tools all (persistedChoices tools all)) .unresolved deferred built

end New

end Mirage.Outbound
