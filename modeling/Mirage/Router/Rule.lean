import Mirage.Lib.AddressPrefix

/-!
Rules and requests of router/mod.rs. A rule names an outbound and the
conditions a flow has to meet for it: domain and address conditions, combined
by `mode`, and the extra conditions on port, protocol, source and user.
-/

namespace Mirage.Router
open AddressPrefix

abbrev OutboundTag := String
abbrev RuleId := Nat

inductive IpAddr where
  | v4 (addr : BitVec 32)
  | v6 (addr : BitVec 128)
  deriving DecidableEq

abbrev Ipv4Net := Net 32
abbrev Ipv6Net := Net 128

inductive IpNet where
  | v4 (net : Ipv4Net)
  | v6 (net : Ipv6Net)
  deriving DecidableEq

def IpNet.contains : IpNet → IpAddr → Bool
  | .v4 net, .v4 ip => net.contains ip
  | .v6 net, .v6 ip => net.contains ip
  | _, _ => false

structure Rule where
  id : RuleId
  mode : String
  outbound : OutboundTag
  domainSuffix : List String
  domainKeyword : List String
  domainRegex : List String
  geosite : List String
  ipCidr : List IpNet
  geoip : List String
  sourceIpCidr : List IpNet
  sourceMac : List String
  protocol : List String
  port : List UInt16
  inbound : List String
  processName : List String
  user : List String

structure RoutingRequest where
  domain : Option String
  ip : Option IpAddr
  port : UInt16
  protocol : String
  sourceIp : Option IpAddr
  sourceMac : Option String
  inbound : Option String
  processName : Option String
  user : Option String

/-- A flow to a named host whose address is not known yet. -/
def RoutingRequest.toHost (host : String) : RoutingRequest where
  domain := some host
  ip := none
  port := 443
  protocol := "tcp"
  sourceIp := none
  sourceMac := none
  inbound := none
  processName := none
  user := none

namespace Rule

def always (outbound : OutboundTag) : Rule where
  id := 0
  mode := "or"
  outbound := outbound
  domainSuffix := []
  domainKeyword := []
  domainRegex := []
  geosite := []
  ipCidr := []
  geoip := []
  sourceIpCidr := []
  sourceMac := []
  protocol := []
  port := []
  inbound := []
  processName := []
  user := []

def hasDomainFilters (rule : Rule) : Bool :=
  !rule.domainSuffix.isEmpty || !rule.domainKeyword.isEmpty ||
    !rule.domainRegex.isEmpty || !rule.geosite.isEmpty

def hasIpFilters (rule : Rule) : Bool := !rule.ipCidr.isEmpty || !rule.geoip.isEmpty

def hasNetworkFilters (rule : Rule) : Bool := rule.hasDomainFilters || rule.hasIpFilters

def matchesPort (rule : Rule) (port : UInt16) : Bool :=
  if rule.port.isEmpty then true else rule.port.contains port

/-- A whitelist condition on optional information: an empty list does not
restrict, and missing information never meets a restriction. -/
def admits (allowed : List String) : Option String → Bool
  | some value => allowed.isEmpty || allowed.contains value
  | none => allowed.isEmpty

def matchesExtra (rule : Rule) (req : RoutingRequest) : Bool :=
  if !rule.protocol.isEmpty && !rule.protocol.contains req.protocol then false
  -- A missing MAC is compared as the empty string here, unlike the conditions below.
  else if !rule.sourceMac.isEmpty && !rule.sourceMac.contains (req.sourceMac.getD "") then false
  else if !admits rule.inbound req.inbound then false
  else if !rule.sourceIpCidr.isEmpty && !(match req.sourceIp with
      | some source => rule.sourceIpCidr.any fun net => net.contains source
      | none => false) then false
  else if !admits rule.processName req.processName then false
  else admits rule.user req.user

/-- The rule's own port and extra conditions hold for the request. -/
def eligible (rule : Rule) (req : RoutingRequest) : Bool :=
  rule.matchesPort req.port && rule.matchesExtra req

end Rule

/-- config_watcher.rs numbers the rules in order before building the engine,
so a rule id is its index in the table. -/
structure RuleTable where
  rules : List Rule
  aligned : ∀ (i : Nat) (rule : Rule), rules[i]? = some rule → rule.id = i

namespace RuleTable

/-- The numbering done in `build_state`. -/
def number (rules : List Rule) : RuleTable where
  rules := rules.mapIdx fun i rule => { rule with id := i }
  aligned := by
    intro i rule here
    simp only [List.getElem?_mapIdx, Option.map_eq_some_iff] at here
    obtain ⟨source, _, rfl⟩ := here
    rfl

variable (table : RuleTable)

theorem mem_iff (rule : Rule) : rule ∈ table.rules ↔ table.rules[rule.id]? = some rule := by
  constructor
  · intro member
    obtain ⟨i, here⟩ := List.mem_iff_getElem?.mp member
    rwa [table.aligned i rule here]
  · exact List.mem_of_getElem?

theorem ids_nodup : (table.rules.map Rule.id).Nodup := by
  have numbered : table.rules.map Rule.id = List.range table.rules.length := by
    apply List.ext_getElem?
    intro i
    by_cases inside : i < table.rules.length
    · rw [List.getElem?_map, List.getElem?_eq_getElem inside, List.getElem?_range inside]
      exact congrArg some (table.aligned i _ (List.getElem?_eq_getElem inside))
    · rw [List.getElem?_eq_none (by simpa using inside),
        List.getElem?_eq_none (by simpa using inside)]
  rw [numbered]
  exact List.nodup_range

end RuleTable

end Mirage.Router
