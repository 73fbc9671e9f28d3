import Mirage.Lib.KeywordScan
import Mirage.Lib.PrefixTrie
import Mirage.Lib.Tally
import Mirage.Router.Rule

/-!
`RouterEngine::new` and the routing decisions of router/mod.rs. All rules
share one suffix trie, one keyword search, one regex set and two address
tries; their hits are mapped back to rule ids. The keyword and regex searches
are crates: `Crates` holds them with what their documentation promises. The
contents of the geosite and geoip files are arbitrary.
-/

namespace Mirage.Router
open AddressPrefix PrefixTrie KeywordScan Tally

structure Crates where
  findIter : List (List Char) → List Char → List Hit
  standard : Standard findIter
  acBuild : List (List Char) → Bool
  regexBuild : List String → Bool
  regexMatch : String → String → Bool

inductive DomainType where
  | plain
  | regex
  | rootDomain
  | full
  deriving DecidableEq

structure GeoDomain where
  dtype : DomainType
  value : String

structure GeoData where
  loadSingboxJson : String → Option (List GeoDomain × List IpNet)
  loadGeositeDat : String → String → Option (List GeoDomain)
  loadGeoipDat : String → String → Option (List IpNet)
  geoAlias : String → Option String

/-- Crates that behave as documented on patterns without metacharacters. -/
def literalCrates : Crates where
  findIter := scan
  standard := scan_standard
  acBuild _ := true
  regexBuild _ := true
  regexMatch pattern host := pattern.toList <:+: host.toList

/-- A data directory without any file. -/
def noGeoData : GeoData where
  loadSingboxJson _ := none
  loadGeositeDat _ _ := none
  loadGeoipDat _ _ := none
  geoAlias _ := none

/-- What one iteration of the loops in `new` files for a rule. -/
inductive Entry where
  | cidr (net : IpNet)
  | suffix (domain : String)
  | keyword (text : String)
  | regex (pattern : String)
  | full (domain : String)

def GeoDomain.entry (domain : GeoDomain) : Entry :=
  match domain.dtype with
  | .plain => .keyword domain.value
  | .regex => .regex domain.value
  | .rootDomain => .suffix domain.value
  | .full => .full domain.value

def endsWith (name suffix : String) : Bool := decide (suffix.toList <:+ name.toList)

/-- `splitn(2, ':')`: the file and the tag of `filename.dat:tag`. -/
def splitTag (name : String) : String × String :=
  (String.ofList (name.toList.takeWhile (· ≠ ':')),
    String.ofList ((name.toList.dropWhile (· ≠ ':')).drop 1))

section Loading
variable (geo : GeoData)

-- A file that fails to load is logged and contributes nothing.
def geositeEntries (site : String) : List Entry :=
  let actual := (geo.geoAlias site).getD site
  if endsWith actual ".json" then
    match geo.loadSingboxJson actual with
    | some (domains, cidrs) => cidrs.map .cidr ++ domains.map GeoDomain.entry
    | none => []
  else if actual.toList.contains ':' then
    ((geo.loadGeositeDat (splitTag actual).1 (splitTag actual).2).getD []).map GeoDomain.entry
  else
    ((geo.loadGeositeDat "geosite.dat" actual).getD []).map GeoDomain.entry

def geoipEntries (list : String) : List Entry :=
  let actual := (geo.geoAlias list).getD list
  if endsWith actual ".json" then
    match geo.loadSingboxJson actual with
    | some (_, cidrs) => cidrs.map .cidr
    | none => []
  else if actual.toList.contains ':' then
    ((geo.loadGeoipDat (splitTag actual).1 (splitTag actual).2).getD []).map .cidr
  else
    ((geo.loadGeoipDat "geoip.dat" actual).getD []).map .cidr

/-- Everything `new` files for one rule, in the order of its loops. -/
def ruleEntries (rule : Rule) : List Entry :=
  rule.ipCidr.map .cidr ++ rule.domainSuffix.map .suffix ++
    rule.domainKeyword.map .keyword ++ rule.domainRegex.map .regex ++
    rule.geosite.flatMap (geositeEntries geo) ++ rule.geoip.flatMap (geoipEntries geo)

end Loading

/-- `domain.split('.').rev()`. -/
def reversedLabels (domain : String) : List (List Char) := (domain.toList.splitOn '.').reverse

/-- The local tables of `new`. -/
structure Tables where
  domainTrie : Trie (List Char) RuleId
  exactDomain : String → List RuleId
  patterns : List (List Char)
  patternToRuleId : List RuleId
  regexPatterns : List String
  regexToRuleId : List RuleId
  rootV4 : Trie Bool RuleId
  rootV6 : Trie Bool RuleId
  allV4Cidrs : List (Ipv4Net × RuleId)
  anyNetworkRules : List RuleId

namespace Tables

def empty : Tables :=
  ⟨PrefixTrie.empty, fun _ => [], [], [], [], [], PrefixTrie.empty, PrefixTrie.empty, [], []⟩

def add (id : RuleId) (tables : Tables) : Entry → Tables
  | .cidr (.v4 net) =>
      { tables with
        rootV4 := insert (path net) id tables.rootV4
        allV4Cidrs := tables.allV4Cidrs ++ [(net, id)] }
  | .cidr (.v6 net) => { tables with rootV6 := insert (path net) id tables.rootV6 }
  | .suffix domain =>
      { tables with domainTrie := insert (reversedLabels domain) id tables.domainTrie }
  | .keyword text =>
      { tables with
        patterns := tables.patterns ++ [text.toList]
        patternToRuleId := tables.patternToRuleId ++ [id] }
  | .regex pattern =>
      { tables with
        regexPatterns := tables.regexPatterns ++ [pattern]
        regexToRuleId := tables.regexToRuleId ++ [id] }
  | .full domain =>
      { tables with
        exactDomain := Function.update tables.exactDomain domain
          (tables.exactDomain domain ++ [id]) }

def addRule (geo : GeoData) (tables : Tables) (rule : Rule) : Tables :=
  if !rule.hasNetworkFilters then
    { tables with anyNetworkRules := tables.anyNetworkRules ++ [rule.id] }
  else
    (ruleEntries geo rule).foldl (add rule.id) tables

def searchIp (tables : Tables) : IpAddr → List RuleId
  | .v4 ip => search (bits ip) tables.rootV4
  | .v6 ip => search (bits ip) tables.rootV6

end Tables

structure RouterEngine where
  crates : Crates
  tables : Tables
  ruleTable : List Rule
  defaultOutbound : OutboundTag

def RouterEngine.new (crates : Crates) (geo : GeoData) (rules : List Rule)
    (defaultOutbound : OutboundTag) : Option RouterEngine :=
  let tables := rules.foldl (Tables.addRule geo) Tables.empty
  if !tables.patterns.isEmpty && !crates.acBuild tables.patterns then none
  else if !tables.regexPatterns.isEmpty && !crates.regexBuild tables.regexPatterns then none
  else some ⟨crates, tables, rules, defaultOutbound⟩

inductive RouteDecision where
  | needIp
  | matched (tag : OutboundTag)
  | default (tag : OutboundTag)
  deriving DecidableEq

/-- Lexicographic order of `Ipv4Net`: address, then prefix length. -/
def Ipv4Net.le (left right : Ipv4Net) : Prop :=
  left.addr < right.addr ∨ left.addr = right.addr ∧ left.prefixLen ≤ right.prefixLen

instance : DecidableRel Ipv4Net.le := fun _ _ => inferInstanceAs (Decidable (_ ∨ _ ∧ _))

/-- Hits a candidate needs in `route_matched`. -/
def Rule.required (rule : Rule) : Nat :=
  if rule.mode = "and" then
    let wanted := (if rule.hasDomainFilters then 1 else 0) + if rule.hasIpFilters then 1 else 0
    if wanted = 0 then 1 else wanted
  else 1

namespace RouterEngine
variable (engine : RouterEngine)

def matchDomainRuleIds (domain : String) : List RuleId :=
  let tables := engine.tables
  let keywordIds := (engine.crates.findIter tables.patterns domain.toList).filterMap
    fun hit => tables.patternToRuleId[hit.pattern]?
  let regexIds := (List.range tables.regexPatterns.length).filterMap fun i =>
    if engine.crates.regexMatch (tables.regexPatterns.getD i "") domain
    then tables.regexToRuleId[i]? else none
  sortDedup (tables.exactDomain domain ++ search (reversedLabels domain) tables.domainTrie ++
    (if tables.patterns.isEmpty then [] else keywordIds) ++
    (if tables.regexPatterns.isEmpty then [] else regexIds))

def candidateIds (req : RoutingRequest) : List RuleId :=
  (match req.domain with
    | some domain => engine.matchDomainRuleIds domain
    | none => []) ++
  (match req.ip with
    | some ip => sortDedup (engine.tables.searchIp ip)
    | none => []) ++
  engine.tables.anyNetworkRules

def validCandidates (req : RoutingRequest) : List RuleId :=
  let enough := (tally (engine.candidateIds req)).filter fun entry =>
    match engine.ruleTable[entry.1]? with
    | some rule => decide (rule.required ≤ entry.2)
    | none => false
  (enough.map Prod.fst).insertionSort (· ≤ ·)

def eligibleAt (req : RoutingRequest) (id : RuleId) : Bool :=
  match engine.ruleTable[id]? with
  | some rule => rule.eligible req
  | none => false

def routeMatched (req : RoutingRequest) : Option OutboundTag := do
  let id ← (engine.validCandidates req).find? (engine.eligibleAt req)
  let rule ← engine.ruleTable[id]?
  some rule.outbound

def route (req : RoutingRequest) : OutboundTag :=
  (engine.routeMatched req).getD engine.defaultOutbound

/-- The loop of `route_decision` over the rules from index `id` on. -/
def decideFrom (req : RoutingRequest) (matchedDomainIds : List RuleId) :
    RuleId → List Rule → RouteDecision
  | _, [] => .default engine.defaultOutbound
  | id, rule :: rest =>
      if !rule.matchesPort req.port || !rule.matchesExtra req then
        decideFrom req matchedDomainIds (id + 1) rest
      else
        -- The ids are sorted, so `binary_search` is membership.
        let domainMatched := matchedDomainIds.contains id
        if rule.mode = "and" then
          if rule.hasDomainFilters then
            if !domainMatched then decideFrom req matchedDomainIds (id + 1) rest
            else if rule.hasIpFilters then .needIp
            else .matched rule.outbound
          else if rule.hasIpFilters then .needIp
          else .matched rule.outbound
        else if domainMatched then .matched rule.outbound
        else if rule.hasIpFilters then .needIp
        else if !rule.hasNetworkFilters then .matched rule.outbound
        else decideFrom req matchedDomainIds (id + 1) rest

def routeDecision (req : RoutingRequest) : RouteDecision :=
  match req.ip, req.domain with
  | none, some domain =>
      engine.decideFrom req (engine.matchDomainRuleIds domain) 0 engine.ruleTable
  | _, _ =>
      match engine.routeMatched req with
      | some tag => .matched tag
      | none => .default engine.defaultOutbound

def directV4Cidrs (isDirect : OutboundTag → Bool) : List Ipv4Net :=
  let outboundIsDirect := fun id : RuleId =>
    (engine.ruleTable[id]?.map fun rule => isDirect rule.outbound).getD false
  let direct := (engine.tables.allV4Cidrs.filter fun entry => outboundIsDirect entry.2).map Prod.fst
  let nondirect :=
    (engine.tables.allV4Cidrs.filter fun entry => !outboundIsDirect entry.2).map Prod.fst
  let kept := direct.filter fun cidr => !nondirect.any fun other => overlaps cidr other
  dedup (kept.insertionSort Ipv4Net.le)

end RouterEngine

end Mirage.Router
