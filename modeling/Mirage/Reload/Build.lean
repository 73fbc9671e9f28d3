import Mathlib.Data.List.Dedup
import Mirage.Auth.Revocation
import Mirage.Egress.ServerRouter
import Mirage.Lib.Assoc
import Mirage.Quota.Registry
import Mirage.Rate.Limiter

/-!
`ConfigWatcher::build_state` and `apply_user_config_from_file` of
config_watcher.rs: what a configuration becomes, and in which order the tables
of the process are replaced. The DNS caches and the automatic classification
are one value that cannot fail; the outbound manager is known by its tags.
-/

namespace Mirage.Reload
open Router Egress Programs
open Auth (CredsRegistry CredsCall)
open Rate.Limiter (RateLimiter)

structure User where
  name : String
  password : String
  quota : Option UInt64
  quotaResetDay : Option UInt8

inductive Inbound where
  | mirageServer (tag : String) (upstream : Option UpstreamConfig) (password : String)
      (users : List User)
  | other (tag : String)

structure DeviceProfile where
  profile : String
  sourceIpCidr : List String
  rateLimitKbps : Option Nat

structure Config where
  inbounds : List Inbound
  outbounds : List OutboundConfig
  rules : List RuleConfig
  defaultOutbound : String
  deviceProfiles : List DeviceProfile
  profiles : String → Option (List RuleConfig)

namespace Inbound

def egress : Inbound → InboundConfig
  | .mirageServer tag upstream _ _ => .mirageServer tag upstream
  | .other tag => .other tag

def isServer : Inbound → Bool
  | .mirageServer .. => true
  | .other _ => false

def creds : Inbound → Option (String × List (String × String))
  | .mirageServer tag _ password users =>
      some (tag, ("default", password) :: users.map fun user => (user.name, user.password))
  | .other _ => none

def users : Inbound → Option (List Quota.MirageUser)
  | .mirageServer _ _ _ users =>
      some (users.map fun user => ⟨user.name, user.quota, user.quotaResetDay⟩)
  | .other _ => none

end Inbound

namespace Config
variable (config : Config)

def server : Egress.Config :=
  ⟨config.inbounds.map Inbound.egress, config.outbounds, config.rules, config.defaultOutbound⟩

def hasServerInbound : Bool := config.inbounds.any Inbound.isServer

def isPureServer : Bool := !config.inbounds.isEmpty && config.inbounds.all Inbound.isServer

def creds : List (String × List (String × String)) := config.inbounds.filterMap Inbound.creds

def serverTags : List String := config.creds.map Prod.fst

/-- The rules of the devices' profiles, each for its device, then the global ones. -/
def allRuleCfgs : List RuleConfig :=
  if config.isPureServer then []
  else
    config.deviceProfiles.flatMap (fun dp =>
      ((config.profiles dp.profile).getD []).map fun rule =>
        { rule with sourceIpCidr := dp.sourceIpCidr }) ++ config.rules

end Config

section Users

/-- `CREDS_REGISTRY` with its tags, and the registry of user limits. -/
structure Accounts where
  creds : CredsRegistry
  tags : List String
  listed : ∀ tag, tag ∈ tags ↔ (creds.creds tag).isSome = true
  limits : Quota.Registry

/-- `reload_creds` for a list of tags with their credentials. -/
def reloadAll (registry : CredsRegistry) (calls : List (String × List (String × String))) :
    CredsRegistry :=
  calls.foldl (fun registry call => (registry.step (.reload call.1 call.2)).2) registry

def accepted (registry : CredsRegistry) (tag : String) : Option (List (String × String)) :=
  (registry.creds tag).map fun entries => entries.map (·.cred)

theorem accepted_reload (registry : CredsRegistry) (name tag : String)
    (creds : List (String × String)) :
    accepted (registry.step (.reload name creds)).2 tag =
      if name = tag then (accepted registry tag).map fun _ => creds else accepted registry tag := by
  cases found : registry.creds name with
  | none =>
      have kept : (registry.step (.reload name creds)).2.creds = registry.creds := by
        simp [CredsRegistry.step, CredsRegistry.reloadCreds, found]
      simp only [accepted, kept]
      split
      · next same =>
        rw [← same, found]
        rfl
      · rfl
  | some existing =>
      have swapped : (registry.step (.reload name creds)).2.creds = Function.update registry.creds name
          (some ((Auth.newEntries registry.made creds).map (CredsRegistry.adopt existing))) := by
        simp [CredsRegistry.step, CredsRegistry.reloadCreds, found,
          CredsRegistry.reconcileAndSwapCreds, CredsCall.creds]
      have pairs : ((Auth.newEntries registry.made creds).map (CredsRegistry.adopt existing)).map
          (·.cred) = creds := by
        rw [List.map_map]
        exact (List.map_congr_left fun entry _ => CredsRegistry.adopt_cred existing entry).trans
          (Auth.newEntries_creds registry.made creds)
      simp only [accepted, swapped]
      split
      · next same =>
        rw [← same, Function.update_self, found]
        exact congrArg some pairs
      · next other => rw [Function.update_of_ne (Ne.symm other)]

theorem isSome_accepted (registry : CredsRegistry) (tag : String) :
    (accepted registry tag).isSome = (registry.creds tag).isSome :=
  Option.isSome_map

theorem isSome_reloadAll (registry : CredsRegistry) (calls : List (String × List (String × String)))
    (tag : String) : ((reloadAll registry calls).creds tag).isSome = (registry.creds tag).isSome := by
  induction calls generalizing registry with
  | nil => rfl
  | cons call rest ih =>
      refine (ih _).trans ?_
      rw [← isSome_accepted, ← isSome_accepted, accepted_reload]
      split
      · exact Option.isSome_map
      · rfl

theorem accepted_reloadAll_of_notMem {registry : CredsRegistry} {tag : String}
    {calls : List (String × List (String × String))} (unnamed : tag ∉ calls.map Prod.fst) :
    accepted (reloadAll registry calls) tag = accepted registry tag := by
  induction calls generalizing registry with
  | nil => rfl
  | cons call rest ih =>
      rw [List.map_cons, List.mem_cons, not_or] at unnamed
      refine (ih unnamed.2).trans ?_
      rw [accepted_reload, if_neg (Ne.symm unnamed.1)]

theorem accepted_reloadAll_of_mem {registry : CredsRegistry} {tag : String}
    {creds : List (String × String)} {calls : List (String × List (String × String))}
    (named : (tag, creds) ∈ calls) (distinct : ∀ other, (tag, other) ∈ calls → other = creds) :
    accepted (reloadAll registry calls) tag = (accepted registry tag).map fun _ => creds := by
  induction calls generalizing registry with
  | nil => cases named
  | cons call rest ih =>
      have first : accepted (registry.step (.reload call.1 call.2)).2 tag =
          if call.1 = tag then (accepted registry tag).map fun _ => call.2
          else accepted registry tag := accepted_reload registry call.1 tag call.2
      by_cases later : (tag, creds) ∈ rest
      · refine (ih later fun other member => distinct other (List.mem_cons_of_mem _ member)).trans ?_
        rw [first]
        split
        · rw [Option.map_map]
          rfl
        · rfl
      · have isIt : (tag, creds) = call := (List.mem_cons.mp named).resolve_right later
        have unnamed : tag ∉ rest.map Prod.fst := by
          intro member
          obtain ⟨⟨name, other⟩, there, rfl⟩ := List.mem_map.mp member
          exact later (distinct other (List.mem_cons_of_mem _ there) ▸ there)
        refine (accepted_reloadAll_of_notMem unnamed).trans ?_
        rw [first, ← isIt, if_pos rfl]

variable (config : Config) (now : UInt64) (accounts : Accounts)

/-- Inbounds that are gone lose their credentials, then every inbound gets its own.
A configuration with one tag twice is not applied. -/
def applyUserConfigLocked : Accounts :=
  if ¬ config.serverTags.Nodup then accounts
  else
    let removed := (accounts.tags.filter fun tag => !config.serverTags.contains tag).map (·, [])
    let calls := removed ++ config.creds
    { creds := reloadAll accounts.creds calls
      tags := accounts.tags
      listed := fun tag => by rw [isSome_reloadAll]; exact accounts.listed tag
      limits := accounts.limits.reloadUserLimits (config.inbounds.filterMap Inbound.users) now }

/-- The accounts are those of the configuration: each registered inbound accepts what
its entry says, or nobody, and the limits are its users'. -/
def AccountsOf (before after : Accounts) : Prop :=
  (∀ tag, accepted after.creds tag =
    (accepted before.creds tag).map fun _ => (config.creds.lookup tag).getD []) ∧
  after.limits = before.limits.reloadUserLimits (config.inbounds.filterMap Inbound.users) now

theorem applyUserConfigLocked_of_nodup {config : Config} (distinct : config.serverTags.Nodup) :
    AccountsOf config now accounts (applyUserConfigLocked config now accounts) := by
  rw [applyUserConfigLocked, if_neg (not_not_intro distinct)]
  have unique : Assoc.UniqueKeys config.creds := distinct
  refine ⟨?_, rfl⟩
  intro tag
  dsimp only
  have removedCalls : ∀ creds, (tag, creds) ∈ (accounts.tags.filter fun tag =>
      !config.serverTags.contains tag).map (·, ([] : List (String × String))) ↔
        creds = [] ∧ tag ∈ accounts.tags ∧ tag ∉ config.serverTags := by
    intro creds
    simp only [List.mem_map, List.mem_filter, Bool.not_eq_true', List.contains_eq_mem,
      decide_eq_false_iff_not, Prod.mk.injEq]
    constructor
    · rintro ⟨_, ⟨listed, gone⟩, rfl, rfl⟩
      exact ⟨rfl, listed, gone⟩
    · rintro ⟨rfl, listed, gone⟩
      exact ⟨tag, ⟨listed, gone⟩, rfl, rfl⟩
  by_cases present : tag ∈ config.serverTags
  · obtain ⟨⟨name, creds⟩, member, rfl⟩ := List.mem_map.mp present
    dsimp only at present removedCalls ⊢
    rw [unique.lookup_of_mem member, Option.getD_some]
    refine accepted_reloadAll_of_mem (List.mem_append_right _ member) ?_
    intro other listed
    rcases List.mem_append.mp listed with removed | own
    · exact absurd present ((removedCalls other).mp removed).2.2
    · exact unique.same own member
  · have missing : config.creds.lookup tag = none := by
      cases found : config.creds.lookup tag with
      | none => rfl
      | some creds => exact absurd (List.mem_map_of_mem (Assoc.mem_of_lookup found)) present
    rw [missing, Option.getD_none]
    by_cases registered : tag ∈ accounts.tags
    · refine accepted_reloadAll_of_mem
        (List.mem_append_left _ ((removedCalls []).mpr ⟨rfl, registered, present⟩)) ?_
      intro other listed
      rcases List.mem_append.mp listed with removed | own
      · exact ((removedCalls other).mp removed).1
      · exact absurd (List.mem_map_of_mem own) present
    · have none_ : accepted accounts.creds tag = none := by
        rw [← Option.not_isSome_iff_eq_none, isSome_accepted]
        exact fun some_ => registered ((accounts.listed tag).mpr some_)
      rw [none_, Option.map_none, ← none_]
      refine accepted_reloadAll_of_notMem ?_
      intro named
      obtain ⟨⟨name, creds⟩, listed, rfl⟩ := List.mem_map.mp named
      rcases List.mem_append.mp listed with removed | own
      · exact registered ((removedCalls creds).mp removed).2.1
      · exact present (List.mem_map_of_mem own)

end Users

section Core

/-- What `build_state` needs of other crates and of code that cannot fail it:
`parse` is `parse_with_diagnostics`, `extras` the DNS settings with their caches and
the automatic classification, `upstreams` the outlets, and `rates` and `now` what
the process has at the time. -/
structure Build (Text Outlet Outbounds Extras : Type) where
  parse : Text → Except String Config
  parsers : Parsers
  crates : Crates
  geo : GeoData
  upstreams : Upstreams Outlet
  newOutbounds : Config → Except String Outbounds
  containsKey : Outbounds → String → Bool
  extras : Config → Extras
  rates : List Nat
  now : UInt64

structure CoreState (Outbounds Extras : Type) where
  router : RouterEngine
  outbounds : Outbounds
  extras : Extras
  rateLimiter : RateLimiter

structure Globals (Outlet : Type) where
  serverRouter : Option (ServerRouterState Outlet)
  serverLimiter : Option RateLimiter
  accounts : Accounts

variable {Text Outlet Outbounds Extras : Type} (build : Build Text Outlet Outbounds Extras)

/-- Addresses that are not any are left out. -/
def coreNets (items : List String) : List IpNet :=
  items.filterMap fun item =>
    (build.parsers.ipNet item).orElse fun _ => (parseIpAddr item).map netOf

def coreRule (config : RuleConfig) (id : Nat) : Rule where
  id := id
  mode := if config.modeAnd then "and" else "or"
  outbound := config.outbound
  domainSuffix := config.domainSuffix
  domainKeyword := config.domainKeyword
  domainRegex := config.domainRegex
  geosite := config.geosite
  ipCidr := coreNets build config.ipCidr
  geoip := config.geoip
  sourceIpCidr := coreNets build config.sourceIpCidr
  sourceMac := config.sourceMac
  protocol := config.protocol
  port := config.port
  inbound := config.inbound
  processName := config.processName
  user := config.user

def coreRules (config : Config) : List Rule :=
  config.allRuleCfgs.mapIdx fun id rule => coreRule build rule id

/-- The outbounds that routing names and the running process does not have. -/
def missing (config : Config) (outbounds : Outbounds) : List String :=
  (config.defaultOutbound :: (coreRules build config).map Rule.outbound).filter fun tag =>
    !build.containsKey outbounds tag

/-- The table of the server inbounds, when there are any. -/
def serverTable (config : Config) (prev : Option (ServerRouterState Outlet)) :
    Except String (Option (ServerRouterState Outlet)) :=
  if config.hasServerInbound then
    (buildServerRouterState build.upstreams build.parsers build.crates build.geo config.server
      prev).map some
  else .ok none

def rebuiltLimiter (config : Config) (old : Option RateLimiter) : RateLimiter :=
  let profiles := config.deviceProfiles.map fun dp =>
    (⟨dp.sourceIpCidr, dp.rateLimitKbps⟩ : Rate.Limiter.DeviceProfile)
  match old with
  | some old => RateLimiter.rebuildFrom build.parsers.ipNet profiles old build.rates
  | none => RateLimiter.fromDeviceProfiles build.parsers.ipNet profiles

/-- Everything of `build_state` that can fail: the table of the server, the
outbounds and the router. -/
def buildParts (content : Option Text) (oldOutbounds : Option Outbounds)
    (prev : Option (ServerRouterState Outlet)) :
    Except String (Config × Option (ServerRouterState Outlet) × Outbounds × RouterEngine) := do
  let text ← content.elim (.error "failed to read config file") .ok
  let config ← build.parse text
  let table ← serverTable build config prev
  let outbounds ← oldOutbounds.elim (build.newOutbounds config) .ok
  if oldOutbounds.isSome && !config.isPureServer && !(missing build config outbounds).isEmpty then
    .error ("routing references non-existent outbound [" ++
      ", ".intercalate ((missing build config outbounds).dedup.mergeSort.map
        build.parsers.debugStr) ++
      "] at runtime (adding/removing outbounds does not support hot reload), reload rejected, " ++
      "please restart service")
  else
    match RouterEngine.new build.crates build.geo (coreRules build config) config.defaultOutbound with
    | some router => .ok (config, table, outbounds, router)
    | none => .error "router"

/-- `apply_user_config_from_file`, which reads the file again. -/
def applyUserConfigFromFile (content : Option Text) (accounts : Accounts) : Accounts :=
  match content.map build.parse with
  | some (.ok config) => applyUserConfigLocked config build.now accounts
  | _ => accounts

/-- `first` is what the file says at the start, `second` when the users are read. -/
def buildState (first second : Option Text) (oldOutbounds : Option Outbounds)
    (globals : Globals Outlet) :
    Except String (CoreState Outbounds Extras × Globals Outlet) :=
  match buildParts build first oldOutbounds globals.serverRouter with
  | .error reason => .error reason
  | .ok (config, table, outbounds, router) =>
      let limiter := rebuiltLimiter build config globals.serverLimiter
      let accounts :=
        if oldOutbounds.isSome then applyUserConfigFromFile build second globals.accounts
        else globals.accounts
      .ok (⟨router, outbounds, build.extras config, limiter⟩,
        { serverRouter := table.orElse fun _ => globals.serverRouter
          serverLimiter := some limiter
          accounts := accounts })

/-- The rules, the table of the server inbounds, the limiter and the users are all
those of one configuration. -/
structure AllOf (config : Config) (before : Globals Outlet)
    (core : CoreState Outbounds Extras) (after : Globals Outlet) : Prop where
  rules : RouterEngine.new build.crates build.geo (coreRules build config) config.defaultOutbound =
    some core.router
  extras : core.extras = build.extras config
  limiter : core.rateLimiter = rebuiltLimiter build config before.serverLimiter ∧
    after.serverLimiter = some core.rateLimiter
  table : ∃ table, serverTable build config before.serverRouter = .ok table ∧
    after.serverRouter = table.orElse fun _ => before.serverRouter
  users : AccountsOf config build.now before.accounts after.accounts

variable {build}

theorem buildParts_ok {content : Option Text} {oldOutbounds : Option Outbounds}
    {prev : Option (ServerRouterState Outlet)} {config : Config}
    {table : Option (ServerRouterState Outlet)} {outbounds : Outbounds} {router : RouterEngine}
    (built : buildParts build content oldOutbounds prev = .ok (config, table, outbounds, router)) :
    (∃ text, content = some text ∧ build.parse text = .ok config) ∧
      serverTable build config prev = .ok table ∧
      RouterEngine.new build.crates build.geo (coreRules build config) config.defaultOutbound =
        some router := by
  rw [buildParts] at built
  obtain ⟨text, read, built⟩ := bind_eq_ok.mp built
  obtain ⟨parsed, isConfig, built⟩ := bind_eq_ok.mp built
  obtain ⟨made, isTable, built⟩ := bind_eq_ok.mp built
  obtain ⟨kept, _, built⟩ := bind_eq_ok.mp built
  split at built
  · cases built
  · split at built
    · next engine isRouter =>
      cases built
      cases content with
      | none => cases read
      | some said =>
          cases read
          exact ⟨⟨text, rfl, isConfig⟩, isTable, isRouter⟩
    · cases built

/-- A hot reload of an unchanged file applies all of it, if the tags of its server
inbounds differ. -/
theorem buildState_ok {content : Option Text} {outbounds : Outbounds} {globals after : Globals Outlet}
    {core : CoreState Outbounds Extras}
    (built : buildState build content content (some outbounds) globals = .ok (core, after)) :
    ∃ text config, content = some text ∧ build.parse text = .ok config ∧
      (config.serverTags.Nodup → AllOf build config globals core after) := by
  rw [buildState] at built
  cases parts : buildParts build content (some outbounds) globals.serverRouter with
  | error reason =>
      rw [parts] at built
      cases built
  | ok made =>
      obtain ⟨config, table, kept, router⟩ := made
      rw [parts] at built
      cases built
      obtain ⟨⟨text, rfl, parsed⟩, isTable, isRouter⟩ := buildParts_ok parts
      refine ⟨text, config, rfl, parsed, fun distinct => ⟨isRouter, rfl, ⟨rfl, rfl⟩, ⟨table, isTable, rfl⟩, ?_⟩⟩
      have applied : applyUserConfigFromFile build (some text) globals.accounts =
          applyUserConfigLocked config build.now globals.accounts := by
        simp only [applyUserConfigFromFile, Option.map_some, parsed]
      dsimp only
      rw [Option.isSome_some, if_pos rfl, applied]
      exact applyUserConfigLocked_of_nodup build.now globals.accounts distinct

end Core

end Mirage.Reload
