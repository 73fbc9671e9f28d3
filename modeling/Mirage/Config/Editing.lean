import Mirage.Config.Changes
import Mirage.Lib.Edits
import Mirage.Lib.JsonChanges
import Mirage.Lib.Text
import Mirage.Node.Uri
import Mirage.Outbound.Manager

/-!
The editing operations of bin/mirage/config_edit.rs. They change a document in place:
an operation that is refused ends with the reason and with what it has made of the
document by then.
-/

namespace Mirage.Config
open Json Text Word Node Outbound Edits
open Tunnel (trim)

inductive OutboundRef where
  | defaultOutbound
  | rule (ruleIndex : Nat)
  | profileRule (profile : String) (ruleIndex : Nat)
  | group (groupTag : String)
  | groupFilter (groupTag : String)
  | underlying (outboundTag : String)

inductive EditError where
  | said (message : String)
  | uri (error : UriError)
  | referenced (refs : List OutboundRef)
  | panicked

abbrev Edit (State : Type) := EStateM EditError State

/-- What other crates answer. -/
structure EditTools where
  caseTable : CaseTable
  /-- `URL_SAFE_NO_PAD.decode` -/
  urlSafeNoPad : String → Option Bytes
  /-- `serde_json::from_value::<Vec<OutboundConfig>>` -/
  outboundConfigs : Value → Option (List OutboundConfig)
  manager : Outbound.Tools

def refuse {State : Type} (message : String) : Edit State Unit := throw (.said message)

section Places

def inArray (key missing : String) (edit : Edit (List Value) Unit) : Edit Value Unit
  | .object fields =>
      match fields.lookup key with
      | some (.array items) =>
          mapState (fun items => .object (setField key (.array items) fields)) (edit items)
      | _ => .error (.said missing) (.object fields)
  | other => .error (.said missing) other

def inFirst (wanted : Value → Bool) (missing : String) (edit : Edit Value Unit) : Edit (List Value) Unit
  | [] => .error (.said missing) []
  | item :: rest =>
      if wanted item then mapState (· :: rest) (edit item)
      else mapState (item :: ·) (inFirst wanted missing edit rest)

def inObject (missing : String) (edit : Edit Fields Unit) : Edit Value Unit
  | .object fields => mapState .object (edit fields)
  | other => .error (.said missing) other

/-- `value[key] = json!([])` where `value` has no such field. -/
def createArray (key : String) : Edit Value Unit
  | .null => .ok () (.object [(key, .array [])])
  | .object fields =>
      .ok () (.object (if fields.lookup key = none then setField key (.array []) fields else fields))
  | other => .error .panicked other

def mapArray (key : String) (change : List Value → List Value) : Value → Value
  | .object fields =>
      match fields.lookup key with
      | some (.array items) => .object (setField key (.array (change items)) fields)
      | _ => .object fields
  | other => other

def typeOf (item : Value) : String := (item.getStr "type").getD ""

def typeIs (type : String) (item : Value) : Bool := item.getStr "type" == some type

def tagIs (tag : String) (item : Value) : Bool := tagOf item == some tag

def nameIs (name : String) (user : Value) : Bool := user.getStr "name" == some name

end Places

section Parameters

/-- What a parameter asks for, if it is given: a change, unless it is refused. -/
abbrev Asked := Option (Except String Change)

def ask : Asked → Edit Fields Unit
  | none => pure ()
  | some (.error message) => refuse message
  | some (.ok change) => modify change.apply

def askAll (asked : List Asked) : Edit Fields Unit := asked.forM ask

def trimmed (text : String) : String := String.ofList (trim text.toList)

def askText (key message : String) (given : Option String) : Asked :=
  given.map fun text =>
    if trimmed text = "" then .error message else .ok (.put key (.string (trimmed text)))

def askPort (key message : String) (given : Option UInt16) : Asked :=
  given.map fun port =>
    if port = 0 then .error message else .ok (.put key (.number (.posInt port.toNat)))

def askFlag (key : String) (given : Option Bool) : Asked :=
  given.map fun flag => .ok (.put key (.bool flag))

/-- A limit is set, or cleared where none is given for it. -/
def askLimit {Limit : Type} (key message : String) (accept : Limit → Option Value)
    (given : Option (Option Limit)) : Asked :=
  given.map fun limit =>
    match limit with
    | none => .ok (.drop key)
    | some limit =>
        match accept limit with
        | none => .error message
        | some value => .ok (.put key value)

def positive (n : UInt64) : Option Value := if n = 0 then none else some (.number (.posInt n.toNat))

def validQuota (quota : F64) : Option Value :=
  if quota.isFinite && quota.isPositive then some (.number (.float quota)) else none

def dayOfMonth (day : UInt8) : Option Value :=
  if 1 ≤ day ∧ day ≤ 31 then some (.number (.posInt day.toNat)) else none

def rateMessage : String := "brutal_rate_mbps 必须大于 0"

def kbpsMessage : String := "rate_limit_kbps 必须大于 0"

def quotaMessage : String := "quota_gb 必须为有效正数 (>0)"

def dayMessage : String := "quota_reset_day 必须在 1-31 之间"

end Parameters

section References
variable (tools : EditTools)

def isGroupType (t : String) : Bool :=
  t == "urltest" || t == "fallback" || t == "selector" || t == "load_balance"

def outboundsOf (root : Value) : List Value := (root.getArray "outbounds").getD []

def resolveDefaultOutboundFromValue (root : Value) : String :=
  match (root.get "routing").bind (·.getStr "default_outbound") with
  | some tag => tag
  | none => ((outboundsOf root).head?.bind tagOf).getD "direct"

structure ResolvedGroupInfo where
  groupTag : String
  explicitMembers : List String
  allMembers : List String

def groupInfo (all : List OutboundConfig) : OutboundConfig → Option ResolvedGroupInfo
  | .group config => some ⟨config.tag, config.outbounds, config.childTags tools.manager all⟩
  | _ => none

/-- Without the types only the members that are written down are known. -/
def explicitInfo (o : Value) : Option ResolvedGroupInfo :=
  let tag := (o.getStr "tag").getD ""
  if isGroupType (typeOf o) && tag != "" then
    let members := ((o.getArray "outbounds").getD []).filterMap Value.asStr
    some ⟨tag, members, members⟩
  else none

def resolveGroupMemberships (root : Value) : List ResolvedGroupInfo :=
  match (root.get "outbounds").bind tools.outboundConfigs with
  | some configs => configs.filterMap (groupInfo tools configs)
  | none => (outboundsOf root).filterMap explicitInfo

def rulesTo (tag : String) (rules : List Value) (found : Nat → OutboundRef) : List OutboundRef :=
  (List.range rules.length).filterMap fun i =>
    if (rules[i]?.bind (·.getStr "outbound")) = some tag then some (found i) else none

def checkOutboundReferences (root : Value) (tag : String) : List OutboundRef :=
  let routing := root.get "routing"
  let profiles := ((routing.bind (·.get "profiles")).bind Value.asObject).getD []
  (if resolveDefaultOutboundFromValue root = tag then [.defaultOutbound] else []) ++
  rulesTo tag ((routing.bind (·.getArray "rules")).getD []) .rule ++
  profiles.flatMap (fun profile =>
    rulesTo tag (profile.2.asArray.getD []) (.profileRule profile.1)) ++
  (resolveGroupMemberships tools root).filterMap (fun info =>
    if info.groupTag = tag then none
    else if info.explicitMembers.any (· == tag) then some (.group info.groupTag)
    else if info.allMembers.any (· == tag) then some (.groupFilter info.groupTag)
    else none) ++
  (outboundsOf root).filterMap fun o =>
    let oTag := (o.getStr "tag").getD ""
    if oTag = tag then none
    else if o.getStr "underlying" = some tag then some (.underlying oTag)
    else none

def OutboundRef.isGroup : OutboundRef → Bool
  | group _ => true
  | _ => false

def OutboundRef.isBlocking : OutboundRef → Bool
  | group _ | groupFilter _ => false
  | _ => true

end References

section Outbounds
variable (tools : EditTools)

def joinGroup (groupTag targetTag : String) : Edit Value Unit := do
  let gType := typeOf (← get)
  if !isGroupType gType then
    refuse s!"出站 `{groupTag}` 类型为 `{gType}`, 不是出站组"
  createArray "outbounds"
  inArray "outbounds" "组成员 outbounds 必须为数组" <| modify fun members =>
    if members.any fun m => m.asStr == some targetTag then members
    else members ++ [.string targetTag]

def addTagToGroup (groupTag targetTag : String) : Edit Value Unit :=
  inArray "outbounds" "outbounds 必须为数组" <|
    inFirst (tagIs groupTag) s!"未找到出站组 `{groupTag}`" (joinGroup groupTag targetTag)

def mirageNode (tag : String) (node : NodeUri) : Value :=
  .object [("type", .string "mirage"), ("tag", .string tag), ("server", .string node.host),
    ("server_port", .number (.posInt node.port.toNat)), ("password", .string node.password),
    ("camouflage_host", .string node.sni)]

def pushNode (node : Value) : Edit Value Unit := do
  createArray "outbounds"
  inArray "outbounds" "outbounds 必须为数组" <| modify (· ++ [node])

def writeNode (node : NodeUri) (tag : String) (group : Option String) : Edit Value Unit := do
  pushNode (mirageNode tag node)
  match group with
  | some grp => addTagToGroup grp tag
  | none => pure ()

def addMirageOutboundFromUri (uri tag : String) (group : Option String) : Edit Value Unit := do
  let tag := trimmed tag
  if tag = "" then
    refuse "出站 tag 不能为空"
  if (tags (outboundsOf (← get))).contains tag then
    refuse s!"出站 tag `{tag}` 已存在于配置中"
  match NodeUri.parse uri with
  | .error e => throw (.uri e)
  | .ok node => writeNode node tag group

structure OutboundArgs where
  server : Option String
  serverPort : Option UInt16
  password : Option String
  camouflageHost : Option String
  pfs : Option Bool
  transport : Option String
  quicPin : Option String
  poolSize : Option (Option UInt64)
  brutalRateMbps : Option (Option UInt64)

def OutboundArgs.addressed (args : OutboundArgs) : List Asked :=
  [askText "server" "server 不能为空" args.server,
    askPort "server_port" "server_port 必须在 1-65535 范围内" args.serverPort,
    askText "password" "password 不能为空" args.password,
    askText "camouflage_host" "camouflage_host 不能为空" args.camouflageHost,
    askFlag "pfs" args.pfs]

def OutboundArgs.sized (args : OutboundArgs) : List Asked :=
  [askLimit "pool_size" "pool_size 必须大于 0" positive args.poolSize,
    askLimit "brutal_rate_mbps" rateMessage positive args.brutalRateMbps]

def isValidQuicPin (pin : String) : Bool :=
  (utf8 pin).length == 43 && (tools.urlSafeNoPad pin).any (·.length == 32)

def normalTransport (transport : String) : String :=
  toLowercase tools.caseTable (trimmed transport)

def askTransport (given : Option String) : Asked :=
  given.map fun transport =>
    let transport := normalTransport tools transport
    if transport ≠ "tcp" ∧ transport ≠ "quic" then .error "transport 必须为 `tcp` 或 `quic`"
    else .ok (.put "transport" (.string transport))

def askPin (given : Option String) : Asked :=
  given.map fun pin =>
    let pin := trimmed pin
    if pin = "" then .ok (.drop "quic_pin")
    else if !isValidQuicPin tools pin then
      .error "quic_pin 格式非法 (须为 43 位 base64url SHA-256 SPKI 指纹)"
    else .ok (.put "quic_pin" (.string pin))

/-- QUIC needs a pin, and nothing else has one. -/
def settlePin (finalTransport : String) : Edit Fields Unit := do
  if finalTransport = "quic" then
    let pin := (((← get).lookup "quic_pin").bind Value.asStr).getD ""
    if !isValidQuicPin tools pin then
      refuse "transport 为 quic 时必须提供合法的 43 位 base64url quic_pin"
  else modify (removeField "quic_pin")

def settleTransport (args : OutboundArgs) : Edit Fields Unit := do
  let current := (((← get).lookup "transport").bind Value.asStr).getD "tcp"
  ask (askTransport tools args.transport)
  ask (askPin tools args.quicPin)
  settlePin tools ((args.transport.map (normalTransport tools)).getD current)

def reviseOutbound (args : OutboundArgs) : Edit Fields Unit := do
  askAll args.addressed
  settleTransport tools args
  askAll args.sized

def modifyMirageOutbound (tag : String) (args : OutboundArgs) : Edit Value Unit :=
  inArray "outbounds" "配置中缺少 outbounds 数组" <|
    inFirst (fun o => typeIs "mirage" o && tagIs tag o) s!"未找到 tag 为 `{tag}` 的 mirage 出站" <|
      inObject "出站条目不是合法对象" (reviseOutbound tools args)

def withoutMember (tag : String) (o : Value) : Value :=
  if isGroupType (typeOf o) then
    mapArray "outbounds" (·.filter fun m => m.asStr != some tag) o
  else o

def deleteOutbound (tag : String) (autoRemoveFromGroups : Bool) : Edit Value Unit := do
  let refs := checkOutboundReferences tools (← get) tag
  let hasBlocking := refs.any OutboundRef.isBlocking
  let hasExplicitGroup := refs.any OutboundRef.isGroup
  if hasBlocking || (!autoRemoveFromGroups && hasExplicitGroup) then
    throw (.referenced refs)
  modify (mapArray "outbounds" (·.map (withoutMember tag)))
  modify (mapArray "outbounds" (·.filter (!tagIs tag ·)))

end Outbounds

section Inbounds

structure InboundArgs where
  port : Option UInt16
  password : Option String
  camouflageHost : Option String
  brutalRateMbps : Option (Option UInt64)
  pfs : Option Bool
  allowLocalTargets : Option Bool

def InboundArgs.asked (args : InboundArgs) : List Asked :=
  [askPort "port" "port 必须在 1-65535 范围内" args.port,
    askText "password" "password 不能为空" args.password,
    askText "camouflage_host" "camouflage_host 不能为空" args.camouflageHost,
    askLimit "brutal_rate_mbps" rateMessage positive args.brutalRateMbps,
    askFlag "pfs" args.pfs,
    askFlag "allow_local_targets" args.allowLocalTargets]

def modifyMirageServerInbound (tag : String) (args : InboundArgs) : Edit Value Unit :=
  inArray "inbounds" "配置中缺少 inbounds 数组" <|
    inFirst (fun i => typeIs "mirage_server" i && tagIs tag i)
      s!"未找到 tag 为 `{tag}` 的 mirage_server 入站" <|
      inObject "入站条目不是合法对象" (askAll args.asked)

structure UserArgs where
  name : String
  password : String
  rateLimitKbps : Option UInt64
  quotaGb : Option F64
  quotaResetDay : Option UInt8

def UserArgs.limits (args : UserArgs) : List Asked :=
  [askLimit "rate_limit_kbps" kbpsMessage positive (args.rateLimitKbps.map some),
    askLimit "quota_gb" quotaMessage validQuota (args.quotaGb.map some),
    askLimit "quota_reset_day" dayMessage dayOfMonth (args.quotaResetDay.map some)]

/-- The reason of the first parameter that is refused. -/
def refusal : List Asked → Option String
  | [] => none
  | some (.error message) :: _ => some message
  | _ :: rest => refusal rest

def changesOf (asked : List Asked) : List Change :=
  asked.filterMap fun given => given.bind Except.toOption

def appendUser (name : String) (user : Value) : Edit (List Value) Unit := do
  if (← get).any (nameIs name) then
    refuse s!"用户名 `{name}` 已存在"
  modify (· ++ [user])

def addInboundUser (inboundTag : String) (args : UserArgs) : Edit Value Unit := do
  let name := trimmed args.name
  if name = "" then
    refuse "用户名不能为空"
  let password := trimmed args.password
  if password = "" then
    refuse "用户密码不能为空"
  match refusal args.limits with
  | some message => refuse message
  | none =>
      let user := applied (changesOf args.limits)
        [("name", .string name), ("password", .string password)]
      inArray "inbounds" "缺少 inbounds 数组" <|
        inFirst (tagIs inboundTag) s!"未找到入站 `{inboundTag}`" do
          createArray "users"
          inArray "users" "users 必须为数组" (appendUser name (.object user))

structure UserChanges where
  newPassword : Option String
  rateLimitKbps : Option (Option UInt64)
  quotaGb : Option (Option F64)
  quotaResetDay : Option (Option UInt8)

def UserChanges.asked (args : UserChanges) : List Asked :=
  [askText "password" "密码不能为空" args.newPassword,
    askLimit "rate_limit_kbps" kbpsMessage positive args.rateLimitKbps,
    askLimit "quota_gb" quotaMessage validQuota args.quotaGb,
    askLimit "quota_reset_day" dayMessage dayOfMonth args.quotaResetDay]

def modifyInboundUser (inboundTag username : String) (args : UserChanges) : Edit Value Unit :=
  inArray "inbounds" "缺少 inbounds 数组" <|
    inFirst (tagIs inboundTag) s!"未找到入站 `{inboundTag}`" <|
      inArray "users" "缺少 users 数组" <|
        inFirst (nameIs username) s!"未找到用户 `{username}`" <|
          inObject "用户条目非法" (askAll args.asked)

end Inbounds

inductive Operation where
  | addMirageOutboundFromUri (uri tag : String) (group : Option String)
  | modifyMirageOutbound (tag : String) (args : OutboundArgs)
  | addTagToGroup (groupTag targetTag : String)
  | deleteOutbound (tag : String) (autoRemoveFromGroups : Bool)
  | modifyMirageServerInbound (tag : String) (args : InboundArgs)
  | addInboundUser (inboundTag : String) (args : UserArgs)
  | modifyInboundUser (inboundTag username : String) (args : UserChanges)

def Operation.edit (tools : EditTools) : Operation → Edit Value Unit
  | addMirageOutboundFromUri uri tag group => Config.addMirageOutboundFromUri uri tag group
  | modifyMirageOutbound tag args => Config.modifyMirageOutbound tools tag args
  | addTagToGroup groupTag targetTag => Config.addTagToGroup groupTag targetTag
  | deleteOutbound tag autoRemoveFromGroups =>
      Config.deleteOutbound tools tag autoRemoveFromGroups
  | modifyMirageServerInbound tag args => Config.modifyMirageServerInbound tag args
  | addInboundUser inboundTag args => Config.addInboundUser inboundTag args
  | modifyInboundUser inboundTag username args => Config.modifyInboundUser inboundTag username args

end Mirage.Config
