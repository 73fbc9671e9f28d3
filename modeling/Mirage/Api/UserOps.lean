import Mirage.Lib.Programs
import Mirage.Lib.Json

/-!
The user operations of the config API on the `inbounds` of a document. They
write the `users` of mirage_server inbounds and nothing else.
-/

namespace Mirage.Api.UserOps

open Json Programs

abbrev OpError := String × String

structure UserOp where
  action : String
  name : String
  password : Option String
  rateLimitKbps : Option Value
  quotaGb : Option Value
  quotaResetDay : Option Value
  inbound : Option String

def UserOp.hasLimitFields (op : UserOp) : Bool :=
  op.rateLimitKbps.isSome || op.quotaGb.isSome || op.quotaResetDay.isSome

def isMirageServer (ib : Value) : Bool := ib.getStr "type" == some "mirage_server"

def mirageServerIndices (inbounds : List Value) : List Nat :=
  (List.range inbounds.length).filter fun i => (inbounds[i]?).any isMirageServer

def inboundTag (ib : Value) : String := (ib.getStr "tag").getD ""

def isNamed (name : String) (user : Value) : Bool := user.getStr "name" == some name

def userNamed (users : List Value) (name : String) : Option Value := users.find? (isNamed name)

/-- The first user of a name, changed in place; `none` when there is none. -/
def modifyUser (name : String) (change : Value → Except OpError Value) :
    List Value → Option (Except OpError (List Value))
  | [] => none
  | user :: rest =>
      if isNamed name user then some ((change user).map (· :: rest))
      else (modifyUser name change rest).map fun changed => changed.map (user :: ·)

section Limits

def userIs (name text : String) : String := "user `" ++ name ++ "` " ++ text

def invalidLimit (name text : String) : OpError := ("invalid_limit", userIs name ("的 " ++ text))

/-- A limit that is left out stays, `null` clears it and a number sets it. -/
def setLimit (name key : String) (accept : Number → Except String Value) (given : Option Value)
    (fields : Fields) : Except OpError Fields :=
  match given with
  | none => .ok fields
  | some .null => .ok (removeField key fields)
  | some (.number n) =>
      match accept n with
      | .ok value => .ok (setField key value fields)
      | .error text => .error (invalidLimit name (key ++ " " ++ text))
  | some _ => .error (invalidLimit name (key ++ " 非法"))

def acceptRate (n : Number) : Except String Value :=
  match n.asU64 with
  | some v => if v = 0 then .error "必须大于 0" else .ok (.number (.posInt v))
  | none => .error "非法"

def acceptQuota (n : Number) : Except String Value :=
  if n.asF64.isFinite && n.asF64.isPositive then .ok (.number (.float n.asF64))
  else .error "必须为有效正数 (>0)"

def acceptResetDay (n : Number) : Except String Value :=
  match n.asU64 with
  | some v => if 1 ≤ v ∧ v ≤ 28 then .ok (.number (.posInt v)) else .error "必须在 1..=28 范围内"
  | none => .error "非法"

def setLimits (op : UserOp) (user : Value) : Except OpError Value :=
  match user.asObject with
  | none => .error ("invalid_user", "用户结构非 JSON 对象")
  | some fields => do
      let rated ← setLimit op.name "rate_limit_kbps" acceptRate op.rateLimitKbps fields
      let capped ← setLimit op.name "quota_gb" acceptQuota op.quotaGb rated
      let dated ← setLimit op.name "quota_reset_day" acceptResetDay op.quotaResetDay capped
      return .object dated

end Limits

def reservedName : OpError :=
  ("reserved_name", "保留名 `default` 是主密码, 不通过 /api/users 管理")

def userNotFound (name : String) : OpError := ("user_not_found", userIs name "不存在")

def badOp (action : String) : OpError :=
  ("bad_op", "未知操作 `" ++ action ++ "` (仅 upsert/remove/set_limits/reset_quota)")

def setPassword (password : String) (user : Value) : Except OpError Value :=
  .ok (.object (setField "password" (.string password) (user.asObject.getD [])))

/-- One turn of the loop of `apply_ops`. -/
def applyOp (users : List Value) (op : UserOp) : Except OpError (List Value) :=
  if op.name = "default" then .error reservedName
  else if op.action = "upsert" then
    if op.hasLimitFields then
      .error ("limits_not_allowed", "upsert 只设置口令; 用户 `" ++ op.name ++
        "` 的限速/配额请用 set_limits 设置 (可放在同一请求的后一个 op)")
    else
      let password := op.password.getD ""
      if password = "" then .error ("empty_password", userIs op.name "的 password 为空")
      else
        (modifyUser op.name (setPassword password) users).getD
          (.ok (users ++ [.object [("name", .string op.name), ("password", .string password)]]))
  else if op.action = "remove" then .ok (users.filter fun user => !isNamed op.name user)
  else if op.action = "set_limits" then
    (modifyUser op.name (setLimits op) users).getD (.error (userNotFound op.name))
  else if op.action = "reset_quota" then
    if users.any (isNamed op.name) then .ok users else .error (userNotFound op.name)
  else .error (badOp op.action)

def needsUser (op : UserOp) : Bool := op.action == "set_limits" || op.action == "reset_quota"

def knownAction (action : String) : Bool :=
  action == "upsert" || action == "remove" || action == "set_limits" || action == "reset_quota"

/-- An operation on one inbound; `none` when the inbound does not have the user. -/
def applyToInbound (op : UserOp) (ib : Value) : Except OpError (Option Value) :=
  match ib.asObject with
  | none => .error ("corrupt_config", "mirage_server 入站非对象")
  | some fields =>
      let users := ((fields.lookup "users").bind Value.asArray).getD []
      if needsUser op && (userNamed users op.name).isNone then .ok none
      else
        (applyOp users op).map fun next =>
          if sameItems next users then some ib
          else some (.object (setField "users" (.array next) fields))

def applyTargets (op : UserOp) : List Nat → List Value × Bool → Except OpError (List Value × Bool)
  | [], state => .ok state
  | i :: rest, (inbounds, applied) =>
      match inbounds[i]? with
      | none => applyTargets op rest (inbounds, applied)
      | some ib => do
          match ← applyToInbound op ib with
          | none => applyTargets op rest (inbounds, applied)
          | some next => applyTargets op rest (inbounds.set i next, true)

def targets (indices : List Nat) (inbounds : List Value) (op : UserOp) : Except OpError (List Nat) :=
  match op.inbound with
  | none => .ok indices
  | some tag =>
      let chosen := indices.filter fun i => (inbounds[i]?).any fun ib => inboundTag ib == tag
      if chosen.isEmpty then
        .error ("unknown_inbound", "不存在 tag 为 `" ++ tag ++ "` 的 mirage_server 入站")
      else .ok chosen

def applyOpInbounds (indices : List Nat) (inbounds : List Value) (op : UserOp) :
    Except OpError (List Value) :=
  if op.name = "default" then .error reservedName
  else if !knownAction op.action then .error (badOp op.action)
  else do
    let chosen ← targets indices inbounds op
    let done ← applyTargets op chosen (inbounds, false)
    if needsUser op && !done.2 then .error (userNotFound op.name) else return done.1

def applyOpsInbounds (inbounds : List Value) (ops : List UserOp) : Except OpError (List Value) :=
  let indices := mirageServerIndices inbounds
  if indices.isEmpty then
    .error ("no_mirage_server", "当前配置无 mirage_server 入站, 无处挂多用户凭据")
  else ops.foldlM (applyOpInbounds indices) inbounds

def outsideUsers (ib : Value) : Value :=
  if isMirageServer ib then .object (without "users" (ib.asObject.getD [])) else ib

theorem isMirageServer_setField (value : Value) (fields : Fields) :
    isMirageServer (.object (setField "users" value fields)) = isMirageServer (.object fields) := by
  have other : ("type" : String) ≠ "users" := by decide
  simp only [isMirageServer, Value.getStr, Value.get, Value.asObject, Option.bind_some,
    lookup_setField_ne other]

theorem outsideUsers_setField (value : Value) (fields : Fields)
    (server : isMirageServer (.object fields) = true) :
    outsideUsers (.object (setField "users" value fields)) = outsideUsers (.object fields) := by
  simp only [outsideUsers, isMirageServer_setField, server, if_true, Value.asObject,
    Option.getD_some, without_setField]

theorem applyToInbound_outside {op : UserOp} {ib next : Value} (server : isMirageServer ib = true)
    (applied : applyToInbound op ib = .ok (some next)) :
    isMirageServer next = true ∧ outsideUsers next = outsideUsers ib := by
  cases ib with
  | object fields =>
      simp only [applyToInbound, Value.asObject] at applied
      split at applied
      · cases applied
      · cases changed : applyOp (((fields.lookup "users").bind Value.asArray).getD []) op with
        | error reason =>
            rw [changed] at applied
            cases applied
        | ok users =>
            rw [changed] at applied
            simp only [Except.map, Except.ok.injEq] at applied
            split at applied
            · cases applied
              exact ⟨server, rfl⟩
            · cases applied
              exact ⟨(isMirageServer_setField _ _).trans server, outsideUsers_setField _ _ server⟩
  | _ => cases applied

def Servers (indices : List Nat) (inbounds : List Value) : Prop :=
  ∀ i ∈ indices, ∀ ib, inbounds[i]? = some ib → isMirageServer ib = true

theorem servers_indices (inbounds : List Value) :
    Servers (mirageServerIndices inbounds) inbounds := by
  intro i member ib here
  have server := (List.mem_filter.mp member).2
  rw [here] at server
  exact server

theorem servers_set {indices : List Nat} {inbounds : List Value} {next : Value}
    (servers : Servers indices inbounds) (i : Nat) (server : isMirageServer next = true) :
    Servers indices (inbounds.set i next) := by
  intro j member ib here
  rw [List.getElem?_set] at here
  split at here
  · split at here
    · cases here
      exact server
    · cases here
  · exact servers j member ib here

theorem map_outside_set {inbounds : List Value} {i : Nat} {ib next : Value}
    (here : inbounds[i]? = some ib) (same : outsideUsers next = outsideUsers ib) :
    (inbounds.set i next).map outsideUsers = inbounds.map outsideUsers := by
  obtain ⟨inside, rfl⟩ := List.getElem?_eq_some_iff.mp here
  rw [List.map_set, same]
  apply List.ext_getElem?
  intro j
  rw [List.getElem?_set]
  split
  · next equal =>
      subst equal
      simp [inside]
  · rfl

theorem applyTargets_outside {op : UserOp} {chosen : List Nat} {inbounds : List Value}
    {applied : Bool} {done : List Value × Bool} (servers : Servers chosen inbounds)
    (went : applyTargets op chosen (inbounds, applied) = .ok done) :
    done.1.map outsideUsers = inbounds.map outsideUsers ∧
      ∀ indices, Servers indices inbounds → Servers indices done.1 := by
  induction chosen generalizing inbounds applied with
  | nil =>
      cases went
      exact ⟨rfl, fun _ kept => kept⟩
  | cons i rest ih =>
      have later : Servers rest inbounds := fun j member => servers j (List.mem_cons_of_mem _ member)
      rw [applyTargets] at went
      split at went
      · exact ih later went
      · next ib here =>
          obtain ⟨result, changed, went⟩ := bind_eq_ok.mp went
          cases result with
          | none => exact ih later went
          | some next =>
              have server := servers i List.mem_cons_self ib here
              obtain ⟨still, outside⟩ := applyToInbound_outside server changed
              obtain ⟨same, kept⟩ := ih (servers_set later i still) went
              refine ⟨same.trans (map_outside_set here outside), ?_⟩
              intro indices before
              exact kept indices (servers_set before i still)

theorem targets_subset {indices chosen : List Nat} {inbounds : List Value} {op : UserOp}
    (chose : targets indices inbounds op = .ok chosen) : ∀ i ∈ chosen, i ∈ indices := by
  unfold targets at chose
  split at chose
  · cases chose
    exact fun _ member => member
  · dsimp only at chose
    split at chose
    · cases chose
    · cases chose
      exact fun _ member => (List.mem_filter.mp member).1

theorem applyOpInbounds_outside {indices : List Nat} {inbounds next : List Value} {op : UserOp}
    (servers : Servers indices inbounds) (went : applyOpInbounds indices inbounds op = .ok next) :
    next.map outsideUsers = inbounds.map outsideUsers ∧ Servers indices next := by
  unfold applyOpInbounds at went
  split at went
  · cases went
  · split at went
    · cases went
    · obtain ⟨chosen, chose, went⟩ := bind_eq_ok.mp went
      obtain ⟨done, applied, went⟩ := bind_eq_ok.mp went
      have inside : Servers chosen inbounds :=
        fun i member => servers i (targets_subset chose i member)
      obtain ⟨same, kept⟩ := applyTargets_outside inside applied
      split at went
      · cases went
      · cases went
        exact ⟨same, kept indices servers⟩

theorem applyOpsInbounds_outside {inbounds next : List Value} {ops : List UserOp}
    (went : applyOpsInbounds inbounds ops = .ok next) :
    next.map outsideUsers = inbounds.map outsideUsers := by
  unfold applyOpsInbounds at went
  dsimp only at went
  split at went
  · cases went
  · have kept := foldlM_keeps
      (fun state => state.map outsideUsers = inbounds.map outsideUsers ∧
        Servers (mirageServerIndices inbounds) state)
      (fun _ held stepped => by
        obtain ⟨same, servers⟩ := applyOpInbounds_outside held.2 stepped
        exact ⟨same.trans held.1, servers⟩)
      ⟨rfl, servers_indices inbounds⟩ went
    exact kept.1

end Mirage.Api.UserOps
