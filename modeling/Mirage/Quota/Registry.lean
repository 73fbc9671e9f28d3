import Mathlib.Data.List.Nodup
import Mathlib.Logic.Function.Basic
import Mathlib.Logic.Relation
import Mirage.Quota.Handle

/-!
The registry of proxy/user_limits.rs, one operation after the other: how it is
rebuilt for a new list of users, what becomes of the handles of users who stay,
leave and come back, and what connections do to them. A handle is known by the
order in which it was made, as an `Arc` is by its address. Maps are functions
from names, so a loop over the entries of one acts on all of them at once.
-/

namespace Mirage.Quota

namespace UserLimitHandle

def recordBytes (handle : UserLimitHandle) (n : UInt64) : Bool × UserLimitHandle :=
  if handle.isExhausted then (true, handle)
  else if handle.quotaBytes = 0 then (handle.isExhausted, handle)
  else
    let current := saturatingAdd handle.periodUsed n
    let added := { handle with periodUsed := handle.periodUsed + n }
    if handle.quotaBytes ≤ current then (true, { added with exhausted := true })
    else (added.isExhausted, added)

def maybeRollover (handle : UserLimitHandle) (now : UInt64) : UserLimitHandle :=
  let expected := periodStartOf now handle.resetDay
  if expected ≤ handle.periodStart then handle
  else
    let oldUsed := handle.periodUsed
    reevaluateExhausted
      { handle with periodStart := expected, periodUsed := saturatingSub handle.periodUsed oldUsed }

def update (handle : UserLimitHandle) (quota : UInt64) (resetDay : UInt8) (now : UInt64) :
    UserLimitHandle :=
  let expected := periodStartOf now resetDay
  let limited := { handle with quotaBytes := quota, resetDay := resetDay }
  reevaluateExhausted <|
    if handle.resetDay ≠ resetDay ∨ handle.periodStart < expected then
      { limited with periodStart := expected, periodUsed := 0 }
    else limited

end UserLimitHandle

/-- A user of a `mirage_server` inbound; `quota` is `quota_gb` in bytes. -/
structure MirageUser where
  name : String
  quota : Option UInt64
  quotaResetDay : Option UInt8

namespace MirageUser

def quotaBytes (user : MirageUser) : UInt64 := user.quota.getD 0

def resetDay (user : MirageUser) : UInt8 := min (max (user.quotaResetDay.getD 1) 1) 28

end MirageUser

/-- The users of all inbounds, each name as it first appears. -/
def collectUsers (inbounds : List (List MirageUser)) : List MirageUser :=
  inbounds.flatten.foldl
    (fun out user => if out.any (·.name = user.name) then out else out ++ [user]) []

/-- The registry, the usage of users who left, and the handles connections hold. -/
structure Registry where
  handles : Nat → UserLimitHandle
  made : Nat
  users : String → Option Nat
  restored : String → Option UserQuotaPersist
  connections : List (Option Nat)

/-- `build_registry` under way: `map` holds the users done. -/
structure Building where
  handles : Nat → UserLimitHandle
  made : Nat
  restored : String → Option UserQuotaPersist
  map : String → Option Nat

namespace Building

def takeover (building : Building) (old : String → Option Nat) (name : String)
    (expected : UInt64) : UInt64 :=
  let fromOld :=
    match old name with
    | some id =>
        if (building.handles id).periodStart = expected then (building.handles id).periodUsed else 0
    | none => 0
  match building.restored name with
  | some saved => if saved.periodStart = expected then saved.periodBytes else fromOld
  | none => fromOld

def addUser (old : String → Option Nat) (now : UInt64) (building : Building)
    (user : MirageUser) : Building :=
  if user.name = "default" then building
  else
    match (old user.name).filter fun id => !(building.handles id).revoked with
    | some id =>
        let kept := (building.handles id).update user.quotaBytes user.resetDay now
        { building with
          handles := Function.update building.handles id kept
          map := Function.update building.map user.name (some id) }
    | none =>
        let expected := periodStartOf now user.resetDay
        let handle := UserLimitHandle.new user.name user.quotaBytes user.resetDay expected
          (building.takeover old user.name expected)
        { handles := Function.update building.handles building.made handle
          made := building.made + 1
          restored := Function.update building.restored user.name none
          map := Function.update building.map user.name (some building.made) }

end Building

namespace Registry

def empty : Registry :=
  ⟨fun _ => .new "" 0 1 0 0, 0, fun _ => none, fun _ => none, []⟩

def buildRegistry (self : Registry) (users : List MirageUser) (now : UInt64) : Building :=
  users.foldl (Building.addUser self.users now)
    ⟨self.handles, self.made, self.restored, fun _ => none⟩

/-- Users who left take their usage to the restored map, and their handles are
revoked. -/
def reloadUserLimits (self : Registry) (inbounds : List (List MirageUser)) (now : UInt64) :
    Registry :=
  let built := self.buildRegistry (collectUsers inbounds) now
  let leaves (name : String) (id : Nat) := self.users name = some id ∧ built.map name = none
  { self with
    handles := fun id =>
      let handle := built.handles id
      if leaves handle.name id then { handle with revoked := true } else handle
    made := built.made
    restored := fun name =>
      match self.users name with
      | some id =>
          if leaves name id then
            some ⟨(built.handles id).periodUsed, (built.handles id).periodStart⟩
          else built.restored name
      | none => built.restored name
    users := built.map }

def onUser (self : Registry) (name : String) (change : UserLimitHandle → UserLimitHandle) :
    Registry :=
  match self.users name with
  | some id => { self with handles := Function.update self.handles id (change (self.handles id)) }
  | none => self

def checkPeriodRollover (self : Registry) (now : UInt64) : Registry :=
  { self with
    handles := fun id =>
      let handle := self.handles id
      if self.users handle.name = some id then handle.maybeRollover now else handle }

/-- A connection takes the handle of its user, rolled over first. -/
def getUserLimit (self : Registry) (name : String) (now : UInt64) : Registry :=
  let rolled := self.onUser name (·.maybeRollover now)
  { rolled with connections := self.connections ++ [self.users name] }

def recordBytes (self : Registry) (connection : Nat) (n : UInt64) : Registry :=
  match self.connections[connection]? with
  | some (some id) =>
      { self with
        handles := Function.update self.handles id ((self.handles id).recordBytes n).2 }
  | _ => self

def resetUserQuota (self : Registry) (name : String) : Registry :=
  let cleared := self.onUser name fun handle => { handle with periodUsed := 0, exhausted := false }
  { cleared with
    restored := Function.update self.restored name
      ((self.restored name).map fun saved => { saved with periodBytes := 0 }) }

def restorePersistedQuotas (self : Registry) (data : String → Option UserQuotaPersist)
    (now : UInt64) : Registry :=
  { self with
    handles := fun id =>
      let handle := self.handles id
      match data handle.name with
      | some saved =>
          if self.users handle.name = some id ∧
              saved.periodStart = periodStartOf now handle.resetDay then
            UserLimitHandle.reevaluateExhausted
              { handle with periodStart := saved.periodStart, periodUsed := saved.periodBytes }
          else handle
      | none => handle
    restored := fun name => if self.users name = none then data name else none }

end Registry

inductive Event where
  | reload (inbounds : List (List MirageUser)) (now : UInt64)
  | connect (name : String) (now : UInt64)
  | record (connection : Nat) (n : UInt64)
  | tick (now : UInt64)
  | reset (name : String)
  | restore (data : String → Option UserQuotaPersist) (now : UInt64)

def Registry.step (self : Registry) : Event → Registry
  | .reload inbounds now => self.reloadUserLimits inbounds now
  | .connect name now => self.getUserLimit name now
  | .record connection n => self.recordBytes connection n
  | .tick now => self.checkPeriodRollover now
  | .reset name => self.resetUserQuota name
  | .restore data now => self.restorePersistedQuotas data now

section Alone

/-- Nothing comes between the loads and stores of a call. Run so, a call does
what its sequential form above does. -/
abbrev Alone : UserLimitHandle × Place → UserLimitHandle × Place → Prop :=
  Relation.ReflTransGen fun now next => now.1.load now.2 = some next

variable (handle : UserLimitHandle)

theorem reevaluateExhausted_alone (locked : Bool) :
    Alone (handle, .evalUsed locked)
      (handle.reevaluateExhausted, if locked then .unlock else .idle none) :=
  .head rfl (.head rfl (.single rfl))

theorem isExhausted_alone :
    Alone (handle, .recordRevokedAfter) (handle, .idle (some handle.isExhausted)) := by
  by_cases revoked : handle.revoked = true
  · exact .single (by simp [UserLimitHandle.load, UserLimitHandle.isExhausted, revoked])
  · refine .head (b := (handle, .recordExhaustedAfter)) ?_ (.single ?_)
    · simp [UserLimitHandle.load, revoked]
    · simp [UserLimitHandle.load, UserLimitHandle.isExhausted, revoked]

theorem recordBytes_alone (n : UInt64) :
    Alone (handle, .recordRevoked n)
      ((handle.recordBytes n).2, .idle (some (handle.recordBytes n).1)) := by
  rw [UserLimitHandle.recordBytes]
  by_cases revoked : handle.revoked = true
  · exact .single (by simp [UserLimitHandle.load, UserLimitHandle.isExhausted, revoked])
  refine .head (b := (handle, .recordExhausted n)) (by simp [UserLimitHandle.load, revoked]) ?_
  by_cases exhausted : handle.exhausted = true
  · exact .single (by simp [UserLimitHandle.load, UserLimitHandle.isExhausted, exhausted])
  have going : ¬ handle.isExhausted = true := by
    simp [UserLimitHandle.isExhausted, revoked, exhausted]
  rw [if_neg going]
  refine .head (b := (handle, .recordQuota n)) (by simp [UserLimitHandle.load, exhausted]) ?_
  by_cases free : handle.quotaBytes = 0
  · rw [if_pos free]
    exact .head (by rw [UserLimitHandle.load, if_pos free]) (isExhausted_alone handle)
  · rw [if_neg free]
    refine .head (by rw [UserLimitHandle.load, if_neg free]) (.head rfl ?_)
    dsimp only
    by_cases reached : handle.quotaBytes ≤ saturatingAdd handle.periodUsed n
    · rw [if_pos reached, if_pos reached]
      exact .single rfl
    · rw [if_neg reached, if_neg reached]
      exact isExhausted_alone _

theorem rolloverStart_alone (start : UInt64) :
    Alone (handle, .rolloverStart start)
      (if start ≤ handle.periodStart then handle
        else UserLimitHandle.reevaluateExhausted { handle with
            periodStart := start
            periodUsed := saturatingSub handle.periodUsed handle.periodUsed }, .idle none) := by
  by_cases within : start ≤ handle.periodStart
  · rw [if_pos within]
    exact .single (by rw [UserLimitHandle.load, if_pos within])
  · rw [if_neg within]
    refine .head (b := (handle, .rolloverUsed start handle.periodStart))
      (by rw [UserLimitHandle.load, if_neg within]) ?_
    refine .head rfl (.head (if_pos rfl) (.head rfl ?_))
    exact reevaluateExhausted_alone _ false

theorem maybeRollover_alone (now : UInt64) :
    Alone (handle, .rolloverDay now) (handle.maybeRollover now, .idle none) := by
  rw [UserLimitHandle.maybeRollover]
  refine .head (b := (handle, .rolloverStart (periodStartOf now handle.resetDay))) rfl ?_
  exact rolloverStart_alone handle (periodStartOf now handle.resetDay)

theorem update_alone (valid : handle.revoked = false) (quota : UInt64) (resetDay : UInt8)
    (now : UInt64) :
    Alone (handle, .reloadRevoked quota resetDay now)
      (handle.update quota resetDay now, .unlock) := by
  refine .head (b := (handle, .reloadQuota quota resetDay now))
    (by simp [UserLimitHandle.load, valid]) (.head rfl (.head rfl (.head rfl ?_)))
  simp only [UserLimitHandle.update, Bool.or_eq_true, decide_eq_true_eq]
  by_cases begins : handle.resetDay ≠ resetDay ∨ handle.periodStart < periodStartOf now resetDay
  · rw [if_pos begins, if_pos begins]
    refine .head rfl (.head rfl ?_)
    exact reevaluateExhausted_alone _ true
  · rw [if_neg begins, if_neg begins]
    exact reevaluateExhausted_alone _ true

end Alone

end Mirage.Quota
