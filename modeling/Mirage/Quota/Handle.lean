import Mathlib.Algebra.Group.Nat.Defs
import Mirage.Lib.Threads
import Mirage.Quota.Calendar

/-!
The usage counter of one user, `UserLimitHandle` of proxy/user_limits.rs, with
what is done to it broken into its loads and stores. The threads are relay
tasks, handshakes, the timer and reloads. Rate-limit buckets are left out.
-/

namespace Mirage.Quota
open Threads

/-- `u64::saturating_add`. -/
def saturatingAdd (a b : UInt64) : UInt64 :=
  if a.toNat + b.toNat < 2 ^ 64 then a + b else UInt64.ofNat (2 ^ 64 - 1)

/-- `u64::saturating_sub`. -/
def saturatingSub (a b : UInt64) : UInt64 := if b ≤ a then a - b else 0

structure UserQuotaPersist where
  periodBytes : UInt64
  periodStart : UInt64
  deriving DecidableEq

structure UserLimitHandle where
  name : String
  quotaBytes : UInt64
  resetDay : UInt8
  periodStart : UInt64
  periodUsed : UInt64
  exhausted : Bool
  revoked : Bool
  deriving DecidableEq

def periodStartOf (now : UInt64) (resetDay : UInt8) : UInt64 :=
  UInt64.ofNat (computePeriodStart now.toNat resetDay.toNat)

/-- `quota_bytes().is_some_and(|q| used >= q)`; no quota is a quota of 0. -/
def exceeds (quota used : UInt64) : Bool := quota ≠ 0 && quota ≤ used

namespace UserLimitHandle

def exceeded (handle : UserLimitHandle) : Bool := exceeds handle.quotaBytes handle.periodUsed

def reevaluateExhausted (handle : UserLimitHandle) : UserLimitHandle :=
  { handle with exhausted := handle.exceeded }

def new (name : String) (quota : UInt64) (resetDay : UInt8) (periodStart periodUsed : UInt64) :
    UserLimitHandle :=
  reevaluateExhausted ⟨name, quota, resetDay, periodStart, periodUsed, false, false⟩

def isExhausted (handle : UserLimitHandle) : Bool := handle.revoked || handle.exhausted

end UserLimitHandle

section Steps

/-- The handle and whether the `RESTORED_QUOTAS` mutex is held. -/
structure UserLimits where
  handle : UserLimitHandle
  restoredHeld : Bool
  deriving DecidableEq

inductive Call where
  | recordBytes (n : UInt64)
  | maybeRollover (now : UInt64)
  | reload (quota : UInt64) (resetDay : UInt8) (now : UInt64)
  | reset
  | restore (now : UInt64) (saved : UserQuotaPersist)
  | revoke
  deriving DecidableEq

/-- The next load or store of a call, with what it has loaded so far. -/
inductive Place where
  | idle (answer : Option Bool)
  | recordRevoked (n : UInt64)
  | recordExhausted (n : UInt64)
  | recordQuota (n : UInt64)
  | recordAdd (n quota : UInt64)
  | recordMark (quota current : UInt64)
  | recordRevokedAfter
  | recordExhaustedAfter
  | rolloverDay (now : UInt64)
  | rolloverStart (expected : UInt64)
  | rolloverUsed (expected start : UInt64)
  | rolloverSwap (expected start old : UInt64)
  | rolloverSubtract (old : UInt64)
  | reloadLock (quota : UInt64) (resetDay : UInt8) (now : UInt64)
  | reloadRevoked (quota : UInt64) (resetDay : UInt8) (now : UInt64)
  | reloadQuota (quota : UInt64) (resetDay : UInt8) (now : UInt64)
  | reloadDay (resetDay : UInt8) (now : UInt64)
  | reloadStart (expected : UInt64) (moved : Bool)
  | reloadStoreStart (expected : UInt64)
  | reloadStoreUsed
  | resetUsed
  | resetMark
  | restoreLock (now : UInt64) (saved : UserQuotaPersist)
  | restoreDay (now : UInt64) (saved : UserQuotaPersist)
  | restoreStart (saved : UserQuotaPersist)
  | restoreUsed (bytes : UInt64)
  | revokeLock
  | revokeMark
  | evalUsed (locked : Bool)
  | evalQuota (used : UInt64) (locked : Bool)
  | evalMark (used quota : UInt64) (locked : Bool)
  | unlock
  deriving DecidableEq

inductive Turn where
  | start (call : Call)
  | next
  deriving DecidableEq

def Call.begin : Call → Place
  | .recordBytes n => .recordRevoked n
  | .maybeRollover now => .rolloverDay now
  | .reload quota resetDay now => .reloadLock quota resetDay now
  | .reset => .resetUsed
  | .restore now saved => .restoreLock now saved
  | .revoke => .revokeLock

def UserLimitHandle.load (handle : UserLimitHandle) : Place → Option (UserLimitHandle × Place)
  -- record_bytes
  | .recordRevoked n =>
      some (handle, if handle.revoked then .idle (some true) else .recordExhausted n)
  | .recordExhausted n =>
      some (handle, if handle.exhausted then .idle (some true) else .recordQuota n)
  | .recordQuota n =>
      some (handle, if handle.quotaBytes = 0 then .recordRevokedAfter
        else .recordAdd n handle.quotaBytes)
  | .recordAdd n quota =>
      let current := saturatingAdd handle.periodUsed n
      some ({ handle with periodUsed := handle.periodUsed + n },
        if quota ≤ current then .recordMark quota current else .recordRevokedAfter)
  | .recordMark .. => some ({ handle with exhausted := true }, .idle (some true))
  | .recordRevokedAfter =>
      some (handle, if handle.revoked then .idle (some true) else .recordExhaustedAfter)
  | .recordExhaustedAfter => some (handle, .idle (some handle.exhausted))
  -- maybe_rollover
  | .rolloverDay now => some (handle, .rolloverStart (periodStartOf now handle.resetDay))
  | .rolloverStart expected =>
      some (handle, if expected ≤ handle.periodStart then .idle none
        else .rolloverUsed expected handle.periodStart)
  | .rolloverUsed expected start => some (handle, .rolloverSwap expected start handle.periodUsed)
  | .rolloverSwap expected start old =>
      if handle.periodStart = start then
        some ({ handle with periodStart := expected }, .rolloverSubtract old)
      else some (handle, .idle none)
  | .rolloverSubtract old =>
      some ({ handle with periodUsed := saturatingSub handle.periodUsed old }, .evalUsed false)
  -- build_registry, for a user who keeps the handle
  | .reloadRevoked quota resetDay now =>
      some (handle, if handle.revoked then .unlock else .reloadQuota quota resetDay now)
  | .reloadQuota quota resetDay now =>
      some ({ handle with quotaBytes := quota }, .reloadDay resetDay now)
  | .reloadDay resetDay now =>
      some ({ handle with resetDay := resetDay },
        .reloadStart (periodStartOf now resetDay) (handle.resetDay ≠ resetDay))
  | .reloadStart expected moved =>
      some (handle, if moved || handle.periodStart < expected then .reloadStoreStart expected
        else .evalUsed true)
  | .reloadStoreStart expected =>
      some ({ handle with periodStart := expected }, .reloadStoreUsed)
  | .reloadStoreUsed => some ({ handle with periodUsed := 0 }, .evalUsed true)
  -- reset_user_quota
  | .resetUsed => some ({ handle with periodUsed := 0 }, .resetMark)
  | .resetMark => some ({ handle with exhausted := false }, .idle none)
  -- restore_persisted_quotas
  | .restoreDay now saved =>
      some (handle, if saved.periodStart = periodStartOf now handle.resetDay then
        .restoreStart saved else .unlock)
  | .restoreStart saved =>
      some ({ handle with periodStart := saved.periodStart }, .restoreUsed saved.periodBytes)
  | .restoreUsed bytes => some ({ handle with periodUsed := bytes }, .evalUsed true)
  -- reload_user_limits, for a user who is removed
  | .revokeMark => some ({ handle with revoked := true }, .unlock)
  -- reevaluate_exhausted
  | .evalUsed locked => some (handle, .evalQuota handle.periodUsed locked)
  | .evalQuota used locked => some (handle, .evalMark used handle.quotaBytes locked)
  | .evalMark used quota locked =>
      some ({ handle with exhausted := exceeds quota used },
        if locked then .unlock else .idle none)
  | .unlock => some (handle, .idle none)
  | .idle _ | .reloadLock .. | .restoreLock .. | .revokeLock => none

/-- Where a call goes on once it holds the mutex it waits for. -/
def Place.locked : Place → Option Place
  | .reloadLock quota resetDay now => some (.reloadRevoked quota resetDay now)
  | .restoreLock now saved => some (.restoreDay now saved)
  | .revokeLock => some .revokeMark
  | _ => none

def Place.releases : Place → Bool
  | .unlock => true
  | _ => false

/-- Rebuilds, removals and restores run one at a time, under the mutex. -/
def UserLimits.next (limits : UserLimits) (place : Place) : Option (UserLimits × Place) :=
  match place.locked with
  | some within =>
      if limits.restoredHeld then none else some ({ limits with restoredHeld := true }, within)
  | none =>
      (limits.handle.load place).map fun (handle, next) =>
        (⟨handle, limits.restoredHeld && !place.releases⟩, next)

/-- A thread without a call may start one, any other goes on with its own. -/
def advance (limits : UserLimits) (place : Place) : Turn → Option (UserLimits × Place)
  | .start call =>
      match place with
      | .idle _ => some (limits, call.begin)
      | _ => none
  | .next => limits.next place

end Steps

end Mirage.Quota
