import Mathlib.Logic.Function.Basic
import Mirage.Auth.HelloAuth
import Mirage.Quota.Handle

/-!
The credential snapshots of proxy/mirage_server/mod.rs: how `register_creds`
and `reload_creds` carry the revocation flags from one list to the next, and
how a handshake finds the entry it takes its flag from. A flag is known by the
order in which it was made, as an `Arc` is by its address. A load of the
snapshot during a call reads what a load right before it or right after it does,
as the list is replaced at once.
-/

namespace Mirage.Auth
open Quota (UserLimitHandle)

structure CredEntry where
  name : String
  password : String
  revoked : Nat
  deriving DecidableEq

namespace CredEntry

def cred (entry : CredEntry) : String × String := (entry.name, entry.password)

def sameCred (a b : CredEntry) : Bool := a.name = b.name && a.password = b.password

@[simp] theorem sameCred_iff {a b : CredEntry} : a.sameCred b = true ↔ a.cred = b.cred := by
  simp [sameCred, cred]

end CredEntry

/-- `CREDS_REGISTRY`, the value of every flag, and how many flags were made. -/
structure CredsRegistry where
  creds : String → Option (List CredEntry)
  revoked : Nat → Bool
  made : Nat

/-- `CredEntry::new` for each name and password, each with a flag of its own. -/
def newEntries : Nat → List (String × String) → List CredEntry
  | _, [] => []
  | made, (name, password) :: rest => ⟨name, password, made⟩ :: newEntries (made + 1) rest

namespace CredsRegistry

def empty : CredsRegistry := ⟨fun _ => none, fun _ => false, 0⟩

/-- The first entry of the old snapshot with the same name and password gives
its flag. -/
def adopt (old : List CredEntry) (entry : CredEntry) : CredEntry :=
  match old.find? (·.sameCred entry) with
  | some before => { entry with revoked := before.revoked }
  | none => entry

def reconcileAndSwapCreds (registry : CredsRegistry) (tag : String)
    (old newCreds : List CredEntry) : CredsRegistry :=
  let adopted := newCreds.map (adopt old)
  { registry with
    revoked := fun flag => registry.revoked flag ||
      old.any fun before => before.revoked = flag && !adopted.any (·.sameCred before)
    creds := Function.update registry.creds tag (some adopted) }

def registerCreds (registry : CredsRegistry) (tag : String) (initial : List CredEntry) :
    CredsRegistry :=
  match registry.creds tag with
  | some existing => registry.reconcileAndSwapCreds tag existing initial
  | none => { registry with creds := Function.update registry.creds tag (some initial) }

def reloadCreds (registry : CredsRegistry) (tag : String) (newCreds : List CredEntry) :
    Bool × CredsRegistry :=
  match registry.creds tag with
  | some existing => (true, registry.reconcileAndSwapCreds tag existing newCreds)
  | none => (false, registry)

end CredsRegistry

inductive CredsCall where
  | register (tag : String) (creds : List (String × String))
  | reload (tag : String) (creds : List (String × String))
  deriving DecidableEq

namespace CredsCall

def tag : CredsCall → String
  | register tag _ => tag
  | reload tag _ => tag

def creds : CredsCall → List (String × String)
  | register _ creds => creds
  | reload _ creds => creds

/-- A call for the inbound `tag` whose list does not have the pair. -/
def Lacks (call : CredsCall) (tag : String) (cred : String × String) : Prop :=
  call.tag = tag ∧ cred ∉ call.creds

instance (call : CredsCall) (tag : String) (cred : String × String) :
    Decidable (call.Lacks tag cred) :=
  inferInstanceAs (Decidable (_ ∧ _))

end CredsCall

namespace CredsRegistry

/-- One call with its list of new entries. Only a reload answers. -/
def step (registry : CredsRegistry) (call : CredsCall) : Option Bool × CredsRegistry :=
  let entries := newEntries registry.made call.creds
  let made := { registry with made := registry.made + call.creds.length }
  match call with
  | .register tag _ => (none, made.registerCreds tag entries)
  | .reload tag _ =>
      let (found, next) := made.reloadCreds tag entries
      (some found, next)

end CredsRegistry

section Handshake
variable (crypto : TokenCrypto) (tolerance : UInt64)

/-- What the checks of one handshake read: the replay caches and the clock as
the n-th check finds them. Other connections and the time move on between two
checks. -/
structure Readings where
  caches : Nat → ReplayCaches
  now : Nat → UInt64

/-- The n-th call of `verify_session_token` of a handshake. -/
def Readings.verify (readings : Readings) (token : Token) (bind : List UInt8) (n : Nat)
    (password : String) : Bool :=
  (verifySessionToken crypto tolerance (readings.caches n)
    ⟨readings.now n, password, token, bind⟩).1

/-- `creds.iter().position(..)`, after `n` checks. -/
def position (verify : Nat → String → Bool) (n : Nat) : List CredEntry → Option Nat
  | [] => none
  | entry :: rest =>
      if verify n entry.password then some 0 else (position verify (n + 1) rest).map (· + 1)

/-- The QUIC handshake has only the `position` in it, as if no user was ever
exhausted. -/
def verifyCredsAndQuota (readings : Readings) (creds : List CredEntry) (token : Token)
    (bind : List UInt8) (isExhausted : String → Bool) : Option CredEntry := do
  let index ← position (readings.verify crypto tolerance token bind) 0 creds
  let entry ← creds[index]?
  if isExhausted entry.name then none else some entry

end Handshake

structure SessionAuth where
  userLimit : Option UserLimitHandle
  credRevoked : Nat

def SessionAuth.shouldStop (registry : CredsRegistry) (session : SessionAuth) : Bool :=
  registry.revoked session.credRevoked || session.userLimit.any (·.isExhausted)

end Mirage.Auth
