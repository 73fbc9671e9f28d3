import Mathlib.Data.List.Nodup
import Mirage.Auth.Credentials
import Mirage.Lib.Trace

/-!
Revocation over any sequence of calls. `flagOf` is the flag that the next call
hands on for a pair, that of its first entry; `Sound` says that a flag in use is
clear and belongs to one inbound and one pair. A session whose flag is the one
handed on is stopped by the first list without its pair and by no other.
-/

namespace Mirage.Auth
open Quota (UserLimitHandle)
open Trace

def flagOf (snapshot : List CredEntry) (cred : String × String) : Option Nat :=
  (snapshot.find? (·.cred = cred)).map (·.revoked)

/-- In every run from here on, with any usage limit, the session is stopped
exactly after a list without the pair, or by its limit. -/
def Revocable (registry : CredsRegistry) (tag : String) (entry : CredEntry) : Prop :=
  ∀ (later : List CredsCall) (limit : Option UserLimitHandle),
    SessionAuth.shouldStop (run CredsRegistry.step registry later) ⟨limit, entry.revoked⟩ = true ↔
      (∃ call ∈ later, call.Lacks tag entry.cred) ∨ limit.any (·.isExhausted) = true

section Entries

theorem newEntries_flag {made : Nat} {creds : List (String × String)} {entry : CredEntry}
    (member : entry ∈ newEntries made creds) :
    made ≤ entry.revoked ∧ entry.revoked < made + creds.length := by
  induction creds generalizing made with
  | nil => cases member
  | cons first rest ih =>
      rcases List.mem_cons.mp member with rfl | later
      · exact ⟨Nat.le_refl made, Nat.lt_add_of_pos_right (Nat.succ_pos _)⟩
      · obtain ⟨low, high⟩ := ih later
        simp only [List.length_cons]
        omega

theorem newEntries_inj {made : Nat} {creds : List (String × String)} {a b : CredEntry}
    (left : a ∈ newEntries made creds) (right : b ∈ newEntries made creds)
    (same : a.revoked = b.revoked) : a = b := by
  induction creds generalizing made with
  | nil => cases left
  | cons first rest ih =>
      rcases List.mem_cons.mp left with rfl | leftLater
      · rcases List.mem_cons.mp right with rfl | rightLater
        · rfl
        · have above := (newEntries_flag rightLater).1
          exact absurd same (Nat.ne_of_lt above)
      · rcases List.mem_cons.mp right with rfl | rightLater
        · have above := (newEntries_flag leftLater).1
          exact absurd same.symm (Nat.ne_of_lt above)
        · exact ih leftLater rightLater

theorem newEntries_creds (made : Nat) (creds : List (String × String)) :
    (newEntries made creds).map (·.cred) = creds := by
  induction creds generalizing made with
  | nil => rfl
  | cons first rest ih =>
      rw [newEntries, List.map_cons, ih]
      rfl

theorem mem_newEntries_cred (made : Nat) {creds : List (String × String)}
    {cred : String × String} :
    (∃ entry ∈ newEntries made creds, entry.cred = cred) ↔ cred ∈ creds := by
  conv_rhs => rw [← newEntries_creds made creds]
  exact List.mem_map.symm

theorem flagOf_eq_none {snapshot : List CredEntry} {cred : String × String} :
    flagOf snapshot cred = none ↔ ∀ entry ∈ snapshot, entry.cred ≠ cred := by
  simp [flagOf]

theorem flagOf_mem {snapshot : List CredEntry} {cred : String × String} {flag : Nat}
    (found : flagOf snapshot cred = some flag) :
    ∃ entry ∈ snapshot, entry.cred = cred ∧ entry.revoked = flag := by
  obtain ⟨entry, first, rfl⟩ := Option.map_eq_some_iff.mp found
  exact ⟨entry, List.mem_of_find?_eq_some first, by simpa using List.find?_some first, rfl⟩

namespace CredsRegistry

@[simp] theorem adopt_cred (old : List CredEntry) (entry : CredEntry) :
    (adopt old entry).cred = entry.cred := by
  unfold adopt
  split <;> rfl

theorem adopt_revoked (old : List CredEntry) (entry : CredEntry) :
    (adopt old entry).revoked = (flagOf old entry.cred).getD entry.revoked := by
  have same : (fun before : CredEntry => before.sameCred entry) =
      fun before => decide (before.cred = entry.cred) := by
    funext before
    rw [Bool.eq_iff_iff]
    simp
  unfold adopt flagOf
  rw [same]
  cases old.find? fun before => decide (before.cred = entry.cred) <;> rfl

theorem adopt_eq_self {old : List CredEntry} {entry : CredEntry}
    (nothing : flagOf old entry.cred = none) : adopt old entry = entry := by
  have absent : old.find? (·.sameCred entry) = none := by
    rw [List.find?_eq_none]
    intro before inside same
    exact flagOf_eq_none.mp nothing before inside (CredEntry.sameCred_iff.mp same)
  rw [adopt, absent]

end CredsRegistry

theorem flagOf_adopted {old entries : List CredEntry} {cred : String × String} {flag : Nat}
    (before : flagOf old cred = some flag) (listed : ∃ entry ∈ entries, entry.cred = cred) :
    flagOf (entries.map (CredsRegistry.adopt old)) cred = some flag := by
  cases found : flagOf (entries.map (CredsRegistry.adopt old)) cred with
  | none =>
      obtain ⟨entry, member, rfl⟩ := listed
      exact absurd (CredsRegistry.adopt_cred old entry)
        (flagOf_eq_none.mp found _ (List.mem_map_of_mem member))
  | some adopted =>
      obtain ⟨_, member, same, rfl⟩ := flagOf_mem found
      obtain ⟨entry, _, rfl⟩ := List.mem_map.mp member
      rw [CredsRegistry.adopt_cred] at same
      rw [CredsRegistry.adopt_revoked, same, before, Option.getD_some]

end Entries

namespace CredsRegistry
variable {registry : CredsRegistry} {call : CredsCall}

def Holds (registry : CredsRegistry) (tag : String) (entry : CredEntry) : Prop :=
  ∃ snapshot, registry.creds tag = some snapshot ∧ entry ∈ snapshot

/-- Every flag in use is clear and belongs to one inbound and one pair, and the
flags to come have never been set. -/
structure Sound (registry : CredsRegistry) : Prop where
  made : ∀ {tag entry}, registry.Holds tag entry → entry.revoked < registry.made
  clear : ∀ {tag entry}, registry.Holds tag entry → registry.revoked entry.revoked = false
  owner : ∀ {tag tag' entry entry'}, registry.Holds tag entry → registry.Holds tag' entry' →
    entry.revoked = entry'.revoked → tag = tag' ∧ entry.cred = entry'.cred
  ahead : ∀ {flag}, registry.made ≤ flag → registry.revoked flag = false

section Step

/-- The snapshot a call starts from; an unknown inbound starts from nothing. -/
def oldSnapshot (registry : CredsRegistry) (tag : String) : List CredEntry :=
  (registry.creds tag).getD []

theorem mem_oldSnapshot {tag : String} {entry : CredEntry} :
    entry ∈ registry.oldSnapshot tag ↔ registry.Holds tag entry := by
  unfold oldSnapshot Holds
  cases registry.creds tag <;> simp

theorem reconcile_nil (tag : String) (entries : List CredEntry) :
    registry.reconcileAndSwapCreds tag [] entries =
      { registry with creds := Function.update registry.creds tag (some entries) } := by
  have adopts : entries.map (adopt []) = entries := List.map_id' entries
  simp only [reconcileAndSwapCreds, adopts, List.any_nil, Bool.or_false]

theorem step_cases (registry : CredsRegistry) (call : CredsCall) :
    (step registry call).2 =
        reconcileAndSwapCreds { registry with made := registry.made + call.creds.length } call.tag
          (registry.oldSnapshot call.tag) (newEntries registry.made call.creds) ∨
      registry.creds call.tag = none ∧
        (step registry call).2 = { registry with made := registry.made + call.creds.length } := by
  cases call with
  | register tag creds =>
      left
      cases found : registry.creds tag with
      | none => simp [step, registerCreds, oldSnapshot, CredsCall.tag, CredsCall.creds, found,
          reconcile_nil]
      | some existing => simp [step, registerCreds, oldSnapshot, CredsCall.tag, CredsCall.creds,
          found]
  | reload tag creds =>
      cases found : registry.creds tag with
      | none =>
          right
          simp [step, reloadCreds, CredsCall.tag, CredsCall.creds, found]
      | some existing =>
          left
          simp [step, reloadCreds, oldSnapshot, CredsCall.tag, CredsCall.creds, found]

theorem step_made (registry : CredsRegistry) (call : CredsCall) :
    (step registry call).2.made = registry.made + call.creds.length := by
  rcases step_cases registry call with swapped | ⟨-, skipped⟩
  · rw [swapped]
    rfl
  · rw [skipped]

theorem step_revoked {flag : Nat} :
    (step registry call).2.revoked flag = true ↔
      registry.revoked flag = true ∨
        ∃ before, registry.Holds call.tag before ∧ before.revoked = flag ∧
          before.cred ∉ call.creds := by
  rcases step_cases registry call with swapped | ⟨missing, skipped⟩
  · have absent : ∀ before : CredEntry,
        ((newEntries registry.made call.creds).map
          (adopt (registry.oldSnapshot call.tag))).any (·.sameCred before) = false ↔
          before.cred ∉ call.creds := by
      intro before
      rw [← mem_newEntries_cred registry.made, List.any_eq_false]
      simp
    rw [swapped]
    simp only [reconcileAndSwapCreds, Bool.or_eq_true, List.any_eq_true, Bool.and_eq_true,
      decide_eq_true_eq, Bool.not_eq_true', absent, mem_oldSnapshot]
  · rw [skipped]
    constructor
    · exact Or.inl
    · rintro (set | ⟨before, ⟨snapshot, found, _⟩, _⟩)
      · exact set
      · cases missing.symm.trans found

/-- Where the entries after a call come from: those of other inbounds were there
before, those of its own have the flag handed on for their pair or are new. -/
theorem step_holds {tag : String} {entry : CredEntry}
    (held : (step registry call).2.Holds tag entry) :
    tag ≠ call.tag ∧ registry.Holds tag entry ∨
      tag = call.tag ∧ entry.cred ∈ call.creds ∧
        (flagOf (registry.oldSnapshot tag) entry.cred = some entry.revoked ∨
          flagOf (registry.oldSnapshot tag) entry.cred = none ∧
            entry ∈ newEntries registry.made call.creds) := by
  obtain ⟨snapshot, found, member⟩ := held
  by_cases other : tag = call.tag
  · right
    subst other
    rcases step_cases registry call with swapped | ⟨missing, skipped⟩
    · rw [swapped] at found
      simp only [reconcileAndSwapCreds, Function.update_self, Option.some.injEq] at found
      subst found
      obtain ⟨new, newMember, rfl⟩ := List.mem_map.mp member
      refine ⟨rfl, ?_, ?_⟩
      · rw [adopt_cred]
        exact (mem_newEntries_cred _).mp ⟨new, newMember, rfl⟩
      · rw [adopt_cred, adopt_revoked]
        cases handed : flagOf (registry.oldSnapshot call.tag) new.cred with
        | none =>
            rw [adopt_eq_self handed]
            exact .inr ⟨rfl, newMember⟩
        | some flag => exact .inl rfl
    · rw [skipped] at found
      cases missing.symm.trans found
  · left
    rcases step_cases registry call with swapped | ⟨-, skipped⟩
    · rw [swapped] at found
      simp only [reconcileAndSwapCreds, Function.update_of_ne other] at found
      exact ⟨other, snapshot, found, member⟩
    · rw [skipped] at found
      exact ⟨other, snapshot, found, member⟩

/-- An entry has the flag of an earlier entry for the same pair, or is new. -/
theorem step_origin {tag : String} {entry : CredEntry}
    (held : (step registry call).2.Holds tag entry) :
    (∃ before, registry.Holds tag before ∧ before.cred = entry.cred ∧
        before.revoked = entry.revoked ∧ (tag = call.tag → entry.cred ∈ call.creds)) ∨
      tag = call.tag ∧ entry ∈ newEntries registry.made call.creds := by
  rcases step_holds held with ⟨other, was⟩ | ⟨here, listed, handed | ⟨-, new⟩⟩
  · exact .inl ⟨entry, was, rfl, rfl, fun same => absurd same other⟩
  · obtain ⟨before, inside, same, flagged⟩ := flagOf_mem handed
    exact .inl ⟨before, mem_oldSnapshot.mp inside, same, flagged, fun _ => listed⟩
  · exact .inr ⟨here, new⟩

theorem step_flagOf {tag : String} {cred : String × String} {flag : Nat}
    (handed : flagOf (registry.oldSnapshot tag) cred = some flag)
    (kept : ¬ call.Lacks tag cred) :
    flagOf ((step registry call).2.oldSnapshot tag) cred = some flag := by
  rcases step_cases registry call with swapped | ⟨-, skipped⟩
  · rw [swapped]
    by_cases other : tag = call.tag
    · subst other
      have listed : cred ∈ call.creds := by
        by_contra absent
        exact kept ⟨rfl, absent⟩
      simp only [oldSnapshot, reconcileAndSwapCreds, Function.update_self, Option.getD_some]
      exact flagOf_adopted handed ((mem_newEntries_cred _).mpr listed)
    · simpa only [oldSnapshot, reconcileAndSwapCreds, Function.update_of_ne other] using handed
  · rw [skipped]
    exact handed

theorem step_sound (sound : registry.Sound) : (step registry call).2.Sound where
  made held := by
    rw [step_made]
    rcases step_origin held with ⟨before, was, _, same, _⟩ | ⟨_, new⟩
    · exact same ▸ Nat.lt_add_right _ (sound.made was)
    · exact (newEntries_flag new).2
  clear held := by
    rw [Bool.eq_false_iff, Ne, step_revoked]
    rintro (set | ⟨removed, was, same, absent⟩)
    · rcases step_origin held with ⟨before, was, _, flagged, _⟩ | ⟨_, new⟩
      · rw [← flagged, sound.clear was] at set
        cases set
      · rw [sound.ahead (newEntries_flag new).1] at set
        cases set
    · rcases step_origin held with ⟨before, keeps, pair, flagged, listed⟩ | ⟨_, new⟩
      · -- a flag has one pair, and it cannot be both in the list and missing from it
        obtain ⟨here, pairs⟩ := sound.owner keeps was (flagged.trans same.symm)
        rw [pair] at pairs
        exact absurd (pairs ▸ listed here) absent
      · have old := sound.made was
        rw [same] at old
        exact absurd (newEntries_flag new).1 (Nat.not_le_of_lt old)
  owner left right same := by
    rcases step_origin left with ⟨a, wasA, credA, flagA, _⟩ | ⟨tagA, newA⟩
    · rcases step_origin right with ⟨b, wasB, credB, flagB, _⟩ | ⟨_, newB⟩
      · obtain ⟨tags, creds⟩ := sound.owner wasA wasB (flagA.trans (same.trans flagB.symm))
        exact ⟨tags, credA.symm.trans (creds.trans credB)⟩
      · have old := sound.made wasA
        rw [flagA, same] at old
        exact absurd (newEntries_flag newB).1 (Nat.not_le_of_lt old)
    · rcases step_origin right with ⟨b, wasB, _, flagB, _⟩ | ⟨tagB, newB⟩
      · have old := sound.made wasB
        rw [flagB, ← same] at old
        exact absurd (newEntries_flag newA).1 (Nat.not_le_of_lt old)
      · exact ⟨tagA.trans tagB.symm, congrArg CredEntry.cred (newEntries_inj newA newB same)⟩
  ahead above := by
    rw [step_made] at above
    rw [Bool.eq_false_iff, Ne, step_revoked]
    rintro (set | ⟨removed, was, rfl, _⟩)
    · rw [sound.ahead (Nat.le_of_add_right_le above)] at set
      cases set
    · have old := sound.made was
      omega

end Step

section Runs

theorem empty_sound : empty.Sound where
  made := by rintro _ _ ⟨_, found, _⟩; cases found
  clear := by rintro _ _ ⟨_, found, _⟩; cases found
  owner := by rintro _ _ _ _ ⟨_, found, _⟩; cases found
  ahead _ := rfl

theorem run_sound (calls : List CredsCall) : (run step empty calls).Sound :=
  run_invariant Sound (fun _ _ => step_sound) empty_sound calls

theorem run_revoked {flag : Nat} (set : registry.revoked flag = true) (later : List CredsCall) :
    (run step registry later).revoked flag = true :=
  run_invariant (fun registry : CredsRegistry => registry.revoked flag = true)
    (fun _ _ was => step_revoked.mpr (.inl was)) set later

/-- The flag that is handed on is set by the first list without the pair. -/
theorem run_handed {tag : String} {cred : String × String} {flag : Nat}
    (sound : registry.Sound) (handed : flagOf (registry.oldSnapshot tag) cred = some flag)
    (later : List CredsCall) :
    (run step registry later).revoked flag = true ↔ ∃ call ∈ later, call.Lacks tag cred := by
  induction later generalizing registry with
  | nil =>
      obtain ⟨entry, inside, _, rfl⟩ := flagOf_mem handed
      simp [sound.clear (mem_oldSnapshot.mp inside)]
  | cons call rest ih =>
      by_cases lacks : call.Lacks tag cred
      · obtain ⟨entry, inside, rfl, rfl⟩ := flagOf_mem handed
        obtain ⟨rfl, absent⟩ := lacks
        have set : (step registry call).2.revoked entry.revoked = true :=
          step_revoked.mpr (.inr ⟨entry, mem_oldSnapshot.mp inside, rfl, absent⟩)
        have after := run_revoked set rest
        exact ⟨fun _ => ⟨call, List.mem_cons_self, rfl, absent⟩, fun _ => after⟩
      · rw [run_cons, ih (step_sound sound) (step_flagOf handed lacks)]
        simp [lacks]

end Runs

end CredsRegistry

section Sessions
open CredsRegistry
variable {registry : CredsRegistry} {tag : String} {snapshot : List CredEntry}

theorem oldSnapshot_eq (loaded : registry.creds tag = some snapshot) :
    registry.oldSnapshot tag = snapshot := by
  rw [oldSnapshot, loaded, Option.getD_some]

theorem revocable_of_handed (sound : registry.Sound) {entry : CredEntry}
    (loaded : registry.creds tag = some snapshot)
    (handed : flagOf snapshot entry.cred = some entry.revoked) : Revocable registry tag entry := by
  intro later limit
  rw [← oldSnapshot_eq loaded] at handed
  rw [SessionAuth.shouldStop, Bool.or_eq_true, run_handed sound handed later]

/-- A flag that is not handed on is dropped by the next list that has the pair,
and the list after that cannot set it. -/
theorem handed_of_revocable (sound : registry.Sound) {entry : CredEntry}
    (loaded : registry.creds tag = some snapshot) (member : entry ∈ snapshot)
    (revocable : Revocable registry tag entry) :
    flagOf snapshot entry.cred = some entry.revoked := by
  have held : registry.Holds tag entry := ⟨snapshot, loaded, member⟩
  let keep := CredsCall.reload tag [entry.cred]
  let drop := CredsCall.reload tag []
  have lacks : drop.Lacks tag entry.cred := ⟨rfl, List.not_mem_nil⟩
  have stops : ((step (step registry keep).2 drop).2).revoked entry.revoked = true := by
    have stopped := (revocable [keep, drop] none).mpr (.inl ⟨drop, by simp, lacks⟩)
    simpa only [SessionAuth.shouldStop, Option.any_none, Bool.or_false, run_cons, run_nil]
      using stopped
  rcases step_revoked.mp stops with set | ⟨last, was, same, _⟩
  · -- `keep` sets the flag of no entry with this pair
    rcases step_revoked.mp set with already | ⟨other, was, same, absent⟩
    · rw [sound.clear held] at already
      cases already
    · obtain ⟨-, pair⟩ := sound.owner was held same
      exact absurd (pair ▸ List.mem_singleton_self _) absent
  · -- the flag that `drop` sets is one that `keep` took from the snapshot
    rcases step_holds was with ⟨other, _⟩ | ⟨_, listed, handed | ⟨nothing, _⟩⟩
    · exact absurd rfl other
    · rw [List.mem_singleton.mp listed, same] at handed
      rw [← oldSnapshot_eq loaded]
      exact handed
    · rw [List.mem_singleton.mp listed] at nothing
      exact absurd rfl (flagOf_eq_none.mp nothing entry (mem_oldSnapshot.mpr held))

end Sessions

section Handshake
open CredsRegistry
variable {crypto : TokenCrypto} {tolerance : UInt64} {readings : Readings} {token : Token}
  {bind : List UInt8} {isExhausted : String → Bool} {snapshot : List CredEntry}
  {entry : CredEntry}

theorem position_valid {verify : Nat → String → Bool} {n index : Nat} {creds : List CredEntry}
    (found : position verify n creds = some index) (here : creds[index]? = some entry) :
    ∃ m, verify m entry.password = true := by
  induction creds generalizing n index with
  | nil => cases found
  | cons first rest ih =>
      unfold position at found
      split at found
      · rename_i valid
        cases found
        cases here
        exact ⟨n, valid⟩
      · obtain ⟨before, later, rfl⟩ := Option.map_eq_some_iff.mp found
        exact ih later here

/-- When a password that fails once fails throughout the handshake, the entry
found is the first one with its pair. -/
theorem position_first {verify : Nat → String → Bool} {n index : Nat} {creds : List CredEntry}
    (steady : ∀ m m' password, verify m password = verify m' password)
    (found : position verify n creds = some index) (here : creds[index]? = some entry) :
    creds.find? (·.cred = entry.cred) = some entry := by
  obtain ⟨m, valid⟩ := position_valid found here
  induction creds generalizing n index with
  | nil => cases found
  | cons first rest ih =>
      unfold position at found
      split at found
      · cases found
        cases here
        exact List.find?_cons_of_pos (by simp)
      · rename_i invalid
        obtain ⟨before, later, rfl⟩ := Option.map_eq_some_iff.mp found
        have other : first.cred ≠ entry.cred := by
          intro same
          have password : first.password = entry.password := congrArg Prod.snd same
          rw [password, steady n m] at invalid
          exact invalid valid
        rw [List.find?_cons_of_neg (by simpa using other)]
        exact ih later here

theorem verifyCredsAndQuota_found
    (authenticated :
      verifyCredsAndQuota crypto tolerance readings snapshot token bind isExhausted = some entry) :
    ∃ index, position (readings.verify crypto tolerance token bind) 0 snapshot = some index ∧
      snapshot[index]? = some entry := by
  obtain ⟨index, found, rest⟩ := Option.bind_eq_some_iff.mp authenticated
  obtain ⟨at_, here, rest⟩ := Option.bind_eq_some_iff.mp rest
  split at rest
  · cases rest
  · cases rest
    exact ⟨index, found, here⟩

/-- A session takes the flag that is handed on unless what the checks read
changes during its handshake. -/
theorem handed_of_steady
    (authenticated :
      verifyCredsAndQuota crypto tolerance readings snapshot token bind isExhausted = some entry)
    (caches : ∀ n m, readings.caches n = readings.caches m)
    (clock : ∀ n m, readings.now n = readings.now m) :
    flagOf snapshot entry.cred = some entry.revoked := by
  obtain ⟨index, found, here⟩ := verifyCredsAndQuota_found authenticated
  have steady : ∀ n m password, readings.verify crypto tolerance token bind n password =
      readings.verify crypto tolerance token bind m password := by
    intro n m password
    rw [Readings.verify, caches n m, clock n m]
    rfl
  rw [flagOf, position_first steady found here, Option.map_some]

/-- A session takes the flag that is handed on when its pair is listed once. -/
theorem handed_of_nodup
    (authenticated :
      verifyCredsAndQuota crypto tolerance readings snapshot token bind isExhausted = some entry)
    (once : (snapshot.map (·.cred)).Nodup) : flagOf snapshot entry.cred = some entry.revoked := by
  obtain ⟨index, -, here⟩ := verifyCredsAndQuota_found authenticated
  have member := List.mem_of_getElem? here
  cases handed : flagOf snapshot entry.cred with
  | none => exact absurd rfl (flagOf_eq_none.mp handed entry member)
  | some flag =>
      obtain ⟨other, inside, same, rfl⟩ := flagOf_mem handed
      rw [List.inj_on_of_nodup_map once inside member same]

/-- A session is stopped by the removal of its pair, at once and for good, and
by nothing else that happens to the lists, exactly if its flag is that of the
first entry with its pair. -/
theorem stops_with_removal_iff (crypto : TokenCrypto) (tolerance : UInt64)
    (past : List CredsCall) (tag : String) (readings : Readings) (token : Token)
    (bind : List UInt8) (isExhausted : String → Bool) (snapshot : List CredEntry)
    (entry : CredEntry) (loaded : (run step empty past).creds tag = some snapshot)
    (authenticated :
      verifyCredsAndQuota crypto tolerance readings snapshot token bind isExhausted = some entry) :
    Revocable (run step empty past) tag entry ↔
      flagOf snapshot entry.cred = some entry.revoked := by
  obtain ⟨index, -, here⟩ := verifyCredsAndQuota_found authenticated
  constructor
  · exact handed_of_revocable (run_sound past) loaded (List.mem_of_getElem? here)
  · exact revocable_of_handed (run_sound past) loaded

theorem stops_with_removal_iff_listed_once :
    Revocable (run step empty [.register "in" [("default", "main"), ("alice", "pw")]]) "in"
        ⟨"default", "main", 0⟩ ↔
      flagOf [⟨"default", "main", 0⟩, ⟨"alice", "pw", 1⟩] ("default", "main") = some 0 :=
  stops_with_removal_iff plainCrypto 5 _ "in" ⟨fun _ => ReplayCaches.empty, fun _ => 100⟩
    ⟨0, 100, 0⟩ [] (fun _ => false) _ _ rfl (by decide)

/-- An inbound that lists one user twice. The token is 6 seconds ahead with a
tolerance of 5, and the clock ticks between the two checks. The flag of the
second entry is dropped by the next reload, so that removing the user leaves
the session running. -/
theorem shadowed_entry_not_revoked :
    let past : List CredsCall := [.register "in" [("alice", "pw"), ("alice", "pw")]]
    let readings : Readings :=
      ⟨fun _ => ReplayCaches.empty, fun n => if n = 0 then 100 else 101⟩
    let later : List CredsCall := [.reload "in" [("alice", "pw")], .reload "in" []]
    (run step empty past).creds "in" = some [⟨"alice", "pw", 0⟩, ⟨"alice", "pw", 1⟩] ∧
      verifyCredsAndQuota plainCrypto 5 readings [⟨"alice", "pw", 0⟩, ⟨"alice", "pw", 1⟩]
        ⟨0, 106, 0⟩ [] (fun _ => false) = some ⟨"alice", "pw", 1⟩ ∧
      (∃ call ∈ later, call.Lacks "in" ("alice", "pw")) ∧
      SessionAuth.shouldStop (run step empty (past ++ later)) ⟨none, 1⟩ = false := by
  refine ⟨rfl, by decide, ⟨.reload "in" [], by simp, by decide⟩, by decide⟩

end Handshake

end Mirage.Auth
