import Mirage.Quota.Ledger

/-!
A rebuild of the registry, user by user. Users still to be done are as the old
registry had them; each user done has one valid handle, the old one or a new
one that takes over what was kept for the period.
-/

namespace Mirage.Quota

namespace Registry

section Rebuild

/-- What becomes of a user who is done: the one handle goes on or a new one
takes over the usage of the period. -/
def Continues (self : Registry) (name : String) (handle : UserLimitHandle) : Prop :=
  match self.users name with
  | some id =>
      handle.periodUsed =
        if handle.periodStart = (self.handles id).periodStart ∧
          handle.resetDay = (self.handles id).resetDay then (self.handles id).periodUsed else 0
  | none =>
      match self.restored name with
      | some saved =>
          handle.periodUsed = if saved.periodStart = handle.periodStart then saved.periodBytes else 0
      | none => handle.periodUsed = 0

/-- A rebuild under way: users not done are as they were, those done have one
valid handle that continues what the registry had. -/
structure Fits (registry : Registry) (building : Building) : Prop where
  grown : registry.made ≤ building.made
  older : ∀ {id}, id < registry.made →
    (building.handles id).name = (registry.handles id).name ∧
      (building.handles id).revoked = (registry.handles id).revoked
  untouched : ∀ {name id}, registry.users name = some id → building.map name = none →
    building.handles id = registry.handles id
  todo : ∀ {name}, building.map name = none → building.restored name = registry.restored name
  fresh : ∀ {id}, registry.made ≤ id → id < building.made →
    building.map (building.handles id).name = some id
  done : ∀ {name id}, building.map name = some id →
    id < building.made ∧ (building.handles id).name = name ∧
      (building.handles id).revoked = false ∧
      (∀ {other}, registry.users name = some other → id = other) ∧
      (registry.users name = none → registry.made ≤ id) ∧
      registry.Continues name (building.handles id)

variable {self : Registry} {building : Building} {now : UInt64} {user : MirageUser}

theorem put_fits (sound : self.Sound) (fits : self.Fits building)
    (first : building.map user.name = none) {id made : Nat} {handle : UserLimitHandle}
    {restored : String → Option UserQuotaPersist}
    (place : self.users user.name = some id ∧ made = building.made ∨
      self.users user.name = none ∧ id = building.made ∧ made = building.made + 1)
    (named : handle.name = user.name) (valid : handle.revoked = false)
    (kept : ∀ name ≠ user.name, restored name = building.restored name)
    (continues : self.Continues user.name handle) :
    self.Fits ⟨Function.update building.handles id handle, made, restored,
      Function.update building.map user.name (some id)⟩ := by
  have larger : building.made ≤ made ∧ id < made := by
    rcases place with ⟨here, rfl⟩ | ⟨_, rfl, rfl⟩
    · exact ⟨Nat.le_refl _, Nat.lt_of_lt_of_le (sound.registered here).1 fits.grown⟩
    · exact ⟨Nat.le_succ _, Nat.lt_succ_self _⟩
  -- A known handle with this number is the user's own.
  have own : id < self.made → self.users user.name = some id := by
    intro known
    rcases place with ⟨here, _⟩ | ⟨_, rfl, _⟩
    · exact here
    · exact absurd known (Nat.not_lt.mpr fits.grown)
  have others : ∀ {name}, Function.update building.map user.name (some id) name = none →
      name ≠ user.name ∧ building.map name = none := by
    intro name undone
    by_cases same : name = user.name
    · rw [same, Function.update_self] at undone
      cases undone
    · rw [Function.update_of_ne same] at undone
      exact ⟨same, undone⟩
  constructor
  case grown => exact Nat.le_trans fits.grown larger.1
  case older =>
    intro other known
    by_cases same : other = id
    · subst same
      have before := sound.registered (own known)
      simp only [Function.update_self]
      exact ⟨named.trans before.2.1.symm, valid.trans before.2.2.symm⟩
    · simp only [Function.update_of_ne same]
      exact fits.older known
  case untouched =>
    intro name other listed undone
    obtain ⟨different, before⟩ := others undone
    have apart : other ≠ id := by
      intro same
      have known := (sound.registered listed).1
      rw [same] at listed known
      exact different ((sound.registered listed).2.1.symm.trans
        (sound.registered (own known)).2.1)
    exact (Function.update_of_ne apart _ _).trans (fits.untouched listed before)
  case todo =>
    intro name undone
    obtain ⟨different, before⟩ := others undone
    exact (kept name different).trans (fits.todo before)
  case fresh =>
    intro other new below
    by_cases same : other = id
    · subst same
      simp only [Function.update_self, named]
    · have earlier : other < building.made := by
        rcases place with ⟨_, rfl⟩ | ⟨_, rfl, rfl⟩
        · exact below
        · exact Nat.lt_of_le_of_ne (Nat.le_of_lt_succ below) same
      have listed := fits.fresh new earlier
      have different : (building.handles other).name ≠ user.name := by
        intro equal
        rw [equal, first] at listed
        cases listed
      simp only [Function.update_of_ne same, Function.update_of_ne different]
      exact listed
  case done =>
    intro name other listed
    change Function.update building.map user.name (some id) name = some other at listed
    by_cases same : name = user.name
    · subst same
      rw [Function.update_self] at listed
      cases listed
      simp only [Function.update_self]
      refine ⟨larger.2, named, valid, ?_, ?_, continues⟩
      · intro old here
        rcases place with ⟨also, _⟩ | ⟨none, _, _⟩
        · exact Option.some.inj (also.symm.trans here)
        · cases none.symm.trans here
      · intro gone
        rcases place with ⟨here, _⟩ | ⟨_, rfl, _⟩
        · cases gone.symm.trans here
        · exact fits.grown
    · rw [Function.update_of_ne same] at listed
      obtain ⟨known, itsName, rest⟩ := fits.done listed
      have apart : other ≠ id := by
        intro equal
        subst equal
        rcases place with ⟨here, _⟩ | ⟨_, rfl, _⟩
        · have before := sound.registered here
          exact same (itsName.symm.trans ((fits.older before.1).1.trans before.2.1))
        · exact Nat.lt_irrefl _ known
      simp only [Function.update_of_ne apart]
      exact ⟨Nat.lt_of_lt_of_le known larger.1, itsName, rest⟩

theorem addUser_fits (now : UInt64) (sound : self.Sound) (fits : self.Fits building)
    (first : building.map user.name = none) :
    self.Fits (building.addUser self.users now user) := by
  rw [Building.addUser]
  split
  · exact fits
  cases here : self.users user.name with
  | some id =>
      obtain ⟨known, named, valid⟩ := sound.registered here
      have same := fits.untouched here first
      rw [Option.filter_some, if_pos (by simp [same, valid])]
      have rest := (self.handles id).update_rest user.quotaBytes user.resetDay now
      apply put_fits sound fits first (.inl ⟨here, rfl⟩)
      · rw [same, rest.1, named]
      · rw [same, rest.2.1, valid]
      · exact fun _ _ => rfl
      · simp only [Continues, here, same]
        exact (self.handles id).update_used _ _ _
  | none =>
      rw [Option.filter_none]
      apply put_fits sound fits first (.inr ⟨here, rfl, rfl⟩)
      · rfl
      · rfl
      · exact fun _ different => Function.update_of_ne different _ _
      · simp only [Continues, here, UserLimitHandle.new, UserLimitHandle.reevaluateExhausted,
          Building.takeover, fits.todo first]
        cases self.restored user.name with
        | none => rfl
        | some saved => rfl

theorem addUser_map (old : String → Option Nat) (name : String) :
    (building.addUser old now user).map name ≠ none ↔
      building.map name ≠ none ∨ (name = user.name ∧ name ≠ "default") := by
  have put : ∀ id : Nat, Function.update building.map user.name (some id) name ≠ none ↔
      building.map name ≠ none ∨ name = user.name := by
    intro id
    by_cases same : name = user.name
    · subst same
      simp
    · simp [same]
  rw [Building.addUser]
  by_cases isDefault : user.name = "default"
  · rw [if_pos isDefault]
    constructor
    · exact .inl
    · rintro (done | ⟨same, other⟩)
      · exact done
      · exact absurd (same.trans isDefault) other
  · rw [if_neg isDefault]
    have iff : building.map name ≠ none ∨ name = user.name ↔
        building.map name ≠ none ∨ (name = user.name ∧ name ≠ "default") := by
      constructor
      · rintro (done | rfl)
        · exact .inl done
        · exact .inr ⟨rfl, isDefault⟩
      · rintro (done | ⟨same, _⟩)
        · exact .inl done
        · exact .inr same
    split
    · exact (put _).trans iff
    · exact (put _).trans iff

theorem foldl_addUser_fits (now : UInt64) (sound : self.Sound) {users : List MirageUser}
    (distinct : (users.map (·.name)).Nodup) (fits : self.Fits building)
    (first : ∀ user ∈ users, building.map user.name = none) :
    self.Fits (users.foldl (Building.addUser self.users now) building) ∧
      ∀ name, (users.foldl (Building.addUser self.users now) building).map name ≠ none ↔
        building.map name ≠ none ∨ (name ∈ users.map (·.name) ∧ name ≠ "default") := by
  induction users generalizing building with
  | nil => exact ⟨fits, fun name => by simp⟩
  | cons user rest ih =>
      obtain ⟨absent, others⟩ := List.nodup_cons.mp distinct
      have next := addUser_fits now sound fits (first user List.mem_cons_self)
      have undone : ∀ other ∈ rest,
          (building.addUser self.users now user).map other.name = none := by
        intro other member
        by_contra done
        rcases (addUser_map self.users other.name).mp done with before | ⟨same, _⟩
        · exact before (first other (List.mem_cons_of_mem _ member))
        · apply absent
          change user.name ∈ rest.map (·.name)
          rw [← same]
          exact List.mem_map_of_mem member
      obtain ⟨final, listed⟩ := ih others next undone
      refine ⟨final, ?_⟩
      intro name
      rw [List.foldl_cons, listed name, addUser_map, List.map_cons, List.mem_cons]
      constructor
      · rintro ((done | ⟨same, other⟩) | ⟨member, other⟩)
        · exact .inl done
        · exact .inr ⟨.inl same, other⟩
        · exact .inr ⟨.inr member, other⟩
      · rintro (done | ⟨same | member, other⟩)
        · exact .inl (.inl done)
        · exact .inl (.inr ⟨same, other⟩)
        · exact .inr ⟨member, other⟩

theorem buildRegistry_fits (now : UInt64) (sound : self.Sound) {users : List MirageUser}
    (distinct : (users.map (·.name)).Nodup) :
    self.Fits (self.buildRegistry users now) ∧
      ∀ name, (self.buildRegistry users now).map name ≠ none ↔
        name ∈ users.map (·.name) ∧ name ≠ "default" := by
  have untouched : self.Fits ⟨self.handles, self.made, self.restored, fun _ => none⟩ := by
    constructor
    case grown => exact Nat.le_refl _
    case older => exact fun _ => ⟨rfl, rfl⟩
    case untouched => exact fun _ _ => rfl
    case todo => exact fun _ => rfl
    case fresh => exact fun above below => absurd below (Nat.not_lt.mpr above)
    case done => exact fun none => by cases none
  obtain ⟨fits, listed⟩ := foldl_addUser_fits now sound distinct untouched fun _ _ => rfl
  refine ⟨fits, ?_⟩
  intro name
  rw [buildRegistry, listed name]
  exact ⟨fun either => either.resolve_left (fun never => never rfl), .inr⟩

theorem foldl_collect_spec (users out : List MirageUser) (distinct : (out.map (·.name)).Nodup) :
    ((users.foldl (fun out user =>
        if out.any (·.name = user.name) then out else out ++ [user]) out).map (·.name)).Nodup ∧
      ∀ name, name ∈ (users.foldl (fun out user =>
        if out.any (·.name = user.name) then out else out ++ [user]) out).map (·.name) ↔
        name ∈ out.map (·.name) ∨ name ∈ users.map (·.name) := by
  induction users generalizing out with
  | nil => exact ⟨distinct, fun name => by simp⟩
  | cons user rest ih =>
      have seen : (out.any (·.name = user.name)) = true ↔ user.name ∈ out.map (·.name) := by
        simp
      rw [List.foldl_cons]
      by_cases member : user.name ∈ out.map (·.name)
      · rw [if_pos (seen.mpr member)]
        refine ⟨(ih out distinct).1, ?_⟩
        intro name
        rw [(ih out distinct).2 name, List.map_cons, List.mem_cons]
        constructor
        · exact Or.imp_right .inr
        · rintro (old | rfl | later)
          · exact .inl old
          · exact .inl member
          · exact .inr later
      · have larger : ((out ++ [user]).map (·.name)).Nodup := by
          rw [List.map_append, List.map_singleton]
          exact List.nodup_append.mpr ⟨distinct, List.nodup_singleton _, by
            intro name old other fresh same
            rw [List.mem_singleton.mp fresh] at same
            exact member (same ▸ old)⟩
        rw [if_neg (fun any => member (seen.mp any))]
        refine ⟨(ih _ larger).1, ?_⟩
        intro name
        rw [(ih _ larger).2 name, List.map_append, List.mem_append, List.map_singleton,
          List.mem_singleton, List.map_cons, List.mem_cons, or_assoc]

theorem collectUsers_distinct (inbounds : List (List MirageUser)) :
    ((collectUsers inbounds).map (·.name)).Nodup :=
  (foldl_collect_spec inbounds.flatten [] List.nodup_nil).1

theorem mem_collectUsers (inbounds : List (List MirageUser)) (name : String) :
    name ∈ (collectUsers inbounds).map (·.name) ↔ name ∈ inbounds.flatten.map (·.name) := by
  rw [collectUsers, (foldl_collect_spec inbounds.flatten [] List.nodup_nil).2 name]
  simp

/-- The handle a rebuild gives a user agrees with the ledger. -/
theorem continues_balanced {next : Registry} {total : String → Nat} {name : String} {id : Nat}
    (balanced : self.Balanced total) (there : next.users name = some id)
    (own : ∀ {old}, self.users name = some old → id = old)
    (continues : self.Continues name (next.handles id)) :
    (next.handles id).periodUsed =
      UInt64.ofNat (if self.begins next name then 0 else total name) := by
  rw [Continues] at continues
  cases here : self.users name with
  | some old =>
      cases own here
      rw [here] at continues
      dsimp only at continues
      rw [continues]
      by_cases still : (next.handles id).periodStart = (self.handles id).periodStart ∧
          (next.handles id).resetDay = (self.handles id).resetDay
      · have going : ¬ self.begins next name = true := by
          rw [begins_present here there, not_not]
          exact still
        rw [if_pos still, if_neg going]
        exact balanced.present here
      · rw [if_neg still, if_pos ((begins_present here there).mpr still)]
        rfl
  -- An unknown user is restored from the file, if its period is still the same.
  | none =>
      have after : next.startOf name = some (next.handles id).periodStart := by
        rw [startOf, there]
      have before : self.startOf name = (self.restored name).map (·.periodStart) := by
        rw [startOf, here]
      rw [here] at continues
      cases saved : self.restored name with
      | none =>
          rw [saved] at continues before
          dsimp only at continues
          have anew : self.begins next name = true := by
            apply begins_other_start
            rw [before, after]
            exact (Option.some_ne_none _).symm
          rw [continues, if_pos anew]
          rfl
      | some entry =>
          rw [saved] at continues before
          dsimp only at continues
          rw [continues]
          by_cases still : entry.periodStart = (next.handles id).periodStart
          · have start : self.startOf name = next.startOf name := by
              rw [before, after, ← still]
              rfl
            rw [if_pos still, begins_same_start start (.inl here)]
            exact balanced.away here saved
          · have anew : self.begins next name = true := by
              apply begins_other_start
              rw [before, after]
              exact fun equal => still (Option.some.inj equal)
            rw [if_neg still, if_pos anew]
            rfl

theorem reload_handle (inbounds : List (List MirageUser))
    (fits : self.Fits (self.buildRegistry (collectUsers inbounds) now)) {name : String} {id : Nat}
    (listed : (self.buildRegistry (collectUsers inbounds) now).map name = some id) :
    (self.reloadUserLimits inbounds now).handles id =
      (self.buildRegistry (collectUsers inbounds) now).handles id := by
  have stays : ¬ (self.users name = some id ∧
      (self.buildRegistry (collectUsers inbounds) now).map name = none) := by
    rintro ⟨_, gone⟩
    cases gone.symm.trans listed
  simp only [reloadUserLimits, (fits.done listed).2.1]
  rw [if_neg stays]

theorem reload_users (now : UInt64) (sound : self.Sound) (inbounds : List (List MirageUser))
    (name : String) :
    (self.reloadUserLimits inbounds now).users name ≠ none ↔
      name ∈ inbounds.flatten.map (·.name) ∧ name ≠ "default" := by
  have listed := (buildRegistry_fits now sound (collectUsers_distinct inbounds)).2 name
  rw [mem_collectUsers] at listed
  exact listed

theorem reload_sound (sound : self.Sound) (inbounds : List (List MirageUser))
    (fits : self.Fits (self.buildRegistry (collectUsers inbounds) now)) :
    (self.reloadUserLimits inbounds now).Sound where
  registered := by
    intro name id listed
    obtain ⟨known, named, valid, _⟩ := fits.done listed
    rw [reload_handle inbounds fits listed]
    exact ⟨known, named, valid⟩
  live := by
    intro id known valid
    simp only [reloadUserLimits] at known valid ⊢
    split at valid
    · cases valid
    · next stays =>
      rw [if_neg stays]
      by_cases old : id < self.made
      · obtain ⟨named, revoked⟩ := fits.older old
        have here := sound.live old (revoked ▸ valid)
        rw [← named] at here
        obtain ⟨own, listed⟩ := Option.ne_none_iff_exists'.mp (not_and.mp stays here)
        rw [listed, (fits.done listed).2.2.2.1 here]
      · exact fits.fresh (Nat.not_lt.mp old) known
  held := fun member => Nat.lt_of_lt_of_le (sound.held member) fits.grown
  ordinary := by
    by_contra listed
    exact ((reload_users now sound inbounds "default").mp listed).2 rfl

theorem reload_balanced {total : String → Nat} (balanced : self.Balanced total)
    (inbounds : List (List MirageUser))
    (fits : self.Fits (self.buildRegistry (collectUsers inbounds) now)) :
    (self.reloadUserLimits inbounds now).Balanced fun name =>
      if self.begins (self.reloadUserLimits inbounds now) name then 0 else total name where
  present := by
    intro name id there
    obtain ⟨_, _, _, own, _, continues⟩ := fits.done there
    rw [← reload_handle inbounds fits there] at continues
    exact continues_balanced balanced there own continues
  away := by
    intro name entry gone kept
    have undone : (self.buildRegistry (collectUsers inbounds) now).map name = none := gone
    have after : (self.reloadUserLimits inbounds now).startOf name = some entry.periodStart := by
      rw [startOf, gone, kept]
      rfl
    simp only [reloadUserLimits] at kept
    cases here : self.users name with
    | some id =>
        simp only [here, undone, and_self, if_true, Option.some.injEq] at kept
        subst kept
        have same := fits.untouched here undone
        have start : self.startOf name = (self.reloadUserLimits inbounds now).startOf name := by
          rw [after, startOf, here, same]
        rw [begins_same_start start (.inr gone)]
        simp only [same]
        exact balanced.present here
    | none =>
        simp only [here, fits.todo undone] at kept
        have start : self.startOf name = (self.reloadUserLimits inbounds now).startOf name := by
          rw [after, startOf, here, kept]
          rfl
        rw [begins_same_start start (.inl here)]
        exact balanced.away here kept

end Rebuild

end Registry

end Mirage.Quota
