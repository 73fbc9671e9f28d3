import Mirage.Quota.Registry

/-!
The usage counters against a ledger that adds up what connections record and
starts again when a period begins. Every operation on the registry keeps the
two equal, for users in the registry and for those who left.
-/

namespace Mirage.Quota

namespace UserLimitHandle
variable (handle : UserLimitHandle)

/-- `record_bytes` counts only against a quota that is not used up. -/
def counts : Bool := handle.quotaBytes ≠ 0 && !handle.isExhausted

theorem recordBytes_used (n : UInt64) :
    (handle.recordBytes n).2.periodUsed =
      if handle.counts then handle.periodUsed + n else handle.periodUsed := by
  simp only [recordBytes, counts]
  rcases Bool.eq_false_or_eq_true handle.isExhausted with stopped | stopped
  · simp [stopped]
  · by_cases free : handle.quotaBytes = 0
    · simp [stopped, free]
    · by_cases reached : handle.quotaBytes ≤ saturatingAdd handle.periodUsed n
      · simp [stopped, free, reached]
      · simp [stopped, free, reached]

theorem recordBytes_rest (n : UInt64) :
    (handle.recordBytes n).2.name = handle.name ∧
      (handle.recordBytes n).2.revoked = handle.revoked ∧
      (handle.recordBytes n).2.periodStart = handle.periodStart ∧
      (handle.recordBytes n).2.resetDay = handle.resetDay := by
  simp only [recordBytes]
  split
  · exact ⟨rfl, rfl, rfl, rfl⟩
  · split
    · exact ⟨rfl, rfl, rfl, rfl⟩
    · split
      · exact ⟨rfl, rfl, rfl, rfl⟩
      · exact ⟨rfl, rfl, rfl, rfl⟩

theorem maybeRollover_cases (now : UInt64) :
    handle.maybeRollover now = handle ∨
      ∃ start used, handle.maybeRollover now = reevaluateExhausted
        { handle with
          periodStart := start
          periodUsed := used } := by
  rw [maybeRollover]
  by_cases within : periodStartOf now handle.resetDay ≤ handle.periodStart
  · exact Or.inl (if_pos within)
  · exact Or.inr ⟨_, _, if_neg within⟩

theorem maybeRollover_rest (now : UInt64) :
    (handle.maybeRollover now).name = handle.name ∧
      (handle.maybeRollover now).revoked = handle.revoked ∧
      (handle.maybeRollover now).resetDay = handle.resetDay := by
  obtain same | ⟨start, used, same⟩ := handle.maybeRollover_cases now
  · rw [same]
    exact ⟨rfl, rfl, rfl⟩
  · rw [same]
    exact ⟨rfl, rfl, rfl⟩

theorem maybeRollover_used (now : UInt64) :
    (handle.maybeRollover now).periodUsed =
      if (handle.maybeRollover now).periodStart = handle.periodStart then handle.periodUsed
      else 0 := by
  simp only [maybeRollover]
  by_cases within : periodStartOf now handle.resetDay ≤ handle.periodStart
  · rw [if_pos within, if_pos rfl]
  · rw [if_neg within]
    have moved : periodStartOf now handle.resetDay ≠ handle.periodStart :=
      fun same => within (same ▸ UInt64.le_refl _)
    simp [reevaluateExhausted, moved, saturatingSub]

theorem update_rest (quota : UInt64) (resetDay : UInt8) (now : UInt64) :
    (handle.update quota resetDay now).name = handle.name ∧
      (handle.update quota resetDay now).revoked = handle.revoked ∧
      (handle.update quota resetDay now).resetDay = resetDay := by
  simp only [update, reevaluateExhausted]
  split
  · exact ⟨rfl, rfl, rfl⟩
  · exact ⟨rfl, rfl, rfl⟩

theorem update_used (quota : UInt64) (resetDay : UInt8) (now : UInt64) :
    (handle.update quota resetDay now).periodUsed =
      if (handle.update quota resetDay now).periodStart = handle.periodStart ∧
        (handle.update quota resetDay now).resetDay = handle.resetDay then handle.periodUsed
      else 0 := by
  simp only [update, reevaluateExhausted]
  by_cases begins : handle.resetDay ≠ resetDay ∨ handle.periodStart < periodStartOf now resetDay
  · have other : ¬ (periodStartOf now resetDay = handle.periodStart ∧
        resetDay = handle.resetDay) := by
      rintro ⟨start, day⟩
      rcases begins with changed | later
      · exact changed day.symm
      · exact UInt64.lt_irrefl _ (start ▸ later)
    rw [if_pos begins, if_neg other]
  · have same : resetDay = handle.resetDay := by
      by_contra different
      exact begins (.inl (Ne.symm different))
    rw [if_neg begins, if_pos ⟨rfl, same⟩]

end UserLimitHandle

namespace Registry

def startOf (self : Registry) (name : String) : Option UInt64 :=
  match self.users name with
  | some id => some (self.handles id).periodStart
  | none => (self.restored name).map (·.periodStart)

def newDay (self next : Registry) (name : String) : Bool :=
  match self.users name, next.users name with
  | some id, some id' => (self.handles id).resetDay ≠ (next.handles id').resetDay
  | _, _ => false

def begins (self next : Registry) (name : String) : Bool :=
  self.startOf name ≠ next.startOf name || self.newDay next name

def carries (self : Registry) (connection : Nat) (name : String) : Bool :=
  match self.connections[connection]? with
  | some (some id) => (self.handles id).name = name
  | _ => false

def counted (self : Registry) (connection : Nat) (name : String) : Bool :=
  match self.connections[connection]? with
  | some (some id) => (self.handles id).name = name && (self.handles id).counts
  | _ => false

def takes (self : Registry) (data : String → Option UserQuotaPersist) (now : UInt64)
    (name : String) : Option UInt64 :=
  match data name, self.users name with
  | none, _ => none
  | some saved, some id =>
      if saved.periodStart = periodStartOf now (self.handles id).resetDay then
        some saved.periodBytes
      else none
  | some saved, none => some saved.periodBytes

variable (charged : Registry → Nat → String → Bool)

def ledger (self : Registry) (total : String → Nat) (event : Event) (name : String) : Nat :=
  match event with
  | .record connection n =>
      if charged self connection name then total name + n.toNat else total name
  | .reset who => if who = name then 0 else total name
  | .restore data now => ((self.takes data now name).map (·.toNat)).getD (total name)
  | .reload _ _ | .connect _ _ | .tick _ =>
      if self.begins (self.step event) name then 0 else total name

def recorded (self : Registry) (total : String → Nat) : List Event → String → Nat
  | [] => total
  | event :: rest => recorded (self.step event) (self.ledger charged total event) rest

def run (self : Registry) (events : List Event) : Registry := events.foldl step self

/-- A handle that is not revoked is the one its user has in the registry. -/
structure Sound (registry : Registry) : Prop where
  registered : ∀ {name id}, registry.users name = some id →
    id < registry.made ∧ (registry.handles id).name = name ∧ (registry.handles id).revoked = false
  live : ∀ {id}, id < registry.made → (registry.handles id).revoked = false →
    registry.users (registry.handles id).name = some id
  held : ∀ {id}, some id ∈ registry.connections → id < registry.made
  ordinary : registry.users "default" = none

structure Balanced (registry : Registry) (total : String → Nat) : Prop where
  present : ∀ {name id}, registry.users name = some id →
    (registry.handles id).periodUsed = UInt64.ofNat (total name)
  away : ∀ {name saved}, registry.users name = none → registry.restored name = some saved →
    saved.periodBytes = UInt64.ofNat (total name)

section Steps
variable {self next : Registry} {total : String → Nat} {name : String} {id : Nat}

theorem begins_present {id' : Nat} (here : self.users name = some id)
    (there : next.users name = some id') :
    self.begins next name = true ↔
      ¬ ((next.handles id').periodStart = (self.handles id).periodStart ∧
        (next.handles id').resetDay = (self.handles id).resetDay) := by
  have start : self.startOf name ≠ next.startOf name ↔
      (next.handles id').periodStart ≠ (self.handles id).periodStart := by
    rw [startOf, startOf, here, there]
    exact (Option.some_inj.trans eq_comm).not
  have day : self.newDay next name = true ↔
      (next.handles id').resetDay ≠ (self.handles id).resetDay := by
    rw [newDay, here, there]
    simp only [decide_eq_true_eq]
    exact eq_comm.not
  rw [begins, Bool.or_eq_true, decide_eq_true_iff, start, day, not_and_or]

/-- No period begins for a user who is away before or after when the start is
the same. -/
theorem begins_same_start (start : self.startOf name = next.startOf name)
    (apart : self.users name = none ∨ next.users name = none) : self.begins next name = false := by
  have day : self.newDay next name = false := by
    rw [newDay]
    rcases apart with none | none
    · rw [none]
    · rw [none]
      cases self.users name with
      | none => rfl
      | some _ => rfl
  rw [begins, day, Bool.or_false, decide_eq_false_iff_not, not_not]
  exact start

theorem begins_other_start (start : self.startOf name ≠ next.startOf name) :
    self.begins next name = true := by
  rw [begins, decide_eq_true start, Bool.true_or]

/-- Steps that leave names, revocations and the registry as they are. -/
theorem Sound.of_handles (sound : self.Sound) (users : next.users = self.users)
    (made : next.made = self.made)
    (same : ∀ id, (next.handles id).name = (self.handles id).name ∧
      (next.handles id).revoked = (self.handles id).revoked)
    (held : ∀ id, some id ∈ next.connections →
      some id ∈ self.connections ∨ ∃ name, self.users name = some id) : next.Sound where
  registered := by
    intro name id listed
    rw [users] at listed
    rw [made, (same id).1, (same id).2]
    exact sound.registered listed
  live := by
    intro id known valid
    rw [made] at known
    rw [(same id).2] at valid
    rw [users, (same id).1]
    exact sound.live known valid
  held := by
    intro id member
    rw [made]
    rcases held id member with old | ⟨name, listed⟩
    · exact sound.held old
    · exact (sound.registered listed).1
  ordinary := by
    rw [users]
    exact sound.ordinary

theorem onUser_handles (change : UserLimitHandle → UserLimitHandle) (id : Nat) :
    (self.onUser name change).handles id =
      if self.users name = some id then change (self.handles id) else self.handles id := by
  rw [onUser]
  cases found : self.users name with
  | none => rfl
  | some other =>
      by_cases same : id = other
      · subst same
        rw [if_pos rfl]
        exact Function.update_self _ _ _
      · rw [if_neg (fun equal => same (Option.some.inj equal).symm)]
        exact Function.update_of_ne same _ _

theorem onUser_rest (self : Registry) (name : String) (change : UserLimitHandle → UserLimitHandle) :
    (self.onUser name change).users = self.users ∧ (self.onUser name change).made = self.made ∧
      (self.onUser name change).restored = self.restored ∧
      (self.onUser name change).connections = self.connections := by
  rw [onUser]
  cases self.users name with
  | none => exact ⟨rfl, rfl, rfl, rfl⟩
  | some _ => exact ⟨rfl, rfl, rfl, rfl⟩

theorem rolled_balanced {now : UInt64} (balanced : self.Balanced total)
    (users : next.users = self.users) (restored : next.restored = self.restored)
    (rolled : ∀ id, next.handles id = self.handles id ∨
      next.handles id = (self.handles id).maybeRollover now) :
    next.Balanced fun name => if self.begins next name then 0 else total name where
  present := by
    intro name id listed
    have here : self.users name = some id := users ▸ listed
    have counter := balanced.present here
    rcases rolled id with same | moved
    · have still : ¬ self.begins next name = true := by
        rw [begins_present here listed, same, not_not]
        exact ⟨rfl, rfl⟩
      rw [if_neg still, same]
      exact counter
    · have day := ((self.handles id).maybeRollover_rest now).2.2
      have used := (self.handles id).maybeRollover_used now
      by_cases start : ((self.handles id).maybeRollover now).periodStart =
          (self.handles id).periodStart
      · have still : ¬ self.begins next name = true := by
          rw [begins_present here listed, moved, not_not]
          exact ⟨start, day⟩
        rw [if_neg still, moved, used, if_pos start]
        exact counter
      · have anew : self.begins next name = true := by
          rw [begins_present here listed, moved]
          exact fun both => start both.1
        rw [if_pos anew, moved, used, if_neg start]
        rfl
  away := by
    intro name saved gone kept
    have left : self.users name = none := users ▸ gone
    rw [restored] at kept
    have start : self.startOf name = next.startOf name := by
      rw [startOf, startOf, gone, left, restored]
    rw [if_neg (by rw [begins_same_start start (.inl left)]; exact Bool.false_ne_true)]
    exact balanced.away left kept

theorem tick_keeps (sound : self.Sound) (balanced : self.Balanced total) (now : UInt64) :
    (self.checkPeriodRollover now).Sound ∧ (self.checkPeriodRollover now).Balanced
      fun name => if self.begins (self.checkPeriodRollover now) name then 0 else total name := by
  have rolled : ∀ id, (self.checkPeriodRollover now).handles id = self.handles id ∨
      (self.checkPeriodRollover now).handles id = (self.handles id).maybeRollover now := by
    intro id
    simp only [checkPeriodRollover]
    split
    · exact .inr rfl
    · exact .inl rfl
  refine ⟨sound.of_handles rfl rfl ?_ fun _ => .inl, rolled_balanced balanced rfl rfl rolled⟩
  intro id
  rcases rolled id with same | moved
  · rw [same]
    exact ⟨rfl, rfl⟩
  · rw [moved]
    have rest := (self.handles id).maybeRollover_rest now
    exact ⟨rest.1, rest.2.1⟩

theorem connect_keeps (sound : self.Sound) (balanced : self.Balanced total) (user : String)
    (now : UInt64) :
    (self.getUserLimit user now).Sound ∧ (self.getUserLimit user now).Balanced
      fun name => if self.begins (self.getUserLimit user now) name then 0 else total name := by
  obtain ⟨users, made, restored, _⟩ :=
    self.onUser_rest user (·.maybeRollover now)
  have rolled : ∀ id, (self.getUserLimit user now).handles id = self.handles id ∨
      (self.getUserLimit user now).handles id = (self.handles id).maybeRollover now := by
    intro id
    change (self.onUser user (·.maybeRollover now)).handles id = _ ∨
      (self.onUser user (·.maybeRollover now)).handles id = _
    rw [onUser_handles]
    split
    · exact .inr rfl
    · exact .inl rfl
  refine ⟨sound.of_handles users made ?_ ?_, rolled_balanced balanced users restored rolled⟩
  · intro id
    rcases rolled id with same | moved
    · rw [same]
      exact ⟨rfl, rfl⟩
    · rw [moved]
      have rest := (self.handles id).maybeRollover_rest now
      exact ⟨rest.1, rest.2.1⟩
  · intro id member
    rcases List.mem_append.mp member with old | fresh
    · exact .inl old
    · exact .inr ⟨user, (List.mem_singleton.mp fresh).symm⟩

/-- A connection counts only on the handle the registry has for its user. -/
theorem counted_handle (sound : self.Sound) {connection : Nat}
    (counted : self.counted connection name = true) :
    ∃ id, self.connections[connection]? = some (some id) ∧ self.users name = some id ∧
      (self.handles id).counts = true := by
  rw [Registry.counted] at counted
  cases found : self.connections[connection]? with
  | none =>
      rw [found] at counted
      cases counted
  | some holding =>
      rw [found] at counted
      cases holding with
      | none => cases counted
      | some id =>
          rw [Bool.and_eq_true, decide_eq_true_iff] at counted
          obtain ⟨named, counts⟩ := counted
          refine ⟨id, rfl, ?_, counts⟩
          have valid : (self.handles id).revoked = false := by
            rw [UserLimitHandle.counts, Bool.and_eq_true, Bool.not_eq_true',
              UserLimitHandle.isExhausted, Bool.or_eq_false_iff] at counts
            exact counts.2.1
          rw [← named]
          exact sound.live (sound.held (List.mem_of_getElem? found)) valid

theorem recordBytes_cases (self : Registry) (connection : Nat) (n : UInt64) :
    (∃ id, self.connections[connection]? = some (some id) ∧
      self.recordBytes connection n = { self with
        handles := Function.update self.handles id ((self.handles id).recordBytes n).2 }) ∨
    (self.recordBytes connection n = self ∧ ∀ name, self.counted connection name = false) := by
  simp only [recordBytes, counted]
  cases self.connections[connection]? with
  | none => exact .inr ⟨rfl, fun _ => rfl⟩
  | some holding =>
      cases holding with
      | none => exact .inr ⟨rfl, fun _ => rfl⟩
      | some id => exact .inl ⟨id, rfl, rfl⟩

theorem record_keeps (sound : self.Sound) (balanced : self.Balanced total) (connection : Nat)
    (n : UInt64) :
    (self.recordBytes connection n).Sound ∧ (self.recordBytes connection n).Balanced
      fun name => if self.counted connection name then total name + n.toNat else total name := by
  rcases self.recordBytes_cases connection n with ⟨id, found, changed⟩ | ⟨same, never⟩
  · rw [changed]
    have rest := (self.handles id).recordBytes_rest n
    constructor
    · refine sound.of_handles ?_ ?_ ?_ fun _ => .inl
      · rfl
      · rfl
      · intro other
        by_cases same : other = id
        · subst same
          simp only [Function.update_self]
          exact ⟨rest.1, rest.2.1⟩
        · have kept := Function.update_of_ne same ((self.handles id).recordBytes n).2 self.handles
          exact ⟨congrArg UserLimitHandle.name kept, congrArg UserLimitHandle.revoked kept⟩
    · constructor
      · intro name other listed
        have counter := balanced.present listed
        by_cases same : other = id
        · subst same
          have charged : self.counted connection name = (self.handles other).counts := by
            rw [counted, found]
            simp [(sound.registered listed).2.1]
          simp only [Function.update_self]
          rw [charged, UserLimitHandle.recordBytes_used, counter]
          split
          · rw [UInt64.ofNat_add, UInt64.ofNat_toNat]
          · rfl
        · have uncharged : ¬ self.counted connection name = true := by
            intro charged
            obtain ⟨held, holds, registered, _⟩ := counted_handle sound charged
            cases found.symm.trans holds
            exact same (Option.some.inj (listed.symm.trans registered))
          simp only [Function.update_of_ne same]
          rw [if_neg uncharged]
          exact counter
      · intro name saved gone kept
        have uncharged : ¬ self.counted connection name = true := by
          intro charged
          obtain ⟨held, _, registered, _⟩ := counted_handle sound charged
          cases gone.symm.trans registered
        rw [if_neg uncharged]
        exact balanced.away gone kept
  · rw [same]
    simp only [never, Bool.false_eq_true, if_false]
    exact ⟨sound, balanced⟩

theorem reset_keeps (sound : self.Sound) (balanced : self.Balanced total) (user : String) :
    (self.resetUserQuota user).Sound ∧
      (self.resetUserQuota user).Balanced fun name => if user = name then 0 else total name := by
  let clear (handle : UserLimitHandle) := { handle with periodUsed := 0, exhausted := false }
  obtain ⟨users, made, _, connections⟩ := self.onUser_rest user clear
  have handles : ∀ id, (self.resetUserQuota user).handles id =
      if self.users user = some id then clear (self.handles id) else self.handles id :=
    fun id => onUser_handles clear id
  constructor
  · refine sound.of_handles ?_ ?_ ?_ ?_
    · exact users
    · exact made
    · intro id
      rw [handles]
      split
      · exact ⟨rfl, rfl⟩
      · exact ⟨rfl, rfl⟩
    · intro id member
      exact .inl (connections ▸ member)
  · constructor
    · intro name id listed
      have here : self.users name = some id := users ▸ listed
      rw [handles]
      by_cases same : user = name
      · subst same
        rw [if_pos here, if_pos rfl]
        rfl
      · have other : ¬ self.users user = some id := by
          intro also
          exact same ((sound.registered also).2.1.symm.trans (sound.registered here).2.1)
        rw [if_neg other, if_neg same]
        exact balanced.present here
    · intro name saved gone kept
      have left : self.users name = none := users ▸ gone
      by_cases same : user = name
      · subst same
        have cleared := (Function.update_self user _ self.restored).symm.trans kept
        obtain ⟨before, _, rfl⟩ := Option.map_eq_some_iff.mp cleared
        rw [if_pos rfl]
        rfl
      · have before := (Function.update_of_ne (Ne.symm same) _ self.restored).symm.trans kept
        rw [if_neg same]
        exact balanced.away left before

theorem restore_keeps (sound : self.Sound) (balanced : self.Balanced total)
    (data : String → Option UserQuotaPersist) (now : UInt64) :
    (self.restorePersistedQuotas data now).Sound ∧
      (self.restorePersistedQuotas data now).Balanced
        fun name => ((self.takes data now name).map (·.toNat)).getD (total name) := by
  constructor
  · refine sound.of_handles ?_ ?_ ?_ fun _ => .inl
    · rfl
    · rfl
    · intro id
      simp only [restorePersistedQuotas]
      cases data (self.handles id).name with
      | none => exact ⟨rfl, rfl⟩
      | some saved =>
          dsimp only
          split
          · exact ⟨rfl, rfl⟩
          · exact ⟨rfl, rfl⟩
  · constructor
    · intro name id listed
      have here : self.users name = some id := listed
      obtain ⟨_, named, _⟩ := sound.registered here
      have counter := balanced.present here
      simp only [restorePersistedQuotas, takes, named, here]
      cases data name with
      | none => exact counter
      | some saved =>
          by_cases current :
              saved.periodStart = periodStartOf now (self.handles id).resetDay
          · simp [current, UserLimitHandle.reevaluateExhausted]
          · simpa [current] using counter
    · intro name saved gone kept
      have left : self.users name = none := gone
      simp only [restorePersistedQuotas, left, if_true] at kept
      simp [takes, kept, left]

end Steps

end Registry

end Mirage.Quota
