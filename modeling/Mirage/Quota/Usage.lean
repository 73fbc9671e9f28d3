import Mirage.Quota.Rebuild

/-!
Usage over whole runs of the registry: no sequence of rebuilds loses what was
counted or counts it twice, and connections stay on the counter of their user.
-/

namespace Mirage.Quota

namespace Registry

section Runs
variable {self : Registry} {total : String → Nat}

theorem step_keeps (sound : self.Sound) (balanced : self.Balanced total) (event : Event) :
    (self.step event).Sound ∧
      (self.step event).Balanced (self.ledger counted total event) := by
  cases event with
  | reload inbounds now =>
      have fits := (buildRegistry_fits now sound (collectUsers_distinct inbounds)).1
      exact ⟨reload_sound sound inbounds fits, reload_balanced balanced inbounds fits⟩
  | connect name now => exact connect_keeps sound balanced name now
  | record connection n => exact record_keeps sound balanced connection n
  | tick now => exact tick_keeps sound balanced now
  | reset name => exact reset_keeps sound balanced name
  | restore data now => exact restore_keeps sound balanced data now

theorem run_keeps (sound : self.Sound) (balanced : self.Balanced total) (events : List Event) :
    (self.run events).Sound ∧ (self.run events).Balanced (self.recorded counted total events) := by
  induction events generalizing self total with
  | nil => exact ⟨sound, balanced⟩
  | cons event rest ih =>
      obtain ⟨soundToo, balancedToo⟩ := step_keeps sound balanced event
      exact ih soundToo balancedToo

theorem empty_sound : empty.Sound where
  registered := fun none => by cases none
  live := fun never => absurd never (Nat.not_lt_zero _)
  held := fun never => absurd never List.not_mem_nil
  ordinary := rfl

theorem empty_balanced : empty.Balanced fun _ => 0 where
  present := fun none => by cases none
  away := fun _ none => by cases none

/-- The rebuilds among the events keep the user. -/
def Keeps (name : String) (events : List Event) : Prop :=
  ∀ inbounds now, .reload inbounds now ∈ events → name ∈ inbounds.flatten.map (·.name)

theorem step_user {name : String} {id : Nat} {event : Event} (sound : self.Sound)
    (here : self.users name = some id) (keeps : Keeps name [event]) :
    (self.step event).users name = some id := by
  cases event with
  | reload inbounds now =>
      have ordinary : name ≠ "default" := by
        rintro rfl
        cases here.symm.trans sound.ordinary
      have member := keeps inbounds now List.mem_cons_self
      have done := (reload_users now sound inbounds name).mpr ⟨member, ordinary⟩
      obtain ⟨own, listed⟩ := Option.ne_none_iff_exists'.mp done
      have fits := (buildRegistry_fits now sound (collectUsers_distinct inbounds)).1
      rw [← (fits.done listed).2.2.2.1 here]
      exact listed
  | connect user now =>
      rw [← here]
      exact congrFun (self.onUser_rest user (·.maybeRollover now)).1 name
  | record connection n =>
      rcases self.recordBytes_cases connection n with ⟨_, _, changed⟩ | ⟨same, _⟩
      · rw [step, changed]
        exact here
      · rw [step, same]
        exact here
  | tick now => exact here
  | reset user =>
      rw [← here]
      exact congrFun (self.onUser_rest user _).1 name
  | restore data now => exact here

theorem step_connection {connection : Nat} {holding : Option Nat} {event : Event}
    (held : self.connections[connection]? = some holding) :
    (self.step event).connections[connection]? = some holding := by
  cases event with
  | reload inbounds now => exact held
  | connect user now =>
      exact (List.getElem?_append_left (List.getElem?_eq_some_iff.mp held).1).trans held
  | record connection n =>
      rcases self.recordBytes_cases connection n with ⟨_, _, changed⟩ | ⟨same, _⟩
      · rw [step, changed]
        exact held
      · rw [step, same]
        exact held
  | tick now => exact held
  | reset user =>
      rw [← held]
      exact congrArg (·[connection]?) (self.onUser_rest user _).2.2.2
  | restore data now => exact held

theorem run_user {name : String} {id connection : Nat} {events : List Event} (sound : self.Sound)
    (balanced : self.Balanced total) (here : self.users name = some id)
    (holds : self.connections[connection]? = some (some id)) (keeps : Keeps name events) :
    (self.run events).users name = some id ∧
      (self.run events).connections[connection]? = some (some id) := by
  induction events generalizing self total with
  | nil => exact ⟨here, holds⟩
  | cons event rest ih =>
      obtain ⟨soundToo, balancedToo⟩ := step_keeps sound balanced event
      apply ih soundToo balancedToo
      · apply step_user sound here
        intro inbounds now member
        exact keeps inbounds now (List.mem_singleton.mp member ▸ List.mem_cons_self)
      · exact step_connection holds
      · intro inbounds now member
        exact keeps inbounds now (List.mem_cons_of_mem _ member)

/-- After any sequence of rebuilds, connections, traffic, roll-overs, resets and
restores each counter shows what was counted for its user since the period
began, and a connection goes on to charge the counter its user has in the
registry for as long as rebuilds keep the user. -/
theorem periodUsed_eq_recorded (events : List Event) :
    (∀ name id, (empty.run events).users name = some id →
      ((empty.run events).handles id).periodUsed =
        UInt64.ofNat (empty.recorded counted (fun _ => 0) events name)) ∧
    ∀ name id (connection : Nat) later, (empty.run events).users name = some id →
      (empty.run events).connections[connection]? = some (some id) → Keeps name later →
      (empty.run (events ++ later)).users name = some id ∧
        (empty.run (events ++ later)).connections[connection]? = some (some id) := by
  obtain ⟨sound, balanced⟩ := run_keeps empty_sound empty_balanced events
  constructor
  · intro name id here
    exact balanced.present here
  · intro name id connection later here holds keeps
    have later_run : empty.run (events ++ later) = (empty.run events).run later :=
      List.foldl_append
    rw [later_run]
    exact run_user sound balanced here holds keeps

/-- 50 bytes of Alice's 100 go on to count when a rebuild gives her 200. -/
theorem periodUsed_eq_recorded_alice :
    ((empty.run [.reload [[⟨"alice", some 100, none⟩]] 1790436600, .connect "alice" 1790436600,
        .record 0 50]).handles 0).periodUsed =
      UInt64.ofNat (empty.recorded counted (fun _ => 0)
        [.reload [[⟨"alice", some 100, none⟩]] 1790436600, .connect "alice" 1790436600,
          .record 0 50] "alice") ∧
    (empty.run ([.reload [[⟨"alice", some 100, none⟩]] 1790436600, .connect "alice" 1790436600,
        .record 0 50] ++ [.reload [[⟨"alice", some 200, none⟩]] 1790436600])).users "alice" =
      some 0 := by
  constructor
  · exact (periodUsed_eq_recorded _).1 "alice" 0 (by decide +kernel)
  · refine ((periodUsed_eq_recorded _).2 "alice" 0 0 _ (by decide +kernel) (by decide +kernel) ?_).1
    intro inbounds now member
    cases List.mem_singleton.mp member
    exact List.mem_singleton.mpr rfl

end Runs

/-- Alice has no quota while she sends 50 bytes and is given one of 100 after. -/
def quotaAfterTraffic : List Event :=
  [.reload [[⟨"alice", none, none⟩]] 1790436600, .connect "alice" 1790436600, .record 0 50,
    .reload [[⟨"alice", some 100, none⟩]] 1790436600]

/-- Alice sends 50 bytes of 100, and her reset day is changed and changed back. -/
def dayAndBack : List Event :=
  [.reload [[⟨"alice", some 100, none⟩]] 1790436600, .connect "alice" 1790436600, .record 0 50,
    .reload [[⟨"alice", some 100, some 15⟩]] 1790436600,
    .reload [[⟨"alice", some 100, none⟩]] 1790436600]

/-- Her counter shows nothing although her connection carried 50 bytes in the
period the registry has for her. -/
theorem carried_not_counted :
    (empty.run quotaAfterTraffic).users "alice" = some 0 ∧
      ((empty.run quotaAfterTraffic).handles 0).periodUsed = 0 ∧
      empty.recorded carries (fun _ => 0) quotaAfterTraffic "alice" = 50 ∧
    (empty.run dayAndBack).users "alice" = some 0 ∧
      ((empty.run dayAndBack).handles 0).periodUsed = 0 ∧
      (empty.run dayAndBack).startOf "alice" = (empty.run (dayAndBack.take 3)).startOf "alice" ∧
      empty.recorded carries (fun _ => 0) (dayAndBack.take 3) "alice" = 50 := by
  decide +kernel

end Registry

end Mirage.Quota
