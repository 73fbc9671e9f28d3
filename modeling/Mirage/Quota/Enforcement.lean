import Mirage.Quota.Handle

/-!
When the exhaustion mark is right. A call works from a quota and a usage it has
read before, so the mark it stores may be out of date; the mark is right
whenever nothing is in progress as long as no call that is the last to store
one acts on values that have changed since.
-/

namespace Mirage.Quota
open Threads Trace

abbrev Limits := Machine UserLimits Place

def Limits.step : Limits → Nat × Turn → Option Limits := Threads.step advance

def Limits.built (name : String) (quota : UInt64) (resetDay : UInt8)
    (periodStart periodUsed : UInt64) : Limits :=
  ⟨⟨UserLimitHandle.new name quota resetDay periodStart periodUsed, false⟩, fun _ => .idle none⟩

def Limits.handle (limits : Limits) : UserLimitHandle := limits.shared.handle

def Limits.Quiet (limits : Limits) : Prop := ∀ id, ∃ answer, limits.place id = .idle answer

namespace Place

/-- The thread goes on to store a mark, whatever it reads. -/
def marks : Place → Bool
  | .recordMark .. | .rolloverSubtract _ | .reloadDay .. | .reloadStart .. | .reloadStoreStart _
  | .reloadStoreUsed | .resetMark | .restoreStart _ | .restoreUsed _ | .evalUsed _
  | .evalQuota .. | .evalMark .. => true
  | _ => false

/-- What a call of `record_bytes` has found out. -/
def Reached : Place → Prop
  | .recordMark quota current => quota ≠ 0 ∧ quota ≤ current
  | .recordAdd _ quota => quota ≠ 0
  | _ => True

/-- Usage and quota have not crossed since the thread read them, or stored them:
they compare now as what it goes by does. Bytes that need no mark do not make
them cross. -/
def Current (handle : UserLimitHandle) : Place → Prop
  | .recordAdd n quota =>
      quota ≤ saturatingAdd handle.periodUsed n ∨
        exceeds handle.quotaBytes (handle.periodUsed + n) = handle.exceeded
  | .recordMark quota current => exceeds quota current = handle.exceeded
  | .resetMark => exceeds handle.quotaBytes 0 = handle.exceeded
  | .evalMark used quota _ => exceeds quota used = handle.exceeded
  | _ => True

/-- Usage and quota are what the thread has read, or stored, and the sum fits. -/
def Untouched (handle : UserLimitHandle) : Place → Prop
  | .recordAdd n quota =>
      handle.quotaBytes = quota ∧ handle.periodUsed.toNat + n.toNat < 2 ^ 64
  | .recordMark quota current => handle.quotaBytes = quota ∧ handle.periodUsed = current
  | .resetMark => handle.periodUsed = 0
  | .evalMark used quota _ => handle.quotaBytes = quota ∧ handle.periodUsed = used
  | _ => True

end Place

/-- Another thread has yet to store a mark, or the one whose turn it is goes by a
comparison that still holds. -/
def Limits.Current (limits : Limits) (turn : Nat × Turn) : Prop :=
  turn.2 = .next →
    (limits.place turn.1).Current limits.handle ∨
      ∃ other ≠ turn.1, (limits.place other).marks = true

/-- No other operation has changed what the thread whose turn it is goes by. -/
def Limits.Undisturbed (limits : Limits) (turn : Nat × Turn) : Prop :=
  turn.2 = .next → (limits.place turn.1).Untouched limits.handle

def Limits.Settled (limits : Limits) : Prop :=
  limits.handle.exhausted = limits.handle.exceeded ∨ ∃ id, (limits.place id).marks = true

section Steps
variable {handle handle' : UserLimitHandle} {place place' : Place} {shared shared' : UserLimits}

theorem load_reached (loaded : handle.load place = some (handle', place'))
    (reached : place.Reached) : place'.Reached := by
  cases place with
  | recordQuota n =>
      cases loaded
      split
      · trivial
      · assumption
  | recordAdd n quota =>
      cases loaded
      split
      · rename_i marked
        exact ⟨reached, marked⟩
      · trivial
  | rolloverSwap =>
      simp only [UserLimitHandle.load] at loaded
      split at loaded
      · cases loaded
        trivial
      · cases loaded
        trivial
  | idle | reloadLock | restoreLock | revokeLock => cases loaded
  | _ =>
      cases loaded
      first
        | trivial
        | split <;> trivial

/-- A load or store leaves a mark still to be stored, or leaves mark, quota and usage
as they are, or it leaves the mark right exactly if the comparison it goes by still
holds. -/
theorem load_cases (loaded : handle.load place = some (handle', place'))
    (reached : place.Reached) :
    (place'.marks = true ∧ place.Current handle) ∨
      (place.marks = false ∧ place.Current handle ∧ handle'.exhausted = handle.exhausted ∧
        handle'.exceeded = handle.exceeded) ∨
      (place'.marks = false ∧ (place.marks = true ∨ handle.exhausted = handle.exceeded →
        (handle'.exhausted = handle'.exceeded ↔ place.Current handle))) := by
  cases place with
  | recordAdd n quota =>
      cases loaded
      by_cases marked : quota ≤ saturatingAdd handle.periodUsed n
      · left
        rw [if_pos marked]
        exact ⟨rfl, .inl marked⟩
      -- Bytes are added without a mark: right only if they do not cross the quota that is now set.
      · right; right
        rw [if_neg marked]
        refine ⟨rfl, fun before => ?_⟩
        have agreed := before.resolve_left Bool.false_ne_true
        change handle.exhausted = exceeds handle.quotaBytes (handle.periodUsed + n) ↔ _
        rw [agreed]
        exact eq_comm.trans (or_iff_right marked).symm
  | recordMark quota current =>
      cases loaded
      have exceeded : exceeds quota current = true := by
        simp only [exceeds, reached.1, reached.2, decide_true, ne_eq, not_false_eq_true,
          Bool.and_self]
      exact .inr (.inr ⟨rfl, fun _ => iff_of_eq (congrArg (· = handle.exceeded) exceeded.symm)⟩)
  | resetMark =>
      cases loaded
      have below : exceeds handle.quotaBytes 0 = false := by
        cases zero : decide (handle.quotaBytes = 0) <;> simp_all [exceeds]
      exact .inr (.inr ⟨rfl, fun _ => iff_of_eq (congrArg (· = handle.exceeded) below.symm)⟩)
  | evalMark used quota locked =>
      cases loaded
      refine .inr (.inr ⟨?_, fun _ => Iff.rfl⟩)
      split
      · rfl
      · rfl
  | rolloverSwap expected start old =>
      simp only [UserLimitHandle.load] at loaded
      split at loaded
      · cases loaded
        exact .inl ⟨rfl, trivial⟩
      · cases loaded
        exact .inr (.inl ⟨rfl, trivial, rfl, rfl⟩)
  | reloadStart expected moved =>
      simp only [UserLimitHandle.load] at loaded
      split at loaded
      · cases loaded
        exact .inl ⟨rfl, trivial⟩
      · cases loaded
        exact .inl ⟨rfl, trivial⟩
  | rolloverSubtract | reloadQuota | reloadDay | reloadStoreStart | reloadStoreUsed | resetUsed
  | restoreStart | restoreUsed | evalUsed | evalQuota =>
      cases loaded
      exact .inl ⟨rfl, trivial⟩
  | idle | reloadLock | restoreLock | revokeLock => cases loaded
  | _ =>
      cases loaded
      exact .inr (.inl ⟨rfl, trivial, rfl, rfl⟩)

theorem current_of_untouched (untouched : place.Untouched handle) : place.Current handle := by
  cases place with
  | recordAdd n quota =>
      obtain ⟨rfl, fits⟩ := untouched
      by_cases marked : handle.quotaBytes ≤ saturatingAdd handle.periodUsed n
      · exact .inl marked
      · right
        rw [saturatingAdd, if_pos fits] at marked
        have grows : handle.periodUsed ≤ handle.periodUsed + n := by
          rw [UInt64.le_iff_toNat_le, UInt64.toNat_add, Nat.mod_eq_of_lt fits]
          exact Nat.le_add_right _ _
        have before : ¬ handle.quotaBytes ≤ handle.periodUsed :=
          fun enough => marked (UInt64.le_trans enough grows)
        rw [UserLimitHandle.exceeded, exceeds, exceeds, decide_eq_false marked,
          decide_eq_false before]
  | recordMark quota current =>
      obtain ⟨rfl, rfl⟩ := untouched
      rfl
  | resetMark =>
      have zero : handle.periodUsed = 0 := untouched
      change _ = exceeds handle.quotaBytes handle.periodUsed
      rw [zero]
  | evalMark used quota locked =>
      obtain ⟨rfl, rfl⟩ := untouched
      rfl
  | _ => trivial

theorem locked_current (handle : UserLimitHandle) {within : Place} (waits : place.locked = some within) :
    place.marks = false ∧ place.Current handle ∧ within.Reached := by
  cases place with
  | reloadLock | restoreLock | revokeLock =>
      cases waits
      exact ⟨rfl, trivial, trivial⟩
  | _ => cases waits

theorem next_cases (moved : shared.next place = some (shared', place')) :
    shared.handle.load place = some (shared'.handle, place') ∨
      (place.marks = false ∧ place.Current shared.handle ∧ shared'.handle = shared.handle ∧
        place'.Reached) := by
  rw [UserLimits.next] at moved
  cases waits : place.locked with
  | some within =>
      rw [waits] at moved
      obtain ⟨none, current, begun⟩ := locked_current shared.handle waits
      dsimp only at moved
      split at moved
      · cases moved
      · cases moved
        exact .inr ⟨none, current, rfl, begun⟩
  | none =>
      rw [waits] at moved
      obtain ⟨⟨handle, place⟩, loaded, same⟩ := Option.map_eq_some_iff.mp moved
      cases same
      exact .inl loaded

theorem begin_reached (call : Call) : call.begin.Reached := by
  cases call <;> trivial

theorem advance_cases {turn : Turn} (moved : advance shared place turn = some (shared', place')) :
    (turn = .next ∧ shared.handle.load place = some (shared'.handle, place')) ∨
      (place.marks = false ∧ place.Current shared.handle ∧ shared'.handle = shared.handle ∧
        place'.Reached) := by
  cases turn with
  | start call =>
      cases place with
      | idle =>
          cases moved
          exact .inr ⟨rfl, trivial, rfl, begin_reached call⟩
      | _ => cases moved
  | next =>
      rcases next_cases moved with loaded | unchanged
      · exact .inl ⟨rfl, loaded⟩
      · exact .inr unchanged

variable {limits next : Limits} {turn : Nat × Turn}

def Limits.Reached (limits : Limits) : Prop := ∀ id, (limits.place id).Reached

theorem step_reached (reached : limits.Reached) (stepped : limits.step turn = some next) :
    next.Reached := by
  refine (@step_keeps _ _ _ advance limits next turn (fun _ => True) (fun _ place => place.Reached)
    ?own ?others ⟨trivial, reached⟩ stepped).2
  case own =>
    intro shared place action shared' place' _ fits moved
    refine ⟨trivial, ?_⟩
    rcases advance_cases moved with ⟨_, loaded⟩ | ⟨_, _, _, begun⟩
    · exact load_reached loaded fits
    · exact begun
  case others => exact fun _ _ _ fits => fits

theorem step_settled_iff (reached : limits.Reached) (settled : limits.Settled)
    (stepped : limits.step turn = some next) : next.Settled ↔ limits.Current turn := by
  obtain ⟨moved, rest⟩ := step_eq_some stepped
  by_cases others : ∃ other ≠ turn.1, (limits.place other).marks = true
  · refine iff_of_true ?_ fun _ => .inr others
    obtain ⟨other, different, pending⟩ := others
    exact .inr ⟨other, rest other different ▸ pending⟩
  -- From here on only the thread that moves can have kept the mark unsettled.
  have alone : ∀ id, (limits.place id).marks = true → id = turn.1 := by
    intro id pending
    by_contra different
    exact others ⟨id, different, pending⟩
  have before : (limits.place turn.1).marks = true ∨
      limits.handle.exhausted = limits.handle.exceeded := by
    rcases settled with agreed | ⟨id, pending⟩
    · exact .inr agreed
    · exact .inl (alone id pending ▸ pending)
  have unchanged : (limits.place turn.1).marks = false →
      next.handle.exhausted = limits.handle.exhausted →
      next.handle.exceeded = limits.handle.exceeded → next.Settled := by
    intro none mark comparison
    rw [none] at before
    exact .inl (mark.trans ((before.resolve_left Bool.false_ne_true).trans comparison.symm))
  rcases advance_cases moved with ⟨isNext, loaded⟩ | ⟨none, current, same, _⟩
  · have decides : limits.Current turn ↔ (limits.place turn.1).Current limits.handle :=
      ⟨fun current => (current isNext).resolve_right others, fun current _ => .inl current⟩
    rw [decides]
    rcases load_cases loaded (reached turn.1) with ⟨pending, current⟩ |
      ⟨none, current, mark, comparison⟩ | ⟨done, exact⟩
    · exact iff_of_true (.inr ⟨turn.1, pending⟩) current
    · exact iff_of_true (unchanged none mark comparison) current
    · refine Iff.trans ⟨fun after => ?_, .inl⟩ (exact before)
      rcases after with agreed | ⟨id, pending⟩
      · exact agreed
      · by_cases own : id = turn.1
        · rw [own, done] at pending
          cases pending
        · rw [rest id own] at pending
          exact absurd (alone id pending) own
  · refine iff_of_true (unchanged none ?_ ?_) fun _ => .inl current
    · exact congrArg UserLimitHandle.exhausted same
    · exact congrArg UserLimitHandle.exceeded same

end Steps

theorem built_settled {name : String} {quota began used : UInt64} {day : UInt8} :
    (Limits.built name quota day began used).Settled := .inl rfl

theorem built_reached {name : String} {quota began used : UInt64} {day : UInt8} :
    (Limits.built name quota day began used).Reached := fun _ => trivial

theorem exceeded_iff {handle : UserLimitHandle} :
    handle.exceeded = true ↔ handle.quotaBytes ≠ 0 ∧ handle.quotaBytes ≤ handle.periodUsed := by
  simp [UserLimitHandle.exceeded, exceeds]

theorem quiet_marks {limits : Limits} (quiet : limits.Quiet) (id : Nat) :
    (limits.place id).marks = false := by
  obtain ⟨answer, idle⟩ := quiet id
  rw [idle]
  rfl

section Runs
variable {name : String} {quota began used : UInt64} {day : UInt8}
variable {events : List (Nat × Turn)} {limits : Limits}

/-- Along every run: if no operation changes usage or quota between the loads of
another and its store, no comparison goes out of date. As long as none does where
the last thread to decide goes by it, and not otherwise, a wrong mark has a thread
that goes on to correct it. So the mark is right whenever nothing is in progress, and
what a call that began before a roll-over stores does not outlast it. -/
theorem exhausted_iff_of_current
    (followed : follow Limits.step (.built name quota day began used) events =
      some limits) :
    (Throughout Limits.step Limits.Undisturbed (.built name quota day began used) events →
      Throughout Limits.step Limits.Current (.built name quota day began used) events) ∧
    (Throughout Limits.step Limits.Current (.built name quota day began used) events ↔
      ∀ past reached, past <+: events →
        follow Limits.step (.built name quota day began used) past = some reached →
        reached.Settled) ∧
    (Throughout Limits.step Limits.Current (.built name quota day began used) events →
      (limits.Quiet → (limits.handle.exhausted = true ↔
        limits.handle.quotaBytes ≠ 0 ∧ limits.handle.quotaBytes ≤ limits.handle.periodUsed)) ∧
      (limits.handle.periodUsed < limits.handle.quotaBytes → limits.handle.exhausted = true →
        ∃ id, (limits.place id).marks = true)) := by
  have exact := throughout_iff
    (fun {_ _ _} (good : Limits.Settled _ ∧ Limits.Reached _) stepped =>
      (and_iff_left (step_reached good.2 stepped)).trans (step_settled_iff good.2 good.1 stepped))
    ⟨built_settled, built_reached⟩ followed
  have settledAlong : Throughout Limits.step Limits.Current
      (.built name quota day began used) events ↔ ∀ past reached, past <+: events →
        follow Limits.step (.built name quota day began used) past = some reached →
        reached.Settled := by
    rw [exact]
    refine forall₄_congr fun past reached _ followed => and_iff_left ?_
    exact follow_keeps Limits.Reached step_reached built_reached followed
  refine ⟨?_, settledAlong, fun current => ?_⟩
  · exact throughout_of_invariant (fun _ => True) (fun _ _ _ => trivial)
      (fun _ undisturbed isNext => .inl (current_of_untouched (undisturbed isNext))) trivial
  have settled : limits.Settled :=
    settledAlong.mp current events limits (List.prefix_refl _) followed
  constructor
  · intro quiet
    rcases settled with agreed | ⟨id, pending⟩
    · rw [agreed]
      exact exceeded_iff
    · rw [quiet_marks quiet id] at pending
      cases pending
  · intro below marked
    rcases settled with agreed | pending
    · have exceeded := exceeded_iff.mp (agreed.symm.trans marked)
      exact absurd exceeded.2 (UInt64.not_le.mpr below)
    · exact pending

end Runs

/-- 20 bytes over a usage of 90 of 100. -/
theorem exhausted_iff_of_current_record :
    ∃ limits : Limits,
      follow Limits.step (.built "alice" 100 1 0 90)
        ((0, .start (.recordBytes 20)) :: List.replicate 5 (0, .next)) = some limits ∧
      (limits.Quiet → (limits.handle.exhausted = true ↔
        limits.handle.quotaBytes ≠ 0 ∧ limits.handle.quotaBytes ≤ limits.handle.periodUsed)) ∧
      (limits.handle.periodUsed < limits.handle.quotaBytes → limits.handle.exhausted = true →
        ∃ id, (limits.place id).marks = true) := by
  obtain ⟨limits, followed⟩ : ∃ limits, follow Limits.step (.built "alice" 100 1 0 90)
      ((0, .start (.recordBytes 20)) :: List.replicate 5 (0, .next)) = some limits := ⟨_, rfl⟩
  obtain ⟨undisturbed, _, right⟩ := exhausted_iff_of_current followed
  refine ⟨limits, followed, right (undisturbed ?_)⟩
  refine throughout_cons (fun _ => trivial) rfl ?_
  refine throughout_cons (fun _ => trivial) rfl ?_
  refine throughout_cons (fun _ => trivial) rfl ?_
  refine throughout_cons (fun _ => trivial) rfl ?_
  refine throughout_cons (fun _ => ⟨rfl, by decide⟩) rfl ?_
  exact throughout_cons (fun _ => ⟨rfl, by decide⟩) rfl trivial

/-- One thread records 20 bytes over a usage of 90 of 100 and is about to store
the mark when another rolls over to February 1970. -/
def lateMark : List (Nat × Turn) :=
  (0, .start (.recordBytes 20)) :: List.replicate 4 (0, .next) ++
    (1, .start (.maybeRollover 2678400)) :: List.replicate 8 (1, .next) ++ [(0, .next)]

/-- The mark outlasts the roll-over. -/
theorem lateMark_exhausted :
    ∃ limits : Limits, follow Limits.step (.built "alice" 100 1 0 90) lateMark = some limits ∧
      limits.Quiet ∧ limits.handle.exhausted = true ∧ limits.handle.periodStart = 2678400 ∧
      limits.handle.periodUsed = 0 ∧ limits.handle.quotaBytes = 100 := by
  refine ⟨_, rfl, ?_, rfl, rfl, rfl, rfl⟩
  intro id
  by_cases first : id = 0
  · exact ⟨some true, by subst first; rfl⟩
  · by_cases second : id = 1
    · exact ⟨none, by subst second; rfl⟩
    · exact ⟨none, by simp [Function.update, first, second]; rfl⟩

end Mirage.Quota
