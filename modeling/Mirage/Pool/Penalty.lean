import Mirage.Pool.HealthHistory

/-!
The penalty of a node beside its history, and with it all that the health of a
node is. A penalty that has run out is noticed at the next event; until then it
stands in the state and is over by the clock.
-/

namespace Mirage.Pool.Health
open PoolStats

section Penalty
variable {stats : PoolStats} {now : Nat}

theorem isPenalizedAt_iff :
    stats.isPenalizedAt now = true ↔ ∃ expires, stats.penalizedUntil = some expires ∧ now < expires := by
  unfold isPenalizedAt
  cases stats.penalizedUntil with
  | none => simp
  | some expires => simp

/-- Running out takes nothing from a penalty that is still on. -/
theorem isPenalizedAt_expire (time : Nat) (later : time ≤ now) :
    (stats.expire time).isPenalizedAt now = stats.isPenalizedAt now := by
  unfold expire
  split
  · rename_i over_
    cases on : stats.isPenalizedAt now with
    | false => rfl
    | true =>
        obtain ⟨expires, held, before⟩ := isPenalizedAt_iff.mp on
        have still : stats.isPenalizedAt time = true :=
          isPenalizedAt_iff.mpr ⟨expires, held, later.trans_lt before⟩
        simp [still] at over_
  · rfl

def addTarget (stats : PoolStats) (target : String) : PoolStats :=
  { stats with
    realSuccesses := 0
    recentFailTargets := pushBounded 3 stats.recentFailTargets target
    realFailures := stats.realFailures + 1 }

theorem recordRealFailureAt_cases (stats : PoolStats) (target : String) (time : Nat) :
    (target ∈ (stats.expire time).recentFailTargets ∧
      (stats.recordRealFailureAt target time).2 = { stats.expire time with realSuccesses := 0 }) ∨
    (Trips stats target time ∧ (stats.recordRealFailureAt target time).2 =
      { addTarget (stats.expire time) target with penalizedUntil := some (time + penaltyDuration) }) ∨
    (target ∉ (stats.expire time).recentFailTargets ∧
      ¬penalizeAfterFailures ≤ (stats.expire time).realFailures + 1 ∧
        (stats.recordRealFailureAt target time).2 = addTarget (stats.expire time) target) := by
  unfold recordRealFailureAt
  dsimp only
  by_cases tracked : target ∈ (stats.expire time).recentFailTargets
  · rw [if_pos tracked]
    exact Or.inl ⟨tracked, rfl⟩
  · rw [if_neg tracked]
    by_cases third : penalizeAfterFailures ≤ (stats.expire time).realFailures + 1
    · rw [if_pos third]
      exact Or.inr (Or.inl ⟨⟨tracked, third⟩, rfl⟩)
    · rw [if_neg third]
      exact Or.inr (Or.inr ⟨tracked, third, rfl⟩)

/-- A relayed failure prolongs the penalty when it trips it, and does nothing to
it otherwise. -/
theorem penalized_realFailure (target : String) {time : Nat} (later : time ≤ now)
    (bounded : ∀ expires, stats.penalizedUntil = some expires → expires ≤ time + penaltyDuration) :
    (stats.recordRealFailureAt target time).2.isPenalizedAt now = true ↔
      Trips stats target time ∧ now < time + penaltyDuration ∨ stats.isPenalizedAt now = true := by
  have kept : (stats.expire time).isPenalizedAt now = stats.isPenalizedAt now :=
    isPenalizedAt_expire time later
  obtain ⟨tracked, same⟩ | ⟨trips, same⟩ | ⟨-, few, same⟩ :=
    recordRealFailureAt_cases stats target time
  · rw [same, ← kept]
    exact ⟨Or.inr, fun either => either.resolve_left fun trips => trips.1.1 tracked⟩
  · rw [same, isPenalizedAt_iff, isPenalizedAt_iff]
    constructor
    · rintro ⟨expires, held, before⟩
      cases held
      exact Or.inl ⟨trips, before⟩
    · rintro (⟨-, before⟩ | ⟨expires, held, before⟩)
      · exact ⟨_, rfl, before⟩
      · exact ⟨_, rfl, before.trans_le (bounded expires held)⟩
  · rw [same, ← kept]
    exact ⟨Or.inr, fun either => either.resolve_left fun trips => few trips.1.2⟩

theorem recordRealSuccessAt_cases (stats : PoolStats) (time : Nat) :
    (stats.isPenalizedAt time = true ∧ ¬penaltyClearSuccesses ≤ stats.realSuccesses + 1 ∧
      stats.recordRealSuccessAt time =
        { stats with
          realFailures := 0, recentFailTargets := [], realSuccesses := stats.realSuccesses + 1 }) ∨
    ((stats.isPenalizedAt time = true → penaltyClearSuccesses ≤ stats.realSuccesses + 1) ∧
      stats.recordRealSuccessAt time =
        { stats with
          realFailures := 0, recentFailTargets := [], penalizedUntil := none
          realSuccesses := 0 }) := by
  have same : ({ stats with realFailures := 0, recentFailTargets := [] } : PoolStats).isPenalizedAt
      time = stats.isPenalizedAt time := rfl
  unfold recordRealSuccessAt
  dsimp only
  rw [same]
  by_cases on : stats.isPenalizedAt time = true
  · rw [if_pos on]
    by_cases second : penaltyClearSuccesses ≤ stats.realSuccesses + 1
    · rw [if_pos second]
      exact Or.inr ⟨fun _ => second, rfl⟩
    · rw [if_neg second]
      exact Or.inl ⟨on, second, rfl⟩
  · rw [if_neg on]
    exact Or.inr ⟨fun still => absurd still on, rfl⟩

end Penalty

section Lifting
variable {relays : List Relay}

theorem lifted_append_failure (target : String) :
    Lifted (relays ++ [.failure target]) ↔ Lifted relays := by
  unfold Lifted
  rw [pair_infix_append, List.mem_append, List.mem_singleton]
  simp

theorem lifted_append_change : Lifted (relays ++ [.change]) :=
  Or.inl (List.mem_append_right _ List.mem_cons_self)

theorem lifted_append_success :
    Lifted (relays ++ [.success]) ↔ Lifted relays ∨ [.success] <:+ relays := by
  unfold Lifted
  rw [pair_infix_append, List.mem_append, List.mem_singleton]
  simp [or_assoc]

theorem success_suffix {target : String} {before : List Relay} :
    [.success] <:+ before ++ .failure target :: relays ↔ [.success] <:+ relays := by
  rcases List.eq_nil_or_concat relays with rfl | ⟨rest, last, rfl⟩
  · rw [last_append]
    exact ⟨nofun, fun inside => nomatch List.suffix_nil.mp inside⟩
  · rw [List.concat_eq_append, last_append, ← List.cons_append, ← List.append_assoc, last_append]

end Lifting

section Book
variable {history : List Timed} {stats : PoolStats} {now : Nat}

theorem relays_append (timed : Timed) :
    relays (history ++ [timed]) = relays history ++ timed.event.relay.toList := by
  rw [relays, List.filterMap_append]
  cases spoken : timed.event.relay with
  | none => simp [relays, spoken]
  | some relay => simp [relays, spoken]

theorem relays_silent {timed : Timed} (silent : timed.event.relay = none) :
    relays (history ++ [timed]) = relays history := by
  rw [relays_append, silent]
  exact List.append_nil _

/-- One more event: it trips the penalty, or the penalty was on and the event
does not lift it. -/
theorem penalised_append {timed : Timed} :
    Penalised (history ++ [timed]) now ↔
      (∃ target, timed.event = .realFailure target ∧ Trips (run history) target timed.time ∧
        now < timed.time + penaltyDuration) ∨
      ∃ before time target after, history = before ++ ⟨time, .realFailure target⟩ :: after ∧
        Trips (run before) target time ∧ now < time + penaltyDuration ∧
          ¬Lifted (relays (after ++ [timed])) := by
  constructor
  · rintro ⟨before, time, target, after, same, trips, soon, stays⟩
    rcases List.eq_nil_or_concat after with rfl | ⟨rest, last, rfl⟩
    · obtain ⟨rfl, back⟩ := List.append_inj' same rfl
      obtain rfl := (List.cons.inj back).1
      exact Or.inl ⟨target, rfl, trips, soon⟩
    · rw [List.concat_eq_append] at same stays
      rw [← List.cons_append, ← List.append_assoc] at same
      obtain ⟨front, back⟩ := List.append_inj' same rfl
      obtain rfl := (List.cons.inj back).1
      exact Or.inr ⟨before, time, target, rest, front, trips, soon, stays⟩
  · rintro (⟨target, fails, trips, soon⟩ | ⟨before, time, target, after, rfl, trips, soon, stays⟩)
    · refine ⟨history, timed.time, target, [], ?_, trips, soon, ?_⟩
      · rw [← fails]
      · rintro (inside | inside)
        · exact nomatch inside
        · exact nomatch List.infix_nil.mp inside
    · exact ⟨before, time, target, after ++ [timed], by simp, trips, soon, stays⟩

/-- The penalty of a node beside the history. -/
structure Booked (history : List Timed) (stats : PoolStats) (last : Nat) : Prop where
  bounded : ∀ expires, stats.penalizedUntil = some expires → expires ≤ last + penaltyDuration
  exact : ∀ now, last ≤ now → (stats.isPenalizedAt now = true ↔ Penalised history now)
  successes : stats.isPenalizedAt last = true →
    stats.realSuccesses = 0 ∧ ¬[.success] <:+ relays history ∨
      stats.realSuccesses = 1 ∧ [.success] <:+ relays history

theorem penalized_earlier {early late : Nat} (sooner : early ≤ late)
    (on : stats.isPenalizedAt late = true) : stats.isPenalizedAt early = true := by
  obtain ⟨expires, held, before⟩ := isPenalizedAt_iff.mp on
  exact isPenalizedAt_iff.mpr ⟨expires, held, sooner.trans_lt before⟩

theorem booked_new : Booked [] .new 0 := by
  constructor
  case bounded => exact fun _ held => nomatch held
  case exact =>
    intro now _
    refine ⟨fun on => (nomatch on), ?_⟩
    rintro ⟨before, time, target, after, same, -⟩
    simp at same
  case successes => exact fun on => nomatch on

def penalty (stats : PoolStats) : Option Nat × UInt32 × UInt32 × List String :=
  (stats.penalizedUntil, stats.realSuccesses, stats.realFailures, stats.recentFailTargets)

theorem penalty_realSlow (stats : PoolStats) (target : String) (now : Nat) :
    penalty (stats.recordRealSlowAt target now).2 = penalty stats := by
  unfold recordRealSlowAt
  dsimp only
  split
  · rfl
  · split
    · rfl
    · rfl

theorem penalty_clearSlowFloor (stats : PoolStats) (rtt now : Nat) :
    penalty (stats.maybeClearSlowFloorAt rtt now).2 = penalty stats := by
  unfold maybeClearSlowFloorAt
  split
  · split
    · split
      · rfl
      · rfl
    · rfl
  · rfl

theorem penalty_silent (stats : PoolStats) {timed : Timed} (silent : timed.event.relay = none) :
    penalty (stats.step timed) = penalty stats := by
  obtain ⟨now, event⟩ := timed
  cases event with
  | realFailure target => exact nomatch silent
  | realSuccess => exact nomatch silent
  | networkChange => exact nomatch silent
  | latency ms => rfl
  | failure => rfl
  | realFast => rfl
  | confirmSlow rtt baseline => rfl
  | realSlow target => exact penalty_realSlow stats target now
  | clearSlowFloor rtt => exact penalty_clearSlowFloor stats rtt now

theorem isPenalizedAt_of_penalty {other : PoolStats} (same : penalty other = penalty stats) :
    other.isPenalizedAt now = stats.isPenalizedAt now := by
  unfold isPenalizedAt
  rw [(Prod.mk.inj same).1]

theorem penalised_silent {timed : Timed} (silent : timed.event.relay = none) :
    Penalised (history ++ [timed]) now ↔ Penalised history now := by
  rw [penalised_append]
  simp only [relays_append, silent, Option.toList_none, List.append_nil]
  constructor
  · rintro (⟨target, fails, -⟩ | penalised)
    · rw [fails] at silent
      exact nomatch silent
    · exact penalised
  · exact Or.inr

theorem penalised_failure (target : String) (time : Nat) :
    Penalised (history ++ [⟨time, .realFailure target⟩]) now ↔
      Trips (run history) target time ∧ now < time + penaltyDuration ∨ Penalised history now := by
  rw [penalised_append]
  simp only [relays_append, Event.relay, Option.toList_some, lifted_append_failure]
  constructor
  · rintro (⟨other, same, tripped⟩ | penalised)
    · cases same
      exact Or.inl tripped
    · exact Or.inr penalised
  · rintro (tripped | penalised)
    · exact Or.inl ⟨target, rfl, tripped⟩
    · exact Or.inr penalised

theorem penalised_success (time : Nat) :
    Penalised (history ++ [⟨time, .realSuccess⟩]) now ↔
      Penalised history now ∧ ¬[.success] <:+ relays history := by
  rw [penalised_append]
  simp only [relays_append, Event.relay, Option.toList_some, lifted_append_success, not_or]
  have ends : ∀ before time target after,
      history = before ++ (⟨time, .realFailure target⟩ : Timed) :: after →
        ([.success] <:+ relays history ↔ [.success] <:+ relays after) := by
    rintro before time target after rfl
    rw [show relays (before ++ ⟨time, .realFailure target⟩ :: after) =
      relays before ++ .failure target :: relays after by simp [relays, Event.relay]]
    exact success_suffix
  constructor
  · rintro (⟨target, same, -⟩ | ⟨before, time, target, after, same, trips, soon, stays, last⟩)
    · exact nomatch same
    · exact ⟨⟨before, time, target, after, same, trips, soon, stays⟩,
        fun inside => last ((ends _ _ _ _ same).mp inside)⟩
  · rintro ⟨⟨before, time, target, after, same, trips, soon, stays⟩, last⟩
    exact Or.inr ⟨before, time, target, after, same, trips, soon, stays,
      fun inside => last ((ends _ _ _ _ same).mpr inside)⟩

theorem not_penalised_change (time : Nat) :
    ¬Penalised (history ++ [⟨time, .networkChange⟩]) now := by
  rw [penalised_append]
  rintro (⟨target, same, -⟩ | ⟨before, time, target, after, same, trips, soon, stays⟩)
  · exact nomatch same
  · rw [relays_append] at stays
    exact stays lifted_append_change

variable {last time : Nat}

theorem Booked.silent (booked : Booked history stats last) {timed : Timed}
    (later : last ≤ timed.time) (silent : timed.event.relay = none) :
    Booked (history ++ [timed]) (stats.step timed) timed.time := by
  have same := penalty_silent stats silent
  obtain ⟨expires, rest⟩ := Prod.mk.inj same
  obtain ⟨successes, -⟩ := Prod.mk.inj rest
  constructor
  case bounded =>
    intro limit held
    exact (booked.bounded limit (expires.symm.trans held)).trans (Nat.add_le_add_right later _)
  case exact =>
    intro now after
    rw [isPenalizedAt_of_penalty same, penalised_silent silent]
    exact booked.exact now (later.trans after)
  case successes =>
    intro on
    rw [isPenalizedAt_of_penalty same] at on
    rw [successes, relays_silent silent]
    exact booked.successes (penalized_earlier later on)

theorem Booked.realFailure (booked : Booked history (run history) last) (later : last ≤ time)
    (target : String) : Booked (history ++ [⟨time, .realFailure target⟩])
      ((run history).recordRealFailureAt target time).2 time := by
  have bounded : ∀ expires, (run history).penalizedUntil = some expires →
      expires ≤ time + penaltyDuration := fun expires held =>
    (booked.bounded expires held).trans (Nat.add_le_add_right later _)
  have expired : ∀ expires, ((run history).expire time).penalizedUntil = some expires →
      expires ≤ time + penaltyDuration := by
    intro expires held
    unfold expire at held
    split at held
    · exact nomatch held
    · exact bounded expires held
  constructor
  case bounded =>
    intro expires held
    obtain ⟨-, same⟩ | ⟨-, same⟩ | ⟨-, -, same⟩ := recordRealFailureAt_cases (run history) target time
    · rw [same] at held
      exact expired expires held
    · rw [same] at held
      cases held
      exact le_rfl
    · rw [same] at held
      exact expired expires held
  case exact =>
    intro now after
    rw [penalized_realFailure target after bounded, penalised_failure,
      booked.exact now (later.trans after)]
  case successes =>
    intro _
    refine Or.inl ⟨?_, ?_⟩
    · obtain ⟨-, same⟩ | ⟨-, same⟩ | ⟨-, -, same⟩ :=
        recordRealFailureAt_cases (run history) target time
      · rw [same]
      · rw [same]
        rfl
      · rw [same]
        rfl
    · rw [relays_append, Event.relay, Option.toList_some, last_append]
      exact nofun

theorem Booked.realSuccess (booked : Booked history stats last) (later : last ≤ time) :
    Booked (history ++ [⟨time, .realSuccess⟩]) (stats.recordRealSuccessAt time) time := by
  have ends : [.success] <:+ relays (history ++ [⟨time, .realSuccess⟩]) := by
    rw [relays_append]
    exact List.suffix_append _ _
  obtain ⟨on, first, same⟩ | ⟨second, same⟩ := recordRealSuccessAt_cases stats time
  · obtain ⟨none_, calm⟩ | ⟨one, -⟩ := booked.successes (penalized_earlier later on)
    · constructor
      case bounded =>
        intro expires held
        rw [same] at held
        exact (booked.bounded expires held).trans (Nat.add_le_add_right later _)
      case exact =>
        intro now after
        rw [penalised_success, ← booked.exact now (later.trans after), same]
        exact ⟨fun still => ⟨still, calm⟩, fun both => both.1⟩
      case successes =>
        intro _
        rw [same, none_]
        exact Or.inr ⟨rfl, ends⟩
    · rw [one] at first
      exact absurd (by decide) first
  · have off : ∀ now, (stats.recordRealSuccessAt time).isPenalizedAt now = false := by
      intro now
      rw [same]
      rfl
    constructor
    case bounded =>
      intro expires held
      rw [same] at held
      exact nomatch held
    case exact =>
      intro now after
      rw [off, penalised_success, ← booked.exact now (later.trans after)]
      refine ⟨fun on => (nomatch on), ?_⟩
      rintro ⟨on, calm⟩
      have still := penalized_earlier after on
      obtain ⟨none_, -⟩ | ⟨-, counted⟩ := booked.successes (penalized_earlier later still)
      · have two := second still
        rw [none_] at two
        exact absurd two (by decide)
      · exact absurd counted calm
    case successes =>
      intro on
      rw [off] at on
      exact nomatch on

theorem Booked.step {timed : Timed} (booked : Booked history (run history) last)
    (later : last ≤ timed.time) :
    Booked (history ++ [timed]) (run (history ++ [timed])) timed.time := by
  rw [run_append]
  obtain ⟨time, event⟩ := timed
  cases event with
  | realFailure target => exact booked.realFailure later target
  | realSuccess => exact booked.realSuccess later
  | networkChange =>
      constructor
      case bounded => exact fun _ held => nomatch held
      case exact =>
        exact fun now _ => ⟨fun on => (nomatch on), fun on => absurd on (not_penalised_change time)⟩
      case successes => exact fun on => nomatch on
  | latency _ | failure | realFast | confirmSlow _ _ | realSlow _ | clearSlowFloor _ =>
      exact booked.silent later rfl

theorem Booked.mono (booked : Booked history stats last) (later : last ≤ time) :
    Booked history stats time := by
  constructor
  case bounded =>
    exact fun expires held => (booked.bounded expires held).trans (Nat.add_le_add_right later _)
  case exact => exact fun now after => booked.exact now (later.trans after)
  case successes => exact fun on => booked.successes (penalized_earlier later on)

theorem booked_run (ordered : history.Pairwise fun first second => first.time ≤ second.time)
    (reached : ∀ timed ∈ history, timed.time ≤ last) : Booked history (run history) last := by
  induction history using List.reverseRecOn generalizing last with
  | nil => exact booked_new.mono (Nat.zero_le last)
  | append_singleton past timed ih =>
      obtain ⟨before, -, sorted⟩ := List.pairwise_append.mp ordered
      have past_ : Booked past (run past) timed.time := by
        apply ih before
        intro earlier member
        exact sorted earlier member timed List.mem_cons_self
      exact (past_.step le_rfl).mono (reached timed (List.mem_append_right _ List.mem_cons_self))

end Book

section Window
variable {said : List Relay} {stats : PoolStats} {target : String} {time : Nat}

/-- The targets tracked have all failed since the last success or network change,
and there are as many as have been counted, up to three. -/
structure Window (said : List Relay) (stats : PoolStats) : Prop where
  distinct : stats.recentFailTargets.Nodup
  since : ∃ before since, said = before ++ since ∧
    (∀ relay ∈ since, ∃ other, relay = .failure other) ∧
      ∀ other ∈ stats.recentFailTargets, .failure other ∈ since
  enough : min 3 stats.realFailures.toNat ≤ stats.recentFailTargets.length

theorem window_empty (cleared : stats.recentFailTargets = []) (none_ : stats.realFailures = 0) :
    Window said stats := by
  constructor
  case distinct =>
    rw [cleared]
    exact List.nodup_nil
  case since =>
    refine ⟨said, [], (List.append_nil said).symm, fun _ member => (nomatch member), ?_⟩
    rw [cleared]
    exact fun _ member => nomatch member
  case enough =>
    rw [none_]
    exact Nat.zero_le _

theorem Window.of_penalty {other : PoolStats} (window : Window said stats)
    (same : penalty other = penalty stats) : Window said other := by
  obtain ⟨-, rest⟩ := Prod.mk.inj same
  obtain ⟨-, counts⟩ := Prod.mk.inj rest
  obtain ⟨failures, targets⟩ := Prod.mk.inj counts
  constructor
  case distinct => exact targets ▸ window.distinct
  case since => exact targets ▸ window.since
  case enough => exact targets ▸ failures ▸ window.enough

theorem Window.expire (window : Window said stats) (time : Nat) :
    Window said (stats.expire time) := by
  unfold PoolStats.expire
  split
  · exact window_empty rfl rfl
  · exact window

theorem Window.again (window : Window said stats) (target : String) :
    Window (said ++ [.failure target]) { stats with realSuccesses := 0 } := by
  obtain ⟨before, since, rfl, failures, tracked⟩ := window.since
  refine ⟨window.distinct, ⟨before, since ++ [.failure target], List.append_assoc _ _ _, ?_, ?_⟩,
    window.enough⟩
  · intro relay member
    obtain old | last := List.mem_append.mp member
    · exact failures relay old
    · exact ⟨target, List.mem_singleton.mp last⟩
  · exact fun other member => List.mem_append_left _ (tracked other member)

theorem mem_pushBounded {limit : Nat} {queue : List String} {other : String}
    (member : other ∈ pushBounded limit queue target) : other ∈ queue ∨ other = target := by
  unfold pushBounded at member
  obtain old | last := List.mem_append.mp member
  · split at old
    · exact Or.inl (List.mem_of_mem_tail old)
    · exact Or.inl old
  · exact Or.inr (List.mem_singleton.mp last)

theorem pushBounded_nodup {limit : Nat} {queue : List String} (distinct : queue.Nodup)
    (fresh : target ∉ queue) : (pushBounded limit queue target).Nodup := by
  unfold pushBounded
  rw [← List.concat_eq_append]
  split
  · exact distinct.tail.concat fun member => fresh (List.mem_of_mem_tail member)
  · exact distinct.concat fresh

theorem length_pushBounded {limit : Nat} (queue : List String) (positive : 0 < limit) :
    min limit (queue.length + 1) ≤ (pushBounded limit queue target).length := by
  unfold pushBounded
  rw [List.length_append, List.length_singleton]
  split
  · rw [List.length_tail]
    omega
  · omega

theorem Window.add (window : Window said stats) (fresh : target ∉ stats.recentFailTargets)
    (expires : Option Nat) :
    Window (said ++ [.failure target])
      { addTarget stats target with penalizedUntil := expires } := by
  obtain ⟨before, since, rfl, failures, tracked⟩ := window.since
  constructor
  case distinct => exact pushBounded_nodup window.distinct fresh
  case since =>
    refine ⟨before, since ++ [.failure target], List.append_assoc _ _ _, ?_, ?_⟩
    · intro relay member
      obtain old | last := List.mem_append.mp member
      · exact failures relay old
      · exact ⟨target, List.mem_singleton.mp last⟩
    · intro other member
      obtain old | rfl := mem_pushBounded member
      · exact List.mem_append_left _ (tracked other old)
      · exact List.mem_append_right _ List.mem_cons_self
  case enough =>
    have more : (stats.realFailures + 1).toNat ≤ stats.realFailures.toNat + 1 := by
      rw [UInt32.toNat_add]
      exact Nat.mod_le _ _
    have longer := @length_pushBounded target 3 stats.recentFailTargets (by decide)
    have enough := window.enough
    calc min 3 (stats.realFailures + 1).toNat
        ≤ min 3 (stats.recentFailTargets.length + 1) := by omega
      _ ≤ _ := longer

theorem window_run (history : List Timed) : Window (relays history) (run history) := by
  induction history using List.reverseRecOn with
  | nil => exact window_empty rfl rfl
  | append_singleton past timed ih =>
      rw [run_append]
      obtain ⟨time, event⟩ := timed
      cases event with
      | realFailure target =>
          rw [relays_append]
          have window := ih.expire time
          change Window _ ((run past).recordRealFailureAt target time).2
          obtain ⟨-, same⟩ | ⟨trips, same⟩ | ⟨fresh, -, same⟩ :=
            recordRealFailureAt_cases (run past) target time
          · rw [same]
            exact window.again target
          · rw [same]
            exact window.add trips.1 _
          · rw [same]
            exact window.add fresh _
      | realSuccess =>
          change Window _ ((run past).recordRealSuccessAt time)
          obtain ⟨-, -, same⟩ | ⟨-, same⟩ := recordRealSuccessAt_cases (run past) time
          · rw [same]
            exact window_empty rfl rfl
          · rw [same]
            exact window_empty rfl rfl
      | networkChange => exact window_empty rfl rfl
      | latency _ | failure | realFast | confirmSlow _ _ | realSlow _ | clearSlowFloor _ =>
          rw [relays_silent rfl]
          exact ih.of_penalty (penalty_silent _ rfl)

theorem thirdTarget_of_trips (window : Window said stats) (trips : Trips stats target time) :
    ThirdTarget said (stats.expire time).recentFailTargets target := by
  have window := window.expire time
  obtain ⟨fresh, third⟩ := trips
  obtain ⟨before, since, same, failures, tracked⟩ := window.since
  have two : 2 ≤ (stats.expire time).recentFailTargets.length := by
    have enough := window.enough
    have counted : 3 ≤ ((stats.expire time).realFailures + 1).toNat := third
    rw [UInt32.toNat_add] at counted
    have most := Nat.mod_le ((stats.expire time).realFailures.toNat + (1 : UInt32).toNat) (2 ^ 32)
    have one : (1 : UInt32).toNat = 1 := rfl
    omega
  have distinct := window.distinct
  cases held : (stats.expire time).recentFailTargets with
  | nil =>
      rw [held] at two
      exact absurd two (by decide)
  | cons first rest =>
      cases rest with
      | nil =>
          rw [held] at two
          exact absurd two (Nat.not_succ_le_self 1)
      | cons second rest =>
          rw [held] at fresh distinct tracked
          have one : first ∈ first :: second :: rest := List.mem_cons_self
          have two : second ∈ first :: second :: rest := List.mem_cons_of_mem _ List.mem_cons_self
          refine ⟨before, since, first, second, same, failures, tracked first one,
            tracked second two, one, two, ?_⟩
          simp only [List.nodup_cons, List.mem_cons, not_or] at distinct fresh
          simp only [List.nodup_cons, List.mem_cons, List.not_mem_nil, or_false, not_or]
          exact ⟨⟨distinct.1.1, Ne.symm fresh.1⟩, Ne.symm fresh.2.1, not_false, List.nodup_nil⟩

/-- A failure on a target that is tracked trips nothing, whether the penalty has
run out or not. -/
theorem not_trips_of_tracked (tracked : target ∈ stats.recentFailTargets) :
    ¬Trips stats target time := by
  rintro ⟨fresh, third⟩
  unfold expire at fresh third
  split at fresh
  · rename_i over_
    rw [if_pos over_] at third
    have few : ¬penalizeAfterFailures ≤ 0 + 1 := by decide
    exact few third
  · exact fresh tracked

theorem tracked_after (stats : PoolStats) (target : String) (time : Nat) :
    target ∈ (stats.recordRealFailureAt target time).2.recentFailTargets := by
  have pushed : ∀ queue, target ∈ pushBounded 3 queue target := fun queue =>
    List.mem_append_right _ List.mem_cons_self
  obtain ⟨tracked, same⟩ | ⟨-, same⟩ | ⟨-, -, same⟩ := recordRealFailureAt_cases stats target time
  · rw [same]
    exact tracked
  · rw [same]
    exact pushed _
  · rw [same]
    exact pushed _

theorem not_trips_again (history : List Timed) (target : String) (first time : Nat)
    (repeats : List Nat) :
    ¬Trips (run (history ++ ⟨first, .realFailure target⟩ ::
      repeats.map fun again => ⟨again, .realFailure target⟩)) target time := by
  apply not_trips_of_tracked
  rcases List.eq_nil_or_concat repeats with rfl | ⟨rest, last, rfl⟩
  · rw [List.map_nil, run_append]
    exact tracked_after _ target first
  · rw [List.concat_eq_append, List.map_append, ← List.cons_append, ← List.append_assoc,
      List.map_singleton, run_append]
    exact tracked_after _ target last

theorem not_penalised_alone {history : List Timed} {now : Nat} (target : String)
    (alone : ∀ other, .failure other ∈ relays history → other = target) :
    ¬Penalised history now := by
  rintro ⟨before, time, tripping, after, rfl, trips, -, -⟩
  obtain ⟨early, since, first, second, same, -, one, two, -, -, distinct⟩ :=
    thirdTarget_of_trips (window_run before) trips
  have inside : ∀ relay ∈ since, relay ∈
      relays (before ++ (⟨time, .realFailure tripping⟩ : Timed) :: after) := by
    intro relay member
    rw [relays, List.filterMap_append]
    apply List.mem_append_left
    change relay ∈ relays before
    rw [same]
    exact List.mem_append_right early member
  have equal : first = second := (alone first (inside _ one)).trans (alone second (inside _ two)).symm
  rw [equal] at distinct
  simp at distinct

end Window

/-- The health of a node is what its history says. A node is out from three
failures in a row until a recovery, which a network change makes one success
short; it is penalised from a failure on a third target, for the duration of the
penalty, until two successes in a row or a network change. -/
theorem health_equals_history (history : List Timed) (now : Nat)
    (ordered : history.Pairwise fun first second => first.time ≤ second.time)
    (reached : ∀ timed ∈ history, timed.time ≤ now) :
    ((run history).dead = true ↔ Dead (signals history)) ∧
      ((run history).isPenalizedAt now = true ↔ Penalised history now) ∧
        (∀ before target time, Trips (run before) target time →
          ThirdTarget (relays before) ((run before).expire time).recentFailTargets target) ∧
          (∀ target, (∀ other, .failure other ∈ relays history → other = target) →
            (run history).isPenalizedAt now = false) ∧
            ∀ before target first time (repeats : List Nat),
              ¬Trips (run (before ++ ⟨first, .realFailure target⟩ ::
                repeats.map fun again => ⟨again, .realFailure target⟩)) target time := by
  have penalised := (booked_run ordered reached).exact now le_rfl
  refine ⟨(kept_run history).dead, penalised, ?_, ?_, ?_⟩
  · exact fun before target time trips => thirdTarget_of_trips (window_run before) trips
  · intro target alone
    exact Bool.eq_false_iff.mpr fun on => not_penalised_alone target alone (penalised.mp on)
  · exact fun before target first time repeats => not_trips_again before target first time repeats

def outage : List Timed :=
  [⟨0, .failure⟩, ⟨1, .failure⟩, ⟨2, .failure⟩, ⟨3, .realFailure "a:443"⟩,
    ⟨4, .realFailure "b:443"⟩, ⟨5, .realFailure "c:443"⟩]

theorem health_equals_history_outage :
    (run outage).dead = true ∧ (run outage).isPenalizedAt 6 = true ∧
      ((run outage).isPenalizedAt 6 = true ↔ Penalised outage 6) :=
  ⟨by decide, by decide, (health_equals_history outage 6 (by decide) (by decide)).2.1⟩

def sinceChange (signals : List Signal) : List Signal :=
  (signals.reverse.takeWhile (· ≠ .change)).reverse

/-- A node that was out is still out right after a network change, and with a
failure after it one success does not do. -/
theorem dead_after_change :
    (run (outage ++ [⟨6, .networkChange⟩])).dead = true ∧
      sinceChange (signals (outage ++ [⟨6, .networkChange⟩])) = [] ∧
      (run (outage ++ [⟨6, .networkChange⟩, ⟨7, .failure⟩, ⟨8, .latency 20⟩])).dead = true := by
  decide

end Mirage.Pool.Health
