import Mathlib.Data.List.Infix
import Mirage.Pool.Health

/-!
The health of a node is what its history says. Each invariant is about one more
event at the end of a history.
-/

namespace Mirage.Pool.Health
open PoolStats

section Ends
variable {Item : Type} {items : List Item} {item first second : Item}

theorem pair_infix_append :
    [first, second] <:+: items ++ [item] ↔
      [first, second] <:+: items ∨ [first] <:+ items ∧ second = item := by
  constructor
  · rintro ⟨before, after, same⟩
    rcases List.eq_nil_or_concat after with rfl | ⟨rest, last, rfl⟩
    · rw [List.append_nil, show [first, second] = [first] ++ [second] from rfl,
        ← List.append_assoc] at same
      obtain ⟨front, back⟩ := List.append_inj' same rfl
      exact Or.inr ⟨⟨before, front⟩, List.cons.inj back |>.1⟩
    · rw [List.concat_eq_append, ← List.append_assoc] at same
      obtain ⟨front, -⟩ := List.append_inj' same rfl
      exact Or.inl ⟨before, rest, front⟩
  · rintro (inside | ⟨⟨before, rfl⟩, rfl⟩)
    · exact inside.trans (List.prefix_append _ _).isInfix
    · exact ⟨before, [], by simp⟩

theorem last_append : [first] <:+ items ++ [item] ↔ first = item := by
  constructor
  · rintro ⟨before, same⟩
    exact (List.cons.inj (List.append_inj' same rfl).2).1
  · rintro rfl
    exact List.suffix_append items [first]

theorem pair_suffix_append :
    [first, second] <:+ items ++ [item] ↔ [first] <:+ items ∧ second = item := by
  constructor
  · rintro ⟨before, same⟩
    rw [show [first, second] = [first] ++ [second] from rfl, ← List.append_assoc] at same
    obtain ⟨front, back⟩ := List.append_inj' same rfl
    exact ⟨⟨before, front⟩, (List.cons.inj back).1⟩
  · rintro ⟨⟨before, rfl⟩, rfl⟩
    exact ⟨before, by simp⟩

end Ends

section Signals
variable {signals : List Signal}

theorem recovers_append (signal : Signal) :
    Recovers (signals ++ [signal]) ↔ Recovers signals ∨
      signal = .success ∧ ([.success] <:+ signals ∨ [.change] <:+ signals) := by
  unfold Recovers
  rw [pair_infix_append, pair_infix_append]
  tauto

theorem dead_append (signal : Signal) :
    Dead (signals ++ [signal]) ↔
      (∃ before after, signals = before ++ [.failure, .failure, .failure] ++ after ∧
        ¬Recovers (after ++ [signal])) ∨
      signal = .failure ∧ [.failure, .failure] <:+ signals := by
  constructor
  · rintro ⟨before, after, same, stays⟩
    rcases List.eq_nil_or_concat after with rfl | ⟨rest, last, rfl⟩
    · rw [List.append_nil, show [Signal.failure, .failure, .failure] =
        [.failure, .failure] ++ [.failure] from rfl, ← List.append_assoc] at same
      obtain ⟨front, back⟩ := List.append_inj' same rfl
      exact Or.inr ⟨(List.cons.inj back).1, before, front.symm⟩
    · rw [List.concat_eq_append] at same stays
      rw [← List.append_assoc] at same
      obtain ⟨front, back⟩ := List.append_inj' same rfl
      refine Or.inl ⟨before, rest, front, ?_⟩
      rw [(List.cons.inj back).1]
      exact stays
  · rintro (⟨before, after, rfl, stays⟩ | ⟨rfl, before, rfl⟩)
    · exact ⟨before, after ++ [signal], List.append_assoc _ _ _, stays⟩
    · refine ⟨before, [], by simp, ?_⟩
      rintro (inside | inside)
      · exact nomatch List.infix_nil.mp inside
      · exact nomatch List.infix_nil.mp inside

theorem dead_append_failure :
    Dead (signals ++ [.failure]) ↔ Dead signals ∨ [.failure, .failure] <:+ signals := by
  rw [dead_append]
  simp only [recovers_append, reduceCtorEq, false_and, or_false, true_and]
  rfl

theorem dead_append_change : Dead (signals ++ [.change]) ↔ Dead signals := by
  rw [dead_append]
  simp only [recovers_append, reduceCtorEq, false_and, or_false]
  rfl

/-- What comes last is a failure where a success does not bring the node back. -/
theorem dead_append_success :
    Dead (signals ++ [.success]) ↔ Dead signals ∧ [.failure] <:+ signals := by
  rw [dead_append]
  simp only [recovers_append, reduceCtorEq, false_and, or_false, true_and, not_or]
  constructor
  · rintro ⟨before, after, rfl, stays, noSuccess, noChange⟩
    refine ⟨⟨before, after, rfl, stays⟩, ?_⟩
    rcases List.eq_nil_or_concat after with rfl | ⟨rest, last, rfl⟩
    · exact ⟨before ++ [.failure, .failure], by simp⟩
    · rw [List.concat_eq_append, last_append] at noSuccess noChange
      rw [List.concat_eq_append, ← List.append_assoc, last_append]
      cases last with
      | failure => rfl
      | success => exact absurd rfl noSuccess
      | change => exact absurd rfl noChange
  · rintro ⟨⟨before, after, rfl, stays⟩, last⟩
    have apart : ∀ signal ≠ Signal.failure, ¬[signal] <:+ after := by
      intro signal different ends
      have second := ends.trans (List.suffix_append (before ++ [.failure, .failure, .failure]) after)
      obtain ⟨first, same⟩ := last
      obtain ⟨other, same'⟩ := second
      have one := List.append_inj' (same.trans same'.symm) rfl
      exact different (List.cons.inj one.2).1.symm
    exact ⟨before, after, rfl, stays, apart .success nofun, apart .change nofun⟩

def failing (signals : List Signal) : Nat :=
  (signals.reverse.takeWhile (· = .failure)).length

theorem failing_append_failure : failing (signals ++ [.failure]) = failing signals + 1 := by
  simp [failing]

theorem failing_append_other {signal : Signal} (other : signal ≠ .failure) :
    failing (signals ++ [signal]) = 0 := by
  simp [failing, other]

theorem one_failure : [.failure] <:+ signals ↔ 1 ≤ failing signals := by
  rcases List.eq_nil_or_concat signals with rfl | ⟨rest, last, rfl⟩
  · exact ⟨fun inside => (nomatch List.suffix_nil.mp inside), fun positive => (nomatch positive)⟩
  · rw [List.concat_eq_append, last_append]
    by_cases fails : last = .failure
    · rw [fails, failing_append_failure]
      exact ⟨fun _ => Nat.le_add_left _ _, fun _ => rfl⟩
    · rw [failing_append_other fails]
      exact ⟨fun same => absurd same.symm fails, fun positive => (nomatch positive)⟩

theorem two_failures : [.failure, .failure] <:+ signals ↔ 2 ≤ failing signals := by
  rcases List.eq_nil_or_concat signals with rfl | ⟨rest, last, rfl⟩
  · exact ⟨fun inside => (nomatch List.suffix_nil.mp inside), fun positive => (nomatch positive)⟩
  · rw [List.concat_eq_append, pair_suffix_append, one_failure]
    by_cases fails : last = .failure
    · rw [fails, failing_append_failure]
      exact ⟨fun both => Nat.succ_le_succ both.1, fun two => ⟨Nat.le_of_succ_le_succ two, rfl⟩⟩
    · rw [failing_append_other fails]
      exact ⟨fun ⟨_, same⟩ => absurd same.symm fails, fun positive => (nomatch positive)⟩

end Signals

structure Kept (signals : List Signal) (stats : PoolStats) : Prop where
  dead : stats.dead = true ↔ Dead signals
  failures : stats.dead = false →
    stats.consecutiveFailures.toNat = failing signals ∧ failing signals < 3
  successes : stats.dead = true →
    stats.consecutiveSuccesses = 0 ∧ [.failure] <:+ signals ∨
      stats.consecutiveSuccesses = 1 ∧ ¬[.failure] <:+ signals

theorem kept_new : Kept [] .new := by
  constructor
  case dead =>
    refine ⟨fun dead => (nomatch dead), ?_⟩
    rintro ⟨before, after, same, -⟩
    simp at same
  case failures => exact fun _ => ⟨rfl, by decide⟩
  case successes => exact fun dead => nomatch dead

section Kept
variable {signals : List Signal} {stats : PoolStats}

theorem Kept.latency (kept : Kept signals stats) (ms now : Nat) :
    Kept (signals ++ [.success]) (stats.recordLatency ms now) := by
  have calm : failing (signals ++ [.success]) = 0 := failing_append_other nofun
  have last : ¬[.failure] <:+ signals ++ [.success] := by
    rw [last_append]
    exact nofun
  cases was : stats.dead with
  | false =>
      have alive : ¬Dead (signals ++ [.success]) := by
        rw [dead_append_success, ← kept.dead, was]
        exact fun both => nomatch both.1
      have stays : (stats.recordLatency ms now).dead = false := by
        rw [recordLatency, was]
        rfl
      constructor
      case dead =>
        rw [stays]
        exact ⟨fun dead => (nomatch dead), fun dead => absurd dead alive⟩
      case failures => exact fun _ => ⟨calm.symm, by omega⟩
      case successes => exact fun dead => nomatch stays.symm.trans dead
  | true =>
      have fails := kept.dead.mp was
      obtain ⟨none_, ends⟩ | ⟨one, ends⟩ := kept.successes was
      · have stays : (stats.recordLatency ms now).dead = true := by
          rw [recordLatency, was, none_]
          rfl
        have counted : (stats.recordLatency ms now).consecutiveSuccesses = 1 := by
          rw [recordLatency, none_]
          rfl
        constructor
        case dead => exact ⟨fun _ => dead_append_success.mpr ⟨fails, ends⟩, fun _ => stays⟩
        case failures => exact fun dead => nomatch stays.symm.trans dead
        case successes => exact fun _ => Or.inr ⟨counted, last⟩
      · have back : (stats.recordLatency ms now).dead = false := by
          rw [recordLatency, was, one]
          rfl
        constructor
        case dead =>
          rw [back, dead_append_success]
          exact ⟨fun dead => (nomatch dead), fun both => absurd both.2 ends⟩
        case failures => exact fun _ => ⟨calm.symm, by omega⟩
        case successes => exact fun dead => nomatch back.symm.trans dead

theorem Kept.failure (kept : Kept signals stats) (now : Nat) :
    Kept (signals ++ [.failure]) (stats.recordFailure now) := by
  have last : [.failure] <:+ signals ++ [.failure] := List.suffix_append _ _
  cases was : stats.dead with
  | true =>
      have stays : (stats.recordFailure now).dead = true := by
        rw [recordFailure, was]
        rfl
      constructor
      case dead => exact ⟨fun _ => dead_append_failure.mpr (Or.inl (kept.dead.mp was)), fun _ => stays⟩
      case failures => exact fun dead => nomatch stays.symm.trans dead
      case successes => exact fun _ => Or.inl ⟨rfl, last⟩
  | false =>
      obtain ⟨counted, few⟩ := kept.failures was
      have alive : ¬Dead signals := fun dead => nomatch was.symm.trans (kept.dead.mpr dead)
      have more : (stats.consecutiveFailures + 1).toNat = failing signals + 1 := by
        rw [UInt32.toNat_add, counted]
        exact Nat.mod_eq_of_lt (by simp; omega)
      have falls : (stats.recordFailure now).dead = true ↔ 2 ≤ failing signals := by
        rw [recordFailure, was, Bool.false_or, decide_eq_true_eq, UInt32.le_iff_toNat_le, more]
        exact Nat.succ_le_succ_iff
      constructor
      case dead =>
        rw [falls, dead_append_failure, two_failures]
        exact ⟨Or.inr, fun dead => dead.resolve_left alive⟩
      case failures =>
        intro stays
        have fewer : ¬2 ≤ failing signals := fun two => nomatch stays.symm.trans (falls.mpr two)
        rw [failing_append_failure]
        exact ⟨more, by omega⟩
      case successes => exact fun _ => Or.inl ⟨rfl, last⟩

theorem Kept.networkChange (kept : Kept signals stats) :
    Kept (signals ++ [.change]) stats.onNetworkChange := by
  have calm : failing (signals ++ [.change]) = 0 := failing_append_other nofun
  have last : ¬[.failure] <:+ signals ++ [.change] := by
    rw [last_append]
    exact nofun
  constructor
  case dead =>
    rw [dead_append_change]
    exact kept.dead
  case failures => exact fun _ => ⟨calm.symm, by omega⟩
  case successes =>
    intro was
    have counted : stats.onNetworkChange.consecutiveSuccesses = 1 := if_pos was
    exact Or.inr ⟨counted, last⟩

/-- The fields that `dead` depends on. -/
def health (stats : PoolStats) : Bool × UInt32 × UInt32 :=
  (stats.dead, stats.consecutiveFailures, stats.consecutiveSuccesses)

theorem health_expire (stats : PoolStats) (now : Nat) : health (stats.expire now) = health stats := by
  unfold expire
  split
  · rfl
  · rfl

theorem health_realFailure (stats : PoolStats) (target : String) (now : Nat) :
    health (stats.recordRealFailureAt target now).2 = health stats := by
  rw [← health_expire stats now]
  unfold recordRealFailureAt
  dsimp only
  split
  · rfl
  · split
    · rfl
    · rfl

theorem health_realSuccess (stats : PoolStats) (now : Nat) :
    health (stats.recordRealSuccessAt now) = health stats := by
  unfold recordRealSuccessAt
  dsimp only
  split
  · split
    · rfl
    · rfl
  · rfl

theorem health_realSlow (stats : PoolStats) (target : String) (now : Nat) :
    health (stats.recordRealSlowAt target now).2 = health stats := by
  unfold recordRealSlowAt
  dsimp only
  split
  · rfl
  · split
    · rfl
    · rfl

theorem health_clearSlowFloor (stats : PoolStats) (rtt now : Nat) :
    health (stats.maybeClearSlowFloorAt rtt now).2 = health stats := by
  unfold maybeClearSlowFloorAt
  split
  · split
    · split
      · rfl
      · rfl
    · rfl
  · rfl

theorem Kept.of_health {other : PoolStats} (kept : Kept signals stats)
    (same : health other = health stats) : Kept signals other := by
  obtain ⟨dead, counts⟩ := Prod.mk.inj same
  obtain ⟨failures, successes⟩ := Prod.mk.inj counts
  constructor
  case dead =>
    rw [dead]
    exact kept.dead
  case failures =>
    rw [dead, failures]
    exact kept.failures
  case successes =>
    rw [dead, successes]
    exact kept.successes

theorem Kept.step {history : List Timed} (kept : Kept (Health.signals history) stats) (timed : Timed) :
    Kept (Health.signals (history ++ [timed])) (stats.step timed) := by
  obtain ⟨now, event⟩ := timed
  have append : ∀ signal, event.signal = some signal →
      Health.signals (history ++ [⟨now, event⟩]) = Health.signals history ++ [signal] := by
    intro signal spoken
    simp [Health.signals, spoken]
  have silent : event.signal = none →
      Health.signals (history ++ [⟨now, event⟩]) = Health.signals history := by
    intro spoken
    simp [Health.signals, spoken]
  cases event with
  | latency ms =>
      rw [append .success rfl]
      exact kept.latency ms now
  | confirmSlow rtt baseline =>
      rw [append .success rfl]
      exact (kept.latency rtt now).of_health rfl
  | failure =>
      rw [append .failure rfl]
      exact kept.failure now
  | networkChange =>
      rw [append .change rfl]
      exact kept.networkChange
  | realFailure target =>
      rw [silent rfl]
      exact kept.of_health (health_realFailure stats target now)
  | realSuccess =>
      rw [silent rfl]
      exact kept.of_health (health_realSuccess stats now)
  | realSlow target =>
      rw [silent rfl]
      exact kept.of_health (health_realSlow stats target now)
  | realFast =>
      rw [silent rfl]
      exact kept.of_health rfl
  | clearSlowFloor rtt =>
      rw [silent rfl]
      exact kept.of_health (health_clearSlowFloor stats rtt now)

end Kept

theorem kept_run (history : List Timed) : Kept (signals history) (run history) := by
  induction history using List.reverseRecOn with
  | nil => exact kept_new
  | append_singleton past timed ih =>
      rw [run_append]
      exact ih.step timed

end Mirage.Pool.Health
