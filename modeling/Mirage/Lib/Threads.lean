import Mathlib.Logic.Function.Basic
import Mirage.Lib.Trace

/-!
Threads that share a state and take turns, one atomic step at a time. What a
thread does next depends on where it is, on the shared state and on what it is
told; a thread that cannot go on as told does not take the step.
-/

namespace Mirage.Threads
open Trace

variable {Shared Place Action : Type}

structure Machine (Shared Place : Type) where
  shared : Shared
  place : Nat → Place

variable (advance : Shared → Place → Action → Option (Shared × Place))

def step (machine : Machine Shared Place) (turn : Nat × Action) : Option (Machine Shared Place) :=
  (advance machine.shared (machine.place turn.1) turn.2).map fun next =>
    ⟨next.1, Function.update machine.place turn.1 next.2⟩

variable {advance} {machine next : Machine Shared Place} {turn : Nat × Action}

theorem step_eq_some (stepped : step advance machine turn = some next) :
    advance machine.shared (machine.place turn.1) turn.2 =
        some (next.shared, next.place turn.1) ∧
      ∀ other ≠ turn.1, next.place other = machine.place other := by
  obtain ⟨⟨shared, place⟩, moved, rfl⟩ := Option.map_eq_some_iff.mp stepped
  refine ⟨by simpa using moved, ?_⟩
  intro other different
  exact Function.update_of_ne different _ _

/-- A property of the shared state and one of each thread's place, which each
step keeps for the thread that takes it and for the others. -/
theorem step_keeps {Good : Shared → Prop} {Fits : Shared → Place → Prop}
    (own : ∀ {shared place action shared' place'}, Good shared → Fits shared place →
      advance shared place action = some (shared', place') → Good shared' ∧ Fits shared' place')
    (others : ∀ {shared place action shared' place' other}, Good shared → Fits shared place →
      advance shared place action = some (shared', place') → Fits shared other →
      Fits shared' other)
    (held : Good machine.shared ∧ ∀ id, Fits machine.shared (machine.place id))
    (stepped : step advance machine turn = some next) :
    Good next.shared ∧ ∀ id, Fits next.shared (next.place id) := by
  obtain ⟨moved, rest⟩ := step_eq_some stepped
  obtain ⟨good, fits⟩ := held
  obtain ⟨goodToo, fitsToo⟩ := own good (fits turn.1) moved
  refine ⟨goodToo, ?_⟩
  intro id
  by_cases same : id = turn.1
  · rw [same]
    exact fitsToo
  · rw [rest id same]
    exact others good (fits turn.1) moved (fits id)

end Mirage.Threads
