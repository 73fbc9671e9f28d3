import Mathlib.Algebra.GroupWithZero.Nat
import Mathlib.Order.Nat
import Mirage.Lib.Trace

/-!
Calls that overlap on a shared state, each one a chain of atomic steps. The
calls stand in a list in the order they came, so that they can be counted.
What the shared state says is accounted for when each call's weight adds up to
it, and a step that moves both alike keeps it so.
-/

namespace Mirage.Calls
open Trace

variable {Shared Call Request Action : Type}

structure System (Shared Call : Type) where
  shared : Shared
  calls : List Call

inductive Turn (Request Action : Type) where
  | enter (request : Request)
  | go (index : Nat) (action : Action)

section Step
variable (start : Request → Call)
  (advance : Shared → Call → Action → Option (Shared × Call))

/-- A new call, or one atomic step of a call that is there. -/
def step (system : System Shared Call) : Turn Request Action → Option (System Shared Call)
  | .enter request => some { system with calls := system.calls ++ [start request] }
  | .go index action =>
      system.calls[index]?.bind fun call =>
        (advance system.shared call action).map fun next =>
          ⟨next.1, system.calls.set index next.2⟩

/-- Every state some run from `shared`, with no call yet, leads to. -/
def Reachable (shared : Shared) (system : System Shared Call) : Prop :=
  ∃ turns, follow (step start advance) ⟨shared, []⟩ turns = some system

end Step

def total (weight : Call → Nat) (calls : List Call) : Nat := (calls.map weight).sum

variable {weight other : Call → Nat} {calls : List Call} {call : Call}

theorem total_append (before after : List Call) :
    total weight (before ++ after) = total weight before + total weight after := by
  rw [total, List.map_append, List.sum_append]
  rfl

@[simp] theorem total_cons (rest : List Call) :
    total weight (call :: rest) = weight call + total weight rest := rfl

@[simp] theorem total_nil : total weight [] = 0 := rfl

theorem weight_le_total (member : call ∈ calls) : weight call ≤ total weight calls := by
  obtain ⟨before, after, rfl⟩ := List.append_of_mem member
  rw [total_append, total_cons]
  omega

theorem weight_add_le_total {i j : Nat} {first second : Call} (apart : i ≠ j)
    (here : calls[i]? = some first) (there : calls[j]? = some second) :
    weight first + weight second ≤ total weight calls := by
  induction calls generalizing i j with
  | nil => cases here
  | cons call rest ih =>
      rw [total_cons]
      cases i with
      | zero =>
          cases j with
          | zero => exact absurd rfl apart
          | succ j =>
              cases here
              have part : weight second ≤ total weight rest :=
                weight_le_total (List.mem_of_getElem? there)
              omega
      | succ i =>
          cases j with
          | zero =>
              cases there
              have part : weight first ≤ total weight rest :=
                weight_le_total (List.mem_of_getElem? here)
              omega
          | succ j =>
              have both := ih (fun same => apart (congrArg Nat.succ same)) here there
              exact both.trans (Nat.le_add_left _ _)

theorem total_mono (least : ∀ call ∈ calls, weight call ≤ other call) :
    total weight calls ≤ total other calls := by
  induction calls with
  | nil => exact le_rfl
  | cons call rest ih =>
      have first := least call List.mem_cons_self
      have later := ih fun other member => least other (List.mem_cons_of_mem _ member)
      simp only [total_cons]
      omega

theorem total_congr (same : ∀ call ∈ calls, weight call = other call) :
    total weight calls = total other calls := by
  apply Nat.le_antisymm
  · exact total_mono fun call member => (same call member).le
  · exact total_mono fun call member => (same call member).ge

theorem total_eq_zero (none_ : ∀ call ∈ calls, weight call = 0) : total weight calls = 0 := by
  induction calls with
  | nil => rfl
  | cons call rest ih =>
      rw [total_cons, none_ call List.mem_cons_self]
      exact (Nat.zero_add _).trans (ih fun other member => none_ other (List.mem_cons_of_mem _ member))

section Runs
variable {start : Request → Call}
  {advance : Shared → Call → Action → Option (Shared × Call)}
  {system next final : System Shared Call} {turn : Turn Request Action}

theorem step_cases (stepped : step start advance system turn = some next) :
    (∃ request, turn = .enter request ∧
      next = ⟨system.shared, system.calls ++ [start request]⟩) ∨
    ∃ before call after action shared' call',
      system.calls = before ++ call :: after ∧ turn = .go before.length action ∧
        advance system.shared call action = some (shared', call') ∧
          next = ⟨shared', before ++ call' :: after⟩ := by
  cases turn with
  | enter request => exact Or.inl ⟨request, rfl, (Option.some.inj stepped).symm⟩
  | go index action =>
      obtain ⟨call, found, moved⟩ := Option.bind_eq_some_iff.mp stepped
      obtain ⟨⟨shared', call'⟩, advanced, rfl⟩ := Option.map_eq_some_iff.mp moved
      obtain ⟨inside, rfl⟩ := List.getElem?_eq_some_iff.mp found
      have length : (system.calls.take index).length = index := List.length_take_of_le inside.le
      refine Or.inr ⟨system.calls.take index, system.calls[index], system.calls.drop (index + 1),
        action, shared', call', ?_, ?_, advanced, ?_⟩
      · rw [← List.drop_eq_getElem_cons inside, List.take_append_drop]
      · rw [length]
      · rw [List.set_eq_take_append_cons_drop, if_pos inside]

theorem step_last {shared shared' : Shared} {call' : Call} {action : Action}
    (advanced : advance shared call action = some (shared', call')) :
    step start advance ⟨shared, calls ++ [call]⟩ (.go calls.length action) =
      some ⟨shared', calls ++ [call']⟩ := by
  rw [step, List.getElem?_concat_length, Option.bind_some, advanced, Option.map_some,
    List.set_append_right calls.length call' le_rfl, Nat.sub_self]
  rfl

/-- What the steps of one call come to when no other call takes one. -/
def solo (advance : Shared → Call → Action → Option (Shared × Call)) :
    Shared → Call → List Action → Option (Shared × Call)
  | shared, call, [] => some (shared, call)
  | shared, call, action :: rest =>
      (advance shared call action).bind fun next => solo advance next.1 next.2 rest

theorem follow_last {shared : Shared} {last : Shared × Call} {actions : List Action}
    (ran : solo advance shared call actions = some last) :
    follow (step start advance) ⟨shared, calls ++ [call]⟩ (actions.map (Turn.go calls.length)) =
      some ⟨last.1, calls ++ [last.2]⟩ := by
  induction actions generalizing shared call with
  | nil =>
      cases ran
      rfl
  | cons action rest ih =>
      obtain ⟨⟨shared', call'⟩, advanced, tail⟩ := Option.bind_eq_some_iff.mp ran
      rw [List.map_cons, follow, step_last advanced]
      exact ih tail

/-- A step moves the reading as it moves the weight of its call. -/
def Balanced (advance : Shared → Call → Action → Option (Shared × Call)) (read : Shared → Nat)
    (weight : Call → Nat) : Prop :=
  ∀ shared call action shared' call', weight call ≤ read shared →
    advance shared call action = some (shared', call') →
      read shared' + weight call = read shared + weight call'

/-- The calls account for what is read. -/
def Accounts (read : Shared → Nat) (weight : Call → Nat) (system : System Shared Call) : Prop :=
  read system.shared = total weight system.calls

variable {read : Shared → Nat}

theorem Balanced.step (balanced : Balanced advance read weight)
    (fresh : ∀ request, weight (start request) = 0) (accounts : Accounts read weight system)
    (stepped : step start advance system turn = some next) : Accounts read weight next := by
  unfold Accounts at *
  obtain ⟨request, -, rfl⟩ | ⟨before, call, after, action, shared', call', stood, -, advanced,
    rfl⟩ := step_cases stepped
  · simp only [total_append, total_cons, total_nil, fresh, accounts, Nat.add_zero]
  · rw [stood, total_append, total_cons] at accounts
    have moved := balanced _ _ _ _ _ (by omega) advanced
    simp only [total_append, total_cons]
    omega

/-- What one turn adds to a reading on behalf of the call at `index`. -/
def added (index : Nat) (before after : Nat) : Turn Request Action → Int
  | .enter _ => 0
  | .go moved _ => if moved = index then (after : Int) - before else 0

def change (start : Request → Call) (advance : Shared → Call → Action → Option (Shared × Call))
    (read : Shared → Nat) (index : Nat) (system : System Shared Call) :
    List (Turn Request Action) → Int
  | [] => 0
  | turn :: rest =>
      (step start advance system turn).elim 0 fun next =>
        added index (read system.shared) (read next.shared) turn +
          change start advance read index next rest

theorem change_cons {rest : List (Turn Request Action)} {index : Nat}
    (stepped : step start advance system turn = some next) :
    change start advance read index system (turn :: rest) =
      added index (read system.shared) (read next.shared) turn +
        change start advance read index next rest := by
  rw [change, stepped]
  rfl

def weightAt (weight : Call → Nat) (index : Nat) (calls : List Call) : Nat :=
  calls[index]?.elim 0 weight

theorem weightAt_here (before after : List Call) :
    weightAt weight before.length (before ++ call :: after) = weight call := by
  rw [weightAt, List.getElem?_append_right le_rfl, Nat.sub_self]
  rfl

theorem weightAt_apart {before after : List Call} {index : Nat} (apart : before.length ≠ index)
    (call' : Call) : weightAt weight index (before ++ call' :: after) =
      weightAt weight index (before ++ call :: after) := by
  unfold weightAt
  rcases Nat.lt_or_gt_of_ne apart with less | more
  · obtain ⟨gap, rfl⟩ := Nat.exists_eq_add_of_lt less
    rw [List.getElem?_append_right (by omega), List.getElem?_append_right (by omega),
      show before.length + gap + 1 - before.length = gap + 1 by omega]
    rfl
  · rw [List.getElem?_append_left more, List.getElem?_append_left more]

theorem weightAt_enter {index : Nat} (fresh : weight call = 0) :
    weightAt weight index (calls ++ [call]) = weightAt weight index calls := by
  unfold weightAt
  rcases Nat.lt_trichotomy index calls.length with inside | rfl | outside
  · rw [List.getElem?_append_left inside]
  · rw [List.getElem?_concat_length, List.getElem?_eq_none le_rfl]
    exact fresh
  · have short : (calls ++ [call]).length ≤ index := by
      rw [List.length_append]
      exact outside
    rw [List.getElem?_eq_none short, List.getElem?_eq_none outside.le]

/-- In whatever order the calls take their steps, those of one call add up to
the weight the call has at the end, less the one it had. -/
theorem change_eq (balanced : Balanced advance read weight)
    (fresh : ∀ request, weight (start request) = 0) (accounts : Accounts read weight system)
    {turns : List (Turn Request Action)}
    (followed : follow (step start advance) system turns = some final) (index : Nat) :
    change start advance read index system turns =
      (weightAt weight index final.calls : Int) - weightAt weight index system.calls := by
  induction turns generalizing system with
  | nil =>
      cases followed
      exact (Int.sub_self _).symm
  | cons turn rest ih =>
      obtain ⟨next, stepped, tail⟩ := Option.bind_eq_some_iff.mp followed
      have later := ih (balanced.step fresh accounts stepped) tail
      rw [change_cons stepped, later]
      obtain ⟨request, rfl, rfl⟩ | ⟨before, call, after, action, shared', call', stood, rfl,
        advanced, rfl⟩ := step_cases stepped
      · rw [weightAt_enter (fresh request), added]
        omega
      · unfold Accounts at accounts
        rw [stood, total_append, total_cons] at accounts
        have moved := balanced _ _ _ _ _ (by omega) advanced
        rw [added, stood]
        dsimp only
        by_cases here : before.length = index
        · subst index
          rw [if_pos rfl, weightAt_here, weightAt_here]
          omega
        · rw [if_neg here, @weightAt_apart Call weight call before after index here call']
          omega

end Runs

end Mirage.Calls
