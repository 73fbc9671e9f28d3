import Mathlib.Data.List.Perm.Basic
import Mirage.Lib.Programs

/-!
Work that waits for other work, done in rounds. A round offers every pending
item to the state once; the items it cannot take yet are pending again. A round
that takes none is an error. Whatever the rounds did, the items that were taken
were taken one after the other, in some order.
-/

namespace Mirage.Rounds
open Programs

variable {State Item Error : Type}

section Run
variable (attempt : State → Item → Except Error (Option State)) (stuck : List Item → Error)

structure Round (State Item : Type) where
  state : State
  left : List Item
  progress : Bool

def visit (round : Round State Item) (item : Item) : Except Error (Round State Item) :=
  match attempt round.state item with
  | .error reason => .error reason
  | .ok (some next) => .ok { round with state := next, progress := true }
  | .ok none => .ok { round with left := round.left ++ [item] }

inductive Takes : State → List Item → State → Prop where
  | nil (state : State) : Takes state [] state
  | cons {state next final : State} {item : Item} {rest : List Item}
      (taken : attempt state item = .ok (some next)) (later : Takes next rest final) :
      Takes state (item :: rest) final

end Run

variable {attempt : State → Item → Except Error (Option State)} {stuck : List Item → Error}
  {pending : List Item} {state final : State}

theorem Takes.append {middle : State} {first second : List Item}
    (taken : Takes attempt state first middle) (later : Takes attempt middle second final) :
    Takes attempt state (first ++ second) final := by
  induction taken with
  | nil => exact later
  | cons taken _ ih => exact .cons taken (ih later)

theorem Takes.last {items : List Item} {item : Item}
    (taken : Takes attempt state (items ++ [item]) final) :
    ∃ middle, attempt middle item = .ok (some final) := by
  induction items generalizing state with
  | nil =>
      cases taken with
      | cons one later =>
          cases later
          exact ⟨state, one⟩
  | cons other rest ih =>
      cases taken with
      | cons _ later => exact ih later

/-- What a round takes, and that it takes nothing only when it could not. -/
theorem visits_ok {round next : Round State Item} {items : List Item}
    (ran : items.foldlM (visit attempt) round = .ok next) :
    ∃ taken, Takes attempt round.state taken next.state ∧
      (taken ++ next.left).Perm (round.left ++ items) ∧
      next.progress = (round.progress || !taken.isEmpty) ∧
      (taken = [] → ∀ item ∈ items, attempt round.state item = .ok none) := by
  induction items generalizing round with
  | nil =>
      cases ran
      refine ⟨[], .nil _, ?_, (Bool.or_false _).symm, fun _ item member => nomatch member⟩
      rw [List.append_nil]
      exact .refl _
  | cons item rest ih =>
      rw [List.foldlM_cons] at ran
      obtain ⟨middle, visited, tail⟩ := bind_eq_ok.mp ran
      obtain ⟨taken, took, all, moved, none⟩ := ih tail
      unfold visit at visited
      split at visited
      case h_1 => cases visited
      case h_2 state one =>
        cases visited
        refine ⟨item :: taken, .cons one took, ?_, ?_, fun empty => nomatch empty⟩
        · exact (all.cons item).trans List.perm_middle.symm
        · rw [moved, Bool.true_or, List.isEmpty_cons, Bool.not_false, Bool.or_true]
      case h_3 waits =>
        cases visited
        refine ⟨taken, took, ?_, moved, ?_⟩
        · rwa [List.append_assoc] at all
        · intro empty other member
          rcases List.mem_cons.mp member with rfl | later
          · exact waits
          · exact none empty other later

theorem visits_error {round : Round State Item} {items : List Item} {reason : Error}
    (ran : items.foldlM (visit attempt) round = .error reason) :
    ∃ item ∈ items, ∃ middle, attempt middle item = .error reason := by
  induction items generalizing round with
  | nil => cases ran
  | cons item rest ih =>
      rw [List.foldlM_cons] at ran
      unfold visit at ran
      split at ran
      case h_1 failed =>
        cases ran
        exact ⟨item, List.mem_cons_self, _, failed⟩
      case h_2 | h_3 =>
        obtain ⟨other, member, middle, failed⟩ := ih ran
        exact ⟨other, List.mem_cons_of_mem _ member, middle, failed⟩

/-- Items that can be taken in the order of the list are taken in one round. -/
theorem visits_of_takes (taken : Takes attempt state pending final) (progress : Bool) :
    pending.foldlM (visit attempt) ⟨state, [], progress⟩ =
      .ok ⟨final, [], progress || !pending.isEmpty⟩ := by
  induction taken generalizing progress with
  | nil => exact congrArg _ (congrArg _ (Bool.or_false _).symm)
  | cons one _ ih =>
      rw [List.foldlM_cons, visit, one]
      refine (ih true).trans ?_
      rw [Bool.true_or, List.isEmpty_cons, Bool.not_false, Bool.or_true]

theorem left_lt {round : Round State Item} (ran : pending.foldlM (visit attempt) ⟨state, [], false⟩ =
    .ok round) (progress : round.progress = true) : round.left.length < pending.length := by
  obtain ⟨taken, _, all, moved, _⟩ := visits_ok ran
  have size := all.length_eq
  rw [List.length_append, List.nil_append] at size
  cases taken with
  | nil => cases moved.symm.trans progress
  | cons item rest =>
      rw [List.length_cons] at size
      omega

variable (attempt stuck) in
def resolve (pending : List Item) (state : State) : Except Error State :=
  match pending with
  | [] => .ok state
  | item :: rest =>
      match _ran : (item :: rest).foldlM (visit attempt) ⟨state, [], false⟩ with
      | .error reason => .error reason
      | .ok round =>
          if _moved : round.progress then resolve round.left round.state
          else .error (stuck round.left)
termination_by pending.length
decreasing_by exact left_lt _ran _moved

theorem resolve_cons {item : Item} {rest : List Item} :
    resolve attempt stuck (item :: rest) state =
      ((item :: rest).foldlM (visit attempt) ⟨state, [], false⟩).bind fun round =>
        if round.progress then resolve attempt stuck round.left round.state
        else .error (stuck round.left) := by
  rw [resolve]
  split
  case h_1 reason ran =>
    rw [ran]
    rfl
  case h_2 round ran =>
    rw [ran]
    rfl

theorem resolve_ok (ended : resolve attempt stuck pending state = .ok final) :
    ∃ order, order.Perm pending ∧ Takes attempt state order final := by
  induction size : pending.length using Nat.strongRecOn generalizing pending state with
  | ind n ih =>
      subst size
      cases pending with
      | nil =>
          rw [resolve] at ended
          cases ended
          exact ⟨[], .nil, .nil _⟩
      | cons item rest =>
          rw [resolve_cons] at ended
          obtain ⟨round, ran, tail⟩ := bind_eq_ok.mp ended
          split at tail
          case isFalse => cases tail
          case isTrue moved =>
            obtain ⟨taken, took, all, _⟩ := visits_ok ran
            obtain ⟨order, same, later⟩ := ih _ (left_lt ran moved) tail rfl
            exact ⟨taken ++ order, (same.append_left taken).trans all, took.append later⟩

/-- An error is one of an item's, or the items that are left wait for ever. -/
theorem resolve_error {reason : Error}
    (ended : resolve attempt stuck pending state = .error reason) :
    (∃ item ∈ pending, ∃ middle, attempt middle item = .error reason) ∨
      ∃ taken left middle, left ≠ [] ∧ (taken ++ left).Perm pending ∧
        Takes attempt state taken middle ∧ reason = stuck left ∧
        ∀ item ∈ left, attempt middle item = .ok none := by
  induction size : pending.length using Nat.strongRecOn generalizing pending state with
  | ind n ih =>
      subst size
      cases pending with
      | nil =>
          rw [resolve] at ended
          cases ended
      | cons item rest =>
          rw [resolve_cons] at ended
          cases ran : (item :: rest).foldlM (visit attempt) ⟨state, [], false⟩ with
          | error other =>
              rw [ran] at ended
              cases ended
              exact .inl (visits_error ran)
          | ok round =>
              rw [ran] at ended
              obtain ⟨taken, took, all, moved, none⟩ := visits_ok ran
              have ended : (if round.progress then resolve attempt stuck round.left round.state
                else .error (stuck round.left)) = .error reason := ended
              split at ended
              case isTrue progress =>
                rcases ih _ (left_lt ran progress) ended rfl with
                  ⟨other, member, failed⟩ | ⟨after, left, middle, waiting, same, later, rest⟩
                · left
                  exact ⟨other, all.subset (List.mem_append_right _ member), failed⟩
                · right
                  refine ⟨taken ++ after, left, middle, waiting, ?_, took.append later, rest⟩
                  rw [List.append_assoc]
                  exact (same.append_left taken).trans all
              case isFalse still =>
                cases ended
                have idle : taken = [] := by
                  cases taken with
                  | nil => rfl
                  | cons one more => exact absurd moved still
                subst idle
                cases took
                have same : round.left.Perm (item :: rest) := all
                refine .inr ⟨[], round.left, _, ?_, same, .nil _, rfl, ?_⟩
                · intro empty
                  rw [empty] at same
                  cases same.symm.eq_nil
                · exact fun other member => none rfl other (same.subset member)

theorem resolve_of_takes (taken : Takes attempt state pending final) :
    resolve attempt stuck pending state = .ok final := by
  cases pending with
  | nil =>
      cases taken
      rw [resolve]
  | cons item rest =>
      rw [resolve_cons, visits_of_takes taken]
      exact resolve.eq_1 ..

end Mirage.Rounds
