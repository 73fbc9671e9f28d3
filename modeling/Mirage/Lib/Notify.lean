import Mathlib.Data.List.Perm.Basic
import Mathlib.Data.List.Basic

/-!
A notifier with one permit, and the crowd that waits on it. `notifyOne` wakes
one registered waiter or else stores the permit, which holds no more than one;
`firstPoll` takes the permit or registers. Which waiter is woken is up to the
caller of `notifyOne`. A member of the crowd is its place in the list.
-/

namespace Mirage.Notify

variable {Place : Type}

theorem countP_set {crowd : List Place} {id : Nat} {place : Place} (p : Place → Bool)
    (here : crowd[id]? = some place) (next : Place) :
    (crowd.set id next).countP p + (p place).toNat = crowd.countP p + (p next).toNat := by
  obtain ⟨inside, rfl⟩ := List.getElem?_eq_some_iff.mp here
  rw [List.countP_set inside]
  have counted : p crowd[id] = true → 0 < crowd.countP p := fun holds =>
    List.countP_pos_iff.mpr ⟨_, List.getElem_mem inside, holds⟩
  cases before : p crowd[id] <;> cases after : p next <;>
    simp only [before, Bool.toNat_true, Bool.toNat_false, Bool.false_eq_true, reduceIte,
      forall_const, IsEmpty.forall_iff] at counted ⊢ <;> omega

theorem countP_append_one (crowd : List Place) (p : Place → Bool) (new : Place) :
    (crowd ++ [new]).countP p = crowd.countP p + (p new).toNat := by
  rw [List.countP_append, List.countP_singleton]
  cases p new <;> rfl

theorem getElem?_set_cases {crowd : List Place} {id other : Nat} {place new : Place}
    (found : (crowd.set id new)[other]? = some place) :
    other = id ∧ place = new ∨ other ≠ id ∧ crowd[other]? = some place := by
  by_cases same : id = other
  · subst same
    rw [List.getElem?_set_self'] at found
    obtain ⟨_, _, rfl⟩ := Option.map_eq_some_iff.mp found
    exact .inl ⟨rfl, rfl⟩
  · rw [List.getElem?_set_ne same] at found
    exact .inr ⟨Ne.symm same, found⟩

theorem getElem?_append_one_cases {crowd : List Place} {id : Nat} {place new : Place}
    (found : (crowd ++ [new])[id]? = some place) :
    id = crowd.length ∧ place = new ∨ crowd[id]? = some place := by
  rcases Nat.lt_trichotomy id crowd.length with before | rfl | after
  · rw [List.getElem?_append_left before] at found
    exact .inr found
  · rw [List.getElem?_concat_length] at found
    exact .inl ⟨rfl, (Option.some.inj found).symm⟩
  · rw [List.getElem?_eq_none (by rw [List.length_append, List.length_singleton]; exact after)]
      at found
    cases found

theorem two_le_countP {crowd : List Place} {first second : Nat} {one two : Place}
    (p : Place → Bool) (distinct : first ≠ second) (here : crowd[first]? = some one)
    (there : crowd[second]? = some two) (counts : p one = true) (also : p two = true) :
    2 ≤ crowd.countP p := by
  obtain ⟨inside, rfl⟩ := List.getElem?_eq_some_iff.mp here
  rw [← (List.getElem_cons_eraseIdx_perm inside).countP_eq, List.countP_cons_of_pos counts]
  have kept : two ∈ crowd.eraseIdx first :=
    List.mem_eraseIdx_iff_getElem?.mpr ⟨second, distinct.symm, there⟩
  exact Nat.succ_le_succ (List.countP_pos_iff.mpr ⟨two, kept, also⟩)

variable [DecidableEq Place] (parked woken : Place)

/-- `heir` is the waiter to wake, and none only if nobody is registered. -/
def notifyOne (permit : Bool) (crowd : List Place) (heir : Option Nat) :
    Option (Bool × List Place) :=
  match heir with
  | some id => if crowd[id]? = some parked then some (permit, crowd.set id woken) else none
  | none => if parked ∈ crowd then none else some (true, crowd)

def firstPoll (permit : Bool) : Bool × Place := if permit then (false, woken) else (permit, parked)

variable {parked woken}

theorem notifyOne_cases {permit : Bool} {crowd : List Place} {heir : Option Nat}
    {next : Bool × List Place}
    (notified : notifyOne parked woken permit crowd heir = some next) :
    (∃ id, crowd[id]? = some parked ∧ next = (permit, crowd.set id woken)) ∨
      parked ∉ crowd ∧ next = (true, crowd) := by
  unfold notifyOne at notified
  split at notified
  · split at notified
    · rename_i id registered
      cases notified
      exact .inl ⟨id, registered, rfl⟩
    · cases notified
  · split at notified
    · cases notified
    · rename_i nobody
      cases notified
      exact .inr ⟨nobody, rfl⟩

end Mirage.Notify
