import Mathlib.Order.Bounds.Basic

/-!
The proleptic Gregorian calendar as a rule for the next date, and marks on a line
that what is current is looked up from. Neither speaks of day numbers: those are
an implementation's, to be compared with the rule.
-/

namespace Mirage.Gregorian

def Leap (year : Int) : Prop :=
  year % 4 = 0 ∧ (year % 100 ≠ 0 ∨ year % 400 = 0)

instance (year : Int) : Decidable (Leap year) := by unfold Leap; infer_instance

def monthLength (year : Int) (month : Nat) : Nat :=
  if month = 2 then if Leap year then 29 else 28
  else if month = 4 ∨ month = 6 ∨ month = 9 ∨ month = 11 then 30
  else 31

theorem monthLength_ge (year : Int) (month : Nat) : 28 ≤ monthLength year month := by
  unfold monthLength
  split_ifs <;> omega

@[ext] structure Date where
  year : Int
  month : Nat
  day : Nat
  inYear : 1 ≤ month ∧ month ≤ 12
  inMonth : 1 ≤ day ∧ day ≤ monthLength year month

namespace Date

def first (year : Int) (month : Nat) (inYear : 1 ≤ month ∧ month ≤ 12) : Date :=
  ⟨year, month, 1, inYear, Nat.le_refl 1,
    Nat.le_trans (by decide) (monthLength_ge year month)⟩

def next (date : Date) : Date :=
  if within : date.day < monthLength date.year date.month then
    { date with day := date.day + 1, inMonth := ⟨Nat.le_add_left 1 _, within⟩ }
  else if more : date.month < 12 then
    first date.year (date.month + 1) ⟨Nat.le_add_left 1 _, more⟩
  else first (date.year + 1) 1 (by decide)

def civil (date : Date) : Int × Nat × Nat := (date.year, date.month, date.day)

end Date

section Marks

variable {Time : Type} [LinearOrder Time] {marks : Set Time} {current : Time → Time}

/-- What is current is the latest mark that is not in the future. -/
def Tracks (marks : Set Time) (current : Time → Time) : Prop :=
  ∀ now, IsGreatest {mark | mark ∈ marks ∧ mark ≤ now} (current now)

theorem Tracks.monotone (tracks : Tracks marks current) : Monotone current := by
  intro early late before
  obtain ⟨marked, passed⟩ := (tracks early).1
  exact (tracks late).2 ⟨marked, passed.trans before⟩

theorem Tracks.idempotent (tracks : Tracks marks current) (now : Time) :
    current (current now) = current now := by
  have marked := (tracks now).1.1
  exact ((tracks (current now)).1.2).antisymm ((tracks (current now)).2 ⟨marked, le_refl _⟩)

theorem Tracks.constant (tracks : Tracks marks current) {early late : Time}
    (before : early ≤ late) (none : ∀ mark ∈ marks, early < mark → late < mark) :
    current early = current late := by
  refine (tracks.monotone before).antisymm ?_
  obtain ⟨marked, passed⟩ := (tracks late).1
  have old : current late ≤ early :=
    not_lt.mp fun new => (none _ marked new).not_ge passed
  exact (tracks early).2 ⟨marked, old⟩

end Marks

end Mirage.Gregorian
