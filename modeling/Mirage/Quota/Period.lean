import Mathlib.Tactic.Ring
import Mirage.Lib.Gregorian
import Mirage.Quota.Calendar

/-!
The calendar against the Gregorian rule, and the billing period against the reset
midnights. A year runs from March here, as in the conversions, so that the day a
leap year adds is its last.
-/

namespace Mirage.Quota
open Gregorian

theorem floorDiv (value : Int) {size : Int} (positive : 0 < size) :
    (if 0 ≤ value then value else value - (size - 1)).tdiv size = value / size := by
  split
  · rename_i nonneg
    exact Int.tdiv_eq_ediv_of_nonneg nonneg
  · rename_i negative
    have flipped : (value - (size - 1)).tdiv size = -((size - 1 - value) / size) := by
      rw [show value - (size - 1) = -(size - 1 - value) by ring, Int.neg_tdiv,
        Int.tdiv_eq_ediv_of_nonneg (by omega)]
    rw [flipped]
    have turned := Int.mul_ediv_add_emod (size - 1 - value) size
    have low := Int.emod_nonneg (size - 1 - value) positive.ne'
    have high := Int.emod_lt_of_pos (size - 1 - value) positive
    refine ((Int.ediv_emod_unique positive (r := size - 1 - (size - 1 - value) % size)).mpr
      ⟨?_, by omega, by omega⟩).1.symm
    rw [Int.mul_neg]
    omega

/-- Whether the day a leap year adds falls into the `yoe`-th year of an era. -/
def yearLength (yoe : Nat) : Nat :=
  if (yoe + 1) % 4 = 0 ∧ ((yoe + 1) % 100 ≠ 0 ∨ (yoe + 1) % 400 = 0) then 366 else 365

def yearStart (yoe : Nat) : Nat := yoe * 365 + yoe / 4 - yoe / 100

/-- The year of an era is read back from a day of it. A century is at most a day
short of what 36524 counts, four years are at most a day short of 1461. -/
theorem yearOfEra (yoe doy : Nat) (inEra : yoe < 400) (inYear : doy < yearLength yoe) :
    let doe := yearStart yoe + doy
    doe < 146097 ∧ (doe - doe / 1460 + doe / 36524 - doe / 146096) / 365 = yoe := by
  intro doe
  obtain ⟨century, four, rest, hundred, twentyFive, small, rfl⟩ :
      ∃ century four rest, century < 4 ∧ four < 25 ∧ rest < 4 ∧
        yoe = 100 * century + 4 * four + rest :=
    ⟨yoe / 100, yoe % 100 / 4, yoe % 4, by omega, by omega, by omega, by omega⟩
  have started : yearStart (100 * century + 4 * four + rest) =
      36524 * century + 1461 * four + 365 * rest := by
    unfold yearStart
    omega
  have counted : doe = 36524 * century + 1461 * four + 365 * rest + doy := by
    rw [← started]
  have length : doy < 365 ∨ doy = 365 ∧ rest = 3 ∧ (four < 24 ∨ century = 3) := by
    unfold yearLength at inYear
    split at inYear <;> omega
  have whole : doe < 146097 := by omega
  -- the last day of the era is the only one both divisions count once too often
  have centuries : doe / 36524 = century + doe / 146096 := by
    by_cases last : doe = 146096
    · have : century = 3 := by omega
      omega
    · have none : doe / 146096 = 0 := by omega
      rw [none, Nat.div_eq_of_lt_le] <;> omega
  obtain ⟨extra, fours, bound⟩ :
      ∃ extra, doe / 1460 = 25 * century + four + extra ∧
        (extra = 0 ∧ 24 * century + four + 365 * rest + doy < 1460 ∨
          extra = 1 ∧ 1460 ≤ 24 * century + four + 365 * rest + doy) :=
    ⟨(24 * century + four + 365 * rest + doy) / 1460, by omega, by omega⟩
  exact ⟨whole, by omega⟩

/-- Every thirty days and a half, from March. -/
theorem monthOfYear (mp d : Nat) (month : mp < 12) (day : 1 ≤ d)
    (inMonth : (153 * mp + 2) / 5 + d ≤ (153 * (mp + 1) + 2) / 5) :
    (5 * ((153 * mp + 2) / 5 + d - 1) + 2) / 153 = mp := by
  omega

/-- The year a date is counted in: from March. -/
def marchYear (date : Date) : Int := date.year - if date.month ≤ 2 then 1 else 0

def marchMonth (date : Date) : Nat := if 2 < date.month then date.month - 3 else date.month + 9

theorem marchMonth_lt (date : Date) : marchMonth date < 12 := by
  have := date.inYear
  unfold marchMonth
  split <;> omega

theorem leap_march (year : Int) :
    Leap year ↔ ((((year - 1) % 400).toNat + 1) % 4 = 0 ∧
      ((((year - 1) % 400).toNat + 1) % 100 ≠ 0 ∨ (((year - 1) % 400).toNat + 1) % 400 = 0)) := by
  unfold Leap
  omega

/-- A month is as long as its place in the count from March says, but for the
last one, which ends with the year. -/
theorem monthLength_march (date : Date) :
    monthLength date.year date.month =
      if marchMonth date < 11 then
        (153 * (marchMonth date + 1) + 2) / 5 - (153 * marchMonth date + 2) / 5
      else yearLength (marchYear date % 400).toNat - 337 := by
  obtain ⟨year, month, day, ⟨low, high⟩, _⟩ := date
  by_cases february : month = 2
  · subst february
    by_cases leap : Leap year
    · have long : yearLength ((year - 1) % 400).toNat = 366 := if_pos ((leap_march year).mp leap)
      simp [monthLength, marchMonth, marchYear, leap, long]
    · have short : yearLength ((year - 1) % 400).toNat = 365 :=
        if_neg fun long => leap ((leap_march year).mpr long)
      simp [monthLength, marchMonth, marchYear, leap, short]
  · have others : month = 1 ∨ month = 3 ∨ month = 4 ∨ month = 5 ∨ month = 6 ∨ month = 7 ∨
        month = 8 ∨ month = 9 ∨ month = 10 ∨ month = 11 ∨ month = 12 := by omega
    rcases others with rfl | rfl | rfl | rfl | rfl | rfl | rfl | rfl | rfl | rfl | rfl <;>
      simp [monthLength, marchMonth]

/-- The day of its year a date is, counted from the first of March. -/
def dayOfYear (date : Date) : Nat := (153 * marchMonth date + 2) / 5 + date.day - 1

theorem daysFromCivil_eq (date : Date) :
    daysFromCivil date.year date.month date.day = marchYear date / 400 * 146097 +
      ((yearStart (marchYear date % 400).toNat + dayOfYear date : Nat) : Int) - 719468 := by
  have era := @floorDiv (marchYear date) 400 (by decide)
  have inEra : marchYear date % 400 = marchYear date - marchYear date / 400 * 400 := by omega
  change (let era := (if 0 ≤ marchYear date then marchYear date
        else marchYear date - (400 - 1)).tdiv 400
    let yoe := (marchYear date - era * 400).toNat
    era * 146097 + ((yearStart yoe + dayOfYear date : Nat) : Int) - 719468) = _
  rw [era, inEra]

theorem dayOfYear_lt (date : Date) :
    dayOfYear date < yearLength (marchYear date % 400).toNat := by
  have length := monthLength_march date
  have month := marchMonth_lt date
  have day := date.inMonth
  have short : 365 ≤ yearLength (marchYear date % 400).toNat := by
    unfold yearLength
    split <;> decide
  unfold dayOfYear
  split at length <;> omega

/-- What `civilFromDays` does with a day of an era. -/
def civilOfEra (era : Int) (doe : Nat) : Int × Nat × Nat :=
  let yoe := (doe - doe / 1460 + doe / 36524 - doe / 146096) / 365
  let doy := doe - yearStart yoe
  let mp := (5 * doy + 2) / 153
  let m := if mp < 10 then mp + 3 else mp - 9
  ((yoe : Int) + era * 400 + if m ≤ 2 then 1 else 0, m, doy - (153 * mp + 2) / 5 + 1)

theorem civilFromDays_eq (days : Int) : civilFromDays days =
    civilOfEra ((days + 719468) / 146097) ((days + 719468) % 146097).toNat := by
  have era := @floorDiv (days + 719468) 146097 (by decide)
  have inEra : (days + 719468) % 146097 =
      days + 719468 - (days + 719468) / 146097 * 146097 := by omega
  rw [inEra, ← era]
  simp only [civilFromDays, civilOfEra, yearStart, Int.reduceSub, Nat.mul_comm]

theorem civilOfEra_date (date : Date) :
    civilOfEra (marchYear date / 400)
      (yearStart (marchYear date % 400).toNat + dayOfYear date) = date.civil := by
  have year := (yearOfEra _ _ (by omega) (dayOfYear_lt date)).2
  have length := monthLength_march date
  have bound := dayOfYear_lt date
  have march := marchMonth_lt date
  have day := date.inMonth
  have long : yearLength (marchYear date % 400).toNat ≤ 366 := by
    unfold yearLength
    split <;> decide
  have month : (5 * dayOfYear date + 2) / 153 = marchMonth date := by
    refine monthOfYear _ _ march day.1 ?_
    split at length <;> omega
  have back : (if marchMonth date < 10 then marchMonth date + 3 else marchMonth date - 9) =
      date.month := by
    have := date.inYear
    unfold marchMonth
    split_ifs <;> omega
  simp only [civilOfEra, year, Nat.add_sub_cancel_left, month, back, Date.civil, Prod.mk.injEq,
    true_and]
  constructor
  · unfold marchYear
    split_ifs <;> omega
  · unfold dayOfYear
    omega

theorem civilFromDays_daysFromCivil (date : Date) :
    civilFromDays (daysFromCivil date.year date.month date.day) = date.civil := by
  have within := (yearOfEra _ _ (by omega) (dayOfYear_lt date)).1
  have number := daysFromCivil_eq date
  rw [civilFromDays_eq, ← civilOfEra_date]
  congr 1 <;> omega

theorem daysFromCivil_first (year : Int) (month day : Nat) (positive : 1 ≤ day) :
    daysFromCivil year month day = daysFromCivil year month 1 + (day - 1 : Nat) := by
  dsimp only [daysFromCivil]
  omega

/-- The day number a year that runs from March begins with. -/
def marchStart (year : Int) : Int :=
  year / 400 * 146097 + (yearStart (year % 400).toNat : Int) - 719468

theorem marchStart_succ (year : Int) :
    marchStart (year + 1) = marchStart year + yearLength (year % 400).toNat := by
  have nonneg := Int.emod_nonneg year (b := 400) (by decide)
  have small := Int.emod_lt_of_pos year (b := 400) (by decide)
  unfold marchStart yearStart
  by_cases ends : year % 400 = 399
  · have era : (year + 1) / 400 = year / 400 + 1 := by omega
    have starts : (year + 1) % 400 = 0 := by omega
    rw [ends, era, starts]
    simp [yearLength]
    omega
  · have era : (year + 1) / 400 = year / 400 := by omega
    have later : (year + 1) % 400 = year % 400 + 1 := by omega
    rw [era, later]
    unfold yearLength
    split <;> omega

theorem daysFromCivil_march (year : Int) (month : Nat) (inYear : 1 ≤ month ∧ month ≤ 12) :
    daysFromCivil year month 1 =
      if month ≤ 2 then marchStart (year - 1) + ((153 * (month + 9) + 2) / 5 : Nat)
      else marchStart year + ((153 * (month - 3) + 2) / 5 : Nat) := by
  have number := daysFromCivil_eq (Date.first year month inYear)
  simp only [Date.first, marchYear, dayOfYear, marchMonth] at number
  rw [number]
  unfold marchStart
  by_cases early : month ≤ 2
  · have late : ¬2 < month := by omega
    simp only [early, late, ↓reduceIte]
    omega
  · have late : 2 < month := by omega
    simp only [early, late, ↓reduceIte, Int.sub_zero]
    omega

theorem daysFromCivil_month (date : Date) :
    daysFromCivil date.year date.month 1 + monthLength date.year date.month =
      if date.month < 12 then daysFromCivil date.year (date.month + 1) 1
      else daysFromCivil (date.year + 1) 1 1 := by
  have length := monthLength_march date
  obtain ⟨low, high⟩ := date.inYear
  unfold marchMonth marchYear at length
  generalize date.year = year at length ⊢
  generalize date.month = month at low high length ⊢
  have here := daysFromCivil_march year month ⟨low, high⟩
  by_cases more : month < 12
  · have there := daysFromCivil_march year (month + 1) ⟨by omega, more⟩
    rw [if_pos more, here, there]
    by_cases february : month = 2
    · subst february
      have rolled := marchStart_succ (year - 1)
      have long : 365 ≤ yearLength ((year - 1) % 400).toNat := by
        unfold yearLength
        split <;> decide
      simp only [Int.sub_add_cancel] at rolled
      simp at length ⊢
      omega
    · split_ifs at length ⊢ <;> omega
  · have there := daysFromCivil_march (year + 1) 1 (by decide)
    have december : month = 12 := by omega
    subst december
    rw [if_neg more, here, there]
    simp at length ⊢
    omega

theorem daysFromCivil_next (date : Date) :
    daysFromCivil date.next.year date.next.month date.next.day =
      daysFromCivil date.year date.month date.day + 1 := by
  have day := date.inMonth
  have first := daysFromCivil_first date.year date.month date.day day.1
  have month := daysFromCivil_month date
  unfold Date.next
  split
  · have more := daysFromCivil_first date.year date.month (date.day + 1) (by omega)
    change daysFromCivil date.year date.month (date.day + 1) = _
    omega
  · split
    · rename_i last more
      rw [if_pos more] at month
      change daysFromCivil date.year (date.month + 1) 1 = _
      omega
    · rename_i last more
      rw [if_neg more] at month
      change daysFromCivil (date.year + 1) 1 1 = _
      omega

/-- Every day number stands for a date: an era begins on the first of March, and
the induction counts on from there. -/
theorem exists_date (days : Int) :
    ∃ date : Date, daysFromCivil date.year date.month date.day = days := by
  obtain ⟨era, counted, rfl⟩ : ∃ (era : Int) (counted : Nat),
      days = era * 146097 - 719468 + counted :=
    ⟨(days + 719468) / 146097, ((days + 719468) % 146097).toNat, by omega⟩
  induction counted with
  | zero =>
      refine ⟨Date.first (400 * era) 3 (by decide), ?_⟩
      have starts := daysFromCivil_march (400 * era) 3 (by decide)
      change daysFromCivil (400 * era) 3 1 = _
      have whole : 400 * era / 400 = era := by omega
      have none : 400 * era % 400 = 0 := by omega
      simp [starts, marchStart, whole, none, yearStart]
  | succ counted ih =>
      obtain ⟨date, number⟩ := ih
      refine ⟨date.next, ?_⟩
      rw [daysFromCivil_next, number]
      omega

/-- The two conversions undo each other, and count on by the calendar's rule. -/
theorem civilFromDays_calendar (days : Int) :
    ∃ date : Date, civilFromDays days = date.civil ∧
      daysFromCivil date.year date.month date.day = days ∧
      civilFromDays (days + 1) = date.next.civil := by
  obtain ⟨date, number⟩ := exists_date days
  refine ⟨date, ?_, number, ?_⟩
  · rw [← number, civilFromDays_daysFromCivil]
  · rw [← number, ← daysFromCivil_next, civilFromDays_daysFromCivil]

theorem civilFromDays_month {year : Int} {month : Nat} (inYear : 1 ≤ month ∧ month ≤ 12)
    {days : Int} (after : daysFromCivil year month 1 ≤ days)
    (before : days < daysFromCivil year month 1 + monthLength year month) :
    civilFromDays days =
      (year, month, (days - daysFromCivil year month 1).toNat + 1) := by
  let date : Date := ⟨year, month, (days - daysFromCivil year month 1).toNat + 1, inYear,
    by omega, by omega⟩
  have number : daysFromCivil date.year date.month date.day = days := by
    rw [daysFromCivil_first _ _ _ date.inMonth.1]
    simp only [date]
    omega
  rw [← number, civilFromDays_daysFromCivil]
  rw [number]
  rfl

/-- A midnight of a reset day, or of the month's last day where the month is shorter. -/
def IsResetMidnight (resetDay time : Nat) : Prop :=
  ∃ days : Nat, time = days * 86400 ∧ (civilFromDays days).2.2 =
    min resetDay (monthLength (civilFromDays days).1 (civilFromDays days).2.1)

def startMonth (date : Date) (resetDay : Nat) : Int × Nat :=
  if resetDay ≤ date.day then (date.year, date.month)
  else if date.month = 1 then (date.year - 1, 12) else (date.year, date.month - 1)

def periodDay (date : Date) (resetDay : Nat) : Int :=
  daysFromCivil (startMonth date resetDay).1 (startMonth date resetDay).2 resetDay

theorem computePeriodStart_eq {now resetDay : Nat} {date : Date}
    (number : daysFromCivil date.year date.month date.day = (now / 86400 : Nat)) :
    computePeriodStart now resetDay =
      (periodDay date (min (max resetDay 1) 28)).toNat * 86400 := by
  have civil := civilFromDays_daysFromCivil date
  rw [number] at civil
  simp only [computePeriodStart, civil, Date.civil, periodDay, startMonth]

theorem startMonth_reached {date : Date} {resetDay : Nat} (reached : resetDay ≤ date.day) :
    startMonth date resetDay = (date.year, date.month) :=
  if_pos reached

theorem startMonth_before {date : Date} {resetDay : Nat} (early : ¬resetDay ≤ date.day) :
    (1 ≤ (startMonth date resetDay).2 ∧ (startMonth date resetDay).2 ≤ 12) ∧
      daysFromCivil (startMonth date resetDay).1 (startMonth date resetDay).2 1 +
        monthLength (startMonth date resetDay).1 (startMonth date resetDay).2 =
      daysFromCivil date.year date.month 1 := by
  obtain ⟨low, high⟩ := date.inYear
  unfold startMonth
  rw [if_neg early]
  split
  · rename_i january
    have length := daysFromCivil_month (Date.first (date.year - 1) 12 (by decide))
    refine ⟨⟨(by decide : 1 ≤ 12), Nat.le_refl 12⟩, ?_⟩
    simpa [Date.first, january] using length
  · rename_i later
    have inYear : 1 ≤ date.month - 1 ∧ date.month - 1 ≤ 12 := by omega
    have length := daysFromCivil_month (Date.first date.year (date.month - 1) inYear)
    have back : date.month - 1 + 1 = date.month := by omega
    have more : date.month - 1 < 12 := by omega
    refine ⟨inYear, ?_⟩
    simpa [Date.first, back, more] using length

theorem dayOfMonth (year : Int) {month : Nat} (inYear : 1 ≤ month ∧ month ≤ 12)
    {days : Int} (after : daysFromCivil year month 1 ≤ days)
    (before : days < daysFromCivil year month 1 + monthLength year month) :
    (civilFromDays days).2.2 = (days - daysFromCivil year month 1).toNat + 1 := by
  rw [civilFromDays_month inYear after before]

/-- No reset day lies between the day a period starts with and the day it is
looked up on: the days between are of the same month, or of two neighbours. -/
theorem periodDay_spec (date : Date) {resetDay : Nat} (low : 1 ≤ resetDay) (high : resetDay ≤ 28) :
    periodDay date resetDay ≤ daysFromCivil date.year date.month date.day ∧
    (civilFromDays (periodDay date resetDay)).2.2 = resetDay ∧
    ∀ days, periodDay date resetDay < days → days ≤ daysFromCivil date.year date.month date.day →
      (civilFromDays days).2.2 ≠ resetDay := by
  have day := date.inMonth
  have today := daysFromCivil_first date.year date.month date.day day.1
  have long := monthLength_ge date.year date.month
  by_cases reached : resetDay ≤ date.day
  · have start := daysFromCivil_first date.year date.month resetDay low
    rw [periodDay, startMonth_reached reached]
    dsimp only
    refine ⟨by omega, ?_, ?_⟩
    · rw [dayOfMonth date.year date.inYear] <;> omega
    · intro days after before
      rw [dayOfMonth date.year date.inYear] <;> omega
  · obtain ⟨inYear, length⟩ := startMonth_before reached
    have start := daysFromCivil_first (startMonth date resetDay).1 (startMonth date resetDay).2
      resetDay low
    have enough := monthLength_ge (startMonth date resetDay).1 (startMonth date resetDay).2
    unfold periodDay
    refine ⟨by omega, ?_, ?_⟩
    · rw [dayOfMonth (startMonth date resetDay).1 inYear] <;> omega
    · intro days after before
      by_cases sameMonth : days < daysFromCivil date.year date.month 1
      · rw [dayOfMonth (startMonth date resetDay).1 inYear] <;> omega
      · rw [dayOfMonth date.year date.inYear] <;> omega

/-- What a user's period starts are looked up among. The clock of a device may
start before the first of them. -/
def resetMidnights (resetDay : Nat) : Set Nat :=
  {time | time = 0 ∨ IsResetMidnight (min (max resetDay 1) 28) time}

theorem isResetMidnight_iff {resetDay : Nat} (high : resetDay ≤ 28) (time : Nat) :
    IsResetMidnight resetDay time ↔
      ∃ days : Nat, time = days * 86400 ∧ (civilFromDays days).2.2 = resetDay := by
  refine exists_congr fun days => and_congr_right fun _ => ?_
  rw [min_eq_left (high.trans (monthLength_ge _ _))]

theorem computePeriodStart_tracks (resetDay : Nat) :
    Tracks (resetMidnights resetDay) (computePeriodStart · resetDay) := by
  intro now
  obtain ⟨date, number⟩ := exists_date ((now / 86400 : Nat) : Int)
  have low : 1 ≤ min (max resetDay 1) 28 := by omega
  have high : min (max resetDay 1) 28 ≤ 28 := by omega
  obtain ⟨passed, reset, none⟩ := periodDay_spec date low high
  rw [number] at passed none
  dsimp only
  rw [computePeriodStart_eq number]
  refine ⟨⟨?_, by omega⟩, ?_⟩
  · by_cases negative : periodDay date (min (max resetDay 1) 28) < 0
    · exact .inl (by omega)
    · refine .inr ((isResetMidnight_iff high _).mpr ⟨_, rfl, ?_⟩)
      rwa [Int.toNat_of_nonneg (by omega)]
  · rintro mark ⟨rfl | midnight, early⟩
    · exact Nat.zero_le _
    · obtain ⟨days, rfl, marked⟩ := (isResetMidnight_iff high _).mp midnight
      have before : ¬periodDay date (min (max resetDay 1) 28) < days :=
        fun after => none days after (by omega) marked
      omega

/-- The conversions are the calendar, each the other's inverse, and a period
starts with the latest reset midnight: so it changes only there. -/
theorem billing_period :
    (civilFromDays 0 = (1970, 1, 1) ∧
      (∀ days, ∃ date : Date, civilFromDays days = date.civil ∧
        daysFromCivil date.year date.month date.day = days ∧
        civilFromDays (days + 1) = date.next.civil) ∧
      ∀ date : Date, civilFromDays (daysFromCivil date.year date.month date.day) = date.civil) ∧
    ∀ resetDay,
      (∀ now, IsGreatest {time | (time = 0 ∨ IsResetMidnight (min (max resetDay 1) 28) time) ∧
        time ≤ now} (computePeriodStart now resetDay)) ∧
      Monotone (computePeriodStart · resetDay) ∧
      (∀ now, computePeriodStart (computePeriodStart now resetDay) resetDay =
        computePeriodStart now resetDay) ∧
      ∀ early late, early ≤ late →
        (∀ time, IsResetMidnight (min (max resetDay 1) 28) time → early < time → late < time) →
        computePeriodStart early resetDay = computePeriodStart late resetDay := by
  refine ⟨⟨by decide, civilFromDays_calendar, civilFromDays_daysFromCivil⟩, fun resetDay => ?_⟩
  have tracks := computePeriodStart_tracks resetDay
  refine ⟨tracks, tracks.monotone, tracks.idempotent, fun early late before none => ?_⟩
  refine tracks.constant before fun mark marked after => ?_
  rcases marked with rfl | midnight
  · exact absurd after (Nat.not_lt_zero _)
  · exact none mark midnight after

/-- On the 31st of January a period of the 31st is still the one of the 28th. -/
theorem last_day_not_reached : ¬∀ resetDay now, IsGreatest
    {time | IsResetMidnight resetDay time ∧ time ≤ now} (computePeriodStart now resetDay) := by
  intro latest
  obtain ⟨⟨_, started⟩, greatest⟩ := latest 31 (30 * 86400)
  have midnight : IsResetMidnight 31 (30 * 86400) := ⟨30, rfl, by decide⟩
  have late := greatest ⟨midnight, Nat.le_refl _⟩
  exact absurd late (by decide)

end Mirage.Quota
