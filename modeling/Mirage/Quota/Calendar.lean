import Mathlib.Data.Nat.Basic

/-!
The calendar of proxy/user_limits.rs: days since 1970-01-01 and civil dates,
and the start of the billing period a time falls into.
-/

namespace Mirage.Quota

def daysFromCivil (year : Int) (m d : Nat) : Int :=
  let y := year - if m ≤ 2 then 1 else 0
  let era := (if 0 ≤ y then y else y - 399).tdiv 400
  let yoe := (y - era * 400).toNat
  let doy := (153 * (if 2 < m then m - 3 else m + 9) + 2) / 5 + d - 1
  let doe := yoe * 365 + yoe / 4 - yoe / 100 + doy
  era * 146097 + doe - 719468

def civilFromDays (days : Int) : Int × Nat × Nat :=
  let z := days + 719468
  let era := (if 0 ≤ z then z else z - 146096).tdiv 146097
  let doe := (z - era * 146097).toNat
  let yoe := (doe - doe / 1460 + doe / 36524 - doe / 146096) / 365
  let y := (yoe : Int) + era * 400
  let doy := doe - (365 * yoe + yoe / 4 - yoe / 100)
  let mp := (5 * doy + 2) / 153
  let d := doy - (153 * mp + 2) / 5 + 1
  let m := if mp < 10 then mp + 3 else mp - 9
  (y + if m ≤ 2 then 1 else 0, m, d)

/-- The start of the period that begins each month on `resetDay` and contains
`now`, both in seconds; never before 1970. -/
def computePeriodStart (now resetDay : Nat) : Nat :=
  let resetDay := min (max resetDay 1) 28
  let (y, m, d) := civilFromDays (now / 86400 : Nat)
  let (startY, startM) :=
    if resetDay ≤ d then (y, m) else if m = 1 then (y - 1, 12) else (y, m - 1)
  (daysFromCivil startY startM resetDay).toNat * 86400

example : computePeriodStart 1790436600 28 = 1787875200 := by decide

end Mirage.Quota
