import Mathlib.Data.List.Basic
import Mathlib.Data.List.ReduceOption
import Mathlib.Logic.Function.Basic

/-!
Numbered places, filled from number one on. A row lists them; `withGap` is a row
with one free place more, which moves to the front when each item in turn is
moved to the next number.
-/

namespace Mirage.Places

variable {Item : Type} {places : Nat → Option Item} {row : List (Option Item)}

/-- `row` is what stands at the numbers from one on. -/
def Holds (places : Nat → Option Item) (row : List (Option Item)) : Prop :=
  places 0 = none ∧ ∀ i, places (i + 1) = (row[i]?).join

/-- All that stands at a number up to `top`, from the highest number on. -/
def listing (places : Nat → Option Item) (top : Nat) : List Item :=
  ((List.range (top + 1)).filterMap places).reverse

def withGap (row : List (Option Item)) (n : Nat) : List (Option Item) :=
  row.take n ++ none :: row.drop n

/-- What stands at number `n` goes to the next number. -/
def moveUp (places : Nat → Option Item) (n : Nat) : Nat → Option Item :=
  match places n with
  | none => places
  | some item => Function.update (Function.update places n none) (n + 1) (some item)

@[simp] theorem withGap_zero (row : List (Option Item)) : withGap row 0 = none :: row := rfl

@[simp] theorem withGap_cons (first : Option Item) (row : List (Option Item)) (n : Nat) :
    withGap (first :: row) (n + 1) = first :: withGap row n := rfl

theorem withGap_getElem? (row : List (Option Item)) (n i : Nat) :
    ((withGap row n)[i]?).join =
      if i < n then (row[i]?).join else if i = n then none else (row[i - 1]?).join := by
  induction n generalizing row i with
  | zero => cases i <;> simp
  | succ n ih =>
      cases row with
      | nil => cases i <;> simp [withGap]
      | cons first row =>
          cases i with
          | zero => simp
          | succ i =>
              rw [withGap_cons, List.getElem?_cons_succ, ih]
              cases i with
              | zero => cases n <;> simp
              | succ i => simp

theorem reduceOption_withGap (row : List (Option Item)) (n : Nat) :
    (withGap row n).reduceOption = row.reduceOption := by
  rw [withGap, List.reduceOption_append, List.reduceOption_cons_of_none,
    ← List.reduceOption_append, List.take_append_drop]

theorem length_withGap (row : List (Option Item)) (n : Nat) :
    (withGap row n).length = row.length + 1 := by
  rw [withGap, List.length_append, List.length_cons, List.length_take, List.length_drop]
  omega

theorem filterMap_range (row : List (Option Item)) {n : Nat} (within : row.length ≤ n) :
    (List.range n).filterMap (fun i => (row[i]?).join) = row.reduceOption := by
  induction row generalizing n with
  | nil => simp
  | cons first row ih =>
      cases n with
      | zero => simp at within
      | succ n =>
          have rest := ih (Nat.le_of_succ_le_succ within)
          rw [List.range_succ_eq_map, List.filterMap_cons, List.filterMap_map]
          cases first with
          | none => simpa [Function.comp_def] using rest
          | some item => simpa [Function.comp_def] using rest

theorem listing_of_holds (holds : Holds places row) {top : Nat} (within : row.length ≤ top) :
    listing places top = row.reduceOption.reverse := by
  have later : ∀ i, places (i + 1) = (row[i]?).join := holds.2
  rw [listing, List.range_succ_eq_map, List.filterMap_cons_none holds.1, List.filterMap_map,
    ← filterMap_range row within]
  exact congrArg (fun f => ((List.range top).filterMap f).reverse) (funext later)

theorem Holds.beyond (holds : Holds places row) {n : Nat} (after : row.length < n) :
    places n = none := by
  cases n with
  | zero => exact holds.1
  | succ n => rw [holds.2, List.getElem?_eq_none (by omega)]; rfl

theorem Holds.moveUp {n : Nat} (holds : Holds places (withGap row (n + 1))) :
    Holds (moveUp places (n + 1)) (withGap row n) := by
  have here : places (n + 1) = (row[n]?).join := by
    rw [holds.2, withGap_getElem?, if_pos (Nat.lt_succ_self n)]
  have next : places (n + 1 + 1) = none := by
    rw [holds.2, withGap_getElem?, if_neg (Nat.lt_irrefl _), if_pos rfl]
  have others : ∀ i, i ≠ n → i ≠ n + 1 → places (i + 1) = ((withGap row n)[i]?).join := by
    intro i away beyond
    rw [holds.2, withGap_getElem?, withGap_getElem?]
    rcases Nat.lt_or_ge i n with before | after
    · rw [if_pos (Nat.lt_succ_of_lt before), if_pos before]
    · have past : ¬i < n + 1 := by omega
      rw [if_neg past, if_neg beyond, if_neg (Nat.not_lt.mpr after), if_neg away]
  have gap : ((withGap row n)[n]?).join = none := by
    rw [withGap_getElem?, if_neg (Nat.lt_irrefl n), if_pos rfl]
  have moved : ((withGap row n)[n + 1]?).join = (row[n]?).join := by
    rw [withGap_getElem?, if_neg (by omega), if_neg (by omega)]
    rfl
  rw [Places.moveUp]
  cases item : places (n + 1) with
  | none =>
      dsimp only
      refine ⟨holds.1, ?_⟩
      intro i
      by_cases same : i = n
      · rw [same, item, gap]
      · by_cases after : i = n + 1
        · rw [after, next, moved, ← here, item]
        · exact others i same after
  | some found =>
      dsimp only
      refine ⟨?_, ?_⟩
      · rw [Function.update_of_ne (by omega), Function.update_of_ne (by omega)]
        exact holds.1
      · intro i
        by_cases after : i = n + 1
        · rw [after, Function.update_self, moved, ← here, item]
        · rw [Function.update_of_ne (by omega)]
          by_cases same : i = n
          · rw [same, Function.update_self, gap]
          · rw [Function.update_of_ne (by omega)]
            exact others i same after

theorem Holds.clear (holds : Holds places row) {top : Nat} (within : row.length ≤ top + 1) :
    Holds (Function.update places (top + 1) none) (withGap (row.take top) top) := by
  refine ⟨?_, ?_⟩
  · rw [Function.update_of_ne (by omega)]
    exact holds.1
  · intro i
    rw [withGap_getElem?]
    by_cases last : i = top
    · rw [last, Function.update_self, if_neg (Nat.lt_irrefl top), if_pos rfl]
    · rw [Function.update_of_ne (by omega), holds.2]
      rcases Nat.lt_or_ge i top with before | after
      · rw [if_pos before, List.getElem?_take_of_lt before]
      · rw [if_neg (Nat.not_lt.mpr after), if_neg last, List.getElem?_eq_none (by omega),
          List.getElem?_eq_none (by rw [List.length_take]; omega)]

theorem Holds.put (holds : Holds places (none :: row)) (item : Item) :
    Holds (Function.update places 1 (some item)) (some item :: row) := by
  refine ⟨?_, ?_⟩
  · rw [Function.update_of_ne (by omega)]
    exact holds.1
  · intro i
    cases i with
    | zero => rw [Function.update_self]; rfl
    | succ i =>
        rw [Function.update_of_ne (by omega), holds.2]
        rfl

end Mirage.Places
