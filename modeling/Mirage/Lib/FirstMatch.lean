import Mathlib.Data.List.Sort
import Mathlib.Order.Basic

/-!
First match over a numbered table. `First p i` says that `i` is the least
index with `p`. Searching any ascending list of candidate indices that holds
every index with `p` finds the same one, so a precomputed candidate set and a
walk over the whole table agree.
-/

namespace Mirage.FirstMatch

def First (p : Nat → Prop) (i : Nat) : Prop := p i ∧ ∀ k < i, ¬ p k

variable {p q : Nat → Prop}

theorem First.unique {i j : Nat} (left : First p i) (right : First p j) : i = j := by
  rcases Nat.lt_trichotomy i j with before | same | after
  · exact absurd left.1 (right.2 i before)
  · exact same
  · exact absurd right.1 (left.2 j after)

theorem First.congr (same : ∀ i, p i ↔ q i) {i : Nat} : First p i ↔ First q i := by
  simp only [First, same]

theorem exists_first {i : Nat} (hit : p i) : ∃ j ≤ i, First p j := by
  classical
  have found : ∃ i, p i := ⟨i, hit⟩
  exact ⟨Nat.find found, Nat.find_min' found hit, Nat.find_spec found,
    fun k before => Nat.find_min found before⟩

/-- The index chosen by a scan of the whole table. -/
def pick (p : Nat → Prop) [DecidablePred p] (size : Nat) : Option Nat :=
  (List.range size).find? fun i => p i

/-- A search of an ascending list returns the least candidate that passes. -/
theorem find_ascending {candidates : List Nat} {test : Nat → Bool}
    (ascending : candidates.Pairwise (· ≤ ·)) (i : Nat) :
    candidates.find? test = some i ↔
      First (fun k => k ∈ candidates ∧ test k = true) i := by
  induction candidates with
  | nil => simp [First]
  | cons head rest ih =>
      obtain ⟨least, tailAscending⟩ := List.pairwise_cons.mp ascending
      by_cases pass : test head = true
      · rw [List.find?_cons_of_pos pass]
        have firstHead : First (fun k => k ∈ head :: rest ∧ test k = true) head := by
          refine ⟨⟨List.mem_cons_self, pass⟩, ?_⟩
          rintro k before ⟨member, _⟩
          rcases List.mem_cons.mp member with rfl | later
          · exact Nat.lt_irrefl _ before
          · exact Nat.not_lt.mpr (least k later) before
        constructor
        · intro same
          cases same
          exact firstHead
        · intro first
          rw [firstHead.unique first]
      · rw [List.find?_cons_of_neg (by simpa using pass), ih tailAscending]
        apply First.congr
        intro k
        constructor
        · rintro ⟨member, test⟩
          exact ⟨List.mem_cons_of_mem _ member, test⟩
        · rintro ⟨member, test⟩
          rcases List.mem_cons.mp member with rfl | later
          · exact absurd test pass
          · exact ⟨later, test⟩

theorem pick_eq_some [DecidablePred p] {size i : Nat} :
    pick p size = some i ↔ First (fun k => k < size ∧ p k) i := by
  have ascending : (List.range size).Pairwise (· ≤ ·) :=
    List.pairwise_lt_range.imp Nat.le_of_lt
  rw [pick, find_ascending ascending]
  apply First.congr
  intro k
  simp

theorem pick_eq_none [DecidablePred p] {size : Nat} :
    pick p size = none ↔ ∀ k < size, ¬ p k := by
  simp [pick]

theorem find_eq_pick {Item Label : Type} (items : List Item) (test : Item → Bool)
    (label : Item → Label) (fallback : Label) :
    (items.find? test).map label =
      (pick (fun i => items[i]?.any test = true) items.length).map fun i =>
        (items[i]?.map label).getD fallback := by
  cases found : items.find? test with
  | none =>
      rw [pick_eq_none.mpr]
      · rfl
      · intro i inside
        have misses := List.find?_eq_none.mp found _ (List.getElem_mem inside)
        rwa [List.getElem?_eq_getElem inside]
  | some item =>
      obtain ⟨passes, i, inside, here, before⟩ := List.find?_eq_some_iff_getElem.mp found
      have there := List.getElem?_eq_some_iff.mpr ⟨inside, here⟩
      have first : First (fun k => k < items.length ∧ items[k]?.any test = true) i := by
        refine ⟨⟨inside, by rw [there]; exact passes⟩, ?_⟩
        rintro k earlier ⟨within, other⟩
        have misses := before k earlier
        rw [List.getElem?_eq_getElem within, Option.any_some] at other
        rw [other] at misses
        cases misses
      rw [pick_eq_some.mpr first]
      simp [there]

section Agreement
variable [DecidablePred p] [DecidablePred q] {Label : Type} (label : Nat → Label) {size : Nat}

/-- Where `i` is the first index on which either predicate holds and they
differ there, the other predicate has to reach the same label later on. -/
def Recovers (p q : Nat → Prop) (label : Nat → Label) (size i : Nat) : Prop :=
  p i → ¬ q i → ∃ j, First (fun k => k < size ∧ q k) j ∧ label j = label i

theorem recovers_of_agree {i : Nat} (inside : i < size)
    (fresh : ∀ k < i, ¬ p k ∧ ¬ q k)
    (agree : (pick p size).map label = (pick q size).map label) :
    Recovers p q label size i := by
  intro hit miss
  have chosen : pick p size = some i :=
    pick_eq_some.mpr ⟨⟨inside, hit⟩, fun k before other => (fresh k before).1 other.2⟩
  rw [chosen, Option.map_some] at agree
  obtain ⟨j, found, same⟩ := Option.map_eq_some_iff.mp agree.symm
  exact ⟨j, pick_eq_some.mp found, same⟩

/-- Two policies over one table pick the same label exactly when, at the first
index where one of them fires alone, the other one later fires on that label. -/
theorem picks_agree_iff :
    (pick p size).map label = (pick q size).map label ↔
      ∀ i < size, (∀ k < i, ¬ p k ∧ ¬ q k) →
        Recovers p q label size i ∧ Recovers q p label size i := by
  constructor
  · intro agree i inside fresh
    exact ⟨recovers_of_agree label inside fresh agree,
      recovers_of_agree label inside (fun k before => (fresh k before).symm) agree.symm⟩
  · intro recovers
    by_cases idle : ∀ k < size, ¬ (p k ∨ q k)
    · rw [pick_eq_none.mpr fun k inside hit => idle k inside (Or.inl hit),
        pick_eq_none.mpr fun k inside hit => idle k inside (Or.inr hit)]
    · obtain ⟨start, inside, hit⟩ : ∃ k < size, p k ∨ q k := by
        by_contra none
        exact idle fun k inside hit => none ⟨k, inside, hit⟩
      obtain ⟨i, _, ⟨inside, hit⟩, least⟩ :=
        exists_first (p := fun k => k < size ∧ (p k ∨ q k)) ⟨inside, hit⟩
      have fresh : ∀ k < i, ¬ p k ∧ ¬ q k := fun k before =>
        not_or.mp fun other => least k before ⟨Nat.lt_trans before inside, other⟩
      have firstP : p i → pick p size = some i := fun here =>
        pick_eq_some.mpr ⟨⟨inside, here⟩, fun k before other => (fresh k before).1 other.2⟩
      have firstQ : q i → pick q size = some i := fun here =>
        pick_eq_some.mpr ⟨⟨inside, here⟩, fun k before other => (fresh k before).2 other.2⟩
      obtain ⟨left, right⟩ := recovers i inside fresh
      by_cases pHere : p i
      · rw [firstP pHere]
        by_cases qHere : q i
        · rw [firstQ qHere]
        · obtain ⟨j, first, same⟩ := left pHere qHere
          rw [pick_eq_some.mpr first]
          simp [same]
      · have qHere := hit.resolve_left pHere
        obtain ⟨j, first, same⟩ := right qHere pHere
        rw [firstQ qHere, pick_eq_some.mpr first]
        simp [same]

end Agreement

end Mirage.FirstMatch
