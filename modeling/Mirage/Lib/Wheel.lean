import Mathlib.Algebra.BigOperators.Fin
import Mathlib.Algebra.BigOperators.Group.Finset.Piecewise
import Mathlib.Data.List.Induction

/-!
Amounts kept by epoch on a ring of `size` places. Epoch `e` is kept at place
`e % size`, and its first amount drops what an older epoch left there. While no
epoch comes after a later one, nothing that is still counted is dropped.
-/

namespace Mirage.Wheel
open Function

variable {Amount : Type} [AddCommMonoid Amount] {size : Nat} [NeZero size]

abbrev Places (size : Nat) (Amount : Type) := Fin size → Option (Nat × Amount)

def place (size : Nat) [NeZero size] (epoch : Nat) : Fin size := Fin.ofNat size epoch

/-- What stands at the place of `epoch` and belongs to it. -/
def kept (places : Places size Amount) (epoch : Nat) : Amount :=
  match places (place size epoch) with
  | some (other, amount) => if other = epoch then amount else 0
  | none => 0

def record (places : Places size Amount) (epoch : Nat) (amount : Amount) : Places size Amount :=
  update places (place size epoch) (some (epoch, kept places epoch + amount))

/-- The amount when it is of one of the last `size` epochs up to `now`. -/
def recent (size now epoch : Nat) (amount : Amount) : Amount :=
  if now < epoch + size then amount else 0

def counted (size now : Nat) (entry : Option (Nat × Amount)) : Amount :=
  entry.elim 0 fun entry => recent size now entry.1 entry.2

def total (places : Places size Amount) (now : Nat) : Amount :=
  ∑ i, counted size now (places i)

/-- Every entry stands at the place of its epoch, and none is after `latest`. -/
def Settled (places : Places size Amount) (latest : Nat) : Prop :=
  ∀ i epoch amount, places i = some (epoch, amount) → i = place size epoch ∧ epoch ≤ latest

def recordAll (places : Places size Amount) (records : List (Nat × Amount)) :
    Places size Amount :=
  records.foldl (fun places entry => record places entry.1 entry.2) places

omit [AddCommMonoid Amount] in
theorem settled_empty : Settled (fun _ => none : Places size Amount) 0 :=
  fun _ _ _ found => nomatch found

variable {places : Places size Amount} {latest epoch now : Nat} {amount : Amount}

omit [NeZero size] in
theorem recent_add (first second : Amount) :
    recent size now epoch (first + second) =
      recent size now epoch first + recent size now epoch second := by
  unfold recent
  split
  · rfl
  · exact (add_zero 0).symm

omit [NeZero size] in
theorem recent_zero : recent size now epoch (0 : Amount) = 0 := ite_self 0

/-- Two epochs of one place are a whole turn apart. -/
theorem turn_apart {first second : Nat} (same : place size first = place size second)
    (before : first < second) : first + size ≤ second := by
  have remainders : first % size = second % size := congrArg Fin.val same
  have multiple : size ∣ second - first :=
    Nat.dvd_of_mod_eq_zero (Nat.sub_mod_eq_zero_of_mod_eq remainders.symm)
  have far := Nat.le_of_dvd (Nat.sub_pos_of_lt before) multiple
  omega

theorem counted_kept (settled : Settled places epoch) (within : epoch ≤ now) :
    counted size now (places (place size epoch)) =
      recent size now epoch (kept places epoch) := by
  unfold kept
  cases found : places (place size epoch) with
  | none => exact recent_zero.symm
  | some entry =>
      obtain ⟨other, amount⟩ := entry
      obtain ⟨same, before⟩ := settled _ other amount found
      by_cases equal : other = epoch
      · subst equal
        dsimp only
        rw [if_pos rfl]
        rfl
      · have over_ := turn_apart same.symm (lt_of_le_of_ne before equal)
        have gone : ¬ now < other + size := by omega
        dsimp only
        rw [if_neg equal, recent_zero]
        exact if_neg gone

theorem total_record (settled : Settled places epoch) (within : epoch ≤ now) :
    total (record places epoch amount) now =
      total places now + recent size now epoch amount := by
  have here := Finset.mem_univ (place size epoch)
  have others : ∀ i ∈ Finset.univ.erase (place size epoch),
      counted size now (record places epoch amount i) = counted size now (places i) := by
    intro i member
    rw [record, update_of_ne (Finset.ne_of_mem_erase member)]
  unfold total
  rw [← Finset.add_sum_erase _ _ here, ← Finset.add_sum_erase _ (fun i => counted size now
    (places i)) here, Finset.sum_congr rfl others, counted_kept settled within, record,
    update_self, counted, Option.elim_some, recent_add, add_right_comm]

theorem Settled.record (settled : Settled places latest) (ordered : latest ≤ epoch) :
    Settled (record places epoch amount) epoch := by
  intro i other amount' found
  by_cases here : i = place size epoch
  · subst here
    rw [Wheel.record, update_self] at found
    cases found
    exact ⟨rfl, Nat.le_refl _⟩
  · rw [Wheel.record, update_of_ne here] at found
    obtain ⟨own, before⟩ := settled i other amount' found
    exact ⟨own, before.trans ordered⟩

theorem total_recordAll (settled : Settled places latest) {records : List (Nat × Amount)}
    (ordered : (latest :: records.map Prod.fst).Pairwise (· ≤ ·))
    (within : ∀ entry ∈ records, entry.1 ≤ now) :
    total (recordAll places records) now =
      total places now + (records.map fun entry => recent size now entry.1 entry.2).sum := by
  induction records generalizing places latest with
  | nil => exact (add_zero _).symm
  | cons entry rest ih =>
      obtain ⟨first, later⟩ := List.pairwise_cons.mp ordered
      have after : latest ≤ entry.1 := first entry.1 List.mem_cons_self
      have sound : Settled places entry.1 := fun i epoch amount found =>
        ⟨(settled i epoch amount found).1, (settled i epoch amount found).2.trans after⟩
      rw [List.map_cons, List.sum_cons, ← add_assoc,
        ← total_record sound (within entry List.mem_cons_self)]
      exact ih (settled.record after) later
        fun other member => within other (List.mem_cons_of_mem _ member)

/-- From an empty ring the total is the sum over the last `size` epochs. -/
theorem total_empty_recordAll {records : List (Nat × Amount)}
    (ordered : (records.map Prod.fst).Pairwise (· ≤ ·))
    (within : ∀ entry ∈ records, entry.1 ≤ now) :
    total (recordAll (fun _ => none : Places size Amount) records) now =
      (records.map fun entry => recent size now entry.1 entry.2).sum := by
  have nothing : total (fun _ => none : Places size Amount) now = 0 :=
    Finset.sum_eq_zero fun _ _ => rfl
  rw [total_recordAll settled_empty (List.pairwise_cons.mpr ⟨fun _ _ => Nat.zero_le _, ordered⟩)
    within, nothing, zero_add]

end Mirage.Wheel
