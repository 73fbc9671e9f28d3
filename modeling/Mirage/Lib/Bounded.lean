import Mathlib.Data.List.MinMax
import Mirage.Lib.Assoc

/-!
A map of bounded size. A new key that finds the map full first drops all that
has expired and, if that makes no room, the entry of least rank. Which of several
such entries goes depends on the order of the map and is a choice here.
-/

namespace Mirage.Bounded
open Assoc

variable {Key Value : Type} [DecidableEq Key]

/-- A key of least rank, of which the map may pick any. -/
structure Least (Key : Type) {Value : Type} (rank : Value → Nat) where
  pick : List (Key × Value) → Option Key
  least : ∀ {entries key}, pick entries = some key → ∃ value, (key, value) ∈ entries ∧
    ∀ entry ∈ entries, rank value ≤ rank entry.2
  found : ∀ {entries}, pick entries = none → entries = []

def firstLeast (Key : Type) (rank : Value → Nat) : Least Key rank where
  pick entries := (entries.argmin fun entry => rank entry.2).map Prod.fst
  least := by
    intro entries key picked
    obtain ⟨entry, chosen, rfl⟩ := Option.map_eq_some_iff.mp picked
    exact ⟨entry.2, List.argmin_mem chosen, fun other member =>
      List.le_of_mem_argmin (f := fun entry => rank entry.2) member chosen⟩
  found picked := List.argmin_eq_none.mp (Option.map_eq_none_iff.mp picked)

variable {rank : Value → Nat} (least : Least Key rank) (expired : Value → Bool) (capacity : Nat)

def sweep (entries : List (Key × Value)) : List (Key × Value) :=
  entries.filter fun entry => !expired entry.2

def makeRoom (entries : List (Key × Value)) : List (Key × Value) :=
  let kept := sweep expired entries
  if capacity ≤ kept.length then
    match least.pick kept with
    | some key => erase kept key
    | none => kept
  else kept

def insert (entries : List (Key × Value)) (key : Key) (value : Value) : List (Key × Value) :=
  put (if entries.lookup key = none ∧ capacity ≤ entries.length
    then makeRoom least expired capacity entries else entries) key value

/-- What stands in the map before and after `key` was set to `value`: it is
there, nothing else came in, and a valid entry is gone only when none had
expired, and then only one, of least rank. -/
structure Inserted (rank : Value → Nat) (expired : Value → Bool) (capacity : Nat)
    (before after : List (Key × Value)) (key : Key) (value : Value) : Prop where
  capped : after.length ≤ capacity
  unique : UniqueKeys after
  present : after.lookup key = some value
  sourced : ∀ other held, other ≠ key → after.lookup other = some held →
    before.lookup other = some held
  evicted : ∀ other held, other ≠ key → before.lookup other = some held →
    expired held = false → after.lookup other = none →
    (∀ entry ∈ before, expired entry.2 = false ∧ rank held ≤ rank entry.2) ∧
      ∀ second held', second ≠ key → before.lookup second = some held' →
        expired held' = false → after.lookup second = none → second = other

section Rooms
variable {least expired capacity} {entries : List (Key × Value)} {key other : Key}
  {value held : Value}

theorem lookup_sweep (unique : UniqueKeys entries) (there : entries.lookup other = some held)
    (valid : expired held = false) : (sweep expired entries).lookup other = some held := by
  unfold sweep
  rw [unique.lookup_filter, there, Option.filter, valid]
  rfl

theorem lookup_of_sweep (unique : UniqueKeys entries)
    (there : (sweep expired entries).lookup other = some held) :
    entries.lookup other = some held :=
  unique.lookup_of_mem (List.mem_filter.mp (mem_of_lookup there)).1

theorem makeRoom_cases (entries : List (Key × Value)) :
    makeRoom least expired capacity entries = sweep expired entries ∧
        ((sweep expired entries).length < capacity ∨ sweep expired entries = []) ∨
      ∃ key held, (key, held) ∈ sweep expired entries ∧ capacity ≤ (sweep expired entries).length ∧
        (∀ entry ∈ sweep expired entries, rank held ≤ rank entry.2) ∧
        makeRoom least expired capacity entries = erase (sweep expired entries) key := by
  unfold makeRoom
  dsimp only
  by_cases full : capacity ≤ (sweep expired entries).length
  · rw [if_pos full]
    cases picked : least.pick (sweep expired entries) with
    | none => exact .inl ⟨rfl, .inr (least.found picked)⟩
    | some key =>
        obtain ⟨held, member, all⟩ := least.least picked
        exact .inr ⟨key, held, member, full, all, rfl⟩
  · rw [if_neg full]
    exact .inl ⟨rfl, .inl (Nat.lt_of_not_le full)⟩

omit [DecidableEq Key] in
theorem length_sweep_le : (sweep expired entries).length ≤ entries.length :=
  List.length_filter_le _ _

omit [DecidableEq Key] in
/-- As many as before only if none has expired. -/
theorem valid_of_length_sweep (same : entries.length ≤ (sweep expired entries).length) :
    ∀ entry ∈ entries, expired entry.2 = false := by
  intro entry member
  have all := List.length_filter_eq_length_iff.mp (length_sweep_le.antisymm same) entry member
  simpa using all

theorem length_makeRoom (positive : 1 ≤ capacity) (capped : entries.length ≤ capacity) :
    (makeRoom least expired capacity entries).length < capacity := by
  obtain ⟨same, small | empty⟩ | ⟨key, held, member, _, _, same⟩ :=
    @makeRoom_cases _ _ _ _ least expired capacity entries
  · rwa [same]
  · rw [same, empty]
    exact positive
  · rw [same]
    have there : ∃ found, (sweep expired entries).lookup key = some found :=
      Option.ne_none_iff_exists'.mp fun missing => not_mem_of_lookup missing held member
    obtain ⟨found, there⟩ := there
    exact (length_erase_lt there).trans_le (length_sweep_le.trans capped)

theorem makeRoom_unique (unique : UniqueKeys entries) :
    UniqueKeys (makeRoom least expired capacity entries) := by
  have swept : UniqueKeys (sweep expired entries) := unique.filter _
  obtain ⟨same, _⟩ | ⟨key, held, _, _, _, same⟩ :=
    @makeRoom_cases _ _ _ _ least expired capacity entries
  · rwa [same]
  · rw [same]
    exact swept.erase key

theorem lookup_of_makeRoom (unique : UniqueKeys entries)
    (there : (makeRoom least expired capacity entries).lookup other = some held) :
    entries.lookup other = some held := by
  obtain ⟨same, _⟩ | ⟨key, _, _, _, _, same⟩ :=
    @makeRoom_cases _ _ _ _ least expired capacity entries
  · rw [same] at there
    exact lookup_of_sweep unique there
  · rw [same] at there
    by_cases gone : other = key
    · rw [gone, lookup_erase_self] at there
      cases there
    · rw [lookup_erase_ne gone] at there
      exact lookup_of_sweep unique there

/-- A valid entry gives way only to room that nothing expired makes, and it is
the one of least rank. -/
theorem evicted_makeRoom (unique : UniqueKeys entries) (capped : entries.length ≤ capacity)
    (there : entries.lookup other = some held) (valid : expired held = false)
    (gone : (makeRoom least expired capacity entries).lookup other = none) :
    (∀ entry ∈ entries, expired entry.2 = false ∧ rank held ≤ rank entry.2) ∧
      makeRoom least expired capacity entries = erase (sweep expired entries) other := by
  have swept : (sweep expired entries).lookup other = some held := lookup_sweep unique there valid
  obtain ⟨same, _⟩ | ⟨key, first, member, full, all, same⟩ :=
    @makeRoom_cases _ _ _ _ least expired capacity entries
  · rw [same, swept] at gone
    cases gone
  · have chosen : other = key := by
      by_contra differs
      rw [same, lookup_erase_ne differs, swept] at gone
      cases gone
    subst chosen
    have fresh := valid_of_length_sweep (capped.trans full)
    have own : first = held := (unique.filter _).same member (mem_of_lookup swept)
    refine ⟨fun entry inside => ⟨fresh entry inside, ?_⟩, same⟩
    have still : entry ∈ sweep expired entries :=
      List.mem_filter.mpr ⟨inside, by rw [fresh entry inside]; rfl⟩
    exact own ▸ all entry still

/-- Every insertion keeps the bound and drops no more than it must. -/
theorem inserted (positive : 1 ≤ capacity) (unique : UniqueKeys entries)
    (capped : entries.length ≤ capacity) (key : Key) (value : Value) :
    Inserted rank expired capacity entries (insert least expired capacity entries key value)
      key value := by
  unfold insert
  by_cases full : entries.lookup key = none ∧ capacity ≤ entries.length
  · rw [if_pos full]
    have room := @length_makeRoom _ _ _ _ least expired capacity _ positive capped
    refine ⟨length_put_le.trans room, (makeRoom_unique unique).put key value, lookup_put_self,
      ?_, ?_⟩
    · intro other held differs there
      rw [lookup_put_ne differs] at there
      exact lookup_of_makeRoom unique there
    · intro other held differs there valid gone
      rw [lookup_put_ne differs] at gone
      obtain ⟨all, same⟩ := evicted_makeRoom unique capped there valid gone
      refine ⟨all, ?_⟩
      intro second held' apart stood live lost
      rw [lookup_put_ne apart, same] at lost
      by_contra another
      rw [lookup_erase_ne another, lookup_sweep unique stood live] at lost
      cases lost
  · rw [if_neg full]
    refine ⟨?_, unique.put key value, lookup_put_self, ?_, ?_⟩
    · cases found : entries.lookup key with
      | some held => exact (length_put_of_lookup found).trans capped
      | none =>
          have room : entries.length < capacity := Nat.lt_of_not_le fun many => full ⟨found, many⟩
          exact length_put_le.trans room
    · intro other held differs there
      rwa [lookup_put_ne differs] at there
    · intro other held differs there _ gone
      rw [lookup_put_ne differs, there] at gone
      cases gone

end Rooms
end Mirage.Bounded
