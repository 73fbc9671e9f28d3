import Mathlib.Data.List.AList

/-!
Two maps that should be each other's inverse. `assign` moves a value to a new
key and forgets the key that had it; `put` only writes both maps. Written over
a log, the maps stay inverse exactly when each pair that is the last to name
its key is the last to name its value.
-/

namespace Mirage.TwoWay

abbrev Table (Key Value : Type) := AList fun _ : Key => Value

variable {A B : Type} [DecidableEq A] [DecidableEq B]

structure Maps (A B : Type) where
  forward : Table A B
  backward : Table B A

namespace Maps

def Inverse (maps : Maps A B) : Prop :=
  ∀ a b, maps.forward.lookup a = some b ↔ maps.backward.lookup b = some a

def put (maps : Maps A B) (a : A) (b : B) : Maps A B :=
  ⟨maps.forward.insert a b, maps.backward.insert b a⟩

/-- Gives `b` to `a`, and nothing to whoever had it. -/
def assign (maps : Maps A B) (a : A) (b : B) : Maps A B :=
  let freed :=
    match maps.backward.lookup b with
    | some old => if old = a then maps.forward else maps.forward.erase old
    | none => maps.forward
  ⟨freed.insert a b, maps.backward.insert b a⟩

def pairs (maps : Maps A B) : List (A × B) :=
  maps.forward.entries.map fun entry => (entry.1, entry.2)

def putAll (maps : Maps A B) (log : List (A × B)) : Maps A B :=
  log.foldl (fun maps pair => maps.put pair.1 pair.2) maps

end Maps

/-- In a log, the last pair to name its key is the last to name its value, and
the other way round. -/
def LastAgree : List (A × B) → Prop
  | [] => True
  | pair :: after =>
      ((∀ later ∈ after, later.1 ≠ pair.1) ↔ ∀ later ∈ after, later.2 ≠ pair.2) ∧ LastAgree after

instance LastAgree.decide : (log : List (A × B)) → Decidable (LastAgree log)
  | [] => .isTrue trivial
  | pair :: after =>
      have := LastAgree.decide after
      inferInstanceAs (Decidable (((∀ later ∈ after, later.1 ≠ pair.1) ↔
        ∀ later ∈ after, later.2 ≠ pair.2) ∧ LastAgree after))

/-- The value of the last pair that names the key. -/
def lastOf (log : List (A × B)) (a : A) : Option B :=
  (log.reverse.find? fun pair => pair.1 = a).map Prod.snd

variable {maps : Maps A B} {log : List (A × B)} {a : A} {b : B}

section Assign

theorem inverse_empty : (⟨∅, ∅⟩ : Maps A B).Inverse := by
  intro a b
  simp

theorem assign_forward (key : A) :
    (maps.assign a b).forward.lookup key =
      if key = a then some b
      else if maps.backward.lookup b = some key then none
      else maps.forward.lookup key := by
  by_cases same : key = a
  · subst same
    simp [Maps.assign]
  · rw [if_neg same, Maps.assign, AList.lookup_insert_ne same]
    cases had : maps.backward.lookup b with
    | none => simp
    | some old =>
        by_cases kept : old = a
        · simp [kept, Ne.symm same]
        · by_cases owner : old = key
          · subst owner
            simp [kept]
          · simp [kept, owner, AList.lookup_erase_ne (Ne.symm owner)]

theorem assign_backward (value : B) :
    (maps.assign a b).backward.lookup value =
      if value = b then some a else maps.backward.lookup value := by
  by_cases same : value = b
  · subst same
    simp [Maps.assign]
  · simp [Maps.assign, AList.lookup_insert_ne same, same]

theorem assign_inverse (inverse : maps.Inverse) (fresh : maps.forward.lookup a = none) :
    (maps.assign a b).Inverse := by
  intro key value
  rw [assign_forward, assign_backward]
  by_cases sameKey : key = a
  · by_cases sameValue : value = b
    · simp [sameKey, sameValue]
    · -- The key had no value before, so no value had it.
      have other : maps.backward.lookup value ≠ some a := by
        intro had
        rw [(inverse a value).mpr had] at fresh
        cases fresh
      simp [sameKey, sameValue, other, Ne.symm sameValue]
  · rw [if_neg sameKey]
    by_cases sameValue : value = b
    · subst sameValue
      have moved : ¬(if maps.backward.lookup value = some key then none
          else maps.forward.lookup key) = some value := by
        split
        · simp
        · rw [inverse key value]
          assumption
      simp [moved, Ne.symm sameKey]
    · rw [if_neg sameValue]
      by_cases owner : maps.backward.lookup b = some key
      · -- The owner of `b` loses its entry, and `b` was its only value.
        have : maps.backward.lookup value ≠ some key := by
          intro had
          have one := (inverse key value).mpr had
          rw [(inverse key b).mpr owner] at one
          exact sameValue (Option.some.inj one).symm
        simp [owner, this]
      · rw [if_neg owner]
        exact inverse key value

end Assign

section Log

omit [DecidableEq B] in
theorem lastOf_append (first second : List (A × B)) :
    lastOf (first ++ second) a = (lastOf second a).or (lastOf first a) := by
  simp only [lastOf, List.reverse_append, List.find?_append]
  cases second.reverse.find? fun pair => decide (pair.1 = a) <;> rfl

omit [DecidableEq B] in
theorem lastOf_eq_some :
    lastOf log a = some b ↔
      ∃ before after, log = before ++ (a, b) :: after ∧ ∀ later ∈ after, later.1 ≠ a := by
  rw [lastOf, Option.map_eq_some_iff]
  constructor
  · rintro ⟨⟨key, value⟩, found, rfl⟩
    obtain ⟨named, front, back, split, unseen⟩ := List.find?_eq_some_iff_append.mp found
    obtain rfl : key = a := by simpa using named
    refine ⟨back.reverse, front.reverse, ?_, ?_⟩
    · have := congrArg List.reverse split
      simpa using this
    · intro later member
      simpa using unseen later (by simpa using member)
  · rintro ⟨before, after, rfl, unseen⟩
    refine ⟨(a, b), List.find?_eq_some_iff_append.mpr ⟨by simp, after.reverse, before.reverse,
      by simp, ?_⟩, rfl⟩
    intro later member
    simpa using unseen later (by simpa using member)

omit [DecidableEq A] [DecidableEq B] in
theorem lastAgree_iff :
    LastAgree log ↔ ∀ before pair after, log = before ++ pair :: after →
      ((∀ later ∈ after, later.1 ≠ pair.1) ↔ ∀ later ∈ after, later.2 ≠ pair.2) := by
  induction log with
  | nil => simp [LastAgree]
  | cons first rest ih =>
      rw [LastAgree, ih]
      constructor
      · rintro ⟨head, tail⟩ before pair after split
        cases before with
        | nil =>
            cases split
            exact head
        | cons other before =>
            cases split
            exact tail before pair after rfl
      · intro all
        refine ⟨all [] first rest rfl, ?_⟩
        intro before pair after split
        exact all (first :: before) pair after (by rw [split]; rfl)

/-- The two readings of a log are inverse exactly when its last pairs agree. -/
theorem lastOf_inverse_iff :
    (∀ a b, lastOf log a = some b ↔ lastOf (log.map Prod.swap) b = some a) ↔ LastAgree log := by
  have backwards : ∀ a b, lastOf (log.map Prod.swap) b = some a ↔
      ∃ before after, log = before ++ (a, b) :: after ∧ ∀ later ∈ after, later.2 ≠ b := by
    intro a b
    rw [lastOf_eq_some]
    constructor
    · rintro ⟨before, after, split, unseen⟩
      refine ⟨before.map Prod.swap, after.map Prod.swap, ?_, ?_⟩
      · have := congrArg (List.map Prod.swap) split
        simpa using this
      · intro later member
        obtain ⟨swapped, found, rfl⟩ := List.mem_map.mp member
        exact unseen swapped found
    · rintro ⟨before, after, rfl, unseen⟩
      refine ⟨before.map Prod.swap, after.map Prod.swap, by simp, ?_⟩
      intro later member
      obtain ⟨swapped, found, rfl⟩ := List.mem_map.mp member
      exact unseen swapped found
  -- Two places of one pair in the log: the later one spoils the earlier one.
  have later : ∀ {before after front back : List (A × B)} {pair : A × B},
      before ++ pair :: after = front ++ pair :: back → pair ∉ after → pair ∉ back →
      after = back := by
    intro before after front back pair same unseen unseenToo
    rcases List.append_eq_append_iff.mp same with ⟨gap, _, tail⟩ | ⟨gap, _, tail⟩
    · cases gap with
      | nil => exact (List.cons.inj tail).2
      | cons other gap =>
          refine absurd ?_ unseen
          rw [(List.cons.inj tail).2]
          simp
    · cases gap with
      | nil => exact (List.cons.inj tail).2.symm
      | cons other gap =>
          refine absurd ?_ unseenToo
          rw [(List.cons.inj tail).2]
          simp
  rw [lastAgree_iff]
  constructor
  · rintro inverse before ⟨a, b⟩ after split
    constructor
    · intro unseen
      obtain ⟨front, back, splitToo, unseenToo⟩ :=
        (backwards a b).mp ((inverse a b).mp (lastOf_eq_some.mpr ⟨before, after, split, unseen⟩))
      obtain rfl : after = back := later (split.symm.trans splitToo)
        (fun member => unseen _ member rfl) (fun member => unseenToo _ member rfl)
      exact unseenToo
    · intro unseen
      obtain ⟨front, back, splitToo, unseenToo⟩ := lastOf_eq_some.mp
        ((inverse a b).mpr ((backwards a b).mpr ⟨before, after, split, unseen⟩))
      obtain rfl : after = back := later (split.symm.trans splitToo)
        (fun member => unseen _ member rfl) (fun member => unseenToo _ member rfl)
      exact unseenToo
  · intro agree a b
    rw [lastOf_eq_some, backwards]
    constructor
    · rintro ⟨before, after, split, unseen⟩
      exact ⟨before, after, split, (agree before (a, b) after split).mp unseen⟩
    · rintro ⟨before, after, split, unseen⟩
      exact ⟨before, after, split, (agree before (a, b) after split).mpr unseen⟩

end Log

section PutAll

omit [DecidableEq B] in
theorem lastOf_isSome (member : (a, b) ∈ log) : ∃ value, lastOf log a = some value := by
  cases found : log.reverse.find? fun pair => decide (pair.1 = a) with
  | none =>
      have := List.find?_eq_none.mp found (a, b) (by simpa using member)
      simp at this
  | some pair => exact ⟨pair.2, by rw [lastOf, found]; rfl⟩

omit [DecidableEq B] in
theorem mem_of_lastOf (last : lastOf log a = some b) : (a, b) ∈ log := by
  obtain ⟨before, after, rfl, -⟩ := lastOf_eq_some.mp last
  simp

theorem putAll_forward :
    (maps.putAll log).forward.lookup a = (lastOf log a).or (maps.forward.lookup a) := by
  induction log generalizing maps with
  | nil => rfl
  | cons pair rest ih =>
      rw [← List.singleton_append, lastOf_append]
      have first : (maps.put pair.1 pair.2).forward.lookup a =
          (lastOf [pair] a).or (maps.forward.lookup a) := by
        by_cases same : pair.1 = a
        · subst same
          simp [Maps.put, lastOf]
        · simp [Maps.put, lastOf, same, AList.lookup_insert_ne (Ne.symm same)]
      calc (maps.putAll ([pair] ++ rest)).forward.lookup a
          = ((maps.put pair.1 pair.2).putAll rest).forward.lookup a := rfl
        _ = (lastOf rest a).or ((lastOf [pair] a).or (maps.forward.lookup a)) := by rw [ih, first]
        _ = _ := (Option.or_assoc).symm

theorem putAll_backward :
    (maps.putAll log).backward.lookup b =
      (lastOf (log.map Prod.swap) b).or (maps.backward.lookup b) := by
  have mirrored : ∀ (maps : Maps A B) (log : List (A × B)),
      (Maps.putAll ⟨maps.backward, maps.forward⟩ (log.map Prod.swap)).forward =
        (maps.putAll log).backward := by
    intro maps log
    induction log generalizing maps with
    | nil => rfl
    | cons pair rest ih => exact ih (maps.put pair.1 pair.2)
  rw [← mirrored, putAll_forward]

omit [DecidableEq B] in
theorem mem_pairs : (a, b) ∈ maps.pairs ↔ maps.forward.lookup a = some b := by
  rw [← Option.mem_def, AList.mem_lookup_iff, Maps.pairs, List.mem_map]
  constructor
  · rintro ⟨entry, member, same⟩
    cases same
    exact member
  · intro member
    exact ⟨⟨a, b⟩, member, rfl⟩

omit [DecidableEq B] in
/-- In a log that gives its keys one value each, the last pair is any pair. -/
theorem lastOf_eq_of_mem_iff {value : Option B}
    (known : ∀ b, (a, b) ∈ log ↔ value = some b) : lastOf log a = value := by
  cases last : lastOf log a with
  | some b => exact ((known b).mp (mem_of_lastOf last)).symm
  | none =>
      cases value with
      | none => rfl
      | some b =>
          obtain ⟨other, found⟩ := lastOf_isSome ((known b).mpr rfl)
          rw [last] at found
          cases found

omit [DecidableEq B] in
theorem lastOf_pairs : lastOf maps.pairs a = maps.forward.lookup a :=
  lastOf_eq_of_mem_iff fun _ => mem_pairs

theorem mem_swapped_pairs (inverse : maps.Inverse) :
    (b, a) ∈ maps.pairs.map Prod.swap ↔ maps.backward.lookup b = some a := by
  rw [← inverse a b, ← mem_pairs, List.mem_map]
  constructor
  · rintro ⟨pair, member, same⟩
    cases same
    exact member
  · intro member
    exact ⟨(a, b), member, rfl⟩

theorem lastOf_swapped_pairs (inverse : maps.Inverse) :
    lastOf (maps.pairs.map Prod.swap) b = maps.backward.lookup b :=
  lastOf_eq_of_mem_iff fun _ => mem_swapped_pairs inverse

/-- The entries of inverse maps, written to empty ones in any order. -/
theorem putAll_of_perm (inverse : maps.Inverse) (ordered : log.Perm maps.pairs) :
    (∀ a, ((⟨∅, ∅⟩ : Maps A B).putAll log).forward.lookup a = maps.forward.lookup a) ∧
      ∀ b, ((⟨∅, ∅⟩ : Maps A B).putAll log).backward.lookup b = maps.backward.lookup b := by
  constructor
  · intro a
    rw [putAll_forward, AList.lookup_empty, Option.or_none]
    exact lastOf_eq_of_mem_iff fun b => ordered.mem_iff.trans mem_pairs
  · intro b
    rw [putAll_backward, AList.lookup_empty, Option.or_none]
    exact lastOf_eq_of_mem_iff fun a =>
      (ordered.map Prod.swap).mem_iff.trans (mem_swapped_pairs inverse)

/-- Writing a log over inverse maps keeps them inverse exactly when the last
pairs agree, those of the maps counted first. -/
theorem putAll_inverse_iff (inverse : maps.Inverse) :
    (maps.putAll log).Inverse ↔ LastAgree (maps.pairs ++ log) := by
  rw [← lastOf_inverse_iff, Maps.Inverse]
  simp only [putAll_forward, putAll_backward, List.map_append, lastOf_append, lastOf_pairs,
    lastOf_swapped_pairs inverse]

theorem Maps.Inverse.entries_le (inverse : maps.Inverse) :
    maps.forward.entries.length ≤ maps.backward.entries.length := by
  have keys : (maps.forward.entries.map Sigma.snd).Nodup := by
    apply List.Nodup.map_on
    · rintro ⟨a, b⟩ first ⟨other, _⟩ second rfl
      have one := (inverse a b).mp (AList.mem_lookup_iff.mpr first)
      have two := (inverse other b).mp (AList.mem_lookup_iff.mpr second)
      rw [one] at two
      cases two
      rfl
    · exact List.Nodup.of_map Sigma.fst maps.forward.keys_nodup
  have known : maps.forward.entries.map Sigma.snd ⊆ maps.backward.keys := by
    intro b member
    obtain ⟨⟨a, _⟩, found, rfl⟩ := List.mem_map.mp member
    exact AList.mem_keys.mp (AList.lookup_isSome.mp
      (by rw [(inverse a _).mp (AList.mem_lookup_iff.mpr found)]; rfl))
  have := (List.subperm_of_subset keys known).length_le
  simpa [AList.keys, List.keys] using this

end PutAll

end Mirage.TwoWay
