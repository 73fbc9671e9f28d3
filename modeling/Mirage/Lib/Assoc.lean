import Mathlib.Data.List.Basic
import Mathlib.Data.List.Nodup

/-!
Association lists as hash maps: lookups and membership agree as long as no key
stands twice, and removing or appending entries keeps it so.
-/

namespace Mirage.Assoc

variable {Key Value : Type}

def UniqueKeys (entries : List (Key × Value)) : Prop := (entries.map Prod.fst).Nodup

variable {entries : List (Key × Value)} {key : Key} {value other : Value}

theorem UniqueKeys.same (unique : UniqueKeys entries) (first : (key, value) ∈ entries)
    (second : (key, other) ∈ entries) : value = other := by
  have injective := List.inj_on_of_nodup_map unique first second rfl
  exact (Prod.mk.inj injective).2

theorem UniqueKeys.filter (unique : UniqueKeys entries) (keep : Key × Value → Bool) :
    UniqueKeys (entries.filter keep) :=
  (List.filter_sublist.map Prod.fst).nodup unique

theorem UniqueKeys.append (unique : UniqueKeys entries) (fresh : ∀ value, (key, value) ∉ entries)
    (value : Value) : UniqueKeys (entries ++ [(key, value)]) := by
  have outside : key ∉ entries.map Prod.fst := by
    intro member
    obtain ⟨entry, inside, rfl⟩ := List.mem_map.mp member
    exact fresh entry.2 inside
  unfold UniqueKeys at *
  rw [List.map_append, List.map_singleton, ← List.concat_eq_append]
  exact unique.concat outside

variable [DecidableEq Key]

theorem mem_of_lookup (found : entries.lookup key = some value) : (key, value) ∈ entries := by
  obtain ⟨before, after, rfl, _⟩ := List.lookup_eq_some_iff.mp found
  exact List.mem_append_right _ List.mem_cons_self

theorem not_mem_of_lookup (missing : entries.lookup key = none) (value : Value) :
    (key, value) ∉ entries := by
  intro member
  have differs := List.lookup_eq_none_iff.mp missing (key, value) member
  simp only [bne_self_eq_false, Bool.false_eq_true] at differs

theorem lookup_filter_none (missing : entries.lookup key = none) (keep : Key × Value → Bool) :
    (entries.filter keep).lookup key = none := by
  cases kept : (entries.filter keep).lookup key with
  | none => rfl
  | some value =>
      exact absurd (List.mem_filter.mp (mem_of_lookup kept)).1 (not_mem_of_lookup missing value)

theorem UniqueKeys.lookup_of_mem (unique : UniqueKeys entries) (member : (key, value) ∈ entries) :
    entries.lookup key = some value := by
  cases found : entries.lookup key with
  | none => exact absurd member (not_mem_of_lookup found value)
  | some other => exact congrArg some (unique.same (mem_of_lookup found) member)

theorem UniqueKeys.lookup_filter (unique : UniqueKeys entries) (keep : Key × Value → Bool) :
    (entries.filter keep).lookup key =
      (entries.lookup key).filter fun value => keep (key, value) := by
  cases found : entries.lookup key with
  | none => exact lookup_filter_none found keep
  | some value =>
      have member := mem_of_lookup found
      cases wanted : keep (key, value) with
      | true =>
          rw [(unique.filter keep).lookup_of_mem (List.mem_filter.mpr ⟨member, wanted⟩),
            Option.filter, if_pos wanted]
      | false =>
          cases kept : (entries.filter keep).lookup key with
          | none => rw [Option.filter, wanted, if_neg Bool.false_ne_true]
          | some other =>
              obtain ⟨inside, stays⟩ := List.mem_filter.mp (mem_of_lookup kept)
              rw [unique.same inside member, wanted] at stays
              cases stays

section Updates
variable {wanted : Key}

def erase (entries : List (Key × Value)) (key : Key) : List (Key × Value) :=
  entries.filter fun entry => entry.1 ≠ key

def put (entries : List (Key × Value)) (key : Key) (value : Value) : List (Key × Value) :=
  erase entries key ++ [(key, value)]

theorem not_mem_erase (value : Value) : (key, value) ∉ erase entries key := by
  intro member
  have differs := (List.mem_filter.mp member).2
  rw [decide_eq_true_iff] at differs
  exact differs rfl

@[simp] theorem lookup_erase_self : (erase entries key).lookup key = none := by
  cases found : (erase entries key).lookup key with
  | none => rfl
  | some value => exact absurd (mem_of_lookup found) (not_mem_erase value)

theorem lookup_erase_ne (differs : wanted ≠ key) :
    (erase entries key).lookup wanted = entries.lookup wanted := by
  induction entries with
  | nil => rfl
  | cons entry rest ih =>
      obtain ⟨first, value⟩ := entry
      unfold erase at ih ⊢
      by_cases gone : first = key
      · have other : (wanted == first) = false := beq_false_of_ne (gone ▸ differs)
        rw [List.filter_cons_of_neg (by simp [gone]), ih]
        simp only [List.lookup_cons, other]
      · rw [List.filter_cons_of_pos (by simp [gone])]
        simp only [List.lookup_cons]
        rw [ih]

theorem lookup_append_one (wanted : Key) :
    (entries ++ [(key, value)]).lookup wanted =
      (entries.lookup wanted).or (if wanted = key then some value else none) := by
  rw [List.lookup_append]
  congr 1
  by_cases same : wanted = key
  · rw [if_pos same, same, List.lookup_cons_self]
  · have other : (wanted == key) = false := beq_false_of_ne same
    simp only [List.lookup_cons, List.lookup_nil, other, if_neg same]

@[simp] theorem lookup_put_self : (put entries key value).lookup key = some value := by
  rw [put, lookup_append_one, lookup_erase_self, if_pos rfl]
  rfl

theorem lookup_put_ne (differs : wanted ≠ key) :
    (put entries key value).lookup wanted = entries.lookup wanted := by
  rw [put, lookup_append_one, lookup_erase_ne differs, if_neg differs, Option.or_none]

theorem UniqueKeys.erase (unique : UniqueKeys entries) (key : Key) :
    UniqueKeys (erase entries key) :=
  unique.filter _

theorem UniqueKeys.put (unique : UniqueKeys entries) (key : Key) (value : Value) :
    UniqueKeys (put entries key value) :=
  (unique.erase key).append not_mem_erase value

theorem length_erase_le : (erase entries key).length ≤ entries.length := List.length_filter_le _ _

theorem length_put_le : (put entries key value).length ≤ entries.length + 1 := by
  rw [put, List.length_append]
  exact Nat.add_le_add_right length_erase_le 1

theorem length_erase_lt (found : entries.lookup key = some value) :
    (erase entries key).length < entries.length := by
  apply List.length_filter_lt_length_iff_exists.mpr
  exact ⟨(key, value), mem_of_lookup found, by simp⟩

theorem length_put_of_lookup (found : entries.lookup key = some other) :
    (put entries key value).length ≤ entries.length := by
  rw [put, List.length_append]
  exact length_erase_lt found

end Updates

end Mirage.Assoc
