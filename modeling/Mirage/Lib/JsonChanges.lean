import Mirage.Lib.JsonEq

/-!
Changes to the fields of an object, one after the other. A removal moves the last
field to the place of the one removed, so that an object may come back with its fields
in another order; it is left exactly as it was just where no change does anything.
-/

namespace Mirage.Json
open Assoc

inductive Change where
  | put (key : String) (value : Value)
  | drop (key : String)

namespace Change

def key : Change → String
  | put key _ | drop key => key

def value : Change → Option Value
  | put _ value => some value
  | drop _ => none

def apply : Change → Fields → Fields
  | put key value => setField key value
  | drop key => removeField key

/-- What it asks for is there already. -/
def Idle (fields : Fields) (change : Change) : Prop := fields.lookup change.key = change.value

end Change

def applied (changes : List Change) (fields : Fields) : Fields :=
  changes.foldl (fun fields change => change.apply fields) fields

section Fields
variable {fields : Fields} {key wanted : String} {value : Value}

theorem lookup_setField_self : (setField key value fields).lookup key = some value := by
  induction fields with
  | nil => exact List.lookup_cons_self
  | cons field rest ih =>
      unfold setField
      by_cases same : field.1 = key
      · rw [if_pos same, List.lookup_cons_self]
      · have other : (key == field.1) = false := beq_false_of_ne (Ne.symm same)
        rw [if_neg same, List.lookup_cons, other]
        exact ih

theorem setField_eq_self_iff : setField key value fields = fields ↔ fields.lookup key = some value := by
  constructor
  · intro same
    rw [← same, lookup_setField_self]
  · intro found
    induction fields with
    | nil => cases found
    | cons field rest ih =>
        unfold setField
        by_cases same : field.1 = key
        · have first : (key == field.1) = true := by rw [same, beq_self_eq_true]
          rw [List.lookup_cons, first] at found
          cases found
          rw [if_pos same, ← same]
        · have other : (key == field.1) = false := beq_false_of_ne (Ne.symm same)
          rw [List.lookup_cons, other] at found
          rw [if_neg same, ih found]

theorem removeField_of_missing (missing : fields.lookup key = none) :
    removeField key fields = fields := by
  induction fields with
  | nil => rfl
  | cons field rest ih =>
      unfold removeField
      by_cases same : field.1 = key
      · have first : (key == field.1) = true := by rw [same, beq_self_eq_true]
        rw [List.lookup_cons, first] at missing
        cases missing
      · have other : (key == field.1) = false := beq_false_of_ne (Ne.symm same)
        rw [List.lookup_cons, other] at missing
        rw [if_neg same, ih missing]

/-- A field that is written and removed again leaves what its removal does. -/
theorem removeField_setField : removeField key (setField key value fields) = removeField key fields := by
  induction fields with
  | nil =>
      unfold setField removeField
      rw [if_pos rfl]
      rfl
  | cons field rest ih =>
      unfold setField
      by_cases same : field.1 = key
      · rw [if_pos same, removeField, removeField, if_pos rfl, if_pos same]
      · rw [if_neg same, removeField, removeField, if_neg same, if_neg same, ih]

theorem keys_setField (fields : Fields) : (setField key value fields).map Prod.fst =
    if key ∈ fields.map Prod.fst then fields.map Prod.fst else fields.map Prod.fst ++ [key] := by
  induction fields with
  | nil => rfl
  | cons field rest ih =>
      unfold setField
      by_cases same : field.1 = key
      · rw [if_pos same, if_pos (by rw [List.map_cons, same]; exact List.mem_cons_self),
          List.map_cons, List.map_cons, same]
      · rw [if_neg same, List.map_cons, ih, List.map_cons]
        simp only [List.mem_cons, Ne.symm same, false_or]
        split
        · rfl
        · rfl

theorem setField_unique (unique : UniqueKeys fields) : UniqueKeys (setField key value fields) := by
  unfold UniqueKeys at *
  rw [keys_setField]
  split
  · exact unique
  · rename_i fresh
    rw [← List.concat_eq_append]
    exact unique.concat fresh

theorem removeField_perm (key : String) (unique : UniqueKeys fields) :
    (removeField key fields).Perm (without key fields) := by
  unfold without
  induction fields with
  | nil => exact .refl _
  | cons field rest ih =>
      have tail : UniqueKeys rest := (List.nodup_cons.mp unique).2
      unfold removeField
      by_cases same : field.1 = key
      · have others : (rest.filter fun field => decide (field.1 ≠ key)) = rest := by
          apply List.filter_eq_self.mpr
          intro other member
          apply decide_eq_true
          rintro rfl
          exact (List.nodup_cons.mp unique).1 (same ▸ List.mem_map_of_mem member)
        rw [if_pos same, List.filter_cons_of_neg (by simp [same]), others]
        cases last : rest.getLast? with
        | none =>
            rw [List.getLast?_eq_none_iff.mp last]
        | some entry =>
            obtain ⟨front, rfl⟩ := List.getLast?_eq_some_iff.mp last
            rw [List.dropLast_concat]
            exact (List.perm_append_singleton entry front).symm
      · rw [if_neg same, List.filter_cons_of_pos (by simp [same])]
        exact (ih tail).cons field

theorem removeField_unique (unique : UniqueKeys fields) : UniqueKeys (removeField key fields) := by
  have perm := (removeField_perm key unique).map Prod.fst
  exact perm.nodup_iff.mpr (unique.filter _)

theorem lookup_removeField (unique : UniqueKeys fields) :
    (removeField key fields).lookup wanted = if wanted = key then none else fields.lookup wanted := by
  have perm := removeField_perm key unique
  have there : ∀ value, (wanted, value) ∈ removeField key fields ↔
      (wanted, value) ∈ fields ∧ wanted ≠ key := by
    intro value
    rw [perm.mem_iff, without, List.mem_filter, decide_eq_true_iff]
  cases found : (removeField key fields).lookup wanted with
  | some value =>
      obtain ⟨inside, differs⟩ := (there value).mp (mem_of_lookup found)
      rw [if_neg differs, unique.lookup_of_mem inside]
  | none =>
      split
      · rfl
      · rename_i differs
        cases before : fields.lookup wanted with
        | none => rfl
        | some value =>
            exact absurd ((there value).mpr ⟨mem_of_lookup before, differs⟩)
              (not_mem_of_lookup found value)

end Fields

section Changes
variable {fields : Fields} {changes : List Change} {change : Change}

theorem Change.apply_unique (change : Change) (unique : UniqueKeys fields) : UniqueKeys (change.apply fields) := by
  cases change with
  | put key value => exact setField_unique unique
  | drop key => exact removeField_unique unique

theorem Change.lookup_apply (unique : UniqueKeys fields) (wanted : String) :
    (change.apply fields).lookup wanted =
      if wanted = change.key then change.value else fields.lookup wanted := by
  cases change with
  | put key value =>
      change (setField key value fields).lookup wanted = if wanted = key then some value else _
      split
      · rename_i same
        rw [same, lookup_setField_self]
      · rename_i differs
        exact lookup_setField_ne differs
  | drop key => exact lookup_removeField unique

theorem Change.apply_of_idle (idle : change.Idle fields) : change.apply fields = fields := by
  cases change with
  | put key value => exact setField_eq_self_iff.mpr idle
  | drop key => exact removeField_of_missing idle

theorem applied_unique (changes : List Change) (unique : UniqueKeys fields) : UniqueKeys (applied changes fields) := by
  induction changes generalizing fields with
  | nil => exact unique
  | cons change rest ih => exact ih (change.apply_unique unique)

theorem lookup_applied_of_missing (unique : UniqueKeys fields) {wanted : String}
    (missing : wanted ∉ changes.map Change.key) :
    (applied changes fields).lookup wanted = fields.lookup wanted := by
  induction changes generalizing fields with
  | nil => rfl
  | cons change rest ih =>
      obtain ⟨differs, later⟩ := not_or.mp (mt List.mem_cons.mpr missing)
      change (applied rest (change.apply fields)).lookup wanted = _
      rw [ih (change.apply_unique unique) later, Change.lookup_apply unique, if_neg differs]

/-- Changes to different fields leave the object as it is only if none does anything. -/
theorem applied_eq_self_iff (unique : UniqueKeys fields)
    (distinct : (changes.map Change.key).Nodup) :
    applied changes fields = fields ↔ ∀ change ∈ changes, change.Idle fields := by
  constructor
  · intro same change member
    obtain ⟨before, after, rfl⟩ := List.append_of_mem member
    have later : change.key ∉ after.map Change.key := by
      rw [List.map_append, List.map_cons] at distinct
      exact (List.nodup_cons.mp (List.nodup_append.mp distinct).2.1).1
    have split : applied (before ++ change :: after) fields =
        applied after (change.apply (applied before fields)) := by
      rw [applied, List.foldl_append]
      rfl
    have early := applied_unique before unique
    have written := lookup_applied_of_missing (change.apply_unique early) later
    rw [← split, same, Change.lookup_apply early, if_pos rfl] at written
    exact written
  · intro idle
    induction changes with
    | nil => rfl
    | cons change rest ih =>
        change applied rest (change.apply fields) = fields
        rw [Change.apply_of_idle (idle change List.mem_cons_self)]
        exact ih (List.nodup_cons.mp distinct).2 fun other member =>
          idle other (List.mem_cons_of_mem _ member)

end Changes

end Mirage.Json
