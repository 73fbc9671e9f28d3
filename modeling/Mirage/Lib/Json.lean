import Mathlib.Data.List.Basic
import Mirage.Lib.Rounding

/-!
JSON documents whose objects keep their fields in the order of insertion, as an
index map does: writing to a key that is there keeps its place, a new key goes
to the end, and a removed field is replaced by the last one. Floating point
numbers are kept as the bits of a double.
-/

namespace Mirage.Json

abbrev F64 := BitVec 64

namespace F64

def exponent (x : F64) : BitVec 11 := x.extractLsb' 52 11
def isFinite (x : F64) : Bool := x.exponent != 2047#11
def isZero (x : F64) : Bool := x.extractLsb' 0 63 == 0#63
def isPositive (x : F64) : Bool := !x.msb && !x.isZero

/-- The double closest to a natural number, ties to even. -/
def ofNat (n : Nat) : F64 :=
  if n = 0 then 0#64
  else
    let rounded := Rounding.round 53 n
    let log := rounded.log2
    BitVec.ofNat 64 ((log + 1023) * 2 ^ 52 + (rounded * 2 ^ 52 / 2 ^ log - 2 ^ 52))

def ofInt (n : Int) : F64 :=
  if n < 0 then ofNat n.natAbs ||| BitVec.ofNat 64 (2 ^ 63) else ofNat n.natAbs

def eqNum (x y : F64) : Bool := x == y || x.isZero && y.isZero

end F64

inductive Number where
  | posInt (n : Nat)
  | negInt (n : Int)
  | float (x : F64)
  deriving DecidableEq

namespace Number

def asU64 : Number → Option Nat
  | posInt n => some n
  | _ => none

def asF64 : Number → F64
  | posInt n => F64.ofNat n
  | negInt n => F64.ofInt n
  | float x => x

def same : Number → Number → Bool
  | posInt m, posInt n => m == n
  | negInt m, negInt n => m == n
  | float x, float y => x.eqNum y
  | _, _ => false

end Number

inductive Value where
  | null
  | bool (b : Bool)
  | number (n : Number)
  | string (s : String)
  | array (items : List Value)
  | object (fields : List (String × Value))

abbrev Fields := List (String × Value)

/-- The fields of an object whose map is written to. -/
def setField (key : String) (value : Value) : Fields → Fields
  | [] => [(key, value)]
  | field :: rest =>
      if field.1 = key then (key, value) :: rest else field :: setField key value rest

def removeField (key : String) : Fields → Fields
  | [] => []
  | field :: rest =>
      if field.1 = key then
        match rest.getLast? with
        | some last => last :: rest.dropLast
        | none => []
      else field :: removeField key rest

namespace Value

def asStr : Value → Option String
  | string s => some s
  | _ => none

def asArray : Value → Option (List Value)
  | array items => some items
  | _ => none

def asObject : Value → Option Fields
  | object fields => some fields
  | _ => none

def get (value : Value) (key : String) : Option Value :=
  value.asObject.bind fun fields => fields.lookup key

def getStr (value : Value) (key : String) : Option String := (value.get key).bind asStr

def getArray (value : Value) (key : String) : Option (List Value) := (value.get key).bind asArray

end Value

mutual

/-- Equality of documents: the order of an object's fields does not count. -/
def Value.same : Value → Value → Bool
  | .null, .null => true
  | .bool a, .bool b => a == b
  | .number m, .number n => m.same n
  | .string s, .string t => s == t
  | .array xs, .array ys => sameItems xs ys
  | .object fs, .object gs => fs.length == gs.length && fieldsIn fs gs
  | _, _ => false

def sameItems : List Value → List Value → Bool
  | [], [] => true
  | x :: xs, y :: ys => x.same y && sameItems xs ys
  | _, _ => false

def fieldsIn : Fields → Fields → Bool
  | [], _ => true
  | (key, value) :: rest, others =>
      (match others.lookup key with
        | some other => value.same other
        | none => false) && fieldsIn rest others

end

section Fields
variable {fields : Fields} {key wanted : String} {value : Value}

theorem lookup_setField_ne (differs : wanted ≠ key) :
    (setField key value fields).lookup wanted = fields.lookup wanted := by
  induction fields with
  | nil =>
      have other : (wanted == key) = false := beq_false_of_ne differs
      rw [setField, List.lookup_cons, other]
  | cons field rest ih =>
      unfold setField
      by_cases same : field.1 = key
      · have other : (wanted == key) = false := beq_false_of_ne differs
        have first : (wanted == field.1) = false := same ▸ other
        rw [if_pos same, List.lookup_cons, List.lookup_cons, other, first]
      · rw [if_neg same, List.lookup_cons, List.lookup_cons, ih]

def without (key : String) (fields : Fields) : Fields :=
  fields.filter fun field => field.1 ≠ key

theorem without_setField : without key (setField key value fields) = without key fields := by
  induction fields with
  | nil => simp [setField, without]
  | cons field rest ih =>
      unfold without at ih ⊢
      unfold setField
      by_cases same : field.1 = key
      · simp [same]
      · simp only [if_neg same]
        rw [List.filter_cons, List.filter_cons, ih]

/-- A field that is written in place looks the same to what sees no difference. -/
theorem map_setField_of_lookup {Seen : Type} {see : String × Value → Seen} {old : Value}
    (found : fields.lookup key = some old) (same : see (key, value) = see (key, old)) :
    (setField key value fields).map see = fields.map see := by
  induction fields with
  | nil => cases found
  | cons field rest ih =>
      unfold setField
      by_cases first : field.1 = key
      · have hit : (key == field.1) = true := by rw [first, beq_self_eq_true]
        rw [List.lookup_cons, hit] at found
        cases found
        rw [if_pos first, List.map_cons, List.map_cons, same, ← first]
      · have other : (key == field.1) = false := beq_false_of_ne (Ne.symm first)
        rw [List.lookup_cons, other] at found
        rw [if_neg first, List.map_cons, List.map_cons, ih found]

end Fields

end Mirage.Json
