import Mirage.Lib.Word

/-!
The protobuf wire format. A message is a list of fields; `Encoded` says which
bytes stand for it, without a choice of how numbers are padded. What a group
holds is left to the schema that knows it.
-/

namespace Mirage.Protobuf
open Word

/-- The bytes of a number, seven bits each from the least on. -/
inductive Digits : Bytes → Nat → Prop where
  | last {b : UInt8} (ends : b.toNat < 128) : Digits [b] b.toNat
  | more {b : UInt8} {rest : Bytes} {n : Nat} (goesOn : 128 ≤ b.toNat) (later : Digits rest n) :
      Digits (b :: rest) (b.toNat - 128 + 128 * n)

structure IsVarint (value : UInt64) (bytes : Bytes) : Prop where
  size : bytes.length ≤ 10
  digits : Digits bytes value.toNat

inductive WireType where
  | varint
  | fixed64
  | lenDelim
  | startGroup
  | endGroup
  | fixed32
  deriving DecidableEq

def WireType.code : WireType → Nat
  | .varint => 0
  | .fixed64 => 1
  | .lenDelim => 2
  | .startGroup => 3
  | .endGroup => 4
  | .fixed32 => 5

structure IsTag (number : UInt64) (kind : WireType) (tag : UInt64) (bytes : Bytes) : Prop where
  varint : IsVarint tag bytes
  parts : tag.toNat = 8 * number.toNat + kind.code
  positive : 0 < number.toNat
  bounded : number.toNat < 2 ^ 29

inductive Wire where
  | varint (number value : UInt64)
  | fixed64 (number : UInt64)
  | lenDelim (number : UInt64) (content : Bytes)
  | group (number : UInt64)
  | fixed32 (number : UInt64)
  deriving DecidableEq

inductive Encoded : List Wire → Bytes → Prop where
  | nil : Encoded [] []
  | varint {number value tag : UInt64} {head bytes rest : Bytes} {fields : List Wire}
      (tagged : IsTag number .varint tag head) (number_ : IsVarint value bytes)
      (later : Encoded fields rest) :
      Encoded (.varint number value :: fields) (head ++ (bytes ++ rest))
  | fixed64 {number tag : UInt64} {head bytes rest : Bytes} {fields : List Wire}
      (tagged : IsTag number .fixed64 tag head) (size : bytes.length = 8)
      (later : Encoded fields rest) :
      Encoded (.fixed64 number :: fields) (head ++ (bytes ++ rest))
  | lenDelim {number length tag : UInt64} {head bytes content rest : Bytes} {fields : List Wire}
      (tagged : IsTag number .lenDelim tag head) (sized : IsVarint length bytes)
      (size : content.length = length.toNat) (later : Encoded fields rest) :
      Encoded (.lenDelim number content :: fields) (head ++ (bytes ++ (content ++ rest)))
  | group {number tag tag' : UInt64} {head inside foot rest : Bytes} {inner fields : List Wire}
      (tagged : IsTag number .startGroup tag head) (within_ : Encoded inner inside)
      (closed : IsTag number .endGroup tag' foot) (later : Encoded fields rest) :
      Encoded (.group number :: fields) (head ++ (inside ++ (foot ++ rest)))
  | fixed32 {number tag : UInt64} {head bytes rest : Bytes} {fields : List Wire}
      (tagged : IsTag number .fixed32 tag head) (size : bytes.length = 4)
      (later : Encoded fields rest) :
      Encoded (.fixed32 number :: fields) (head ++ (bytes ++ rest))

def Wire.isGroup : Wire → Bool
  | .group _ => true
  | _ => false

/-- Of a wire type with its width given. -/
def Wire.isFixed : Wire → Bool
  | .fixed64 _ => true
  | .fixed32 _ => true
  | _ => false

section Numbers

theorem IsVarint.byte {b : UInt8} {value : UInt64} (same : value.toNat = b.toNat)
    (ends : b.toNat < 128) : IsVarint value [b] where
  size := Nat.le_of_ble_eq_true rfl
  digits := by
    rw [same]
    exact .last ends

theorem IsTag.byte {number : UInt64} {kind : WireType} {b : UInt8}
    (parts : b.toNat = 8 * number.toNat + kind.code) (positive : 0 < number.toNat)
    (ends : b.toNat < 128) : IsTag number kind b.toUInt64 [b] where
  varint := IsVarint.byte (UInt8.toNat_toUInt64 b) ends
  parts := (UInt8.toNat_toUInt64 b).trans parts
  positive := positive
  bounded := by omega

theorem IsTag.shift {number tag : UInt64} {kind : WireType} {bytes : Bytes}
    (tagged : IsTag number kind tag bytes) : tag >>> 3 = number := by
  have small : kind.code < 8 := by cases kind <;> decide
  apply UInt64.toNat_inj.mp
  rw [UInt64.toNat_shiftRight, Nat.shiftRight_eq_div_pow, tagged.parts]
  have three : (3 : UInt64).toNat % 64 = 3 := rfl
  rw [three]
  omega

theorem IsTag.low {number tag : UInt64} {kind : WireType} {bytes : Bytes}
    (tagged : IsTag number kind tag bytes) : (tag &&& 7).toNat = kind.code := by
  have small : kind.code < 8 := by cases kind <;> decide
  have low : tag.toNat &&& 7 = tag.toNat % 8 := Nat.and_two_pow_sub_one_eq_mod tag.toNat 3
  rw [UInt64.toNat_and]
  change tag.toNat &&& 7 = _
  rw [low, tagged.parts]
  omega

end Numbers

end Mirage.Protobuf
