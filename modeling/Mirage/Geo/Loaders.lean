import Mirage.Geo.Dat
import Mirage.Lib.Protobuf
import Mirage.Lib.Text
import Mirage.Router.Engine

/-!
The loaders of router/geo.rs on the content of a .dat file. Beside them stands
the schema of the files with what a conforming decoder reads; a file is anything
that encodes it.
-/

namespace Mirage.Geo
open Protobuf Text Word
open Router (IpNet)

/-- `str::to_uppercase` over the upper-case mappings of characters. -/
def toUppercase (upper : Char → List Char) (s : String) : String :=
  String.ofList (s.toList.flatMap upper)

section Loaders
variable (upper : Char → List Char)

def DomainType.kind : DomainType → Router.DomainType
  | .plain => .plain
  | .regex => .regex
  | .rootDomain => .rootDomain
  | .full => .full

def GeoDomain.decoded (domain : GeoDomain) : Router.GeoDomain :=
  ⟨domain.dtype.kind, fromUtf8Lossy domain.value⟩

/-- `Ipv4Net::new` and `Ipv6Net::new`, by the length of the address. -/
def newNet (octets : Bytes) (length : Nat) : Option IpNet :=
  if octets.length = 4 then
    if valid : length ≤ 32 then some (.v4 ⟨BitVec.ofNat 32 (ofBe octets), length, valid⟩)
    else none
  else if octets.length = 16 then
    if valid : length ≤ 128 then some (.v6 ⟨BitVec.ofNat 128 (ofBe octets), length, valid⟩)
    else none
  else none

def domainOf (entry : Bytes) : Option Router.GeoDomain :=
  (parseDomainMsg entry).toOption.join.map GeoDomain.decoded

def netOf (entry : Bytes) : Option IpNet :=
  (parseCidrMsg entry).toOption.join.bind fun net => newNet net.1 net.2.toNat

def nameFrom (code : String) : Field → String
  | .lenDelim 1 inner => toUppercase upper (fromUtf8Lossy inner)
  | _ => code

def entryFrom : Field → Option Bytes
  | .lenDelim 2 inner => some inner
  | _ => none

/-- The code of a category and its entries, which are parsed later because fields
come in any order. -/
def readCategory (content : Bytes) : Except String (String × List Bytes) :=
  match fields content with
  | (_, some reason) => .error reason
  | (found, none) => .ok (found.foldl (nameFrom upper) "", found.filterMap entryFrom)

def requestedFrom (targetUpper : String) (failed : Option String) :
    List Field → Except String (List Bytes)
  | [] =>
      match failed with
      | some reason => .error reason
      | none => .ok []
  | field :: rest =>
      match field with
      | .lenDelim 1 content =>
          match readCategory upper content with
          | .error reason => .error reason
          | .ok (code, entries) =>
              if code = targetUpper then .ok entries else requestedFrom targetUpper failed rest
      | _ => requestedFrom targetUpper failed rest

def requested (data : Bytes) (targetCode : String) : Except String (List Bytes) :=
  requestedFrom upper (toUppercase upper targetCode) (fields data).2 (fields data).1

def loadGeositeDat (data : Bytes) (targetCode : String) : Except String (List Router.GeoDomain) :=
  (requested upper data targetCode).map (·.filterMap domainOf)

def loadGeoipDat (data : Bytes) (targetCode : String) : Except String (List IpNet) :=
  (requested upper data targetCode).map (·.filterMap netOf)

def loadAllFrom (failed : Option String) :
    List Field → List (String × List IpNet) → Except String (List (String × List IpNet))
  | [], out =>
      match failed with
      | some reason => .error reason
      | none => .ok out
  | field :: rest, out =>
      match field with
      | .lenDelim 1 content =>
          match readCategory upper content with
          | .error reason => .error reason
          | .ok (code, entries) =>
              let cidrs := entries.filterMap netOf
              if code = "" ∨ cidrs = [] then loadAllFrom failed rest out
              else loadAllFrom failed rest (out ++ [(code, cidrs)])
      | _ => loadAllFrom failed rest out

def loadAllGeoip (data : Bytes) : Except String (List (String × List IpNet)) :=
  loadAllFrom upper (fields data).2 (fields data).1 []

end Loaders

section Schema
variable {Entry Item : Type}

inductive DomainField where
  | dtype (kind : Int32)
  | text (value : String)
  | other (field : Wire) (unknown : ∀ number, field ≠ .varint 1 number)
      (unknown' : ∀ content, field ≠ .lenDelim 2 content)

inductive CidrField where
  | ip (octets : Bytes)
  | prefixLen (value : UInt32)
  | other (field : Wire) (unknown : ∀ content, field ≠ .lenDelim 1 content)
      (unknown' : ∀ number, field ≠ .varint 2 number)

/-- Numbers below zero are extended to 64 bits. -/
def DomainField.wire : DomainField → Wire
  | .dtype kind => .varint 1 kind.toInt64.toUInt64
  | .text value => .lenDelim 2 (utf8 value)
  | .other field _ _ => field

def CidrField.wire : CidrField → Wire
  | .ip octets => .lenDelim 1 octets
  | .prefixLen value => .varint 2 value.toUInt64
  | .other field _ _ => field

inductive CategoryField (Entry : Type) where
  | code (name : String)
  | entry (fields : List Entry)
  | other (field : Wire) (unknown : ∀ content, field ≠ .lenDelim 1 content)
      (unknown' : ∀ content, field ≠ .lenDelim 2 content)

inductive FileField (Entry : Type) where
  | category (fields : List (CategoryField Entry))
  | other (field : Wire) (unknown : ∀ content, field ≠ .lenDelim 1 content)

inductive CategoryField.Stands (wire : Entry → Wire) : CategoryField Entry → Wire → Prop where
  | code (name : String) : Stands wire (.code name) (.lenDelim 1 (utf8 name))
  | entry {fields : List Entry} {content : Bytes} (encoded : Encoded (fields.map wire) content) :
      Stands wire (.entry fields) (.lenDelim 2 content)
  | other {field : Wire} {unknown : ∀ content, field ≠ .lenDelim 1 content}
      {unknown' : ∀ content, field ≠ .lenDelim 2 content} :
      Stands wire (.other field unknown unknown') field

inductive FileField.Stands (wire : Entry → Wire) : FileField Entry → Wire → Prop where
  | category {fields : List (CategoryField Entry)} {wires : List Wire} {content : Bytes}
      (encoded : Encoded wires content)
      (stand : List.Forall₂ (CategoryField.Stands wire) fields wires) :
      Stands wire (.category fields) (.lenDelim 1 content)
  | other {field : Wire} {unknown : ∀ content, field ≠ .lenDelim 1 content} :
      Stands wire (.other field unknown) field

def Encodes (wire : Entry → Wire) (file : List (FileField Entry)) (data : Bytes) : Prop :=
  ∃ wires, Encoded wires data ∧ List.Forall₂ (FileField.Stands wire) file wires

/-- Of a field that is given more than once the last counts. -/
def DomainField.apply (domain : Router.GeoDomain) : DomainField → Router.GeoDomain
  | .dtype kind =>
      { domain with
        dtype :=
          if kind = 1 then .regex
          else if kind = 2 then .rootDomain
          else if kind = 3 then .full
          else .plain }
  | .text value => { domain with value := value }
  | .other _ _ _ => domain

def readDomain (fields : List DomainField) : Option Router.GeoDomain :=
  let domain := fields.foldl DomainField.apply ⟨.plain, ""⟩
  if domain.value = "" then none else some domain

def CidrField.apply (net : Bytes × UInt32) : CidrField → Bytes × UInt32
  | .ip octets => (octets, net.2)
  | .prefixLen value => (net.1, value)
  | .other _ _ _ => net

def readCidr (fields : List CidrField) : Option IpNet :=
  let net := fields.foldl CidrField.apply ([], 0)
  newNet net.1 net.2.toNat

def CategoryField.named (code : String) : CategoryField Entry → String
  | .code name => name
  | _ => code

def CategoryField.entry? : CategoryField Entry → Option (List Entry)
  | .entry fields => some fields
  | _ => none

def FileField.category? : FileField Entry → Option (List (CategoryField Entry))
  | .category fields => some fields
  | _ => none

def codeOf (fields : List (CategoryField Entry)) : String :=
  fields.foldl CategoryField.named ""

def entriesOf (fields : List (CategoryField Entry)) : List (List Entry) :=
  fields.filterMap CategoryField.entry?

def categoriesOf (file : List (FileField Entry)) : List (List (CategoryField Entry)) :=
  file.filterMap FileField.category?

def conforming (upper : Char → List Char) (read : List Entry → Option Item)
    (file : List (FileField Entry)) (targetCode : String) : List Item :=
  match (categoriesOf file).find? (fun fields =>
      toUppercase upper (codeOf fields) = toUppercase upper targetCode) with
  | some fields => (entriesOf fields).filterMap read
  | none => []

end Schema

section Reading
variable {Entry Item : Type} (wire : Entry → Wire)

/-- A reader of categories stops at a group. -/
def goesOn : Wire → Bool := fun field => !field.isGroup

/-- One of entries stops at a field of fixed width as well. -/
def goesOnInside : Wire → Bool := fun field => !field.isGroup && !field.isFixed

def CategoryField.goesOn : CategoryField Entry → Bool
  | .other field _ _ => Geo.goesOn field
  | _ => true

def FileField.goesOn : FileField Entry → Bool
  | .other field _ => Geo.goesOn field
  | _ => true

def CategoryField.cut : CategoryField Entry → CategoryField Entry
  | .entry fields => .entry (fields.takeWhile fun field => goesOnInside (wire field))
  | field => field

def cutCategory (fields : List (CategoryField Entry)) : List (CategoryField Entry) :=
  (fields.takeWhile CategoryField.goesOn).map (CategoryField.cut wire)

def FileField.cut : FileField Entry → FileField Entry
  | .category fields => .category (cutCategory wire fields)
  | field => field

def cut (file : List (FileField Entry)) : List (FileField Entry) :=
  (file.takeWhile FileField.goesOn).map (FileField.cut wire)

end Reading

end Mirage.Geo
