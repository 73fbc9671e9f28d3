import Mathlib.Data.List.Basic
import Mirage.Lib.Word

/-!
The .dat files of router/geo.rs: protobuf messages, a list of categories with
their entries. All readers walk the fields of a message the same way; `fields`
is that walk. What `from_utf8_lossy` makes of a value is not needed.
-/

namespace Mirage.Geo
open Word

inductive GeoKind where
  | geosite
  | geoip
  deriving DecidableEq

def readVarintFrom (n : UInt64) (shift : Nat) : Bytes → Except String (UInt64 × Bytes)
  | [] => .error "Truncated varint"
  | b :: rest =>
      if 64 ≤ shift then .error "Varint too long (overflow)"
      else
        let n := n ||| ((b &&& 0x7f).toUInt64 <<< UInt64.ofNat shift)
        if b &&& 0x80 = 0 then .ok (n, rest) else readVarintFrom n (shift + 7) rest

def readVarint (data : Bytes) : Except String (UInt64 × Bytes) := readVarintFrom 0 0 data

def readLenDelim (data : Bytes) : Except String (Bytes × Bytes) :=
  match readVarint data with
  | .error reason => .error reason
  | .ok (length, rest) =>
      if rest.length < length.toNat then .error "Truncated length delimited data"
      else .ok (rest.take length.toNat, rest.drop length.toNat)

/-- A field by its wire type; `skipped` is one of fixed width. -/
inductive Field where
  | lenDelim (number : UInt64) (content : Bytes)
  | varint (number value : UInt64)
  | skipped
  | unknown
  deriving DecidableEq

def readField (data : Bytes) : Except String (Field × Bytes) :=
  match readVarint data with
  | .error reason => .error reason
  | .ok (tag, rest) =>
      let number := tag >>> 3
      match (tag &&& 7).toNat with
      | 0 => (readVarint rest).map fun (value, rest) => (.varint number value, rest)
      | 1 => .ok (.skipped, rest.drop 8)
      | 2 => (readLenDelim rest).map fun (content, rest) => (.lenDelim number content, rest)
      | 5 => .ok (.skipped, rest.drop 4)
      | _ => .ok (.unknown, rest)

theorem readVarintFrom_shorter {n value : UInt64} {shift : Nat} {data rest : Bytes}
    (read : readVarintFrom n shift data = .ok (value, rest)) : rest.length < data.length := by
  induction data generalizing n shift with
  | nil => cases read
  | cons b tail ih =>
      rw [readVarintFrom] at read
      split at read
      · cases read
      · dsimp only at read
        split at read
        · cases read
          exact Nat.lt_succ_self _
        · exact Nat.lt_trans (ih read) (Nat.lt_succ_self _)

theorem readLenDelim_shorter {data content rest : Bytes}
    (read : readLenDelim data = .ok (content, rest)) : rest.length < data.length := by
  rw [readLenDelim] at read
  cases length : readVarint data with
  | error reason =>
      rw [length] at read
      cases read
  | ok asked =>
      obtain ⟨size, tail⟩ := asked
      rw [length] at read
      have shorter : tail.length < data.length := readVarintFrom_shorter length
      dsimp only at read
      split at read
      · cases read
      · cases read
        rw [List.length_drop]
        omega

theorem readField_shorter {data rest : Bytes} {field : Field}
    (read : readField data = .ok (field, rest)) : rest.length < data.length := by
  rw [readField] at read
  cases tagged : readVarint data with
  | error reason =>
      rw [tagged] at read
      cases read
  | ok asked =>
      obtain ⟨tag, tail⟩ := asked
      rw [tagged] at read
      have shorter : tail.length < data.length := readVarintFrom_shorter tagged
      dsimp only at read
      split at read
      · cases value : readVarint tail with
        | error reason =>
            rw [value] at read
            cases read
        | ok found =>
            rw [value] at read
            cases read
            have later : found.2.length < tail.length := readVarintFrom_shorter value
            exact Nat.lt_trans later shorter
      · cases read
        rw [List.length_drop]
        omega
      · cases content : readLenDelim tail with
        | error reason =>
            rw [content] at read
            cases read
        | ok found =>
            rw [content] at read
            cases read
            exact Nat.lt_trans (readLenDelim_shorter content) shorter
      · cases read
        rw [List.length_drop]
        omega
      · cases read
        exact shorter

/-- The fields of a message up to its end, an unknown wire type or an error, and
the error. -/
def fields (data : Bytes) : List Field × Option String :=
  match data with
  | [] => ([], none)
  | first :: tail =>
      match _read : readField (first :: tail) with
      | .error reason => ([], some reason)
      | .ok (.unknown, _) => ([], none)
      | .ok (field, rest) =>
          let later := fields rest
          (field :: later.1, later.2)
termination_by data.length
decreasing_by exact readField_shorter _read

def isCategory : Field → Bool
  | .lenDelim 1 content =>
      (fields content).1.any fun field =>
        match field with
        | .lenDelim 1 inner => !inner.isEmpty
        | _ => false
  | _ => false

def countCategories (data : Bytes) : Except String Nat :=
  match fields data with
  | (found, none) => .ok (found.countP isCategory)
  | (_, some reason) => .error reason

section Entries

inductive DomainType where
  | plain
  | regex
  | rootDomain
  | full
  deriving DecidableEq

structure GeoDomain where
  dtype : DomainType
  value : Bytes
  deriving DecidableEq

/-- The messages inside categories and entries stop at a field of fixed width. -/
def messageFields (data : Bytes) : List Field × Option String :=
  let found := fields data
  let known := found.1.takeWhile fun field => !decide (field = .skipped)
  (known, if known.length < found.1.length then none else found.2)

def parseDomainMsg (data : Bytes) : Except String (Option GeoDomain) :=
  match messageFields data with
  | (_, some reason) => .error reason
  | (found, none) =>
      let domain := found.foldl (fun domain field =>
        match field with
        | .varint 1 value =>
            { domain with
              dtype :=
                if value = 1 then .regex
                else if value = 2 then .rootDomain
                else if value = 3 then .full
                else .plain }
        | .lenDelim 2 content => { domain with value := content }
        | _ => domain) (⟨.plain, []⟩ : GeoDomain)
      .ok (if domain.value.isEmpty then none else some domain)

def parseCidrMsg (data : Bytes) : Except String (Option (Bytes × UInt8)) :=
  match messageFields data with
  | (_, some reason) => .error reason
  | (found, none) =>
      let net := found.foldl (fun net field =>
        match field with
        | .lenDelim 1 content => (content, net.2)
        | .varint 2 value => (net.1, value.toUInt8)
        | _ => net) (([], 0) : Bytes × UInt8)
      if net.1.length = 4 then
        if net.2.toNat ≤ 32 then .ok (some net) else .error "invalid IP prefix length"
      else if net.1.length = 16 then
        if net.2.toNat ≤ 128 then .ok (some net) else .error "invalid IP prefix length"
      else .ok none

def entries (data : Bytes) : List Bytes :=
  (fields data).1.flatMap fun field =>
    match field with
    | .lenDelim 1 content =>
        (fields content).1.filterMap fun field =>
          match field with
          | .lenDelim 2 inner => some inner
          | _ => none
    | _ => []

/-- An entry that `load_geosite_dat`, or `load_geoip_dat`, makes something of. -/
def isEntry (kind : GeoKind) (entry : Bytes) : Bool :=
  match kind with
  | .geosite => (parseDomainMsg entry).toOption.join.isSome
  | .geoip => (parseCidrMsg entry).toOption.join.isSome

def isData (kind : GeoKind) (data : Bytes) : Bool := (entries data).any (isEntry kind)

end Entries

end Mirage.Geo
