import Mathlib.Data.List.TakeWhile
import Mirage.Geo.Loaders

/-!
What the loaders of router/geo.rs make of a file that is a valid encoding: what a
conforming decoder makes of the part of it that they read.
-/

namespace Mirage.Geo
open Protobuf Text Word
open Router (IpNet)

section Wires
variable {number value tag : UInt64} {bytes head rest : Bytes} {kind : WireType}

theorem high_bit (b : UInt8) : b &&& 0x80 = 0 ↔ b.toNat < 128 := by
  have all : ∀ n : Fin 256, UInt8.ofNat n.val &&& 0x80 = 0 ↔ n.val < 128 := by
    decide +kernel
  have here := all ⟨b.toNat, b.toNat_lt⟩
  rwa [UInt8.ofNat_toNat] at here

theorem or_digit {n : UInt64} {b : UInt8} {shift : Nat} (small : n.toNat < 2 ^ shift)
    (room : shift < 64) (fits : b.toNat % 128 * 2 ^ shift < 2 ^ 64) :
    (n ||| ((b &&& 0x7f).toUInt64 <<< UInt64.ofNat shift)).toNat =
      n.toNat + b.toNat % 128 * 2 ^ shift := by
  have low : b.toNat &&& 127 = b.toNat % 128 := Nat.and_two_pow_sub_one_eq_mod b.toNat 7
  have digit : (b &&& 0x7f).toUInt64.toNat = b.toNat % 128 := by
    rw [UInt8.toNat_toUInt64, UInt8.toNat_and]
    exact low
  have amount : (UInt64.ofNat shift).toNat % 64 = shift := by
    rw [UInt64.toNat_ofNat']
    omega
  rw [UInt64.toNat_or, UInt64.toNat_shiftLeft, digit, amount, Nat.shiftLeft_eq,
    Nat.mod_eq_of_lt fits, Nat.or_comm, Nat.mul_comm,
    ← Nat.two_pow_add_eq_or_of_lt small, Nat.add_comm]

theorem readVarintFrom_digits {d k : Nat} {n : UInt64} (digits : Digits bytes d)
    (size : k + bytes.length ≤ 10) (small : n.toNat < 2 ^ (7 * k))
    (fits : n.toNat + d * 2 ^ (7 * k) < 2 ^ 64) :
    readVarintFrom n (7 * k) (bytes ++ rest) =
      .ok (UInt64.ofNat (n.toNat + d * 2 ^ (7 * k)), rest) := by
  induction digits generalizing n k with
  | @last b ends =>
      have room : 7 * k < 64 := by
        rw [List.length_singleton] at size
        omega
      have digit : b.toNat % 128 = b.toNat := Nat.mod_eq_of_lt ends
      have sum := or_digit small room (by rw [digit]; omega)
      have high : b &&& 0x80 = 0 := (high_bit b).mpr ends
      rw [List.singleton_append, readVarintFrom, if_neg (by omega)]
      dsimp only
      rw [if_pos high, ← digit, ← sum, UInt64.ofNat_toNat]
  | @more b more d goesOn later ih =>
      have room : 7 * k < 64 := by
        rw [List.length_cons] at size
        omega
      have below := b.toNat_lt
      have digit : b.toNat % 128 = b.toNat - 128 := by omega
      have split_ : (b.toNat - 128 + 128 * d) * 2 ^ (7 * k) =
          (b.toNat - 128) * 2 ^ (7 * k) + d * 2 ^ (7 * (k + 1)) := by
        rw [show 7 * (k + 1) = 7 + 7 * k by omega, Nat.pow_add, Nat.add_mul, ← Nat.mul_assoc,
          Nat.mul_comm d]
      have sum := or_digit small room (b := b) (by rw [digit]; omega)
      have high : b &&& 0x80 ≠ 0 := fun zero => Nat.not_lt.mpr goesOn ((high_bit b).mp zero)
      rw [List.cons_append, readVarintFrom, if_neg (by omega)]
      dsimp only
      rw [if_neg high, show 7 * k + 7 = 7 * (k + 1) by omega, ih]
      · rw [sum, split_, digit, Nat.add_assoc]
      · rw [List.length_cons] at size
        omega
      · rw [sum, digit, show 7 * (k + 1) = 7 * k + 7 by omega, Nat.pow_add]
        have bound : (b.toNat - 128) * 2 ^ (7 * k) ≤ 127 * 2 ^ (7 * k) :=
          Nat.mul_le_mul_right _ (by omega)
        omega
      · rw [sum, digit]
        omega

theorem readVarint_of (varint : IsVarint value bytes) :
    readVarint (bytes ++ rest) = .ok (value, rest) := by
  have bound := value.toNat_lt
  have read := @readVarintFrom_digits bytes rest value.toNat 0 0 varint.digits
    (by have size := varint.size; omega) (by decide) (by simp only [UInt64.toNat_zero]; omega)
  rw [readVarint]
  refine read.trans ?_
  simp only [UInt64.toNat_zero, Nat.zero_add, Nat.mul_zero, Nat.pow_zero, Nat.mul_one,
    UInt64.ofNat_toNat]

def image : Wire → Field
  | .varint number value => .varint number value
  | .fixed64 _ => .skipped
  | .lenDelim number content => .lenDelim number content
  | .group _ => .unknown
  | .fixed32 _ => .skipped

def afterTag (number : UInt64) (rest : Bytes) : WireType → Except String (Field × Bytes)
  | .varint => (readVarint rest).map fun (value, rest) => (.varint number value, rest)
  | .fixed64 => .ok (.skipped, rest.drop 8)
  | .lenDelim => (readLenDelim rest).map fun (content, rest) => (.lenDelim number content, rest)
  | .fixed32 => .ok (.skipped, rest.drop 4)
  | .startGroup => .ok (.unknown, rest)
  | .endGroup => .ok (.unknown, rest)

theorem readField_tagged (tagged : IsTag number kind tag head) :
    readField (head ++ rest) = afterTag number rest kind := by
  rw [readField, readVarint_of tagged.varint]
  dsimp only
  rw [tagged.low, tagged.shift]
  cases kind <;> rfl

theorem fields_of_known {data : Bytes} {field : Field} (read : readField data = .ok (field, rest))
    (known : field ≠ .unknown) : fields data = (field :: (fields rest).1, (fields rest).2) := by
  cases data with
  | nil => cases read
  | cons first tail =>
      rw [fields]
      split
      · next failed =>
        rw [read] at failed
        cases failed
      · next same =>
        rw [read] at same
        cases same
        exact absurd rfl known
      · next same =>
        rw [read] at same
        cases same
        rfl

theorem fields_of_error {data : Bytes} {first : UInt8} {reason : String}
    (read : readField (first :: data) = .error reason) :
    fields (first :: data) = ([], some reason) := by
  rw [fields]
  split
  · next failed =>
    rw [read] at failed
    cases failed
    rfl
  · next same =>
    rw [read] at same
    cases same
  · next same =>
    rw [read] at same
    cases same

theorem fields_of_unknown {data : Bytes} (read : readField data = .ok (.unknown, rest)) :
    fields data = ([], none) := by
  cases data with
  | nil => cases read
  | cons first tail =>
      rw [fields]
      split
      · next failed =>
        rw [read] at failed
        cases failed
      · rfl
      · next other same =>
        rw [read] at same
        cases same
        exact absurd rfl other

/-- A reader of categories sees the fields before the first group. -/
theorem fields_encoded {wires : List Wire} {data : Bytes} (encoded : Encoded wires data) :
    fields data = ((wires.takeWhile goesOn).map image, none) := by
  induction encoded with
  | nil => rw [fields]; rfl
  | @varint number value tag head bytes rest fields tagged number_ later ih =>
      have read : readField (head ++ (bytes ++ rest)) = .ok (.varint number value, rest) := by
        rw [readField_tagged tagged, afterTag, readVarint_of number_]
        rfl
      rw [fields_of_known read (fun same => Field.noConfusion same), ih]
      rfl
  | @fixed64 number tag head bytes rest fields tagged size later ih =>
      have read : readField (head ++ (bytes ++ rest)) = .ok (.skipped, rest) := by
        rw [readField_tagged tagged, afterTag, List.drop_left' size]
      rw [fields_of_known read (fun same => Field.noConfusion same), ih]
      rfl
  | @lenDelim number length tag head bytes content rest fields tagged sized size later ih =>
      have content_ : readLenDelim (bytes ++ (content ++ rest)) = .ok (content, rest) := by
        rw [readLenDelim, readVarint_of sized]
        dsimp only
        rw [if_neg (by rw [List.length_append]; omega), ← size, List.take_left, List.drop_left]
      have read : readField (head ++ (bytes ++ (content ++ rest))) =
          .ok (.lenDelim number content, rest) := by
        rw [readField_tagged tagged, afterTag, content_]
        rfl
      rw [fields_of_known read (fun same => Field.noConfusion same), ih]
      rfl
  | @group number tag tag' head inside foot rest inner fields tagged within_ closed later =>
      rw [fields_of_unknown (readField_tagged tagged)]
      rfl
  | @fixed32 number tag head bytes rest fields tagged size later ih =>
      have read : readField (head ++ (bytes ++ rest)) = .ok (.skipped, rest) := by
        rw [readField_tagged tagged, afterTag, List.drop_left' size]
      rw [fields_of_known read (fun same => Field.noConfusion same), ih]
      rfl

/-- One of entries sees those before the first field of fixed width, too. -/
theorem messageFields_encoded {wires : List Wire} {data : Bytes} (encoded : Encoded wires data) :
    messageFields data = ((wires.takeWhile goesOnInside).map image, none) := by
  have known : (((wires.takeWhile goesOn).map image).takeWhile
      fun field => !decide (field = .skipped)) = (wires.takeWhile goesOnInside).map image := by
    clear encoded
    induction wires with
    | nil => rfl
    | cons field rest ih =>
        cases field with
        | varint number value => exact congrArg _ ih
        | fixed64 number => rfl
        | lenDelim number content => exact congrArg _ ih
        | group number => rfl
        | fixed32 number => rfl
  rw [messageFields, fields_encoded encoded]
  dsimp only
  rw [known, ite_self]

theorem of_image_varint {field : Wire} (seen : image field = .varint number value) :
    field = .varint number value := by
  cases field with
  | varint number value =>
      cases seen
      rfl
  | fixed64 number => cases seen
  | lenDelim number content => cases seen
  | group number => cases seen
  | fixed32 number => cases seen

theorem of_image_lenDelim {field : Wire} {content : Bytes}
    (seen : image field = .lenDelim number content) : field = .lenDelim number content := by
  cases field with
  | lenDelim number content =>
      cases seen
      rfl
  | varint number value => cases seen
  | fixed64 number => cases seen
  | group number => cases seen
  | fixed32 number => cases seen

end Wires

section Entries

theorem enum_inj (kind code : Int32) :
    kind.toInt64.toUInt64 = code.toInt64.toUInt64 ↔ kind = code := by
  constructor
  · intro same
    have back := congrArg (fun n : UInt64 => n.toInt64.toInt32) same
    simpa using back
  · intro same
    rw [same]

/-- What `parseDomainMsg` holds for a domain. -/
def rawDomain (domain : Router.GeoDomain) : GeoDomain where
  dtype :=
    match domain.dtype with
    | .plain => .plain
    | .regex => .regex
    | .rootDomain => .rootDomain
    | .full => .full
  value := utf8 domain.value

theorem rawDomain_decoded (domain : Router.GeoDomain) : (rawDomain domain).decoded = domain := by
  obtain ⟨dtype, value⟩ := domain
  rw [GeoDomain.decoded, rawDomain, fromUtf8Lossy_utf8]
  cases dtype <;> rfl

theorem utf8_isEmpty (s : String) : (utf8 s).isEmpty ↔ s = "" := by
  rw [List.isEmpty_iff]
  constructor
  · intro empty
    exact utf8_injective (t := "") empty
  · intro same
    rw [same]
    rfl

theorem domainOf_encoded {entry : List DomainField} {content : Bytes}
    (encoded : Encoded (entry.map DomainField.wire) content) :
    domainOf content =
      readDomain (entry.takeWhile fun field => goesOnInside field.wire) := by
  have start : (⟨.plain, []⟩ : GeoDomain) = rawDomain ⟨.plain, ""⟩ := rfl
  rw [domainOf, parseDomainMsg, messageFields_encoded encoded, List.takeWhile_map]
  dsimp only
  rw [List.foldl_map, List.foldl_map, start,
    @List.foldl_hom _ _ _ rawDomain DomainField.apply _ _ ⟨.plain, ""⟩ ?step]
  case step =>
    intro domain field
    cases field with
    | dtype kind =>
        have one : (1 : UInt64) = (1 : Int32).toInt64.toUInt64 := rfl
        have two : (2 : UInt64) = (2 : Int32).toInt64.toUInt64 := rfl
        have three : (3 : UInt64) = (3 : Int32).toInt64.toUInt64 := rfl
        change (⟨if kind.toInt64.toUInt64 = 1 then .regex
          else if kind.toInt64.toUInt64 = 2 then .rootDomain
          else if kind.toInt64.toUInt64 = 3 then .full else .plain, _⟩ : GeoDomain) = _
        simp only [one, two, three, enum_inj, rawDomain, DomainField.apply]
        split
        · rfl
        · split
          · rfl
          · split
            · rfl
            · rfl
    | text value => rfl
    | other field unknown unknown' =>
        dsimp only [DomainField.wire, DomainField.apply]
        split
        · next seen => exact absurd (of_image_varint seen) (unknown _)
        · next seen => exact absurd (of_image_lenDelim seen) (unknown' _)
        · rfl
  have seen : (goesOnInside ∘ DomainField.wire) = fun field => goesOnInside field.wire := rfl
  rw [readDomain, seen]
  generalize (entry.takeWhile fun field => goesOnInside field.wire).foldl DomainField.apply
    ⟨.plain, ""⟩ = domain
  have none_ : (rawDomain domain).value.isEmpty ↔ domain.value = "" := utf8_isEmpty domain.value
  by_cases empty : domain.value = ""
  · rw [if_pos (none_.mpr empty), if_pos empty]
    rfl
  · rw [if_neg (fun found => empty (none_.mp found)), if_neg empty]
    exact congrArg some (rawDomain_decoded domain)

/-- A prefix length is cut to its low byte. -/
def CidrField.narrow : CidrField → CidrField
  | .prefixLen value => .prefixLen value.toUInt8.toUInt32
  | field => field

theorem newNet_checked (net : Bytes × UInt8) :
    ((if net.1.length = 4 then
        if net.2.toNat ≤ 32 then .ok (some net) else .error "invalid IP prefix length"
      else if net.1.length = 16 then
        if net.2.toNat ≤ 128 then .ok (some net) else .error "invalid IP prefix length"
      else .ok none : Except String (Option (Bytes × UInt8))).toOption.join.bind
        fun net => newNet net.1 net.2.toNat) = newNet net.1 net.2.toNat := by
  split
  · next four =>
    split
    · rfl
    · next wide =>
      rw [newNet, if_pos four, dif_neg wide]
      rfl
  · next notFour =>
    split
    · next sixteen =>
      split
      · rfl
      · next wide =>
        rw [newNet, if_neg notFour, if_pos sixteen, dif_neg wide]
        rfl
    · next notSixteen =>
      rw [newNet, if_neg notFour, if_neg notSixteen]
      rfl

theorem netOf_eq (entry : Bytes) {found : List Field}
    (seen : messageFields entry = (found, none)) :
    netOf entry =
      let net := found.foldl (fun net field =>
        match field with
        | .lenDelim 1 content => (content, net.2)
        | .varint 2 value => (net.1, value.toUInt8)
        | _ => net) (([], 0) : Bytes × UInt8)
      newNet net.1 net.2.toNat := by
  rw [netOf, parseCidrMsg, seen]
  exact newNet_checked _

theorem netOf_encoded {entry : List CidrField} {content : Bytes}
    (encoded : Encoded (entry.map CidrField.wire) content) :
    netOf content =
      readCidr ((entry.takeWhile fun field => goesOnInside field.wire).map CidrField.narrow) := by
  have start : (([], 0) : Bytes × UInt32) =
      (fun net : Bytes × UInt8 => (net.1, net.2.toUInt32)) ([], 0) := rfl
  have seen : (goesOnInside ∘ CidrField.wire) = fun field => goesOnInside field.wire := rfl
  rw [netOf_eq content (messageFields_encoded encoded), List.takeWhile_map, seen, List.foldl_map,
    List.foldl_map, readCidr, List.foldl_map, start,
    @List.foldl_hom _ _ _ (fun net : Bytes × UInt8 => (net.1, net.2.toUInt32))
      (fun net field =>
        match image (CidrField.wire field) with
        | .lenDelim 1 content => (content, net.2)
        | .varint 2 value => (net.1, value.toUInt8)
        | _ => net) _ _ ([], 0) ?step]
  · dsimp only
    rw [UInt8.toNat_toUInt32]
  case step =>
    intro net field
    cases field with
    | ip octets => rfl
    | prefixLen value => rfl
    | other field unknown unknown' =>
        dsimp only [CidrField.wire, CidrField.narrow, CidrField.apply]
        split
        · next seen => exact absurd (of_image_lenDelim seen) (unknown _)
        · next seen => exact absurd (of_image_varint seen) (unknown' _)
        · rfl

end Entries

section Categories
variable {Entry Item : Type} {wire : Entry → Wire} {upper : Char → List Char}
  {readBytes : Bytes → Option Item} {read : List Entry → Option Item}

theorem category_goesOn {field : CategoryField Entry} {seen : Wire}
    (stands : field.Stands wire seen) : field.goesOn = goesOn seen := by
  cases stands <;> rfl

theorem file_goesOn {field : FileField Entry} {seen : Wire}
    (stands : field.Stands wire seen) : field.goesOn = goesOn seen := by
  cases stands <;> rfl

/-- Two lists that stand for each other are read up to the same place. -/
theorem forall₂_takeWhile {α β : Type} {R : α → β → Prop} {p : α → Bool} {q : β → Bool}
    (same : ∀ a b, R a b → p a = q b) {as : List α} {bs : List β} (stand : List.Forall₂ R as bs) :
    List.Forall₂ R (as.takeWhile p) (bs.takeWhile q) := by
  induction stand with
  | nil => exact .nil
  | @cons a b as bs here rest ih =>
      rw [List.takeWhile_cons, List.takeWhile_cons, same a b here]
      cases q b with
      | true => exact .cons here ih
      | false => exact .nil

variable (agree : ∀ (fields : List Entry) (content : Bytes), Encoded (fields.map wire) content →
  readBytes content = read (fields.takeWhile fun field => goesOnInside (wire field)))

theorem toUppercase_empty : toUppercase upper "" = "" := rfl

theorem nameFrom_other {field : Wire} (unknown : ∀ content, field ≠ .lenDelim 1 content)
    {code : String} : nameFrom upper code (image field) = code := by
  unfold nameFrom
  split
  · next seen => exact absurd (of_image_lenDelim seen) (unknown _)
  · rfl

theorem entryFrom_other {field : Wire} (unknown : ∀ content, field ≠ .lenDelim 2 content) :
    entryFrom (image field) = none := by
  unfold entryFrom
  split
  · next seen => exact absurd (of_image_lenDelim seen) (unknown _)
  · rfl

theorem named_stands {fields : List (CategoryField Entry)} {wires : List Wire}
    (stand : List.Forall₂ (CategoryField.Stands wire) fields wires) (code : String) :
    (wires.map image).foldl (nameFrom upper) (toUppercase upper code) =
      toUppercase upper ((fields.map (CategoryField.cut wire)).foldl CategoryField.named code) := by
  induction stand generalizing code with
  | nil => rfl
  | cons here rest ih =>
      cases here with
      | code name =>
          change (List.map image _).foldl _ (toUppercase upper (fromUtf8Lossy (utf8 name))) = _
          rw [fromUtf8Lossy_utf8]
          exact ih name
      | entry encoded => exact ih code
      | @other field unknown unknown' =>
          rw [List.map_cons, List.foldl_cons, nameFrom_other unknown]
          exact ih code

include agree in
theorem entries_stand {fields : List (CategoryField Entry)} {wires : List Wire}
    (stand : List.Forall₂ (CategoryField.Stands wire) fields wires) :
    ((wires.map image).filterMap entryFrom).filterMap readBytes =
      (entriesOf (fields.map (CategoryField.cut wire))).filterMap read := by
  induction stand with
  | nil => rfl
  | cons here rest ih =>
      cases here with
      | code name => exact ih
      | @entry fields content encoded =>
          have now := agree fields content encoded
          change List.filterMap readBytes (content :: _) = List.filterMap read (_ :: _)
          rw [List.filterMap_cons, List.filterMap_cons, now, ih]
          rfl
      | @other field unknown unknown' =>
          rw [List.map_cons, List.filterMap_cons, entryFrom_other unknown']
          exact ih

include agree in
theorem readCategory_encoded {fields : List (CategoryField Entry)} {wires : List Wire}
    {content : Bytes} (encoded : Encoded wires content)
    (stand : List.Forall₂ (CategoryField.Stands wire) fields wires) :
    ∃ entries, readCategory upper content =
        .ok (toUppercase upper (codeOf (cutCategory wire fields)), entries) ∧
      entries.filterMap readBytes = (entriesOf (cutCategory wire fields)).filterMap read := by
  have kept := @forall₂_takeWhile _ _ (CategoryField.Stands wire) CategoryField.goesOn goesOn
    (fun _ _ => category_goesOn) _ _ stand
  refine ⟨_, ?_, entries_stand agree kept⟩
  have name := @named_stands _ wire upper _ _ kept ""
  rw [toUppercase_empty] at name
  rw [readCategory, fields_encoded encoded]
  dsimp only
  rw [name]
  rfl

theorem categoriesOf_cut_cons (fields : List (CategoryField Entry))
    (file : List (FileField Entry)) :
    categoriesOf ((FileField.category fields :: file).map (FileField.cut wire)) =
      cutCategory wire fields :: categoriesOf (file.map (FileField.cut wire)) := rfl

def itemsFor (upper : Char → List Char) (read : List Entry → Option Item)
    (categories : List (List (CategoryField Entry))) (targetUpper : String) : List Item :=
  match categories.find? (fun fields => toUppercase upper (codeOf fields) = targetUpper) with
  | some fields => (entriesOf fields).filterMap read
  | none => []

theorem itemsFor_cons (fields : List (CategoryField Entry))
    (rest : List (List (CategoryField Entry))) (targetUpper : String) :
    itemsFor upper read (fields :: rest) targetUpper =
      if toUppercase upper (codeOf fields) = targetUpper then (entriesOf fields).filterMap read
      else itemsFor upper read rest targetUpper := by
  rw [itemsFor, List.find?_cons]
  by_cases wanted : toUppercase upper (codeOf fields) = targetUpper
  · rw [if_pos wanted, decide_eq_true wanted]
  · rw [if_neg wanted, decide_eq_false wanted]
    rfl

include agree in
theorem requestedFrom_encoded {file : List (FileField Entry)} {wires : List Wire}
    (stand : List.Forall₂ (FileField.Stands wire) file wires) (targetUpper : String) :
    ∃ entries, requestedFrom upper targetUpper none (wires.map image) = .ok entries ∧
      entries.filterMap readBytes =
        itemsFor upper read (categoriesOf (file.map (FileField.cut wire))) targetUpper := by
  induction stand with
  | nil => exact ⟨[], rfl, rfl⟩
  | cons here rest ih =>
      obtain ⟨later, found, items⟩ := ih
      cases here with
      | @category fields wires content encoded inside =>
          obtain ⟨entries, category, read_⟩ :=
            @readCategory_encoded _ _ wire upper readBytes read agree _ _ _ encoded inside
          rw [categoriesOf_cut_cons, itemsFor_cons, List.map_cons, image, requestedFrom, category]
          dsimp only
          by_cases wanted : toUppercase upper (codeOf (cutCategory wire fields)) = targetUpper
          · rw [if_pos wanted, if_pos wanted]
            exact ⟨entries, rfl, read_⟩
          · rw [if_neg wanted, if_neg wanted]
            exact ⟨later, found, items⟩
      | @other field unknown =>
          refine ⟨later, ?_, items⟩
          rw [List.map_cons, requestedFrom]
          · exact found
          · exact fun _ seen => unknown _ (of_image_lenDelim seen)

include agree in
theorem requested_encoded {file : List (FileField Entry)} {data : Bytes}
    (encodes : Encodes wire file data) (targetCode : String) :
    ∃ entries, requested upper data targetCode = .ok entries ∧
      entries.filterMap readBytes = conforming upper read (cut wire file) targetCode := by
  obtain ⟨wires, encoded, stand⟩ := encodes
  have kept := @forall₂_takeWhile _ _ (FileField.Stands wire) FileField.goesOn goesOn
    (fun _ _ => file_goesOn) _ _ stand
  rw [requested, fields_encoded encoded]
  exact requestedFrom_encoded agree kept (toUppercase upper targetCode)

end Categories

section Loaded
variable {upper : Char → List Char} {data : Bytes} (targetCode : String)

theorem loadGeositeDat_encoded {file : List (FileField DomainField)}
    (encodes : Encodes DomainField.wire file data) :
    loadGeositeDat upper data targetCode =
      .ok (conforming upper readDomain (cut DomainField.wire file) targetCode) := by
  obtain ⟨entries, found, items⟩ := @requested_encoded _ _ _ upper domainOf readDomain
    (fun _ _ encoded => domainOf_encoded encoded) _ _ encodes targetCode
  rw [loadGeositeDat, found, ← items]
  rfl

/-- An entry as `parseCidrMsg` reads it. -/
def readNarrow (fields : List CidrField) : Option IpNet :=
  readCidr (fields.map CidrField.narrow)

theorem loadGeoipDat_encoded {file : List (FileField CidrField)}
    (encodes : Encodes CidrField.wire file data) :
    loadGeoipDat upper data targetCode =
      .ok (conforming upper readNarrow (cut CidrField.wire file) targetCode) := by
  obtain ⟨entries, found, items⟩ := @requested_encoded _ _ _ upper netOf readNarrow
    (fun _ _ encoded => netOf_encoded encoded) _ _ encodes targetCode
  rw [loadGeoipDat, found, ← items]
  rfl

/-- What `load_all_geoip` keeps of a category. -/
def listed (upper : Char → List Char) (fields : List (CategoryField CidrField)) :
    Option (String × List IpNet) :=
  let nets := (entriesOf fields).filterMap readNarrow
  if toUppercase upper (codeOf fields) = "" ∨ nets = [] then none
  else some (toUppercase upper (codeOf fields), nets)

theorem loadAllFrom_encoded {file : List (FileField CidrField)} {wires : List Wire}
    (stand : List.Forall₂ (FileField.Stands CidrField.wire) file wires)
    (out : List (String × List IpNet)) :
    loadAllFrom upper none (wires.map image) out =
      .ok (out ++ (categoriesOf (file.map (FileField.cut CidrField.wire))).filterMap
        (listed upper)) := by
  induction stand generalizing out with
  | nil => exact congrArg _ (List.append_nil out).symm
  | cons here rest ih =>
      cases here with
      | @category fields wires content encoded inside =>
          obtain ⟨entries, category, nets⟩ :=
            @readCategory_encoded _ _ CidrField.wire upper netOf readNarrow
              (fun _ _ encoded => netOf_encoded encoded) _ _ _ encoded inside
          rw [categoriesOf_cut_cons, List.filterMap_cons, List.map_cons, image, loadAllFrom, category]
          dsimp only
          rw [nets, listed]
          split
          · exact ih out
          · rw [ih, List.append_assoc]
            rfl
      | @other field unknown =>
          rw [List.map_cons, loadAllFrom]
          · exact ih out
          · exact fun _ seen => unknown _ (of_image_lenDelim seen)

theorem loadAllGeoip_encoded {file : List (FileField CidrField)}
    (encodes : Encodes CidrField.wire file data) :
    loadAllGeoip upper data =
      .ok ((categoriesOf (cut CidrField.wire file)).filterMap (listed upper)) := by
  obtain ⟨wires, encoded, stand⟩ := encodes
  have kept := @forall₂_takeWhile _ _ (FileField.Stands CidrField.wire) FileField.goesOn goesOn
    (fun _ _ => file_goesOn) _ _ stand
  rw [loadAllGeoip, fields_encoded encoded]
  exact loadAllFrom_encoded kept []

def listedUnder (all : List (String × List IpNet)) (code : String) : List IpNet :=
  match all.find? (fun entry => entry.1 = code) with
  | some entry => entry.2
  | none => []

/-- The first category of the code has nets and the code is not empty, or none of
the categories that are listed for it has. -/
def ListedAs (upper : Char → List Char) (categories : List (List (CategoryField CidrField)))
    (targetUpper : String) : Prop :=
  match categories.filter (fun fields => toUppercase upper (codeOf fields) = targetUpper) with
  | [] => True
  | first :: later =>
      if (entriesOf first).filterMap readNarrow = [] then
        targetUpper = "" ∨ ∀ fields ∈ later, (entriesOf fields).filterMap readNarrow = []
      else targetUpper ≠ ""

theorem listedUnder_cons (fields : List (CategoryField CidrField))
    (rest : List (List (CategoryField CidrField))) (targetUpper : String) :
    listedUnder ((fields :: rest).filterMap (listed upper)) targetUpper =
      if toUppercase upper (codeOf fields) = targetUpper ∧ targetUpper ≠ "" ∧
        (entriesOf fields).filterMap readNarrow ≠ [] then (entriesOf fields).filterMap readNarrow
      else listedUnder (rest.filterMap (listed upper)) targetUpper := by
  rw [List.filterMap_cons, listed]
  by_cases kept : toUppercase upper (codeOf fields) = "" ∨
      (entriesOf fields).filterMap readNarrow = []
  · rw [if_pos kept, if_neg]
    rintro ⟨rfl, named, nets⟩
    exact kept.elim named nets
  · rw [if_neg kept, listedUnder, List.find?_cons]
    by_cases wanted : toUppercase upper (codeOf fields) = targetUpper
    · rw [if_pos ⟨wanted, fun none_ => kept (.inl (wanted.trans none_)), fun none_ =>
        kept (.inr none_)⟩]
      dsimp only
      rw [decide_eq_true wanted]
    · rw [if_neg (fun found => wanted found.1)]
      dsimp only
      rw [decide_eq_false wanted]
      rfl

theorem listedUnder_eq_nil (categories : List (List (CategoryField CidrField)))
    (targetUpper : String) :
    listedUnder (categories.filterMap (listed upper)) targetUpper = [] ↔
      targetUpper = "" ∨ ∀ fields ∈ categories.filter fun fields =>
        toUppercase upper (codeOf fields) = targetUpper,
          (entriesOf fields).filterMap readNarrow = [] := by
  induction categories with
  | nil => exact ⟨fun _ => .inr fun _ member => absurd member List.not_mem_nil, fun _ => rfl⟩
  | cons fields rest ih =>
      rw [listedUnder_cons, List.filter_cons]
      by_cases named : targetUpper = ""
      · rw [if_neg (fun found => found.2.1 named)]
        exact ⟨fun _ => .inl named, fun _ => ih.mpr (.inl named)⟩
      · by_cases wanted : toUppercase upper (codeOf fields) = targetUpper
        · rw [if_pos (decide_eq_true wanted)]
          by_cases nets : (entriesOf fields).filterMap readNarrow = []
          · rw [if_neg (fun found => found.2.2 nets), ih, List.forall_mem_cons]
            exact or_congr_right ⟨fun rest => ⟨nets, rest⟩, fun both => both.2⟩
          · rw [if_pos ⟨wanted, named, nets⟩, List.forall_mem_cons]
            exact ⟨fun none_ => absurd none_ nets, fun either =>
              either.elim (fun none_ => absurd none_ named) fun both => both.1⟩
        · rw [if_neg (fun found => wanted found.1), if_neg (fun found =>
            wanted (of_decide_eq_true found)), ih]

theorem listedUnder_iff (categories : List (List (CategoryField CidrField)))
    (targetUpper : String) :
    itemsFor upper readNarrow categories targetUpper =
        listedUnder (categories.filterMap (listed upper)) targetUpper ↔
      ListedAs upper categories targetUpper := by
  induction categories with
  | nil => exact ⟨fun _ => trivial, fun _ => rfl⟩
  | cons fields rest ih =>
      rw [itemsFor_cons, ListedAs, List.filter_cons]
      by_cases wanted : toUppercase upper (codeOf fields) = targetUpper
      · rw [if_pos wanted, if_pos (decide_eq_true wanted)]
        dsimp only
        by_cases nets : (entriesOf fields).filterMap readNarrow = []
        · rw [if_pos nets, listedUnder_cons, if_neg (fun found => found.2.2 nets), nets, eq_comm]
          exact listedUnder_eq_nil rest targetUpper
        · rw [if_neg nets, listedUnder_cons]
          by_cases named : targetUpper = ""
          · have none_ := (@listedUnder_eq_nil upper rest targetUpper).mpr (.inl named)
            rw [if_neg (fun found => found.2.1 named), none_]
            exact ⟨fun same => absurd same nets, fun other => absurd named other⟩
          · rw [if_pos ⟨wanted, named, nets⟩]
            exact ⟨fun _ => named, fun _ => rfl⟩
      · rw [if_neg wanted, if_neg (fun found => wanted (of_decide_eq_true found)),
          listedUnder_cons, if_neg (fun found => wanted found.1)]
        exact ih

end Loaded

section Whole
variable {Entry : Type} {wire : Entry → Wire}

/-- A file without groups, and without fields of fixed width in its entries, is
read whole. -/
theorem cut_whole {file : List (FileField Entry)} (outer : ∀ field ∈ file, field.goesOn = true)
    (inner : ∀ fields, .category fields ∈ file → (∀ field ∈ fields, field.goesOn = true) ∧
      ∀ entry, .entry entry ∈ fields → ∀ field ∈ entry, goesOnInside (wire field) = true) :
    cut wire file = file := by
  rw [cut, List.takeWhile_eq_self_iff.mpr outer]
  refine (List.map_congr_left fun field member => ?_).trans (List.map_id file)
  cases field with
  | other field unknown => rfl
  | category fields =>
      obtain ⟨goesOn_, entries⟩ := inner fields member
      rw [FileField.cut, cutCategory, List.takeWhile_eq_self_iff.mpr goesOn_]
      refine congrArg _ ((List.map_congr_left fun field member => ?_).trans (List.map_id fields))
      cases field with
      | code name => rfl
      | entry entry => exact congrArg _ (List.takeWhile_eq_self_iff.mpr (entries entry member))
      | other field unknown unknown' => rfl

theorem readNarrow_eq {fields : List CidrField}
    (low : ∀ value, .prefixLen value ∈ fields → value.toNat < 256) :
    readNarrow fields = readCidr fields := by
  rw [readNarrow]
  refine congrArg readCidr ((List.map_congr_left fun field member => ?_).trans (List.map_id fields))
  cases field with
  | ip octets => rfl
  | other field unknown unknown' => rfl
  | prefixLen value =>
      refine congrArg CidrField.prefixLen (UInt32.toNat_inj.mp ?_)
      rw [UInt8.toNat_toUInt32, UInt32.toNat_toUInt8]
      exact Nat.mod_eq_of_lt (low value member)

/-- Such a file, with prefix lengths in a byte, is loaded as it stands. -/
theorem loadGeoipDat_whole {upper : Char → List Char} {data : Bytes} {targetCode : String}
    {file : List (FileField CidrField)} (encodes : Encodes CidrField.wire file data)
    (outer : ∀ field ∈ file, field.goesOn = true)
    (inner : ∀ fields, .category fields ∈ file → (∀ field ∈ fields, field.goesOn = true) ∧
      ∀ entry, .entry entry ∈ fields → ∀ field ∈ entry, goesOnInside field.wire = true)
    (low : ∀ fields ∈ categoriesOf file, ∀ entry ∈ entriesOf fields,
      ∀ value, .prefixLen value ∈ entry → value.toNat < 256) :
    loadGeoipDat upper data targetCode = .ok (conforming upper readCidr file targetCode) := by
  rw [loadGeoipDat_encoded targetCode encodes, cut_whole outer inner]
  refine congrArg Except.ok ?_
  unfold conforming
  split
  · rename_i fields found
    refine List.filterMap_congr fun entry member => readNarrow_eq ?_
    exact low fields (List.mem_of_find?_eq_some found) entry member
  · rfl

end Whole

section AnyBytes
variable {data entry : Bytes}

/-- The address and the prefix length that a message states. -/
def stated (found : List Field) : Bytes × UInt64 :=
  found.foldl (fun net field =>
    match field with
    | .lenDelim 1 content => (content, net.2)
    | .varint 2 value => (net.1, value)
    | _ => net) ([], 0)

/-- An entry, all its fields counted, has more prefix bits than its address has. -/
def OutOfRange (entry : Bytes) : Prop :=
  8 * (stated (fields entry).1).1.length < (stated (fields entry).1).2.toUInt32.toNat

/-- The fields before the first of fixed width state an address, and a prefix
length the low byte of which fits it. -/
def LowByteFits (entry : Bytes) : Prop :=
  (messageFields entry).2 = none ∧
    let net := stated (messageFields entry).1
    (net.1.length = 4 ∧ net.2.toUInt8.toNat ≤ 32) ∨ (net.1.length = 16 ∧ net.2.toUInt8.toNat ≤ 128)

theorem newNet_eq_none (octets : Bytes) (length : Nat) :
    newNet octets length = none ↔
      ¬((octets.length = 4 ∧ length ≤ 32) ∨ (octets.length = 16 ∧ length ≤ 128)) := by
  rw [newNet]
  by_cases four : octets.length = 4
  · rw [if_pos four]
    by_cases fits : length ≤ 32
    · rw [dif_pos fits]
      exact ⟨fun none_ => (nomatch none_), fun wrong => absurd (.inl ⟨four, fits⟩) wrong⟩
    · rw [dif_neg fits]
      refine ⟨fun _ either => ?_, fun _ => rfl⟩
      omega
  · rw [if_neg four]
    by_cases sixteen : octets.length = 16
    · rw [if_pos sixteen]
      by_cases fits : length ≤ 128
      · rw [dif_pos fits]
        exact ⟨fun none_ => (nomatch none_), fun wrong => absurd (.inr ⟨sixteen, fits⟩) wrong⟩
      · rw [dif_neg fits]
        refine ⟨fun _ either => ?_, fun _ => rfl⟩
        omega
    · rw [if_neg sixteen]
      refine ⟨fun _ either => ?_, fun _ => rfl⟩
      omega

theorem netOf_eq_none (entry : Bytes) : netOf entry = none ↔ ¬LowByteFits entry := by
  cases seen : messageFields entry with
  | mk found failed =>
      cases failed with
      | some reason =>
          have none_ : netOf entry = none := by
            rw [netOf, parseCidrMsg, seen]
            rfl
          refine ⟨fun _ fits => ?_, fun _ => none_⟩
          have whole := fits.1
          rw [seen] at whole
          cases whole
      | none =>
          have start : (([], 0) : Bytes × UInt8) =
              (fun net : Bytes × UInt64 => (net.1, net.2.toUInt8)) ([], 0) := rfl
          rw [netOf_eq entry seen, start, @List.foldl_hom _ _ _
            (fun net : Bytes × UInt64 => (net.1, net.2.toUInt8)) (fun net field =>
              match field with
              | .lenDelim 1 content => (content, net.2)
              | .varint 2 value => (net.1, value)
              | _ => net) _ _ ([], 0) ?step]
          case step =>
            intro net field
            split
            · rfl
            · rfl
            · rfl
          rw [newNet_eq_none, LowByteFits, seen]
          exact not_congr ⟨fun fits => ⟨rfl, fits⟩, fun both => both.2⟩

theorem readVarintFrom_suffix {n value : UInt64} {shift : Nat} {rest : Bytes}
    (read : readVarintFrom n shift data = .ok (value, rest)) : rest <:+ data := by
  induction data generalizing n shift with
  | nil => cases read
  | cons b tail ih =>
      rw [readVarintFrom] at read
      split at read
      · cases read
      · dsimp only at read
        split at read
        · cases read
          exact List.suffix_cons b rest
        · exact (ih read).trans (List.suffix_cons b tail)

theorem readLenDelim_inside {content rest : Bytes}
    (read : readLenDelim data = .ok (content, rest)) : content <:+: data ∧ rest <:+ data := by
  rw [readLenDelim] at read
  cases length : readVarint data with
  | error reason =>
      rw [length] at read
      cases read
  | ok asked =>
      obtain ⟨size, tail⟩ := asked
      rw [length] at read
      have behind : tail <:+ data := readVarintFrom_suffix length
      dsimp only at read
      split at read
      · cases read
      · cases read
        exact ⟨(List.take_prefix _ _).isInfix.trans behind.isInfix,
          (List.drop_suffix _ _).trans behind⟩

theorem readField_inside {field : Field} {rest : Bytes}
    (read : readField data = .ok (field, rest)) :
    rest <:+ data ∧ ∀ number content, field = .lenDelim number content → content <:+: data := by
  rw [readField] at read
  cases tagged : readVarint data with
  | error reason =>
      rw [tagged] at read
      cases read
  | ok asked =>
      obtain ⟨tag, tail⟩ := asked
      rw [tagged] at read
      have behind : tail <:+ data := readVarintFrom_suffix tagged
      dsimp only at read
      split at read
      · cases value : readVarint tail with
        | error reason =>
            rw [value] at read
            cases read
        | ok found =>
            rw [value] at read
            cases read
            have further : found.2 <:+ tail := readVarintFrom_suffix value
            exact ⟨further.trans behind, fun _ _ same => (by cases same)⟩
      · cases read
        exact ⟨(List.drop_suffix _ _).trans behind, fun _ _ same => (by cases same)⟩
      · cases found : readLenDelim tail with
        | error reason =>
            rw [found] at read
            cases read
        | ok parts =>
            obtain ⟨content, later⟩ := parts
            rw [found] at read
            cases read
            obtain ⟨inside, further⟩ := readLenDelim_inside found
            refine ⟨further.trans behind, fun number content same => ?_⟩
            cases same
            exact inside.trans behind.isInfix
      · cases read
        exact ⟨(List.drop_suffix _ _).trans behind, fun _ _ same => (by cases same)⟩
      · cases read
        exact ⟨behind, fun _ _ same => (by cases same)⟩

theorem fields_inside (number : UInt64) (content : Bytes)
    (member : .lenDelim number content ∈ (fields data).1) : content <:+: data := by
  induction size : data.length using Nat.strong_induction_on generalizing data with
  | h size_ ih =>
      cases data with
      | nil =>
          rw [fields] at member
          cases member
      | cons first tail =>
          cases read : readField (first :: tail) with
          | error reason =>
              rw [fields_of_error read] at member
              cases member
          | ok found =>
              obtain ⟨field, rest⟩ := found
              obtain ⟨behind, inside⟩ := readField_inside read
              by_cases known : field = .unknown
              · subst known
                rw [fields_of_unknown read] at member
                cases member
              · rw [fields_of_known read known] at member
                rcases List.mem_cons.mp member with same | later
                · exact inside number content same.symm
                · have shorter := readField_shorter read
                  exact (ih rest.length (by omega) later rfl).trans behind.isInfix

theorem requestedFrom_inside {upper : Char → List Char} {targetUpper : String}
    {failed : Option String} {found : List Field} {entries : List Bytes}
    (within_ : ∀ number content, .lenDelim number content ∈ found → content <:+: data)
    (requested : requestedFrom upper targetUpper failed found = .ok entries) :
    ∀ entry ∈ entries, entry <:+: data := by
  induction found with
  | nil =>
      cases failed with
      | some reason => cases requested
      | none =>
          cases requested
          exact fun _ member => absurd member List.not_mem_nil
  | cons field rest ih =>
      have later := ih fun number content member => within_ number content (List.mem_cons_of_mem _ member)
      unfold requestedFrom at requested
      split at requested
      · next content =>
        have here := within_ 1 content List.mem_cons_self
        split at requested
        · cases requested
        · next code inner category =>
          split at requested
          · cases requested
            rw [readCategory] at category
            split at category
            · cases category
            · next parts seen =>
              cases category
              intro entry member
              obtain ⟨field, isField, isEntry⟩ := List.mem_filterMap.mp member
              unfold entryFrom at isEntry
              split at isEntry
              · cases isEntry
                have slice := @fields_inside content 2 entry (by rw [seen]; exact isField)
                exact slice.trans here
              · cases isEntry
          · exact later requested
      · exact later requested

theorem requested_inside {upper : Char → List Char} {targetCode : String} {entries : List Bytes}
    (found : requested upper data targetCode = .ok entries) :
    ∀ entry ∈ entries, entry <:+: data :=
  requestedFrom_inside fields_inside found

end AnyBytes

/-- A loader gives what a conforming decoder reads exactly when nothing it reads
stands behind a group, or in an entry behind a field of fixed width, and no prefix
length changes with its low byte; the list of all categories agrees but for codes
that are empty or given again; and prefix lengths out of range are refused unless
their low byte is in range or the reader does not get to them. -/
theorem loaders_conform_iff (upper : Char → List Char) (data : Bytes) (targetCode : String) :
    (∀ file, Encodes DomainField.wire file data →
      (loadGeositeDat upper data targetCode = .ok (conforming upper readDomain file targetCode) ↔
        conforming upper readDomain (cut DomainField.wire file) targetCode =
          conforming upper readDomain file targetCode)) ∧
    (∀ file, Encodes CidrField.wire file data →
      (loadGeoipDat upper data targetCode = .ok (conforming upper readCidr file targetCode) ↔
        conforming upper readNarrow (cut CidrField.wire file) targetCode =
          conforming upper readCidr file targetCode) ∧
      ∃ all, loadAllGeoip upper data = .ok all ∧
        (loadGeoipDat upper data targetCode =
            .ok (listedUnder all (toUppercase upper targetCode)) ↔
          ListedAs upper (categoriesOf (cut CidrField.wire file))
            (toUppercase upper targetCode))) ∧
    ∀ entries, requested upper data targetCode = .ok entries →
      (∀ entry ∈ entries, entry <:+: data) ∧
      ((∀ entry ∈ entries, OutOfRange entry → netOf entry = none) ↔
        ∀ entry ∈ entries, OutOfRange entry → ¬LowByteFits entry) := by
  refine ⟨fun file encodes => ?_, fun file encodes => ⟨?_, ?_⟩, fun entries found => ⟨?_, ?_⟩⟩
  · rw [loadGeositeDat_encoded targetCode encodes]
    exact ⟨fun same => Except.ok.inj same, fun same => congrArg _ same⟩
  · rw [loadGeoipDat_encoded targetCode encodes]
    exact ⟨fun same => Except.ok.inj same, fun same => congrArg _ same⟩
  · refine ⟨_, loadAllGeoip_encoded encodes, ?_⟩
    rw [loadGeoipDat_encoded targetCode encodes, ← listedUnder_iff]
    exact ⟨fun same => Except.ok.inj same, fun same => congrArg _ same⟩
  · exact requested_inside found
  · exact forall₂_congr fun entry _ => imp_congr_right fun _ => netOf_eq_none entry

section Broadened

/-- 1.2.3.0/24 with a field that the schema does not know before the length. -/
def extendedCidr : List CidrField :=
  [.ip [1, 2, 3, 0], .other (.fixed32 3) (fun _ same => (nomatch same))
    (fun _ same => (nomatch same)), .prefixLen 24]

def extendedFile : List (FileField CidrField) := [.category [.code "CN", .entry extendedCidr]]

def extendedData : Bytes :=
  [0x0A, 0x13, 0x0A, 0x02, 0x43, 0x4E, 0x12, 0x0D, 0x0A, 0x04, 1, 2, 3, 0, 0x1D, 9, 9, 9, 9,
    0x10, 0x18]

theorem extendedData_encodes : Encodes CidrField.wire extendedFile extendedData := by
  have entry : Encoded (extendedCidr.map CidrField.wire)
      ([0x0A] ++ ([0x04] ++ ([1, 2, 3, 0] ++ ([0x1D] ++ ([9, 9, 9, 9] ++
        ([0x10] ++ ([0x18] ++ []))))))) :=
    .lenDelim (.byte rfl (by decide) (by decide)) (@IsVarint.byte _ 4 rfl (by decide)) rfl
      (.fixed32 (.byte rfl (by decide) (by decide)) rfl
        (.varint (.byte rfl (by decide) (by decide)) (.byte rfl (by decide)) .nil))
  have category : Encoded [.lenDelim 1 (utf8 "CN"), .lenDelim 2 (extendedData.drop 8)]
      ([0x0A] ++ ([0x02] ++ (utf8 "CN" ++ ([0x12] ++ ([0x0D] ++ (extendedData.drop 8 ++ [])))))) :=
    .lenDelim (.byte rfl (by decide) (by decide)) (@IsVarint.byte _ 2 rfl (by decide)) rfl
      (.lenDelim (.byte rfl (by decide) (by decide)) (@IsVarint.byte _ 13 rfl (by decide)) rfl .nil)
  refine ⟨[.lenDelim 1 (extendedData.drop 2)], ?_, ?_⟩
  · exact .lenDelim (.byte rfl (by decide) (by decide)) (@IsVarint.byte _ 19 rfl (by decide)) rfl .nil
  · exact .cons (.category category (.cons (.code "CN") (.cons (.entry entry) .nil))) .nil

/-- It is read as 1.2.3.0/0. -/
theorem loadGeoipDat_broadens : ¬∀ (upper : Char → List Char) (data : Bytes)
    (file : List (FileField CidrField)) (targetCode : String), Encodes CidrField.wire file data →
      loadGeoipDat upper data targetCode = .ok (conforming upper readCidr file targetCode) := by
  intro all
  have claimed := all (fun c => [c]) extendedData extendedFile "CN" extendedData_encodes
  rw [loadGeoipDat_encoded "CN" extendedData_encodes] at claimed
  exact absurd (Except.ok.inj claimed) (by decide)

end Broadened

end Mirage.Geo
