import Mirage.Lib.Text

/-!
ASCII in UTF-8 texts. A byte below 128 stands for a character of its own, so
bytes of a text that are cut at such a byte are cut between characters.
-/

namespace Mirage.Utf8
open Word Text

def encode (chars : List Char) : Bytes := chars.flatMap String.utf8EncodeChar

@[simp] theorem encode_nil : encode [] = [] := rfl

@[simp] theorem encode_cons (c : Char) (rest : List Char) :
    encode (c :: rest) = String.utf8EncodeChar c ++ encode rest := List.flatMap_cons

@[simp] theorem encode_append (front back : List Char) :
    encode (front ++ back) = encode front ++ encode back := List.flatMap_append

theorem utf8_eq_encode (s : String) : utf8 s = encode s.toList := utf8_eq s

theorem encode_injective {chars other : List Char} (same : encode chars = encode other) :
    chars = other := by
  have texts : utf8 (String.ofList chars) = utf8 (String.ofList other) := by
    rw [utf8_eq_encode, utf8_eq_encode, String.toList_ofList, String.toList_ofList, same]
  exact String.ofList_injective (utf8_injective texts)

theorem encode_ascii {c : Char} (ascii : c.toNat < 128) :
    String.utf8EncodeChar c = [UInt8.ofNat c.toNat] :=
  ascii_cases (P := fun c => String.utf8EncodeChar c = [UInt8.ofNat c.toNat]) (by decide) ascii

/-- Every byte of a wide character is out of the ASCII range. -/
theorem wide_bytes {c : Char} (wide : 128 ≤ c.toNat) :
    ∀ b ∈ String.utf8EncodeChar c, 128 ≤ b.toNat := by
  have value : c.val.toNat = c.toNat := rfl
  have byte : ∀ n, 128 ≤ n → n < 256 → 128 ≤ (UInt8.ofNat n).toNat := by
    intro n low high
    rw [UInt8.toNat_ofNat', Nat.mod_eq_of_lt high]
    exact low
  intro b member
  rw [String.utf8EncodeChar] at member
  split at member
  · omega
  · split at member
    · simp only [List.mem_cons, List.not_mem_nil, or_false] at member
      rcases member with rfl | rfl
      · exact byte _ (by omega) (by omega)
      · exact byte _ (by omega) (by omega)
    · split at member
      · simp only [List.mem_cons, List.not_mem_nil, or_false] at member
        rcases member with rfl | rfl | rfl
        · exact byte _ (by omega) (by omega)
        · exact byte _ (by omega) (by omega)
        · exact byte _ (by omega) (by omega)
      · simp only [List.mem_cons, List.not_mem_nil, or_false] at member
        rcases member with rfl | rfl | rfl | rfl
        · exact byte _ (by omega) (by omega)
        · exact byte _ (by omega) (by omega)
        · exact byte _ (by omega) (by omega)
        · exact byte _ (by omega) (by omega)

theorem ascii_of_mem {c : Char} {b : UInt8} (member : b ∈ String.utf8EncodeChar c)
    (ascii : b.toNat < 128) : c.toNat < 128 := by
  by_contra wide
  exact absurd (wide_bytes (Nat.not_lt.mp wide) b member) (Nat.not_le.mpr ascii)

theorem mem_encode {chars : List Char} {c : Char} (member : c ∈ chars) (ascii : c.toNat < 128) :
    UInt8.ofNat c.toNat ∈ encode chars := by
  rw [encode, List.mem_flatMap]
  exact ⟨c, member, by rw [encode_ascii ascii]; exact List.mem_singleton_self _⟩

/-- A text whose bytes are cut at an ASCII character. -/
theorem exists_cut {chars : List Char} {c : Char} {front back : Bytes} (ascii : c.toNat < 128)
    (cut : encode chars = front ++ UInt8.ofNat c.toNat :: back) :
    ∃ before after, chars = before ++ c :: after ∧ encode before = front ∧
      encode after = back := by
  have byte : (UInt8.ofNat c.toNat).toNat = c.toNat := by
    rw [UInt8.toNat_ofNat', Nat.mod_eq_of_lt (by omega)]
  induction chars generalizing front with
  | nil => exact absurd cut.symm (List.append_ne_nil_of_right_ne_nil _ (List.cons_ne_nil _ _))
  | cons d rest ih =>
      rw [encode_cons] at cut
      rcases List.append_eq_append_iff.mp cut with ⟨more, whole, tail⟩ | ⟨more, whole, tail⟩
      · obtain ⟨before, after, rfl, here, behind⟩ := ih tail
        exact ⟨d :: before, after, rfl, by rw [encode_cons, here, whole], behind⟩
      · cases more with
        | nil =>
            rw [List.append_nil] at whole
            obtain ⟨before, after, rfl, here, behind⟩ := @ih [] tail.symm
            exact ⟨d :: before, after, rfl, by rw [encode_cons, here, whole, List.append_nil], behind⟩
        | cons b more =>
            obtain ⟨rfl, rfl⟩ := List.cons.inj tail
            have member : UInt8.ofNat c.toNat ∈ String.utf8EncodeChar d := by
              rw [whole]
              exact List.mem_append_right _ List.mem_cons_self
            have plain := ascii_of_mem member (by omega)
            rw [encode_ascii plain] at whole member
            have same : d = c := by
              have bytes := congrArg UInt8.toNat (List.mem_singleton.mp member)
              rw [byte, UInt8.toNat_ofNat', Nat.mod_eq_of_lt (by omega)] at bytes
              exact Char.toNat_inj.mp bytes.symm
            obtain ⟨rfl, rest_⟩ := List.append_eq_singleton_iff.mp whole.symm |>.resolve_right
              (by rintro ⟨_, empty⟩; cases empty)
            rw [same]
            refine ⟨[], rest, rfl, rfl, ?_⟩
            rw [(List.cons.inj rest_).2]
            rfl

theorem mem_of_mem_encode {chars : List Char} {c : Char} (ascii : c.toNat < 128)
    (member : UInt8.ofNat c.toNat ∈ encode chars) : c ∈ chars := by
  obtain ⟨front, back, cut, -⟩ := List.eq_append_cons_of_mem member
  obtain ⟨before, after, rfl, -, -⟩ := exists_cut ascii cut
  exact List.mem_append_right _ List.mem_cons_self

section Lossy

variable {bytes front back : Bytes} {c : Char} {b : UInt8}

theorem decodes_iff :
    ByteArray.utf8DecodeChar? ⟨⟨bytes⟩⟩ 0 = some c ↔ String.utf8EncodeChar c <+: bytes := by
  constructor
  · intro decoded
    obtain ⟨rest, whole⟩ := ByteArray.exists_of_utf8DecodeChar?_eq_some decoded
    refine ⟨rest.data.toList, ?_⟩
    have lists := congrArg (fun array => array.data.toList) whole
    simpa using lists.symm
  · rintro ⟨rest, rfl⟩
    have decoded := ByteArray.utf8DecodeChar?_utf8EncodeChar_append (b := ⟨⟨rest⟩⟩) (c := c)
    have same : (String.utf8EncodeChar c).toByteArray ++ ⟨⟨rest⟩⟩ =
        ⟨⟨String.utf8EncodeChar c ++ rest⟩⟩ := by
      ext1
      simp
    rwa [same] at decoded

theorem encodeChar_length (c : Char) : (String.utf8EncodeChar c).length = c.utf8Size :=
  String.length_utf8EncodeChar c

theorem encodeChar_before_ascii (ascii : b.toNat < 128) (some : front ≠ [])
    (starts : String.utf8EncodeChar c <+: front ++ b :: back) :
    String.utf8EncodeChar c <+: front := by
  refine List.prefix_of_prefix_length_le starts (List.prefix_append _ _) ?_
  by_contra long
  have beyond : front ++ [b] <+: String.utf8EncodeChar c := by
    refine List.prefix_of_prefix_length_le ?_ starts ?_
    · exact ⟨back, by rw [List.append_assoc]; rfl⟩
    · rw [List.length_append, List.length_singleton]
      omega
  have member : b ∈ String.utf8EncodeChar c :=
    beyond.subset (List.mem_append_right _ (List.mem_singleton_self _))
  have one := encode_ascii (ascii_of_mem member ascii)
  have short := beyond.length_le
  have positive := List.length_pos_iff.mpr some
  rw [one, List.length_append, List.length_singleton, List.length_singleton] at short
  omega

theorem secondFits_wide {a : UInt8} (fits : secondFits a b = true) : 128 ≤ b.toNat := by
  by_contra low
  simp only [secondFits, Bool.or_eq_true, Bool.and_eq_true, decide_eq_true_eq,
    UInt8.le_iff_toNat_le] at fits
  have numbers : (0xA0 : UInt8).toNat = 160 ∧ (0x80 : UInt8).toNat = 128 ∧
      (0x90 : UInt8).toNat = 144 := ⟨rfl, rfl, rfl⟩
  omega

/-- A broken character does not take a byte of its own along. -/
theorem maximalSubpart_before_ascii (ascii : b.toNat < 128) (a : UInt8) :
    maximalSubpart a (front ++ b :: back) = maximalSubpart a front ∧
      maximalSubpart a front ≤ front.length + 1 := by
  have second : secondFits a b = false := by
    by_contra fits
    have wide := secondFits_wide (eq_true_of_ne_false fits)
    omega
  have third : decide (0x80 ≤ b ∧ b ≤ 0xBF) = false := by
    rw [decide_eq_false_iff_not]
    rintro ⟨low, -⟩
    have number : (0x80 : UInt8).toNat = 128 := rfl
    rw [UInt8.le_iff_toNat_le] at low
    omega
  cases front with
  | nil => simp [maximalSubpart, second]
  | cons d front =>
      cases front with
      | nil =>
          rw [Bool.decide_and] at third
          simp only [maximalSubpart, List.cons_append, List.nil_append, List.getElem?_cons_zero,
            List.getElem?_cons_succ, Option.any_some, Option.any_none, third, Bool.and_false,
            List.getElem?_nil, Bool.false_eq_true, if_false, List.length_singleton, true_and]
          split <;> omega
      | cons e front =>
          simp only [maximalSubpart, List.cons_append, List.getElem?_cons_zero,
            List.getElem?_cons_succ, List.length_cons, true_and]
          split
          · split <;> omega
          · omega

/-- Text is decoded up to a byte of its own, and from it on. -/
theorem lossyChars_append (ascii : b.toNat < 128) (front back : Bytes) :
    lossyChars (front ++ b :: back) = lossyChars front ++ lossyChars (b :: back) := by
  cases front with
  | nil =>
      have empty : lossyChars [] = [] := by rw [lossyChars]
      rw [empty]
      rfl
  | cons a front =>
      rw [List.cons_append, lossyChars]
      conv => rhs; rw [lossyChars]
      cases decoded : ByteArray.utf8DecodeChar? ⟨⟨a :: front⟩⟩ 0 with
      | some c =>
          have starts := decodes_iff.mp decoded
          have size := starts.length_le
          rw [encodeChar_length, List.length_cons] at size
          have longer : ByteArray.utf8DecodeChar? ⟨⟨a :: (front ++ b :: back)⟩⟩ 0 = some c :=
            decodes_iff.mpr (starts.trans (List.prefix_append (a :: front) (b :: back)))
          rw [longer]
          dsimp only
          rw [List.drop_append_of_le_length (by omega), lossyChars_append ascii]
          rfl
      | none =>
          have longer : ByteArray.utf8DecodeChar? ⟨⟨a :: (front ++ b :: back)⟩⟩ 0 = none := by
            rw [Option.eq_none_iff_forall_ne_some]
            intro c found
            have starts : String.utf8EncodeChar c <+: a :: front :=
              encodeChar_before_ascii ascii (List.cons_ne_nil _ _) (decodes_iff.mp found)
            rw [decodes_iff.mpr starts] at decoded
            cases decoded
          obtain ⟨same, size⟩ := @maximalSubpart_before_ascii front back b ascii a
          rw [longer]
          dsimp only
          rw [same, List.drop_append_of_le_length (by omega), lossyChars_append ascii]
          rfl
termination_by front.length
decreasing_by all_goals simp only [List.length_drop, List.length_cons]; omega

theorem lossyChars_encode_append (chars : List Char) (rest : Bytes) :
    lossyChars (encode chars ++ rest) = chars ++ lossyChars rest := by
  induction chars with
  | nil => rfl
  | cons c chars ih =>
      rw [encode_cons, List.append_assoc, lossyChars_encode, ih]
      rfl

theorem lossyChars_ascii (ascii : c.toNat < 128) (rest : Bytes) :
    lossyChars (UInt8.ofNat c.toNat :: rest) = c :: lossyChars rest := by
  have decoded := lossyChars_encode c rest
  rwa [encode_ascii ascii] at decoded

theorem mem_of_mem_lossyChars (ascii : c.toNat < 128) (bytes : Bytes)
    (member : c ∈ lossyChars bytes) : UInt8.ofNat c.toNat ∈ bytes :=
  match bytes with
  | [] => by
      rw [lossyChars] at member
      cases member
  | a :: rest => by
      rw [lossyChars] at member
      cases decoded : ByteArray.utf8DecodeChar? ⟨⟨a :: rest⟩⟩ 0 with
      | some d =>
          rw [decoded] at member
          rcases List.mem_cons.mp member with rfl | later
          · refine (decodes_iff.mp decoded).subset ?_
            rw [encode_ascii ascii]
            exact List.mem_singleton_self _
          · exact List.mem_cons_of_mem _ (List.mem_of_mem_drop (mem_of_mem_lossyChars ascii _ later))
      | none =>
          rw [decoded] at member
          rcases List.mem_cons.mp member with rfl | later
          · exact absurd ascii (by decide)
          · exact List.mem_cons_of_mem _ (List.mem_of_mem_drop (mem_of_mem_lossyChars ascii _ later))
termination_by bytes.length
decreasing_by all_goals simp only [List.length_drop, List.length_cons]; omega

end Lossy

end Mirage.Utf8
