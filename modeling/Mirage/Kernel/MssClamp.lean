import Mirage.Kernel.TcpOptions

/-!
What the MSS clamp of tc_divert.c does to a TCP SYN. The value it stores is
within the bound, but the loop takes ten rounds and stops at the first MSS
option, and the checksum update counts the value as a word of the header, which
it is not at an odd distance.
-/

namespace Mirage.Kernel.TcDivert
open Word Checksum

section Spec

def optionArea (th : TcpHdr) (opt paged : Bytes) : Bytes := (opt ++ paged).take (th.doff * 4 - 20)

def pseudoHeader (ip : IpHdr) : Bytes :=
  ip.saddr.bytes ++ ip.daddr.bytes ++ [0, ip.protocol] ++ (Be16.ofNat (ip.totLen.toNat - 20)).bytes

/-- A segment that holds its header and whose checksum comes out. -/
structure Checked (ip : IpHdr) (th : TcpHdr) (opt paged : Bytes) : Prop where
  header : 20 + th.doff * 4 ≤ ip.totLen.toNat ∧ 20 ≤ th.doff * 4
  whole : ip.totLen.toNat ≤ 40 + (opt ++ paged).length
  sum : Valid (pseudoHeader ip ++ (th.bytes ++ (opt ++ paged).take (ip.totLen.toNat - 40)))

/-- A SYN after the clamp: nothing but the checksum and an MSS value is changed,
each MSS option is within the bound, and a checksum that came out still does. -/
structure Clamped (mtu : Nat) (ip : IpHdr) (th after : TcpHdr) (opt optAfter paged : Bytes) :
    Prop where
  header : ∃ check, after = { th with check := check }
  stored : optAfter = opt ∨ ∃ mss ∈ options (optionArea th opt paged) 0, mss.isMss = true ∧
    ∃ value, optAfter = storeBe16 opt (mss.pos + 2) value
  bounded : ∀ mss ∈ options (optionArea after optAfter paged) 0, mss.isMss = true →
    mss.mss (optionArea after optAfter paged) ≤ mtu - 40
  checked : Checked ip th opt paged → Checked ip after optAfter paged

/-- A SYN that the clamp is right for: an MSS option beyond the bound is the
first one, among the first ten options and in the linear part; and its value
stands on the grid of the checksum's words, or changes by a multiple of 257. -/
structure ClampFits (env : Helpers) (mtu : Nat) (ip : IpHdr) (th : TcpHdr) (opt paged : Bytes) :
    Prop where
  reach : ∀ mss ∈ options (optionArea th opt paged) 0, mss.isMss = true →
    mtu - 40 < mss.mss (optionArea th opt paged) →
      reached (optionArea th opt paged) opt.length 10 0 = some mss ∧ env.storeOk = true
  aligned : ∀ mss, reached (optionArea th opt paged) opt.length 10 0 = some mss →
    (mtu - 40) % 65536 < mss.mss (optionArea th opt paged) → Checked ip th opt paged →
      (env.csumOk = env.storeOk ∧ (env.storeOk = true → mss.pos % 2 = 0 ∨
        257 ∣ mss.mss (optionArea th opt paged) - (mtu - 40) % 65536)) ∨
      mss.mss (optionArea th opt paged) - (mtu - 40) % 65536 = 65535

end Spec

section Effect

variable {env : Helpers} {th : TcpHdr} {opt paged : Bytes} {maxMss : Nat} {mss : TcpOption}

theorem reached_spec {area : Bytes} {linearLen rounds pos : Nat}
    (found : reached area linearLen rounds pos = some mss) :
    mss ∈ options area pos ∧ mss.isMss = true ∧ mss.pos + 4 ≤ linearLen ∧
      mss.pos + 4 ≤ area.length := by
  obtain ⟨first, near⟩ := Option.filter_eq_some_iff.mp found
  have member := List.mem_of_mem_take (List.mem_of_find?_eq_some first)
  have isMss := List.find?_some first
  have inside := (options_mem member).2.2
  rw [(isMss_len isMss).2] at inside
  exact ⟨member, isMss, by simpa using near, inside⟩

def newHeader (env : Helpers) (th : TcpHdr) (opt : Bytes) (pos maxMss : Nat) : TcpHdr :=
  if env.csumOk then { th with check := .ofNative (replace th.check.native
    (be16At opt (pos + 2)).native (Be16.ofNat maxMss).native) } else th

def newOptions (env : Helpers) (opt : Bytes) (pos maxMss : Nat) : Bytes :=
  if env.storeOk then storeBe16 opt (pos + 2) (.ofNat maxMss) else opt

theorem mss_eq (found : reached (optionArea th opt paged) opt.length 10 0 = some mss) :
    mss.mss (optionArea th opt paged) = (be16At opt (mss.pos + 2)).toNat := by
  obtain ⟨-, -, linear, inside⟩ := reached_spec found
  rw [optionArea, List.length_take] at inside
  rw [TcpOption.mss, be16At, be16At, optionArea, area_getD (by omega) (by omega),
    area_getD (by omega) (by omega)]

/-- The clamp rewrites the option its loop reaches if the value is too large. -/
theorem clampTcpMss_eq (env : Helpers) (th : TcpHdr) (opt paged : Bytes) (maxMss : Nat) :
    clampTcpMss env th opt maxMss =
      ((reached (optionArea th opt paged) opt.length 10 0).filter
        (maxMss < ·.mss (optionArea th opt paged))).elim (th, opt)
          fun mss => (newHeader env th opt mss.pos maxMss, newOptions env opt mss.pos maxMss) := by
  unfold clampTcpMss
  by_cases short : th.doff * 4 ≤ 20
  · have empty : optionArea th opt paged = [] := by
      rw [optionArea, Nat.sub_eq_zero_of_le short, List.take_zero]
    have outside : options (optionArea th opt paged) 0 = [] := by
      rw [empty]
      exact options_outside (Nat.lt_irrefl 0)
    rw [if_pos short, reached_nil outside]
    rfl
  · have found := @findMss_eq opt paged (th.doff * 4 - 20) 10 0
    change _ = (reached (optionArea th opt paged) opt.length 10 0).map TcpOption.pos at found
    cases stop : reached (optionArea th opt paged) opt.length 10 0 with
    | none =>
        rw [stop] at found
        simp only [if_neg short, found, Option.map_none]
        rfl
    | some mss =>
        rw [stop] at found
        simp only [if_neg short, found, Option.map_some, Option.filter_some, mss_eq stop]
        by_cases large : maxMss < (be16At opt (mss.pos + 2)).toNat
        · simp only [if_pos large]
          rw [if_pos (decide_eq_true large)]
          rfl
        · simp only [if_neg large]
          rw [if_neg (by simpa using large)]
          rfl

end Effect

section Sums

variable {data opt paged : Bytes} {field old new : Be16} {pos n : Nat}

theorem wordSum_field (field : Be16) (rest : Bytes) :
    wordSum (field.bytes ++ rest) = field.toNat + wordSum rest := rfl

theorem wordSum_store (inside : pos + 2 ≤ data.length) :
    wordSum (storeBe16 data pos field) + 256 ^ pos * (be16At data pos).toNat ≡
      wordSum data + 256 ^ pos * field.toNat [MOD 65535] := by
  have size : (data.take pos).length = pos := by
    rw [List.length_take]
    omega
  have split : data = data.take pos ++ ((be16At data pos).bytes ++ data.drop (pos + 2)) := by
    have first : data.drop pos = data.getD pos 0 :: data.drop (pos + 1) := by
      rw [List.drop_eq_getElem_cons (by omega), List.getD_eq_getElem?_getD,
        List.getElem?_eq_getElem (by omega), Option.getD_some]
    have second : data.drop (pos + 1) = data.getD (pos + 1) 0 :: data.drop (pos + 2) := by
      rw [List.drop_eq_getElem_cons (by omega), List.getD_eq_getElem?_getD,
        List.getElem?_eq_getElem (by omega), Option.getD_some]
    have joined : (be16At data pos).bytes ++ data.drop (pos + 2) = data.drop pos := by
      rw [first, second]
      rfl
    rw [joined, List.take_append_drop]
  have stored := wordSum_append (data.take pos) (field.bytes ++ data.drop (pos + 2))
  have before := wordSum_append (data.take pos) ((be16At data pos).bytes ++ data.drop (pos + 2))
  rw [← split] at before
  rw [wordSum_field, size] at stored before
  rw [storeBe16, List.append_assoc]
  have left := stored.add_right (256 ^ pos * (be16At data pos).toNat)
  have right := before.add_right (256 ^ pos * field.toNat)
  have same : wordSum (data.take pos) + 256 ^ pos * (field.toNat + wordSum (data.drop (pos + 2))) +
        256 ^ pos * (be16At data pos).toNat =
      wordSum (data.take pos) + 256 ^ pos * ((be16At data pos).toNat +
        wordSum (data.drop (pos + 2))) + 256 ^ pos * field.toNat := by
    ring
  rw [same] at left
  exact left.trans right.symm

theorem wordSum_check (th : TcpHdr) (check : Be16) :
    wordSum { th with check := check }.bytes + th.check.toNat = wordSum th.bytes + check.toNat := by
  simp only [TcpHdr.bytes, Be16.bytes, Be32.bytes, List.cons_append, List.nil_append, wordSum,
    Be16.toNat]
  omega

/-- The new checksum makes up for the new value if that counts as a word. -/
theorem replace_check (check old new : Be16) :
    (Be16.ofNative (replace check.native old.native new.native)).toNat + new.toNat ≡
      check.toNat + old.toNat [MOD 65535] := by
  have native : replace check.native old.native new.native + new.native ≡
      check.native + old.native [MOD 65535] := replace_modEq check.native_lt old.native_lt
  have loaded := Be16.native_ofNative (replace check.native old.native new.native)
  rw [Nat.mod_eq_of_lt replace_lt] at loaded
  rw [← loaded] at native
  generalize Be16.ofNative (replace check.native old.native new.native) = after at native
  have swapped : ∀ field : Be16, field.native ≡ 256 * field.toNat [MOD 65535] := by
    intro field
    rw [Be16.native_eq]
    exact swap_modEq _
  have scaled : 256 * (after.toNat + new.toNat) ≡ 256 * (check.toNat + old.toNat) [MOD 65535] := by
    rw [Nat.mul_add, Nat.mul_add]
    exact ((swapped after).symm.add (swapped new).symm).trans
      (native.trans ((swapped check).add (swapped old)))
  unfold Nat.ModEq at scaled ⊢
  omega

theorem take_store (inOpt : pos + 2 ≤ opt.length) (inside : pos + 2 ≤ n) :
    (storeBe16 opt pos field ++ paged).take n = storeBe16 ((opt ++ paged).take n) pos field := by
  have front : ((opt ++ paged).take n).take pos = opt.take pos := by
    rw [List.take_take, Nat.min_eq_left (by omega), List.take_append_of_le_length (by omega)]
  have back : ((opt ++ paged).take n).drop (pos + 2) =
      (opt.drop (pos + 2) ++ paged).take (n - (pos + 2)) := by
    rw [List.drop_take, List.drop_append_of_le_length inOpt]
  have size : (opt.take pos ++ field.bytes).length = pos + 2 := by
    rw [List.length_append, List.length_take, Nat.min_eq_left (by omega)]
    rfl
  rw [storeBe16, storeBe16, front, back, List.append_assoc (opt.take pos ++ field.bytes),
    List.take_append, size, List.take_of_length_le (by omega)]

theorem cancels_iff {csum store : Bool} {change : Nat} (some_change : 0 < change)
    (word : change ≤ 65535) :
    (if store then 256 ^ (pos + 2) * change else 0) ≡ (if csum then change else 0) [MOD 65535] ↔
      (csum = store ∧ (store = true → pos % 2 = 0 ∨ 257 ∣ change)) ∨ change = 65535 := by
  have weight : 256 ^ (pos + 2) * change ≡ (if pos % 2 = 0 then change else 256 * change)
      [MOD 65535] := by
    split
    · next even =>
        have one := (pow_even (n := pos + 2) (by omega)).mul_right change
        rwa [Nat.one_mul] at one
    · next odd => exact (pow_odd (by omega)).mul_right change
  cases store with
  | false =>
      cases csum with
      | false => simp [Nat.ModEq.refl]
      | true =>
          simp only [Bool.false_eq_true, if_false, if_true, Bool.true_eq_false, false_and, false_or]
          unfold Nat.ModEq
          omega
  | true =>
      simp only [if_true]
      have reduced : ∀ value, 256 ^ (pos + 2) * change ≡ value [MOD 65535] ↔
          (if pos % 2 = 0 then change else 256 * change) ≡ value [MOD 65535] :=
        fun value => ⟨fun same => weight.symm.trans same, fun same => weight.trans same⟩
      rw [reduced]
      by_cases even : pos % 2 = 0
      · rw [if_pos even]
        cases csum with
        | true => simp [even, Nat.ModEq.refl]
        | false =>
            simp only [Bool.false_eq_true, if_false, false_and, false_or]
            unfold Nat.ModEq
            omega
      · rw [if_neg even]
        cases csum with
        | true =>
            simp only [if_true, even, false_or, true_and, true_implies]
            unfold Nat.ModEq
            omega
        | false =>
            simp only [Bool.false_eq_true, if_false, false_and, false_or]
            unfold Nat.ModEq
            omega

end Sums

section Checked

variable {env : Helpers} {ip : IpHdr} {th : TcpHdr} {opt paged : Bytes} {pos n maxMss : Nat}
  {mss : TcpOption}

theorem toNat_newMss (large : maxMss < (be16At opt (pos + 2)).toNat) :
    (Be16.ofNat maxMss).toNat = maxMss := by
  have := (be16At opt (pos + 2)).toNat_lt
  rw [Be16.toNat_ofNat, Nat.mod_eq_of_lt (by omega)]

theorem wordSum_newHeader (large : maxMss < (be16At opt (pos + 2)).toNat) :
    wordSum (newHeader env th opt pos maxMss).bytes ≡ wordSum th.bytes +
      (if env.csumOk then (be16At opt (pos + 2)).toNat - maxMss else 0) [MOD 65535] := by
  unfold newHeader
  cases env.csumOk with
  | false =>
      simp only [Bool.false_eq_true, if_false, Nat.add_zero]
      exact Nat.ModEq.refl _
  | true =>
      have update := replace_check th.check (be16At opt (pos + 2)) (.ofNat maxMss)
      rw [toNat_newMss large] at update
      simp only [if_true]
      have field := wordSum_check th (.ofNative (replace th.check.native
        (be16At opt (pos + 2)).native (Be16.ofNat maxMss).native))
      unfold Nat.ModEq at update ⊢
      omega

theorem wordSum_newOptions (large : maxMss < (be16At opt (pos + 2)).toNat)
    (linear : pos + 4 ≤ opt.length) (inside : pos + 4 ≤ n) :
    wordSum ((newOptions env opt pos maxMss ++ paged).take n) +
        (if env.storeOk then 256 ^ (pos + 2) * ((be16At opt (pos + 2)).toNat - maxMss) else 0) ≡
      wordSum ((opt ++ paged).take n) [MOD 65535] := by
  unfold newOptions
  cases env.storeOk with
  | false =>
      simp only [Bool.false_eq_true, if_false, Nat.add_zero]
      exact Nat.ModEq.refl _
  | true =>
      have room : pos + 2 + 2 ≤ ((opt ++ paged).take n).length := by
        rw [List.length_take, List.length_append]
        omega
      have value : be16At ((opt ++ paged).take n) (pos + 2) = be16At opt (pos + 2) := by
        rw [be16At, be16At, area_getD (by omega) (by omega), area_getD (by omega) (by omega)]
      have stored := @wordSum_store _ (.ofNat maxMss) _ room
      rw [value, toNat_newMss large] at stored
      have split : (be16At opt (pos + 2)).toNat =
          maxMss + ((be16At opt (pos + 2)).toNat - maxMss) := by
        omega
      rw [split, Nat.mul_add] at stored
      simp only [if_true]
      rw [take_store linear inside]
      generalize 256 ^ (pos + 2) * ((be16At opt (pos + 2)).toNat - maxMss) = change at stored ⊢
      generalize 256 ^ (pos + 2) * maxMss = bound at stored
      unfold Nat.ModEq at stored ⊢
      omega

theorem newHeader_doff : (newHeader env th opt pos maxMss).doff = th.doff := by
  unfold newHeader
  split <;> rfl

theorem length_newOptions (linear : pos + 4 ≤ opt.length) :
    (newOptions env opt pos maxMss).length = opt.length := by
  unfold newOptions
  split
  · exact length_storeBe16 linear
  · rfl

theorem wordSum_segment (ip : IpHdr) (th : TcpHdr) (rest : Bytes) :
    wordSum (pseudoHeader ip ++ (th.bytes ++ rest)) =
      wordSum (pseudoHeader ip) + (wordSum th.bytes + wordSum rest) := by
  have pseudo : (pseudoHeader ip).length = 12 := rfl
  rw [wordSum_append_even (by rw [pseudo]), wordSum_append_even (by rw [TcpHdr.length_bytes])]

theorem wordSum_pseudo (tcp : ip.protocol = 6) : 0 < wordSum (pseudoHeader ip) := by
  apply wordSum_pos (b := ip.protocol)
  · simp [pseudoHeader]
  · rw [tcp]
    decide

theorem checked_rewritten (tcp : ip.protocol = 6) (checked : Checked ip th opt paged)
    (found : reached (optionArea th opt paged) opt.length 10 0 = some mss)
    (large : maxMss < mss.mss (optionArea th opt paged)) :
    Checked ip (newHeader env th opt mss.pos maxMss) (newOptions env opt mss.pos maxMss) paged ↔
      (env.csumOk = env.storeOk ∧ (env.storeOk = true → mss.pos % 2 = 0 ∨
        257 ∣ mss.mss (optionArea th opt paged) - maxMss)) ∨
      mss.mss (optionArea th opt paged) - maxMss = 65535 := by
  obtain ⟨-, -, linear, inside⟩ := reached_spec found
  rw [optionArea, List.length_take] at inside
  obtain ⟨⟨header, twenty⟩, whole, sum⟩ := checked
  rw [mss_eq found] at large ⊢
  have word := (be16At opt (mss.pos + 2)).toNat_lt
  have some_change : 0 < (be16At opt (mss.pos + 2)).toNat - maxMss := by omega
  rw [← cancels_iff some_change (by omega)]
  have length : (newOptions env opt mss.pos maxMss ++ paged).length = (opt ++ paged).length := by
    rw [List.length_append, List.length_append, length_newOptions linear]
  have doff : (newHeader env th opt mss.pos maxMss).doff = th.doff := newHeader_doff
  have headerSum := @wordSum_newHeader env th opt mss.pos maxMss large
  have restSum := @wordSum_newOptions env opt paged mss.pos (ip.totLen.toNat - 40) maxMss
    large linear (by omega)
  rw [valid_iff, wordSum_segment] at sum
  have total : Checked ip (newHeader env th opt mss.pos maxMss)
      (newOptions env opt mss.pos maxMss) paged ↔
        wordSum (pseudoHeader ip) + (wordSum (newHeader env th opt mss.pos maxMss).bytes +
          wordSum (((newOptions env opt mss.pos maxMss) ++ paged).take (ip.totLen.toNat - 40))) ≡
            0 [MOD 65535] := by
    constructor
    · intro after
      have valid := after.sum
      rw [valid_iff, wordSum_segment] at valid
      exact valid.2
    · intro zero
      refine ⟨by rw [doff]; exact ⟨header, twenty⟩, by rw [length]; exact whole, ?_⟩
      rw [valid_iff, wordSum_segment]
      exact ⟨Nat.lt_of_lt_of_le (wordSum_pseudo tcp) (Nat.le_add_right _ _), zero⟩
  rw [total]
  obtain ⟨-, zero⟩ := sum
  generalize wordSum (newHeader env th opt mss.pos maxMss).bytes = headerAfter at headerSum ⊢
  generalize wordSum (((newOptions env opt mss.pos maxMss) ++ paged).take
    (ip.totLen.toNat - 40)) = restAfter at restSum ⊢
  unfold Nat.ModEq at headerSum restSum zero ⊢
  omega

end Checked

section Clamp

variable {env : Helpers} {ip : IpHdr} {th : TcpHdr} {opt paged : Bytes} {mtu maxMss : Nat}
  {mss : TcpOption}

theorem optionArea_after (found : reached (optionArea th opt paged) opt.length 10 0 = some mss) :
    optionArea (newHeader env th opt mss.pos maxMss) (newOptions env opt mss.pos maxMss) paged =
      if env.storeOk then storeBe16 (optionArea th opt paged) (mss.pos + 2) (.ofNat maxMss)
      else optionArea th opt paged := by
  obtain ⟨-, -, linear, inside⟩ := reached_spec found
  rw [optionArea, List.length_take] at inside
  rw [optionArea, newHeader_doff, newOptions]
  split
  · exact take_store linear (by omega)
  · rfl

/-- After a store only the options that the loop did not reach may be too large. -/
theorem bounded_iff (found : reached (optionArea th opt paged) opt.length 10 0 = some mss)
    (large : maxMss < mss.mss (optionArea th opt paged)) (bound : maxMss ≤ mtu) :
    (∀ other ∈ options (optionArea (newHeader env th opt mss.pos maxMss)
        (newOptions env opt mss.pos maxMss) paged) 0, other.isMss = true →
      other.mss (optionArea (newHeader env th opt mss.pos maxMss)
        (newOptions env opt mss.pos maxMss) paged) ≤ mtu) ↔
    ∀ other ∈ options (optionArea th opt paged) 0, other.isMss = true →
      mtu < other.mss (optionArea th opt paged) → mss = other ∧ env.storeOk = true := by
  obtain ⟨member, isMss, linear, inside⟩ := reached_spec found
  rw [optionArea_after found]
  cases env.storeOk with
  | false =>
      simp only [Bool.false_eq_true, if_false, and_false]
      exact ⟨fun all other known ofMss => Nat.not_lt.mpr (all other known ofMss),
        fun none_large other known ofMss => Nat.not_lt.mp (none_large other known ofMss)⟩
  | true =>
      have room : mss.pos + 2 + 2 ≤ (optionArea th opt paged).length := inside
      have stored : mss.mss (storeBe16 (optionArea th opt paged) (mss.pos + 2) (.ofNat maxMss)) =
          maxMss := by
        rw [mss_eq found] at large
        rw [TcpOption.mss, be16At_storeBe16 room, toNat_newMss large]
      have others : ∀ other ∈ options (optionArea th opt paged) 0, other.isMss = true →
          mss ≠ other →
            other.mss (storeBe16 (optionArea th opt paged) (mss.pos + 2) (.ofNat maxMss)) =
              other.mss (optionArea th opt paged) := by
        intro other known ofMss differs
        have apart := options_apart member known differs
        rw [TcpOption.Apart, (isMss_len isMss).2, (isMss_len ofMss).2] at apart
        rw [TcpOption.mss, TcpOption.mss, be16At_away room (by omega)]
      simp only [if_true, and_true]
      rw [options_store member isMss]
      constructor
      · intro all other known ofMss beyond
        by_contra differs
        have kept := all other known ofMss
        rw [others other known ofMss differs] at kept
        omega
      · intro only other known ofMss
        by_cases same : mss = other
        · rw [← same, stored]
          exact bound
        · rw [others other known ofMss same]
          exact Nat.not_lt.mp fun beyond => same (only other known ofMss beyond)

/-- The clamp is right exactly for a SYN that it fits. -/
theorem clamped_iff (tcp : ip.protocol = 6) :
    Clamped mtu ip th (clampTcpMss env th opt ((mtu - 40) % 65536)).1 opt
        (clampTcpMss env th opt ((mtu - 40) % 65536)).2 paged ↔
      ClampFits env mtu ip th opt paged := by
  have bound : (mtu - 40) % 65536 ≤ mtu - 40 := Nat.mod_le _ _
  rw [clampTcpMss_eq env th opt paged]
  -- Left alone: nothing is changed, so no option may be too large.
  have untouched : (∀ mss, reached (optionArea th opt paged) opt.length 10 0 = some mss →
        mss.mss (optionArea th opt paged) ≤ (mtu - 40) % 65536) →
      (Clamped mtu ip th th opt opt paged ↔ ClampFits env mtu ip th opt paged) := by
    intro small
    constructor
    · intro clamped
      refine ⟨?_, fun mss found large => absurd (small mss found) (Nat.not_le.mpr large)⟩
      intro mss member isMss beyond
      exact absurd (clamped.bounded mss member isMss) (Nat.not_le.mpr beyond)
    · intro fits
      refine ⟨⟨th.check, rfl⟩, .inl rfl, ?_, id⟩
      intro mss member isMss
      by_contra beyond
      have far := Nat.not_le.mp beyond
      have near := small mss (fits.reach mss member isMss far).1
      omega
  cases found : reached (optionArea th opt paged) opt.length 10 0 with
  | none =>
      apply untouched
      intro mss stopped
      rw [found] at stopped
      cases stopped
  | some mss =>
      rw [Option.filter_some]
      by_cases large : (mtu - 40) % 65536 < mss.mss (optionArea th opt paged)
      · rw [if_pos (decide_eq_true large)]
        change Clamped mtu ip th (newHeader env th opt mss.pos _) opt
          (newOptions env opt mss.pos _) paged ↔ _
        obtain ⟨member, isMss, -, -⟩ := reached_spec found
        have within := @bounded_iff env th opt paged (mtu - 40) _ mss found large bound
        constructor
        · intro clamped
          have only := within.mp clamped.bounded
          refine ⟨?_, ?_⟩
          · intro other known ofMss beyond
            obtain ⟨rfl, stored⟩ := only other known ofMss beyond
            exact ⟨found, stored⟩
          · intro other stopped _ checked
            cases found.symm.trans stopped
            exact (checked_rewritten tcp checked found large).mp (clamped.checked checked)
        · intro fits
          refine ⟨?_, ?_, ?_, ?_⟩
          · unfold newHeader
            split
            · exact ⟨_, rfl⟩
            · exact ⟨th.check, rfl⟩
          · unfold newOptions
            split
            · exact .inr ⟨mss, member, isMss, _, rfl⟩
            · exact .inl rfl
          · apply within.mpr
            intro other known ofMss beyond
            obtain ⟨stopped, stored⟩ := fits.reach other known ofMss beyond
            exact ⟨Option.some.inj (found.symm.trans stopped), stored⟩
          · exact fun checked =>
              (checked_rewritten tcp checked found large).mpr (fits.aligned mss found large checked)
      · rw [if_neg (by simpa using large)]
        apply untouched
        intro other stopped
        cases found.symm.trans stopped
        exact Nat.not_lt.mp large

end Clamp

end Mirage.Kernel.TcDivert
