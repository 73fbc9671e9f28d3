import Mathlib.Data.List.Pairwise
import Mirage.Kernel.TcDivert

/-!
The options of a TCP header as the protocol lays them out, and the loop of
`clamp_tcp_mss` over them. The loop sees the first ten options, and those only
as far as the linear part of the packet reaches.
-/

namespace Mirage.Kernel.TcDivert
open Word

section Layout

/-- One option: where it begins, its kind, and how many bytes it takes. -/
structure TcpOption where
  pos : Nat
  kind : UInt8
  len : Nat
  deriving DecidableEq

/-- The options of the area from a position on, up to the end-of-list option or
one that does not fit. -/
def options (area : Bytes) (pos : Nat) : List TcpOption :=
  if pos < area.length then
    let kind := area.getD pos 0
    if kind = 0 then []
    else if kind = 1 then ⟨pos, 1, 1⟩ :: options area (pos + 1)
    else
      let len := (area.getD (pos + 1) 0).toNat
      if 2 ≤ len ∧ pos + len ≤ area.length then ⟨pos, kind, len⟩ :: options area (pos + len)
      else []
  else []
termination_by area.length - pos
decreasing_by
  · omega
  · exact Nat.sub_lt_sub_left (by assumption) (by omega)

def TcpOption.isMss (self : TcpOption) : Bool := self.kind = 2 && self.len = 4

def TcpOption.mss (area : Bytes) (self : TcpOption) : Nat := (be16At area (self.pos + 2)).toNat

variable {area other : Bytes} {pos : Nat} {opt : TcpOption}

theorem options_end (kind : area.getD pos 0 = 0) : options area pos = [] := by
  rw [options, if_pos kind, ite_self]

theorem options_nop (inside : pos < area.length) (kind : area.getD pos 0 = 1) :
    options area pos = ⟨pos, 1, 1⟩ :: options area (pos + 1) := by
  have go : ¬ area.getD pos 0 = 0 := by
    rw [kind]
    decide
  rw [options, if_pos inside]
  simp only [if_neg go, if_pos kind]

theorem options_fit (inside : pos < area.length) (go : area.getD pos 0 ≠ 0)
    (long : area.getD pos 0 ≠ 1)
    (fits : 2 ≤ (area.getD (pos + 1) 0).toNat ∧
      pos + (area.getD (pos + 1) 0).toNat ≤ area.length) :
    options area pos = ⟨pos, area.getD pos 0, (area.getD (pos + 1) 0).toNat⟩ ::
      options area (pos + (area.getD (pos + 1) 0).toNat) := by
  rw [options, if_pos inside]
  simp only [if_neg go, if_neg long, if_pos fits]

theorem options_unfit (go : area.getD pos 0 ≠ 0) (long : area.getD pos 0 ≠ 1)
    (short : ¬ (2 ≤ (area.getD (pos + 1) 0).toNat ∧
      pos + (area.getD (pos + 1) 0).toNat ≤ area.length)) : options area pos = [] := by
  rw [options]
  simp only [if_neg go, if_neg long, if_neg short, ite_self]

theorem options_outside (outside : ¬ pos < area.length) : options area pos = [] := by
  rw [options, if_neg outside]

theorem options_mem (member : opt ∈ options area pos) :
    pos ≤ opt.pos ∧ 0 < opt.len ∧ opt.pos + opt.len ≤ area.length := by
  induction pos using options.induct area with
  | case1 pos inside kind stop =>
      rw [options_end stop] at member
      cases member
  | case2 pos inside kind go nop ih =>
      rw [options_nop inside nop] at member
      rcases List.mem_cons.mp member with rfl | later
      · exact ⟨Nat.le_refl _, Nat.one_pos, inside⟩
      · obtain ⟨behind, rest⟩ := ih later
        exact ⟨Nat.le_of_succ_le behind, rest⟩
  | case3 pos inside kind go long len fits ih =>
      rw [options_fit inside go long fits] at member
      rcases List.mem_cons.mp member with rfl | later
      · exact ⟨Nat.le_refl _, Nat.lt_of_lt_of_le Nat.two_pos fits.1, fits.2⟩
      · obtain ⟨behind, rest⟩ := ih later
        exact ⟨Nat.le_trans (Nat.le_add_right _ _) behind, rest⟩
  | case4 pos inside kind go long len short =>
      rw [options_unfit go long short] at member
      cases member
  | case5 pos outside =>
      rw [options_outside outside] at member
      cases member

end Layout

section Loop

/-- The option the loop stops at: the first MSS option among the first ten, if
it lies in the linear part. -/
def reached (area : Bytes) (linearLen : Nat) (rounds pos : Nat) : Option TcpOption :=
  (((options area pos).take rounds).find? TcpOption.isMss).filter (·.pos + 4 ≤ linearLen)

variable {area linear paged : Bytes} {optsLen rounds pos : Nat} {opt : TcpOption}

theorem isMss_len (mss : opt.isMss = true) : opt.kind = 2 ∧ opt.len = 4 := by
  simpa [TcpOption.isMss] using mss

theorem reached_eq_none {linearLen : Nat}
    (far : ∀ opt ∈ options area pos, opt.isMss = true → linearLen < opt.pos + 4) :
    reached area linearLen rounds pos = none := by
  rw [reached, Option.filter_eq_none_iff]
  intro opt found
  have member := List.mem_of_mem_take (List.mem_of_find?_eq_some found)
  have away := far opt member (List.find?_some found)
  simpa using away

theorem findMss_eq_none (short : linear.length < pos + 2) : findMss optsLen linear rounds pos = none := by
  cases rounds with
  | zero => rfl
  | succ rounds =>
      rw [findMss, if_pos short, ite_self]

theorem reached_nil {linearLen : Nat} (none_left : options area pos = []) :
    reached area linearLen rounds pos = none := by
  rw [reached, none_left, List.take_nil]
  rfl

theorem reached_cons {linearLen next : Nat} (head : options area pos = opt :: options area next) :
    reached area linearLen (rounds + 1) pos =
      if opt.isMss then (some opt).filter (·.pos + 4 ≤ linearLen)
      else reached area linearLen rounds next := by
  rw [reached, head, List.take_succ_cons, List.find?_cons]
  cases opt.isMss <;> rfl

theorem area_getD (linearBound : pos < linear.length) (optsBound : pos < optsLen) :
    ((linear ++ paged).take optsLen).getD pos 0 = linear.getD pos 0 := by
  rw [List.getD_eq_getElem?_getD, List.getD_eq_getElem?_getD, List.getElem?_take_of_lt optsBound,
    List.getElem?_append_left linearBound]

/-- The loop stops at the option that the layout says it reaches. -/
theorem findMss_eq (rounds pos : Nat) :
    findMss optsLen linear rounds pos =
      (reached ((linear ++ paged).take optsLen) linear.length rounds pos).map TcpOption.pos := by
  have length : ((linear ++ paged).take optsLen).length = min optsLen (linear.length + paged.length) := by
    rw [List.length_take, List.length_append]
  induction rounds generalizing pos with
  | zero => simp [findMss, reached]
  | succ rounds ih =>
      have bounded : ∀ opt ∈ options ((linear ++ paged).take optsLen) pos, opt.isMss = true →
          pos ≤ opt.pos ∧ opt.pos + 4 ≤ optsLen := by
        intro opt member mss
        obtain ⟨behind, -, inside⟩ := options_mem member
        rw [(isMss_len mss).2, length] at inside
        exact ⟨behind, Nat.le_trans inside (Nat.min_le_left _ _)⟩
      rw [findMss]
      split
      · next short =>
          rw [reached_eq_none]
          · rfl
          · intro opt member mss
            have := bounded opt member mss
            omega
      split
      · next short =>
          rw [reached_eq_none]
          · rfl
          · intro opt member mss
            have := bounded opt member mss
            omega
      next room linearRoom =>
      have inside : pos < ((linear ++ paged).take optsLen).length := by omega
      have kind : ((linear ++ paged).take optsLen).getD pos 0 = linear.getD pos 0 :=
        area_getD (by omega) (by omega)
      have olen : ((linear ++ paged).take optsLen).getD (pos + 1) 0 = linear.getD (pos + 1) 0 :=
        area_getD (by omega) (by omega)
      by_cases stop : linear.getD pos 0 = 0
      · simp only [if_pos stop]
        rw [reached_nil (options_end (kind.trans stop))]
        rfl
      by_cases nop : linear.getD pos 0 = 1
      · simp only [if_neg stop, if_pos nop]
        rw [reached_cons (options_nop inside (kind.trans nop)), ih]
        rfl
      simp only [if_neg stop, if_neg nop]
      have go := fun same => stop (kind.symm.trans same)
      have long := fun same => nop (kind.symm.trans same)
      split
      · next tiny =>
          rw [reached_nil (options_unfit go long (by rw [olen]; omega))]
          rfl
      split
      · next beyond =>
          rw [reached_nil (options_unfit go long (by rw [olen]; omega))]
          rfl
      -- Past the checks the option has a length; it may still reach beyond the segment.
      next enough within =>
      by_cases fits : pos + (linear.getD (pos + 1) 0).toNat ≤
          ((linear ++ paged).take optsLen).length
      · have head := options_fit inside go long (by rw [olen]; exact ⟨Nat.not_lt.mp enough, fits⟩)
        rw [reached_cons head, kind, olen]
        by_cases mss : linear.getD pos 0 = 2 ∧ (linear.getD (pos + 1) 0).toNat = 4
        · have isMss : TcpOption.isMss ⟨pos, linear.getD pos 0, (linear.getD (pos + 1) 0).toNat⟩ =
              true := by
            simp only [TcpOption.isMss, mss.1, mss.2, decide_true, Bool.and_self]
          rw [if_pos mss, if_pos isMss, Option.filter_some]
          split
          · next far => rw [if_neg (by simpa using far)]; rfl
          · next near => rw [if_pos (by simpa using near)]; rfl
        · have other : ¬ TcpOption.isMss ⟨pos, linear.getD pos 0,
              (linear.getD (pos + 1) 0).toNat⟩ = true := fun same => mss (isMss_len same)
          rw [if_neg mss, if_neg other, ih]
      -- Such an option ends the list, and the loop finds nothing behind it.
      · have cut : linear.length < pos + (linear.getD (pos + 1) 0).toNat := by
          omega
        have unfit : ¬ (2 ≤ (((linear ++ paged).take optsLen).getD (pos + 1) 0).toNat ∧
            pos + (((linear ++ paged).take optsLen).getD (pos + 1) 0).toNat ≤
              ((linear ++ paged).take optsLen).length) := by
          rw [olen]
          exact fun both => fits both.2
        rw [reached_nil (options_unfit go long unfit)]
        split
        · next mss => rw [if_pos (by omega)]; rfl
        · exact findMss_eq_none (by omega)

end Loop

section Store

variable {area other : Bytes} {pos : Nat} {field : Be16} {opt : TcpOption}

@[simp] theorem length_storeBe16 (inside : pos + 2 ≤ area.length) :
    (storeBe16 area pos field).length = area.length := by
  simp only [storeBe16, Be16.bytes, List.length_append, List.length_take, List.length_drop,
    List.length_cons, List.length_nil]
  omega

theorem getD_storeBe16 {i : Nat} (inside : pos + 2 ≤ area.length) (away : i < pos ∨ pos + 2 ≤ i) :
    (storeBe16 area pos field).getD i 0 = area.getD i 0 := by
  have size : (area.take pos).length = pos := by
    rw [List.length_take]
    omega
  simp only [storeBe16, List.getD_eq_getElem?_getD, List.append_assoc]
  rcases away with before | behind
  · rw [List.getElem?_append_left (by omega), List.getElem?_take_of_lt before]
  · have two : (field.bytes).length = 2 := rfl
    rw [List.getElem?_append_right (by omega), List.getElem?_append_right (by omega), size, two,
      List.getElem?_drop, show pos + 2 + (i - pos - 2) = i by omega]

theorem be16At_storeBe16 (inside : pos + 2 ≤ area.length) :
    be16At (storeBe16 area pos field) pos = field := by
  have size : (area.take pos).length = pos := by
    rw [List.length_take]
    omega
  have behind : (storeBe16 area pos field).drop pos = field.bytes ++ area.drop (pos + 2) := by
    rw [storeBe16, List.append_assoc, List.drop_left' size]
  have first : (storeBe16 area pos field).getD pos 0 = field.high := by
    have head := congrArg (·.getD 0 0) behind
    simpa [List.getD_eq_getElem?_getD, Be16.bytes] using head
  have second : (storeBe16 area pos field).getD (pos + 1) 0 = field.low := by
    have head := congrArg (·.getD 1 0) behind
    simpa [List.getD_eq_getElem?_getD, Be16.bytes] using head
  rw [be16At, first, second]

theorem be16At_away {i : Nat} (inside : pos + 2 ≤ area.length) (away : i + 2 ≤ pos ∨ pos + 2 ≤ i) :
    be16At (storeBe16 area pos field) i = be16At area i := by
  rw [be16At, be16At, getD_storeBe16 inside (by omega), getD_storeBe16 inside (by omega)]

theorem options_congr (length : other.length = area.length)
    (same : ∀ i, pos ≤ i → other.getD i 0 = area.getD i 0) : options other pos = options area pos := by
  induction pos using options.induct area with
  | case1 pos inside kind stop =>
      rw [options_end stop, options_end ((same pos (Nat.le_refl _)).trans stop)]
  | case2 pos inside kind go nop ih =>
      rw [options_nop inside nop,
        options_nop (length ▸ inside) ((same pos (Nat.le_refl _)).trans nop),
        ih fun i behind => same i (Nat.le_of_succ_le behind)]
  | case3 pos inside kind go long len fits ih =>
      have first := same pos (Nat.le_refl _)
      have second := same (pos + 1) (Nat.le_succ _)
      rw [options_fit inside go long fits, options_fit (length ▸ inside) (by rwa [first])
        (by rwa [first]) (by rwa [second, length]), first, second,
        ih fun i behind => same i (Nat.le_trans (Nat.le_add_right _ _) behind)]
  | case4 pos inside kind go long len short =>
      have first := same pos (Nat.le_refl _)
      have second := same (pos + 1) (Nat.le_succ _)
      rw [options_unfit go long short, options_unfit (by rwa [first]) (by rwa [first])
        (by rwa [second, length])]
  | case5 pos outside =>
      rw [options_outside outside, options_outside (length ▸ outside)]

theorem options_store (member : opt ∈ options area pos) (mss : opt.isMss = true) :
    options (storeBe16 area (opt.pos + 2) field) pos = options area pos := by
  obtain ⟨kind_two, len_four⟩ := isMss_len mss
  have within := (options_mem member).2.2
  rw [len_four] at within
  have room : opt.pos + 2 + 2 ≤ area.length := within
  have length := @length_storeBe16 area (opt.pos + 2) field room
  have kept : ∀ i, i < opt.pos + 2 ∨ opt.pos + 2 + 2 ≤ i →
      (storeBe16 area (opt.pos + 2) field).getD i 0 = area.getD i 0 :=
    fun i away => getD_storeBe16 room away
  induction pos using options.induct area with
  | case1 pos inside kind stop =>
      rw [options_end stop] at member
      cases member
  | case2 pos inside kind go nop ih =>
      rw [options_nop inside nop] at member
      rcases List.mem_cons.mp member with rfl | later
      · cases len_four
      · have behind := (options_mem later).1
        rw [options_nop inside nop, options_nop (length ▸ inside)
          ((kept pos (.inl (by omega))).trans nop), ih later]
  -- An option with a length: the field lies behind its first two bytes, in it or after it.
  | case3 pos inside kind go long len fits ih =>
      rw [options_fit inside go long fits] at member
      have first : (storeBe16 area (opt.pos + 2) field).getD pos 0 = area.getD pos 0 := by
        apply kept
        rcases List.mem_cons.mp member with rfl | later
        · exact .inl (by simp)
        · have := (options_mem later).1
          omega
      have second : (storeBe16 area (opt.pos + 2) field).getD (pos + 1) 0 =
          area.getD (pos + 1) 0 := by
        apply kept
        rcases List.mem_cons.mp member with rfl | later
        · exact .inl (by simp)
        · have := (options_mem later).1
          omega
      rw [options_fit inside go long fits, options_fit (length ▸ inside) (by rwa [first])
        (by rwa [first]) (by rwa [second, length]), first, second]
      congr 1
      rcases List.mem_cons.mp member with same | later
      · apply options_congr length
        intro i behind
        apply kept
        rw [same] at len_four ⊢
        simp only at len_four ⊢
        omega
      · exact ih later
  | case4 pos inside kind go long len short =>
      rw [options_unfit go long short] at member
      cases member
  | case5 pos outside =>
      rw [options_outside outside] at member
      cases member

theorem options_pairwise (area : Bytes) (pos : Nat) :
    (options area pos).Pairwise fun first second => first.pos + first.len ≤ second.pos := by
  induction pos using options.induct area with
  | case1 pos inside kind stop =>
      rw [options_end stop]
      exact .nil
  | case2 pos inside kind go nop ih =>
      rw [options_nop inside nop]
      exact .cons (fun _ later => (options_mem later).1) ih
  | case3 pos inside kind go long len fits ih =>
      rw [options_fit inside go long fits]
      exact .cons (fun _ later => (options_mem later).1) ih
  | case4 pos inside kind go long len short =>
      rw [options_unfit go long short]
      exact .nil
  | case5 pos outside =>
      rw [options_outside outside]
      exact .nil

def TcpOption.Apart (first second : TcpOption) : Prop :=
  first.pos + first.len ≤ second.pos ∨ second.pos + second.len ≤ first.pos

instance : Std.Symm TcpOption.Apart := ⟨fun _ _ => Or.symm⟩

theorem options_apart {first second : TcpOption} (one : first ∈ options area pos)
    (two : second ∈ options area pos) (differs : first ≠ second) : first.Apart second := by
  have either : (options area pos).Pairwise TcpOption.Apart :=
    (options_pairwise area pos).imp Or.inl
  exact either.forall one two differs

end Store

end Mirage.Kernel.TcDivert
