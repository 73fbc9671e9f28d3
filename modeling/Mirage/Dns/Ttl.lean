import Mirage.Dns.Answers

/-!
`min_answer_ttl` and `set_answer_ttls` of dns/server.rs on one message: both walk
the records that `answerTtls` lists, and the bytes that are set are none that the
walk reads.
-/

namespace Mirage.Dns
open Word

/-- Where the TTLs of the answer records stand, from the record at `pos` on. The
walk ends where the message is cut short. -/
def ttlsFrom (resp : Bytes) : Nat → Nat → List Nat
  | 0, _ => []
  | count + 1, pos =>
      match skipName resp pos with
      | none => []
      | some afterName =>
          if resp.length < afterName + 10 then []
          else
            let next := afterName + 10 + u16At resp (afterName + 8)
            (afterName + 4) :: if resp.length < next then [] else ttlsFrom resp count next

def answerTtls (resp : Bytes) : List Nat :=
  if resp.length < 12 ∨ u16At resp 6 = 0 then []
  else ttlsFrom resp (u16At resp 6) (questionEnd resp)

section Writes
variable {data bytes : Bytes} {pos i : Nat}

theorem writeAt_length (inside : pos + bytes.length ≤ data.length) :
    (writeAt data pos bytes).length = data.length := by
  simp only [writeAt, List.length_append, List.length_take, List.length_drop]
  omega

theorem writeAt_outside (inside : pos ≤ data.length)
    (outside : i < pos ∨ pos + bytes.length ≤ i) : (writeAt data pos bytes)[i]? = data[i]? := by
  have front : (data.take pos).length = pos := List.length_take_of_le inside
  rw [writeAt, List.append_assoc]
  rcases outside with before | after
  · rw [List.getElem?_append_left (by omega), List.getElem?_take_of_lt before]
  · rw [List.getElem?_append_right (by omega), front, List.getElem?_append_right (by omega),
      List.getElem?_drop]
    congr 1
    omega

theorem writeAt_inside (inside : pos ≤ data.length) (here : i < bytes.length) :
    (writeAt data pos bytes)[pos + i]? = bytes[i]? := by
  have front : (data.take pos).length = pos := List.length_take_of_le inside
  rw [writeAt, List.append_assoc, List.getElem?_append_right (by omega), front,
    Nat.add_sub_cancel_left, List.getElem?_append_left here]

end Writes

section Walk
variable {resp out : Bytes} {pos count : Nat}

theorem skipName_congr {after : Nat} (skipped : skipName resp pos = some after)
    (agree : ∀ i, pos ≤ i → i < after → out[i]? = resp[i]?) :
    pos < after ∧ skipName out pos = some after := by
  induction pos using skipName.induct resp with
  | case1 pos bound len zero =>
      rw [skipName, dif_pos bound] at skipped
      dsimp only at skipped
      rw [if_pos zero] at skipped
      cases skipped
      have same := agree pos (Nat.le_refl _) (Nat.lt_succ_self _)
      rw [List.getElem?_eq_getElem bound] at same
      obtain ⟨inside, there⟩ := List.getElem?_eq_some_iff.mp same
      refine ⟨Nat.lt_succ_self _, ?_⟩
      rw [skipName, dif_pos inside]
      dsimp only
      rw [there, if_pos zero]
  | case2 pos bound len more pointer =>
      rw [skipName, dif_pos bound] at skipped
      dsimp only at skipped
      rw [if_neg more, if_pos pointer] at skipped
      cases skipped
      have same := agree pos (Nat.le_refl _) (by omega)
      rw [List.getElem?_eq_getElem bound] at same
      obtain ⟨inside, there⟩ := List.getElem?_eq_some_iff.mp same
      refine ⟨by omega, ?_⟩
      rw [skipName, dif_pos inside]
      dsimp only
      rw [there, if_neg more, if_pos pointer]
  | case3 pos bound len more noPointer odd =>
      rw [skipName, dif_pos bound] at skipped
      dsimp only at skipped
      rw [if_neg more, if_neg noPointer, if_pos odd] at skipped
      cases skipped
  | case4 pos bound len more noPointer plain ih =>
      rw [skipName, dif_pos bound] at skipped
      dsimp only at skipped
      rw [if_neg more, if_neg noPointer, if_neg plain] at skipped
      obtain ⟨above, later⟩ := ih skipped fun i low high => agree i (by omega) high
      have same := agree pos (Nat.le_refl _) (by omega)
      rw [List.getElem?_eq_getElem bound] at same
      obtain ⟨inside, there⟩ := List.getElem?_eq_some_iff.mp same
      refine ⟨by omega, ?_⟩
      rw [skipName, dif_pos inside]
      dsimp only
      rw [there, if_neg more, if_neg noPointer, if_neg plain]
      exact later
  | case5 pos outside =>
      rw [skipName, dif_neg outside] at skipped
      cases skipped

/-- A walk begins behind a position, and each record has its head in the message. -/
theorem ttlsFrom_bounds {p : Nat} (member : p ∈ ttlsFrom resp count pos) :
    pos + 5 ≤ p ∧ p + 6 ≤ resp.length := by
  induction count generalizing pos with
  | zero => cases member
  | succ count ih =>
      rw [ttlsFrom] at member
      split at member
      · cases member
      · next after skipped =>
        have above := (skipName_congr skipped fun _ _ _ => rfl).1
        split at member
        · cases member
        · dsimp only at member
          rcases List.mem_cons.mp member with rfl | later
          · omega
          · split at later
            · cases later
            · have rest := ih later
              omega

structure SameBut (resp out : Bytes) (pos : Nat) (ttls : List Nat) : Prop where
  length : out.length = resp.length
  agree : ∀ i, pos ≤ i → (∀ p ∈ ttls, i < p ∨ p + 4 ≤ i) → out[i]? = resp[i]?

theorem u16At_congr {at_ : Nat} (low : out[at_]? = resp[at_]?)
    (high : out[at_ + 1]? = resp[at_ + 1]?) : u16At out at_ = u16At resp at_ := by
  simp only [u16At, List.getD_eq_getElem?_getD, low, high]

/-- Where a walk has a first record, so has that of a message which is the same but
for the TTLs, and the rest of the walk begins where they agree again. -/
theorem sameBut_record {after : Nat} (skipped : skipName resp pos = some after)
    (whole : ¬resp.length < after + 10)
    (same : SameBut resp out pos (ttlsFrom resp (count + 1) pos)) :
    skipName out pos = some after ∧ u16At out (after + 8) = u16At resp (after + 8) ∧
      (¬resp.length < after + 10 + u16At resp (after + 8) →
        SameBut resp out (after + 10 + u16At resp (after + 8))
          (ttlsFrom resp count (after + 10 + u16At resp (after + 8)))) := by
  have listed : ttlsFrom resp (count + 1) pos = (after + 4) ::
      if resp.length < after + 10 + u16At resp (after + 8) then []
      else ttlsFrom resp count (after + 10 + u16At resp (after + 8)) := by
    rw [ttlsFrom, skipped]
    exact if_neg whole
  rw [listed] at same
  have later : ∀ p ∈ (if resp.length < after + 10 + u16At resp (after + 8) then []
      else ttlsFrom resp count (after + 10 + u16At resp (after + 8))), after + 10 ≤ p := by
    intro p member
    split at member
    · cases member
    · have bounds := ttlsFrom_bounds member
      omega
  have elsewhere : ∀ i, pos ≤ i → i < after + 10 → (i < after + 4 ∨ after + 8 ≤ i) →
      out[i]? = resp[i]? := by
    intro i low high apart
    refine same.agree i low fun p member => ?_
    rcases List.mem_cons.mp member with rfl | rest
    · omega
    · have above := later p rest
      omega
  have above := (skipName_congr skipped fun _ _ _ => rfl).1
  have name := (skipName_congr skipped fun i low high =>
    elsewhere i low (by omega) (by omega)).2
  refine ⟨name, ?_, ?_⟩
  · exact u16At_congr (elsewhere _ (by omega) (by omega) (by omega))
      (elsewhere _ (by omega) (by omega) (by omega))
  · intro inside
    refine ⟨same.length, fun i low apart => same.agree i (by omega) fun p member => ?_⟩
    rcases List.mem_cons.mp member with rfl | rest
    · omega
    · rw [if_neg inside] at rest
      exact apart p rest

/-- The TTLs do not steer the walk. -/
theorem ttlsFrom_congr (same : SameBut resp out pos (ttlsFrom resp count pos))
    (fromHere : pos ≤ resp.length) : ttlsFrom out count pos = ttlsFrom resp count pos := by
  induction count generalizing pos with
  | zero => rfl
  | succ count ih =>
      cases skipped : skipName resp pos with
      | none =>
          -- without a record the messages agree to the end
          have none_ : ttlsFrom resp (count + 1) pos = [] := by
            rw [ttlsFrom, skipped]
          rw [none_] at same ⊢
          have unskipped : skipName out pos = none := by
            cases other : skipName out pos with
            | none => rfl
            | some after =>
                have back := (skipName_congr other fun i low _ =>
                  (same.agree i low fun _ member => absurd member List.not_mem_nil).symm).2
                rw [skipped] at back
                cases back
          rw [ttlsFrom, unskipped]
      | some after =>
          by_cases whole : resp.length < after + 10
          · have none_ : ttlsFrom resp (count + 1) pos = [] := by
              rw [ttlsFrom, skipped]
              exact if_pos whole
            rw [none_] at same ⊢
            have name := (skipName_congr skipped fun i low _ =>
              same.agree i low fun _ member => absurd member List.not_mem_nil).2
            rw [ttlsFrom, name]
            exact if_pos (same.length ▸ whole)
          · obtain ⟨name, rdlen, rest⟩ := sameBut_record skipped whole same
            rw [ttlsFrom, ttlsFrom, skipped, name]
            dsimp only
            rw [same.length, rdlen, if_neg whole, if_neg whole]
            split
            · rfl
            · next inside => rw [ih (rest inside) (by omega)]

end Walk

section Set
variable {resp : Bytes} {pos count : Nat} (ttl : Nat)

def writeAll (resp : Bytes) (ttls : List Nat) : Bytes :=
  ttls.foldl (fun resp p => writeAt resp p (be32 ttl)) resp

theorem writeAll_sameBut {ttls : List Nat} (inside : ∀ p ∈ ttls, p + 6 ≤ resp.length) (low : Nat) :
    SameBut resp (writeAll ttl resp ttls) low ttls := by
  induction ttls generalizing resp with
  | nil => exact ⟨rfl, fun _ _ _ => rfl⟩
  | cons p rest ih =>
      have here := inside p List.mem_cons_self
      have fits : p + (be32 ttl).length ≤ resp.length := by
        rw [show (be32 ttl).length = 4 from rfl]
        omega
      have length := writeAt_length fits
      obtain ⟨sameLength, agree⟩ := @ih (writeAt resp p (be32 ttl)) fun q member => by
        rw [length]
        exact inside q (List.mem_cons_of_mem _ member)
      refine ⟨sameLength.trans length, fun i above apart => ?_⟩
      refine (agree i above fun q member => apart q (List.mem_cons_of_mem _ member)).trans ?_
      exact writeAt_outside (by omega) (apart p List.mem_cons_self)

/-- `set_answer_ttls` writes where the walk over the message as it came leads. -/
theorem setTtlsFrom_eq (fromHere : pos ≤ resp.length) :
    setTtlsFrom ttl count pos resp = writeAll ttl resp (ttlsFrom resp count pos) := by
  induction count generalizing pos resp with
  | zero => rfl
  | succ count ih =>
      rw [setTtlsFrom, ttlsFrom]
      cases skipped : skipName resp pos with
      | none => rfl
      | some after =>
          dsimp only
          by_cases whole : resp.length < after + 10
          · have cut : resp.length < after + 8 + 2 := whole
            rw [if_pos cut, if_pos whole]
            rfl
          · have uncut : ¬resp.length < after + 8 + 2 := whole
            rw [if_neg uncut, if_neg whole]
            have fits : after + 4 + (be32 ttl).length ≤ resp.length := by
              rw [show (be32 ttl).length = 4 from rfl]
              omega
            have length := writeAt_length fits
            have outside : ∀ i, i < after + 4 ∨ after + 8 ≤ i →
                (writeAt resp (after + 4) (be32 ttl))[i]? = resp[i]? := fun i apart =>
              writeAt_outside (by omega) (by rw [show (be32 ttl).length = 4 from rfl]; omega)
            have rdlen : u16At (writeAt resp (after + 4) (be32 ttl)) (after + 8) =
                u16At resp (after + 8) :=
              u16At_congr (outside _ (by omega)) (outside _ (by omega))
            rw [length, rdlen]
            by_cases inside : resp.length < after + 10 + u16At resp (after + 8)
            · have past : resp.length < after + 8 + 2 + u16At resp (after + 8) := inside
              rw [if_pos past, if_pos inside]
              rfl
            · have within_ : ¬resp.length < after + 8 + 2 + u16At resp (after + 8) := inside
              rw [if_neg within_, if_neg inside, ih (by omega)]
              have walk : ttlsFrom (writeAt resp (after + 4) (be32 ttl)) count
                  (after + 10 + u16At resp (after + 8)) =
                  ttlsFrom resp count (after + 10 + u16At resp (after + 8)) :=
                ttlsFrom_congr ⟨length, fun i low _ => outside i (by omega)⟩ (by omega)
              rw [walk]
              rfl

end Set

section Read
variable {resp out : Bytes} {pos count : Nat}

theorem ttlsFrom_apart : (ttlsFrom resp count pos).Pairwise fun p q => p + 4 ≤ q := by
  induction count generalizing pos with
  | zero => exact List.Pairwise.nil
  | succ count ih =>
      rw [ttlsFrom]
      split
      · exact List.Pairwise.nil
      · split
        · exact List.Pairwise.nil
        · dsimp only
          refine List.pairwise_cons.mpr ⟨?_, ?_⟩
          · intro q member
            split at member
            · cases member
            · have bounds := ttlsFrom_bounds member
              omega
          · split
            · exact List.Pairwise.nil
            · exact ih

theorem writeAll_getElem? (ttl : Nat) {ttls : List Nat}
    (apart : ttls.Pairwise fun p q => p + 4 ≤ q) (inside : ∀ p ∈ ttls, p + 6 ≤ resp.length) :
    ∀ p ∈ ttls, ∀ i, i < 4 → (writeAll ttl resp ttls)[p + i]? = (be32 ttl)[i]? := by
  induction ttls generalizing resp with
  | nil => exact fun _ member => absurd member List.not_mem_nil
  | cons p rest ih =>
      obtain ⟨first, later⟩ := List.pairwise_cons.mp apart
      have here := inside p List.mem_cons_self
      have length : (writeAt resp p (be32 ttl)).length = resp.length :=
        writeAt_length (by rw [show (be32 ttl).length = 4 from rfl]; omega)
      have insideRest : ∀ q ∈ rest, q + 6 ≤ (writeAt resp p (be32 ttl)).length := by
        intro q member
        rw [length]
        exact inside q (List.mem_cons_of_mem _ member)
      intro q member i low
      rcases List.mem_cons.mp member with rfl | inRest
      · have kept : (writeAll ttl (writeAt resp q (be32 ttl)) rest)[q + i]? =
            (writeAt resp q (be32 ttl))[q + i]? :=
          (writeAll_sameBut ttl insideRest 0).agree _ (Nat.zero_le _) fun p inRest => by
            have above := first p inRest
            omega
        exact kept.trans (writeAt_inside (by omega) low)
      · exact ih later insideRest q inRest i low

theorem u32At_of_bytes {ttl : UInt32} (set : ∀ i, i < 4 → resp[pos + i]? = (be32 ttl.toNat)[i]?) :
    u32At resp pos = ttl.toNat := by
  have read : ∀ i, i < 4 → resp.getD (pos + i) 0 = (be32 ttl.toNat).getD i 0 := by
    intro i here
    rw [List.getD_eq_getElem?_getD, List.getD_eq_getElem?_getD, set i here]
  have first := read 0 (by omega)
  rw [Nat.add_zero] at first
  rw [u32At, first, read 1 (by omega), read 2 (by omega), read 3 (by omega)]
  have fits := ttl.toNat_lt
  simp only [be32, fromBe32, List.getD_cons_zero, List.getD_cons_succ, UInt8.toNat_ofNat']
  omega

theorem writeAll_again (ttl : Nat) {ttls : List Nat}
    (apart : ttls.Pairwise fun p q => p + 4 ≤ q) (inside : ∀ p ∈ ttls, p + 6 ≤ resp.length)
    (set : ∀ p ∈ ttls, ∀ i, i < 4 → resp[p + i]? = (be32 ttl)[i]?) :
    writeAll ttl resp ttls = resp := by
  refine List.ext_getElem? fun i => ?_
  by_cases touched : ∃ p ∈ ttls, p ≤ i ∧ i < p + 4
  · obtain ⟨p, member, above, below⟩ := touched
    have offset : p + (i - p) = i := by omega
    have now := writeAll_getElem? ttl apart inside p member (i - p) (by omega)
    have before := set p member (i - p) (by omega)
    rw [offset] at now before
    rw [now, before]
  · refine (writeAll_sameBut ttl inside 0).agree i (Nat.zero_le _) fun p member => ?_
    by_cases low : i < p
    · exact .inl low
    · exact .inr (Nat.le_of_not_lt fun high => touched ⟨p, member, by omega, high⟩)

/-- Where the least TTL is defined, it is of the records walked, and that of a
message with one TTL in all of them is this one. -/
theorem minTtlFrom_same {ttl : Nat} {least least' found : Option Nat}
    (defined : minTtlFrom resp count pos least = some found)
    (same : SameBut resp out pos (ttlsFrom resp count pos))
    (set : ∀ p ∈ ttlsFrom resp count pos, u32At out p = ttl)
    (before : least' = none ∨ least' = some ttl) :
    (ttlsFrom resp count pos = [] → found = least) ∧
      minTtlFrom out count pos least' =
        some (if ttlsFrom resp count pos = [] then least' else some ttl) := by
  induction count generalizing pos least least' with
  | zero =>
      cases defined
      exact ⟨fun _ => rfl, rfl⟩
  | succ count ih =>
      rw [minTtlFrom] at defined ⊢
      obtain ⟨after, skipped, defined⟩ := Option.bind_eq_some_iff.mp defined
      by_cases whole : resp.length < after + 10
      · have none_ : ttlsFrom resp (count + 1) pos = [] := by
          rw [ttlsFrom, skipped]
          exact if_pos whole
        rw [none_] at same ⊢
        have name := (skipName_congr skipped fun i low _ =>
          same.agree i low fun _ member => absurd member List.not_mem_nil).2
        rw [if_pos whole] at defined
        cases defined
        rw [name, Option.bind_eq_bind, Option.bind_some, same.length, if_pos whole]
        exact ⟨fun _ => rfl, rfl⟩
      · obtain ⟨name, rdlen, rest⟩ := sameBut_record skipped whole same
        have listed : ttlsFrom resp (count + 1) pos = (after + 4) ::
            if resp.length < after + 10 + u16At resp (after + 8) then []
            else ttlsFrom resp count (after + 10 + u16At resp (after + 8)) := by
          rw [ttlsFrom, skipped]
          exact if_neg whole
        rw [listed] at set ⊢
        refine ⟨fun empty => (nomatch empty), ?_⟩
        rw [if_neg whole] at defined
        rw [name, Option.bind_eq_bind, Option.bind_some, same.length, if_neg whole]
        dsimp only at defined ⊢
        rw [rdlen, set _ List.mem_cons_self, if_neg (List.cons_ne_nil _ _)]
        have outcome : minTtlFrom out count (after + 10 + u16At resp (after + 8)) (some ttl) =
            some (some ttl) := by
          by_cases past : resp.length < after + 10 + u16At resp (after + 8)
          · -- only the last record may reach past the end
            have none_ : skipName resp (after + 10 + u16At resp (after + 8)) = none := by
              rw [skipName, dif_neg (by omega)]
            cases count with
            | zero => rfl
            | succ count =>
                rw [minTtlFrom, none_] at defined
                cases defined
          · rw [if_neg past] at set
            obtain ⟨_, rest_⟩ := ih defined (rest past)
              (fun p member => set p (List.mem_cons_of_mem _ member)) (.inr rfl)
            rw [rest_, ite_self]
        rcases before with rfl | rfl
        · exact outcome
        · dsimp only
          rw [Nat.min_self]
          exact outcome

theorem questionsEnd_ge (data : Bytes) (fromHere : pos ≤ data.length) :
    pos ≤ questionsEnd data count pos := by
  induction count generalizing pos with
  | zero => exact Nat.le_refl _
  | succ count ih =>
      rw [questionsEnd]
      split
      · exact fromHere
      · have name := nameEnd_ge data pos
        have later := @ih (nameEnd data pos + 4) (by omega)
        omega

theorem questionsEnd_congr (length : out.length = resp.length) (fromHere : pos ≤ resp.length)
    (agree : ∀ i, pos ≤ i → i < questionsEnd resp count pos → out[i]? = resp[i]?) :
    questionsEnd out count pos = questionsEnd resp count pos := by
  induction count generalizing pos with
  | zero => rfl
  | succ count ih =>
      have bytes : ∀ stop, stop ≤ questionsEnd resp (count + 1) pos → ∀ i, pos ≤ i → i < stop →
          resp.getD i 0 = out.getD i 0 := by
        intro stop low i above below
        rw [List.getD_eq_getElem?_getD, List.getD_eq_getElem?_getD, agree i above (by omega)]
      have names : ∀ stop, stop ≤ resp.length → stop ≤ questionsEnd resp (count + 1) pos →
          min (nameEnd resp pos) stop = min (nameEnd out pos) stop := fun stop inside low =>
        nameEnd_agree inside (by omega) (bytes stop low)
      rw [questionsEnd] at names agree ⊢
      rw [questionsEnd]
      by_cases past : resp.length < nameEnd resp pos + 4
      · rw [if_pos past] at names ⊢
        have same := names resp.length (Nat.le_refl _) (Nat.le_refl _)
        rw [length, if_pos (by omega)]
      · rw [if_neg past] at names agree ⊢
        have above := @questionsEnd_ge (nameEnd resp pos + 4) count resp (by omega)
        have same := names (nameEnd resp pos + 1) (by omega) (by omega)
        have name : nameEnd out pos = nameEnd resp pos := by omega
        rw [length, name, if_neg past]
        have start := nameEnd_ge resp pos
        exact ih (by omega) fun i low => agree i (by omega)

theorem questionEnd_ge (whole : 12 ≤ resp.length) : 12 ≤ questionEnd resp := by
  rw [questionEnd, if_neg (by omega)]
  exact questionsEnd_ge resp whole

theorem question_same (whole : 12 ≤ resp.length)
    (same : SameBut resp out 0 (ttlsFrom resp (u16At resp 6) (questionEnd resp))) :
    u16At out 6 = u16At resp 6 ∧ questionEnd out = questionEnd resp := by
  have start := questionEnd_ge whole
  have agree : ∀ i, i < questionEnd resp + 5 → out[i]? = resp[i]? := by
    intro i low
    refine same.agree i (Nat.zero_le _) fun p member => ?_
    have bounds := ttlsFrom_bounds member
    omega
  have counts : ∀ i, i < 12 → u16At out i = u16At resp i := fun i low =>
    u16At_congr (agree i (by omega)) (agree (i + 1) (by omega))
  refine ⟨counts 6 (by omega), ?_⟩
  rw [questionEnd, questionEnd, if_neg (by rw [same.length]; omega), if_neg (by omega),
    counts 4 (by omega)]
  refine questionsEnd_congr same.length whole fun i _ low => agree i ?_
  rw [questionEnd, if_neg (by omega)]
  omega

end Read

/-- Setting the TTLs of a message touches the TTLs of the records it walks and
nothing else, all of them in the message; if the message has a least TTL, the given
one is it afterwards; and setting them again changes nothing. -/
theorem set_answer_ttls_faithful (resp : Bytes) (ttl : UInt32) :
    (setAnswerTtls resp ttl.toNat).length = resp.length ∧
    (∀ i, (∀ p ∈ answerTtls resp, i < p ∨ p + 4 ≤ i) →
      (setAnswerTtls resp ttl.toNat)[i]? = resp[i]?) ∧
    (∀ p ∈ answerTtls resp, p + 6 ≤ resp.length ∧
      u32At (setAnswerTtls resp ttl.toNat) p = ttl.toNat) ∧
    (∀ least, minAnswerTtl resp = some least →
      minAnswerTtl (setAnswerTtls resp ttl.toNat) = some ttl.toNat) ∧
    setAnswerTtls (setAnswerTtls resp ttl.toNat) ttl.toNat = setAnswerTtls resp ttl.toNat := by
  by_cases short : resp.length < 12 ∨ u16At resp 6 = 0
  · have same : setAnswerTtls resp ttl.toNat = resp := if_pos short
    have none_ : answerTtls resp = [] := if_pos short
    have undefined : minAnswerTtl resp = none := if_pos short
    rw [same, none_, undefined]
    exact ⟨rfl, fun _ _ => rfl, fun _ member => absurd member List.not_mem_nil,
      fun _ missing => (nomatch missing), same⟩
  · have whole : 12 ≤ resp.length := by omega
    have walk : answerTtls resp = ttlsFrom resp (u16At resp 6) (questionEnd resp) := if_neg short
    have written : setAnswerTtls resp ttl.toNat = writeAll ttl.toNat resp (answerTtls resp) := by
      rw [walk]
      exact (if_neg short).trans (setTtlsFrom_eq ttl.toNat (questionEnd_le resp))
    have inside : ∀ p ∈ answerTtls resp, p + 6 ≤ resp.length := by
      rw [walk]
      exact fun p member => (ttlsFrom_bounds member).2
    have same : SameBut resp (setAnswerTtls resp ttl.toNat) 0 (answerTtls resp) := by
      rw [written]
      exact writeAll_sameBut ttl.toNat inside 0
    have apart : (answerTtls resp).Pairwise fun p q => p + 4 ≤ q := by
      rw [walk]
      exact ttlsFrom_apart
    have bytes : ∀ p ∈ answerTtls resp, ∀ i, i < 4 →
        (setAnswerTtls resp ttl.toNat)[p + i]? = (be32 ttl.toNat)[i]? := by
      rw [written]
      exact writeAll_getElem? ttl.toNat apart inside
    have set : ∀ p ∈ answerTtls resp, u32At (setAnswerTtls resp ttl.toNat) p = ttl.toNat :=
      fun p member => u32At_of_bytes (bytes p member)
    rw [walk] at same set
    obtain ⟨count, start⟩ := question_same whole same
    have shortToo : ¬((setAnswerTtls resp ttl.toNat).length < 12 ∨
        u16At (setAnswerTtls resp ttl.toNat) 6 = 0) := by
      rw [same.length, count]
      exact short
    have fromHere : SameBut resp (setAnswerTtls resp ttl.toNat) (questionEnd resp)
        (ttlsFrom resp (u16At resp 6) (questionEnd resp)) :=
      ⟨same.length, fun i _ apart => same.agree i (Nat.zero_le _) apart⟩
    refine ⟨same.length, ?_, ?_, ?_, ?_⟩
    · rw [walk]
      exact fun i apart => same.agree i (Nat.zero_le _) apart
    · rw [walk] at inside ⊢
      exact fun p member => ⟨inside p member, set p member⟩
    · intro least defined
      rw [minAnswerTtl, if_neg short] at defined
      obtain ⟨empty, outcome⟩ := minTtlFrom_same (Option.join_eq_some_iff.mp defined) fromHere set
        (.inl rfl)
      rw [minAnswerTtl, if_neg shortToo, count, start, outcome]
      have some_ : ttlsFrom resp (u16At resp 6) (questionEnd resp) ≠ [] := by
        intro none_
        cases empty none_
      rw [if_neg some_]
      rfl
    · -- every byte is as it was set the first time
      have again : setAnswerTtls (setAnswerTtls resp ttl.toNat) ttl.toNat =
          writeAll ttl.toNat (setAnswerTtls resp ttl.toNat) (answerTtls resp) := by
        refine (if_neg shortToo).trans ?_
        rw [count, start, setTtlsFrom_eq ttl.toNat (by rw [same.length]; exact questionEnd_le resp),
          ttlsFrom_congr fromHere (questionEnd_le resp), walk]
      rw [again]
      refine writeAll_again ttl.toNat apart (fun p member => ?_) bytes
      rw [same.length]
      exact inside p member

end Mirage.Dns
