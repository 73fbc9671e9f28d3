import Mathlib.Algebra.Order.BigOperators.Group.List
import Mirage.Rate.Bucket

/-!
Any number of buckets under calls that overlap. A `consume` that has to wait is
kept with the size it was asked for and what it still needs; the bytes count as
`granted` when the call returns.
-/

namespace Mirage.Rate
open Function Trace Meter BucketState

theorem size_nonneg (n : Nat) : (0 : ℚ) ≤ n := Nat.cast_nonneg n

theorem size_le (n : Nat) : (n : ℚ) ≤ n := le_rfl

/-- A `consume` between two passes of its loop. -/
structure Wait (Bucket : Type) where
  bucket : Bucket
  size : Nat
  need : ℚ
  due : ℚ
  need_pos : 0 < need
  need_le : need ≤ size

def Wait.drawn {Bucket : Type} (wait : Wait Bucket) : ℚ := wait.size - wait.need

theorem Wait.drawn_nonneg {Bucket : Type} (wait : Wait Bucket) : 0 ≤ wait.drawn :=
  sub_nonneg.mpr wait.need_le

inductive Call (Bucket : Type) where
  | consume (bucket : Bucket) (n : Nat)
  | wake (index : Nat)
  | cancel (index : Nat)
  | tryConsume (bucket : Bucket) (n : Nat)
  | tryConsumeTwo (b1 b2 : Option Bucket) (n : Nat)

structure Event (Bucket : Type) where
  time : ℚ
  call : Call Bucket

section Model
variable {Bucket : Type} [DecidableEq Bucket] (bucket : Bucket → TokenBucket)

structure State where
  buckets : ∀ b, BucketState (bucket b)
  waiting : List (Wait Bucket)
  granted : Bucket → Nat

/-- All buckets full, as at their creation. -/
def State.new (now : ℚ) : State bucket :=
  { buckets := fun b => .full (bucket b) now, waiting := [], granted := fun _ => 0 }

namespace State
variable {bucket}

def grant (state : State bucket) (b : Bucket) (n : Nat) : State bucket :=
  { state with granted := update state.granted b (state.granted b + n) }

def put (state : State bucket) (b : Bucket) (s : BucketState (bucket b)) : State bucket :=
  { state with buckets := update state.buckets b s }

def hold (state : State bucket) (wait : Wait Bucket) : State bucket :=
  { state with waiting := state.waiting ++ [wait] }

/-- A pass of `consume` for `size` bytes of which `need` are still to be drawn.
The other calls in progress are in `state.waiting`. -/
def attempt (state : State bucket) (b : Bucket) (size : Nat) (need : ℚ) (nonneg : 0 ≤ need)
    (within : need ≤ size) (now : ℚ) : State bucket :=
  let (deficit, s) := (state.buckets b).round need nonneg now
  match deficit with
  | none => (state.put b s).grant b size
  | some deficit =>
      (state.put b s).hold
        { bucket := b, size := size, need := deficit.1, due := now + deficit.1 / (bucket b).rate
          need_pos := deficit.2.1, need_le := deficit.2.2.trans within }

def police (state : State bucket) (b : Bucket) (n : Nat) (now : ℚ) : State bucket :=
  let (pass, s) := (state.buckets b).tryConsume n now
  bif pass then (state.put b s).grant b n else state.put b s

/-- Two distinct buckets; on one bucket twice the source would lock itself out. -/
def policeBoth (state : State bucket) (b1 b2 : Bucket) (n : Nat) (now : ℚ) : State bucket :=
  let (pass, s1, s2) := (state.buckets b1).tryConsumeBoth (state.buckets b2) n now
  let state := (state.put b1 s1).put b2 s2
  bif pass then (state.grant b1 n).grant b2 n else state

def wake (state : State bucket) (index : Nat) (now : ℚ) : Option (State bucket) :=
  match state.waiting[index]? with
  | some wait =>
      if wait.due ≤ now then
        some ({ state with waiting := state.waiting.eraseIdx index }.attempt wait.bucket wait.size
          wait.need wait.need_pos.le wait.need_le now)
      else none
  | none => none

def step (state : State bucket) (event : Event Bucket) : Option (State bucket) :=
  match event.call with
  | .consume b n => some (state.attempt b n n (size_nonneg n) (size_le n) event.time)
  | .wake index => state.wake index event.time
  | .cancel index => some { state with waiting := state.waiting.eraseIdx index }
  | .tryConsume b n => some (state.police b n event.time)
  | .tryConsumeTwo none none _ => some state
  | .tryConsumeTwo (some b) none n | .tryConsumeTwo none (some b) n =>
      some (state.police b n event.time)
  | .tryConsumeTwo (some b1) (some b2) n =>
      if b1 = b2 then none else some (state.policeBoth b1 b2 n event.time)

/-- What the calls in progress on a bucket have drawn from it. -/
def drawn (state : State bucket) (b : Bucket) : ℚ :=
  ((state.waiting.filter (·.bucket = b)).map Wait.drawn).sum

def inProgress (state : State bucket) (b : Bucket) : Nat :=
  state.waiting.countP (·.bucket = b)

/-- The bytes through, the tokens drawn ahead for others and the tokens there. -/
def account (state : State bucket) (b : Bucket) (now : ℚ) : ℚ :=
  state.granted b + state.drawn b + (state.buckets b).level now

section Accounts
variable {state : State bucket} {now : ℚ}

theorem account_grant (b0 b : Bucket) (n : Nat) :
    (state.grant b0 n).account b now = state.account b now + if b = b0 then (n : ℚ) else 0 := by
  by_cases same : b = b0
  · subst same
    simp only [account, grant, drawn, update_self, Nat.cast_add, if_pos]
    ring
  · simp only [account, grant, drawn, update_of_ne same, if_neg same, add_zero]

theorem account_put (b0 b : Bucket) (s : BucketState (bucket b0)) :
    (state.put b0 s).account b now =
      state.account b now + if b = b0 then s.level now - (state.buckets b0).level now else 0 := by
  by_cases same : b = b0
  · subst same
    simp only [account, put, drawn, update_self, if_pos]
    ring
  · simp only [account, put, drawn, update_of_ne same, if_neg same, add_zero]

theorem account_hold (b : Bucket) (wait : Wait Bucket) :
    (state.hold wait).account b now =
      state.account b now + if b = wait.bucket then wait.drawn else 0 := by
  unfold account drawn hold
  by_cases same : b = wait.bucket
  · rw [if_pos same, List.filter_append, List.filter_cons_of_pos (by simp [same])]
    simp only [List.filter_nil, List.map_append, List.map_cons, List.map_nil, List.sum_append,
      List.sum_singleton]
    ring
  · rw [if_neg same, List.filter_append, List.filter_cons_of_neg (by simp [Ne.symm same])]
    simp only [List.filter_nil, List.append_nil, add_zero]

theorem account_erase {index : Nat} {wait : Wait Bucket}
    (here : state.waiting[index]? = some wait) (b : Bucket) :
    { state with waiting := state.waiting.eraseIdx index }.account b now +
        (if b = wait.bucket then wait.drawn else 0) = state.account b now := by
  obtain ⟨inside, found⟩ := List.getElem?_eq_some_iff.mp here
  have reordered : (wait :: state.waiting.eraseIdx index).Perm state.waiting :=
    found ▸ List.getElem_cons_eraseIdx_perm inside
  have summed := ((reordered.filter (·.bucket = b)).map Wait.drawn).sum_eq
  unfold account drawn
  rw [← summed]
  by_cases same : b = wait.bucket
  · rw [if_pos same, List.filter_cons_of_pos (by simp [same]), List.map_cons, List.sum_cons]
    ring
  · rw [if_neg same, List.filter_cons_of_neg (by simp [Ne.symm same]), add_zero]

/-- A pass adds to the account of its bucket what the call had drawn before: the
tokens of this pass only change place. -/
theorem account_attempt (b0 b : Bucket) {size : Nat} {need : ℚ} (nonneg : 0 ≤ need)
    (within : need ≤ size) :
    (state.attempt b0 size need nonneg within now).account b now =
      state.account b now + if b = b0 then size - need else 0 := by
  unfold attempt
  rcases round_cases (state.buckets b0) nonneg now with
    ⟨done, left⟩ | ⟨deficit, more, missing, left⟩
  · simp only [done]
    rw [account_grant, account_put, left]
    split <;> ring
  · simp only [more]
    rw [account_hold, account_put, left]
    simp only [Wait.drawn, missing]
    split <;> ring

theorem account_police (b0 b : Bucket) (n : Nat) :
    (state.police b0 n now).account b now = state.account b now := by
  unfold police
  rcases tryConsume_cases (state.buckets b0) n now with ⟨pass, left⟩ | refused
  · simp only [pass, cond_true]
    rw [account_grant, account_put, left]
    split <;> ring
  · simp only [refused, cond_false]
    rw [account_put, level_refill_self, sub_self, ite_self, add_zero]

theorem account_policeBoth {b1 b2 : Bucket} (distinct : b1 ≠ b2) (b : Bucket) (n : Nat) :
    (state.policeBoth b1 b2 n now).account b now = state.account b now := by
  unfold policeBoth
  have second : ∀ s1, (state.put b1 s1).buckets b2 = state.buckets b2 := by
    intro s1
    simp only [put, update_of_ne distinct.symm]
  rcases tryConsumeBoth_cases (state.buckets b1) (state.buckets b2) n now with
    ⟨pass, left1, left2⟩ | refused
  · simp only [pass, cond_true]
    rw [account_grant, account_grant, account_put, account_put, second, left1, left2]
    split <;> split <;> ring
  · simp only [refused, cond_false]
    rw [account_put, account_put, second]
    simp only [level_refill_self, sub_self, ite_self, add_zero]

/-- No event pays out more than it takes. The last case loses what a cancelled
call had drawn. -/
theorem step_pays {state next : State bucket} {event : Event Bucket}
    (stepped : state.step event = some next) (b : Bucket) :
    next.account b event.time ≤ state.account b event.time := by
  obtain ⟨now, call⟩ := event
  cases call with
  | consume b0 n =>
      cases stepped
      rw [account_attempt, sub_self, ite_self, add_zero]
  | wake index =>
      simp only [step, wake] at stepped
      split at stepped
      case h_2 => cases stepped
      case h_1 wait here =>
        split at stepped
        case isFalse => cases stepped
        cases stepped
        rw [account_attempt, ← account_erase here b]
        exact le_rfl
  | cancel index =>
      cases stepped
      cases here : state.waiting[index]? with
      | none =>
          rw [List.eraseIdx_of_length_le (List.getElem?_eq_none_iff.mp here)]
      | some wait =>
          rw [← account_erase here b]
          apply le_add_of_nonneg_right
          split
          · exact wait.drawn_nonneg
          · exact le_rfl
  | tryConsume b0 n =>
      cases stepped
      rw [account_police]
  | tryConsumeTwo b1 b2 n =>
      cases b1 with
      | none =>
          cases b2 with
          | none =>
              cases stepped
              exact le_rfl
          | some b2 =>
              cases stepped
              rw [account_police]
      | some b1 =>
          cases b2 with
          | none =>
              cases stepped
              rw [account_police]
          | some b2 =>
              simp only [step] at stepped
              split at stepped
              case isTrue => cases stepped
              case isFalse distinct =>
                cases stepped
                rw [account_policeBoth distinct]

end Accounts

/-- Bytes through and tokens drawn ahead, paid for by the bucket's level. -/
theorem metered (b : Bucket) :
    Metered (step : State bucket → Event Bucket → Option (State bucket)) Event.time
      (fun state => state.granted b + state.drawn b)
      (fun state now => (state.buckets b).level now) (bucket b).rate where
  pays := fun stepped => step_pays stepped b
  fills := fun _ _ _ ordered => level_fills _ ordered

theorem drawn_nonneg (state : State bucket) (b : Bucket) : 0 ≤ state.drawn b := by
  apply List.sum_nonneg
  intro drawn member
  obtain ⟨wait, _, rfl⟩ := List.mem_map.mp member
  exact wait.drawn_nonneg

theorem drawn_le (state : State bucket) (b : Bucket) {block : Nat}
    (largest : ∀ wait ∈ state.waiting, wait.bucket = b → wait.size ≤ block) :
    state.drawn b ≤ state.inProgress b * block := by
  unfold drawn inProgress
  rw [List.countP_eq_length_filter, ← nsmul_eq_mul, ← List.length_map Wait.drawn]
  apply List.sum_le_card_nsmul
  intro drawn member
  obtain ⟨wait, among, rfl⟩ := List.mem_map.mp member
  obtain ⟨inside, same⟩ := List.mem_filter.mp among
  have bounded : (wait.size : ℚ) ≤ block := by
    exact_mod_cast largest wait inside (of_decide_eq_true same)
  have pending := wait.need_pos
  unfold Wait.drawn
  linarith

section Clock
variable {state next : State bucket} {now : ℚ}

def UsedBy (state : State bucket) (now : ℚ) : Prop := ∀ b, (state.buckets b).last ≤ now

theorem UsedBy.put (used : state.UsedBy now) {b0 : Bucket} {s : BucketState (bucket b0)}
    (fresh : s.last ≤ now) : (state.put b0 s).UsedBy now := by
  intro b
  by_cases same : b = b0
  · subst same
    simpa only [State.put, update_self] using fresh
  · simpa only [State.put, update_of_ne same] using used b

theorem UsedBy.attempt {time : ℚ} (used : state.UsedBy now) (ordered : time ≤ now) (b : Bucket)
    {size : Nat} {need : ℚ} (nonneg : 0 ≤ need) (within : need ≤ size) :
    (state.attempt b size need nonneg within time).UsedBy now := by
  have kept := used.put (s := ((state.buckets b).round need nonneg time).2)
    (by rw [round_last]; exact ordered)
  unfold State.attempt
  dsimp only
  split <;> exact kept

theorem UsedBy.police {time : ℚ} (used : state.UsedBy now) (ordered : time ≤ now) (b : Bucket)
    (n : Nat) : (state.police b n time).UsedBy now := by
  have kept := used.put (s := ((state.buckets b).tryConsume n time).2)
    (by rw [tryConsume_last]; exact ordered)
  unfold State.police
  dsimp only
  cases ((state.buckets b).tryConsume n time).1 <;> exact kept

theorem UsedBy.policeBoth {time : ℚ} (used : state.UsedBy now) (ordered : time ≤ now)
    (b1 b2 : Bucket) (n : Nat) : (state.policeBoth b1 b2 n time).UsedBy now := by
  obtain ⟨last1, last2⟩ := tryConsumeBoth_last (state.buckets b1) (state.buckets b2) n time
  have kept := (used.put (last1.trans_le ordered)).put (last2.trans_le ordered)
  unfold State.policeBoth
  dsimp only
  cases ((state.buckets b1).tryConsumeBoth (state.buckets b2) n time).1 <;> exact kept

theorem UsedBy.step {event : Event Bucket} (used : state.UsedBy now)
    (ordered : event.time ≤ now) (stepped : state.step event = some next) : next.UsedBy now := by
  obtain ⟨time, call⟩ := event
  cases call with
  | consume b n =>
      cases stepped
      exact used.attempt ordered b _ _
  | wake index =>
      simp only [State.step, State.wake] at stepped
      split at stepped
      case h_2 => cases stepped
      case h_1 wait here =>
        split at stepped
        case isFalse => cases stepped
        cases stepped
        have erased : UsedBy { state with waiting := state.waiting.eraseIdx index } now := used
        exact erased.attempt ordered wait.bucket _ _
  | cancel index =>
      cases stepped
      exact used
  | tryConsume b n =>
      cases stepped
      exact used.police ordered b n
  | tryConsumeTwo b1 b2 n =>
      cases b1 with
      | none =>
          cases b2 with
          | none =>
              cases stepped
              exact used
          | some b2 =>
              cases stepped
              exact used.police ordered b2 n
      | some b1 =>
          cases b2 with
          | none =>
              cases stepped
              exact used.police ordered b1 n
          | some b2 =>
              simp only [State.step] at stepped
              split at stepped
              · cases stepped
              · cases stepped
                exact used.policeBoth ordered b1 b2 n

theorem UsedBy.follow {events : List (Event Bucket)} (used : state.UsedBy now)
    (ordered : ∀ event ∈ events, event.time ≤ now)
    (followed : follow State.step state events = some next) : next.UsedBy now := by
  induction events generalizing state with
  | nil =>
      cases followed
      exact used
  | cons event rest ih =>
      obtain ⟨middle, stepped, tail⟩ := Option.bind_eq_some_iff.mp followed
      exact ih (used.step (ordered event List.mem_cons_self) stepped)
        (fun other member => ordered other (List.mem_cons_of_mem _ member)) tail

end Clock

end State

/-- In a stretch of length `d` a bucket lets through its burst, what flows in,
and the blocks of the calls that were in progress when it opened: one block if
calls do not overlap. A pair of buckets is charged together or not at all. -/
theorem granted_in_window {start : ℚ} {past inside : List (Event Bucket)}
    {opened final : State bucket}
    (sorted : (past ++ inside).Pairwise fun a b => a.time ≤ b.time)
    (reached : follow State.step (State.new bucket start) past = some opened)
    (followed : follow State.step opened inside = some final) {opens d : ℚ} (nonneg : 0 ≤ d)
    (within : ∀ event ∈ inside, opens ≤ event.time ∧ event.time ≤ opens + d) (b : Bucket)
    {block : Nat} (largest : ∀ wait ∈ opened.waiting, wait.bucket = b → wait.size ≤ block) :
    (final.granted b : ℚ) - opened.granted b ≤
        (bucket b).burst + (bucket b).rate * d + opened.inProgress b * block ∧
      ∀ (b1 b2 : Bucket) (n : Nat) (now : ℚ), start ≤ now →
        (∀ event ∈ past ++ inside, event.time ≤ now) →
        (final.buckets b1).BothOrNeither (final.buckets b2) n now := by
  constructor
  · have bounded := (State.metered b).window followed (List.pairwise_append.mp sorted).2.1 nonneg
      within
    have found := level_le (opened.buckets b) opens
    have left := (((final.buckets b).refill (opens + d)).tokens_nonneg)
    have ahead := final.drawn_nonneg b
    have held := opened.drawn_le b largest
    simp only [level] at bounded found
    linarith
  · intro b1 b2 n now begun ended
    have initial : (State.new bucket start).UsedBy now := fun _ => begun
    have middle := initial.follow
      (fun event member => ended event (List.mem_append_left _ member)) reached
    have last := middle.follow
      (fun event member => ended event (List.mem_append_right _ member)) followed
    exact bothOrNeither _ _ n (last b1) (last b2)

end Model

/-- Two calls for three times the burst, drawing in turns. -/
def overlapping : List (Event Unit) :=
  [⟨0, .consume () 196608⟩, ⟨1, .consume () 196608⟩, ⟨2, .wake 0⟩, ⟨3, .wake 0⟩, ⟨3, .wake 0⟩]

/-- The second in which both return. -/
def bothReturn : List (Event Unit) := [⟨4, .wake 1⟩, ⟨4, .wake 0⟩, ⟨5, .wake 0⟩]

theorem granted_in_window_overlapping :
    let bucket := fun _ : Unit => TokenBucket.new 65536
    let opened := follow State.step (State.new bucket 0) overlapping
    let final := follow State.step (State.new bucket 0) (overlapping ++ bothReturn)
    (overlapping ++ bothReturn).Pairwise (fun a b => a.time ≤ b.time) ∧
      (∀ event ∈ bothReturn, 4 ≤ event.time ∧ event.time ≤ 4 + 1) ∧
      (opened.map fun state => state.waiting.map (·.size)) = some [196608, 196608] ∧
      (final.bind fun final => opened.map fun opened =>
        decide ((bucket ()).burst + (bucket ()).rate * 1 + 196608 <
          (final.granted () : ℚ) - opened.granted ())) = some true := by
  decide +kernel

/-- One call for twice the burst, which waits for a second. -/
def waits : List (Event Bool) := [⟨0, .consume true 131072⟩]

/-- It returns as the window opens; a pair is charged before it closes. -/
def returns : List (Event Bool) :=
  [⟨1, .wake 0⟩, ⟨2, .tryConsumeTwo (some true) (some false) 65536⟩]

theorem granted_in_window_alone :
    let bucket := fun _ : Bool => TokenBucket.new 65536
    ∃ opened final : State bucket, follow State.step (State.new bucket 0) waits = some opened ∧
      follow State.step opened returns = some final ∧
      opened.inProgress true = 1 ∧ final.granted true - opened.granted true = 196608 ∧
      (final.granted true : ℚ) - opened.granted true ≤
        (bucket true).burst + (bucket true).rate * 1 + opened.inProgress true * (131072 : Nat) ∧
      (final.buckets true).BothOrNeither (final.buckets false) 1500 2 := by
  intro bucket
  have ran : ((follow State.step (State.new bucket 0) waits).bind fun opened =>
      (follow State.step opened returns).map fun final =>
        (opened.inProgress true, final.granted true - opened.granted true,
          opened.waiting.map (·.size))) = some (1, 196608, [131072]) := by
    decide +kernel
  obtain ⟨opened, reached, ran⟩ := Option.bind_eq_some_iff.mp ran
  obtain ⟨final, followed, seen⟩ := Option.map_eq_some_iff.mp ran
  obtain ⟨one, through, sizes⟩ : _ ∧ _ ∧ _ := by simpa only [Prod.mk.injEq] using seen
  have largest : ∀ wait ∈ opened.waiting, wait.bucket = true → wait.size ≤ 131072 := by
    intro wait member _
    have size := List.mem_map_of_mem (f := (·.size)) member
    rw [sizes, List.mem_singleton] at size
    exact Nat.le_of_eq size
  have sorted : (waits ++ returns).Pairwise fun a b => a.time ≤ b.time := by decide +kernel
  have bound := granted_in_window bucket sorted reached followed zero_le_one
    (by decide +kernel : ∀ event ∈ returns, (1 : ℚ) ≤ event.time ∧ event.time ≤ 1 + 1) true largest
  exact ⟨opened, final, reached, followed, one, through, bound.1,
    bound.2 true false 1500 2 (by decide +kernel) (by decide +kernel)⟩

end Mirage.Rate
