import Mirage.Handshake.Limiters

/-!
The admission limiters are exact. What one step does to the counts is said once
for the limiters with a global count; from it the books of a run follow, in
which every count is the number of calls that stand for it.
-/

namespace Mirage.Handshake
open Function Calls Router

section Orderly
variable {Source Key : Type} [DecidableEq Key]

structure Orderly (limiter : Limiter Source Key) : Prop where
  global : ∀ limit ∈ limiter.maxGlobal,
    Balanced limiter.steps Shared.globalCount Call.inGlobal
  counts : ∀ key, Balanced limiter.steps (fun shared => shared.ipCounts.count key) (Call.inMap key)
  lock : Balanced limiter.steps (fun shared => shared.locked.toNat) Call.atLock
  below : ∀ {shared call now shared' call'}, limiter.steps shared call now = some (shared', call') →
    ∀ limit ∈ limiter.maxGlobal,
      call'.passed ≤ call.passed ∨ call'.passed ≤ 1 ∧ shared.globalCount < limit
  capped : ∀ {shared call now shared' call'},
    limiter.steps shared call now = some (shared', call') →
    (∀ key, shared.ipCounts.count key ≤ limiter.maxPerIp) →
      ∀ key, shared'.ipCounts.count key ≤ limiter.maxPerIp
  noZero : ∀ {shared call now shared' call'},
    limiter.steps shared call now = some (shared', call') →
    shared.ipCounts.NoZero → shared'.ipCounts.NoZero

end Orderly

section Moves
variable {Key : Type} [DecidableEq Key] {maxPerIp maxGlobal : Nat} {shared shared' : Shared Key}
  {call call' : Call Key}

def Call.enters (key : Key) (call : Call Key) : Prop := call = .counted key ∨ call = .cleared key

/-- Every step of an acquire with a global count and of the drop of its guard. -/
inductive Moved (maxPerIp maxGlobal : Nat) (shared : Shared Key) :
    Call Key → Shared Key → Call Key → Prop where
  | counted (key : Key) (below : shared.globalCount < maxGlobal) :
      Moved maxPerIp maxGlobal shared (.called key) shared.fetchAdd (.counted key)
  | exceeded (key : Key) :
      Moved maxPerIp maxGlobal shared (.called key) shared.fetchAdd .exceeded
  | cleared (key : Key) (windows : List (Key × Window)) :
      Moved maxPerIp maxGlobal shared (.counted key) { shared with windows := windows }
        (.cleared key)
  | slowed (key : Key) (windows : List (Key × Window)) :
      Moved maxPerIp maxGlobal shared (.counted key) { shared with windows := windows } .exceeded
  | admitted (key : Key) {call : Call Key} (enters : call.enters key)
      (below : shared.ipCounts.count key < maxPerIp) :
      Moved maxPerIp maxGlobal shared call
        (shared.insert key (shared.ipCounts.count key + 1)) (.holding key)
  | full (key : Key) {call : Call Key} (enters : call.enters key) (free : shared.locked = false) :
      Moved maxPerIp maxGlobal shared call (shared.setLock true) .full
  | tookBack : Moved maxPerIp maxGlobal shared .exceeded shared.fetchSub .refused
  | unlocked : Moved maxPerIp maxGlobal shared .full (shared.fetchSub.setLock false) .refused
  | dropped (key : Key) :
      Moved maxPerIp maxGlobal shared (.holding key) shared.fetchSub (.releasing key)
  | released (key : Key) :
      Moved maxPerIp maxGlobal shared (.releasing key) (shared.giveBack key) .released

theorem leaveSteps_moved (moved : leaveSteps shared call = some (shared', call')) :
    Moved maxPerIp maxGlobal shared call shared' call' := by
  cases call with
  | exceeded =>
      cases moved
      exact .tookBack
  | full =>
      cases moved
      exact .unlocked
  | holding key =>
      cases moved
      exact .dropped key
  | releasing key =>
      obtain ⟨-, same⟩ := Option.ite_none_left_eq_some.mp moved
      cases same
      exact .released key
  | called key | counted key | cleared key | refused | released => nomatch moved

theorem acquireSteps_moved
    (moved : acquireSteps maxPerIp maxGlobal shared call = some (shared', call')) :
    Moved maxPerIp maxGlobal shared call shared' call' := by
  cases call with
  | called key =>
      unfold acquireSteps at moved
      dsimp only at moved
      split at moved
      · cases moved
        exact .exceeded key
      · rename_i below
        cases moved
        exact .counted key (Nat.lt_of_not_le below)
  | counted key =>
      unfold acquireSteps at moved
      obtain ⟨free, moved⟩ := Option.ite_none_left_eq_some.mp moved
      dsimp only at moved
      split at moved
      · cases moved
        exact .full key (Or.inl rfl) (Bool.eq_false_iff.mpr free)
      · rename_i below
        cases moved
        exact .admitted key (Or.inl rfl) (Nat.lt_of_not_le below)
  | cleared key | exceeded | full | refused | holding key | releasing key | released =>
      exact leaveSteps_moved moved

namespace Moved
variable (moved : Moved maxPerIp maxGlobal shared call shared' call')
include moved

theorem global (counted : call.inGlobal ≤ shared.globalCount) :
    shared'.globalCount + call.inGlobal = shared.globalCount + call'.inGlobal := by
  cases moved with
  | admitted key enters below =>
      obtain rfl | rfl := enters
      · rfl
      · rfl
  | full key enters free =>
      obtain rfl | rfl := enters
      · rfl
      · rfl
  | tookBack | unlocked | dropped key => exact Nat.sub_add_cancel counted
  | counted key below | exceeded key | cleared key windows | slowed key windows
  | released key => rfl

theorem count (key : Key) (counted : call.inMap key ≤ shared.ipCounts.count key) :
    shared'.ipCounts.count key + call.inMap key = shared.ipCounts.count key + call'.inMap key := by
  cases moved with
  | admitted entered enters below =>
      have outside : call.inMap key = 0 := by
        obtain rfl | rfl := enters
        · rfl
        · rfl
      rw [outside, Shared.insert, Counts.count_update, Call.inMap]
      by_cases same : key = entered
      · rw [if_pos same, if_pos same.symm, same]
        rfl
      · rw [if_neg same, if_neg (Ne.symm same)]
  | full entered enters free =>
      obtain rfl | rfl := enters
      · rfl
      · rfl
  | released left =>
      have gone : (Call.released : Call Key).inMap key = 0 := rfl
      rw [Call.inMap] at counted ⊢
      rw [Shared.giveBack, Counts.count_giveBack, gone]
      by_cases same : key = left
      · subst left
        rw [if_pos rfl] at counted ⊢
        rw [if_pos rfl]
        exact Nat.sub_add_cancel counted
      · rw [if_neg same, if_neg (Ne.symm same)]
  | counted key below | exceeded key | cleared key windows | slowed key windows | tookBack
  | unlocked | dropped key => rfl

theorem lock (counted : call.atLock ≤ shared.locked.toNat) :
    shared'.locked.toNat + call.atLock = shared.locked.toNat + call'.atLock := by
  cases moved with
  | admitted key enters below =>
      obtain rfl | rfl := enters
      · rfl
      · rfl
  | full key enters free =>
      obtain rfl | rfl := enters
      · simp only [Shared.setLock, free, Call.atLock, Bool.toNat_true, Bool.toNat_false]
      · simp only [Shared.setLock, free, Call.atLock, Bool.toNat_true, Bool.toNat_false]
  | unlocked =>
      have set : shared.locked.toNat = 1 := Nat.le_antisymm (Bool.toNat_le _) counted
      rw [set]
      rfl
  | counted key below | exceeded key | cleared key windows | slowed key windows | tookBack
  | dropped key | released key => rfl

theorem below : call'.passed ≤ call.passed ∨ call'.passed ≤ 1 ∧ shared.globalCount < maxGlobal := by
  cases moved with
  | counted key below => exact Or.inr ⟨le_rfl, below⟩
  | admitted key enters below =>
      obtain rfl | rfl := enters
      · exact Or.inl le_rfl
      · exact Or.inl le_rfl
  | full key enters free =>
      obtain rfl | rfl := enters
      · exact Or.inl le_rfl
      · exact Or.inl le_rfl
  | exceeded key | cleared key windows | tookBack | released key => exact Or.inl le_rfl
  | slowed key windows | unlocked | dropped key => exact Or.inl (Nat.zero_le _)

theorem capped (within : ∀ key, shared.ipCounts.count key ≤ maxPerIp) (key : Key) :
    shared'.ipCounts.count key ≤ maxPerIp := by
  cases moved with
  | admitted entered enters below =>
      rw [Shared.insert, Counts.count_update]
      by_cases same : key = entered
      · rw [if_pos same]
        exact below
      · rw [if_neg same]
        exact within key
  | released left =>
      rw [Shared.giveBack, Counts.count_giveBack]
      by_cases same : key = left
      · rw [if_pos same]
        exact (Nat.sub_le _ _).trans (within left)
      · rw [if_neg same]
        exact within key
  | counted _ below | exceeded _ | cleared _ windows | slowed _ windows | full _ enters free
  | tookBack | unlocked | dropped _ => exact within key

theorem noZero (kept : shared.ipCounts.NoZero) : shared'.ipCounts.NoZero := by
  cases moved with
  | admitted key enters below => exact kept.update key fun same => nomatch Option.some.inj same
  | released key => exact kept.giveBack key
  | counted _ below | exceeded _ | cleared _ windows | slowed _ windows | full _ enters free
  | tookBack | unlocked | dropped _ => exact kept

end Moved

end Moves

section Exact
variable {Source Key : Type} [DecidableEq Key] {limiter : Limiter Source Key}

theorem orderly_of_moves {maxGlobal : Nat} (limit : limiter.maxGlobal = some maxGlobal)
    (moves : ∀ {shared call now shared' call'},
      limiter.steps shared call now = some (shared', call') →
        Moved limiter.maxPerIp maxGlobal shared call shared' call') : Orderly limiter := by
  constructor
  case global => exact fun _ _ _ _ _ _ _ counted stepped => (moves stepped).global counted
  case counts => exact fun key _ _ _ _ _ counted stepped => (moves stepped).count key counted
  case lock => exact fun _ _ _ _ _ counted stepped => (moves stepped).lock counted
  case below =>
    intro shared call now shared' call' stepped limit' member
    rw [limit, Option.mem_some_iff] at member
    exact member ▸ (moves stepped).below
  case capped => exact fun stepped within => (moves stepped).capped within
  case noZero => exact fun stepped kept => (moves stepped).noZero kept

theorem unauthSteps_moved {shared shared' : Shared IpAddr} {call call' : Call IpAddr} {now : Nat}
    (moved : unauthSteps shared call now = some (shared', call')) :
    Moved 100 5000 shared call shared' call' := by
  cases call with
  | called ip =>
      unfold unauthSteps at moved
      dsimp only at moved
      split at moved
      · cases moved
        exact .exceeded ip
      · rename_i below
        cases moved
        exact .counted ip (Nat.lt_of_not_le below)
  | counted ip =>
      unfold unauthSteps at moved
      dsimp only at moved
      split at moved
      · cases moved
        exact .slowed ip _
      · cases moved
        exact .cleared ip _
  | cleared ip =>
      unfold unauthSteps at moved
      obtain ⟨free, moved⟩ := Option.ite_none_left_eq_some.mp moved
      dsimp only at moved
      rw [Counts.count_orInsert] at moved
      split at moved
      · rename_i reached
        rw [Counts.orInsert_of_count (Nat.lt_of_lt_of_le (by decide) reached)] at moved
        cases moved
        exact .full ip (Or.inr rfl) (Bool.eq_false_iff.mpr free)
      · rename_i below
        cases moved
        rw [Shared.insert, Counts.orInsert_update]
        exact .admitted ip (Or.inr rfl) (Nat.lt_of_not_le below)
  | exceeded | full | refused | holding ip | releasing ip | released => exact leaveSteps_moved moved

theorem quicHandshakeLimiter_orderly (maxPerIp maxGlobal : Nat) :
    Orderly (quicHandshakeLimiter maxPerIp maxGlobal) :=
  orderly_of_moves rfl acquireSteps_moved

theorem conns_orderly (limiter : QuicRuntimeLimiter) : Orderly limiter.conns :=
  orderly_of_moves rfl acquireSteps_moved

theorem streams_orderly (limiter : QuicRuntimeLimiter) : Orderly limiter.streams :=
  orderly_of_moves rfl acquireSteps_moved

theorem unauthSlots_orderly : Orderly unauthSlots := orderly_of_moves rfl unauthSteps_moved

/-- The connections per source have no global count and no step between two
locked sections. -/
theorem connIpSteps_cases {limit : Nat} {shared shared' : Shared IpAddr} {call call' : Call IpAddr}
    (moved : connIpSteps limit shared call = some (shared', call')) :
    (∃ key, call = .called key ∧ shared.ipCounts.count key < limit ∧ call' = .holding key ∧
      shared' = shared.insert key (shared.ipCounts.count key + 1)) ∨
    (∃ key, call = .called key ∧ call' = .refused ∧ shared' = shared) ∨
    ∃ key, call = .holding key ∧ call' = .released ∧ shared' = shared.giveBack key := by
  cases call with
  | called key =>
      unfold connIpSteps at moved
      dsimp only at moved
      split at moved
      · cases moved
        exact Or.inr (Or.inl ⟨key, rfl, rfl, rfl⟩)
      · rename_i below
        cases moved
        exact Or.inl ⟨key, rfl, Nat.lt_of_not_le below, rfl, rfl⟩
  | holding key =>
      cases moved
      exact Or.inr (Or.inr ⟨key, rfl, rfl, rfl⟩)
  | counted key | cleared key | exceeded | full | refused | releasing key | released =>
      nomatch moved

theorem connIp_admitted {limit : Nat} {shared : Shared IpAddr} {key : IpAddr}
    (below : shared.ipCounts.count key < limit) :
    Moved limit 0 shared (.counted key) (shared.insert key (shared.ipCounts.count key + 1))
      (.holding key) :=
  .admitted key (Or.inl rfl) below

theorem connIp_released (limit : Nat) (shared : Shared IpAddr) (key : IpAddr) :
    Moved limit 0 shared (.releasing key) (shared.giveBack key) .released :=
  .released key

theorem connIpSlots_orderly (maxConnections : Nat) : Orderly (connIpSlots maxConnections) := by
  constructor
  case global => exact fun _ member => nomatch member
  case counts =>
    intro key shared call now shared' call' counted stepped
    obtain ⟨entered, rfl, below, rfl, rfl⟩ | ⟨entered, rfl, rfl, rfl⟩ | ⟨left, rfl, rfl, rfl⟩ :=
      connIpSteps_cases stepped
    · exact (connIp_admitted below).count key (Nat.zero_le _)
    · rfl
    · exact (connIp_released 0 shared left).count key counted
  case lock =>
    intro shared call now shared' call' counted stepped
    obtain ⟨entered, rfl, below, rfl, rfl⟩ | ⟨entered, rfl, rfl, rfl⟩ | ⟨left, rfl, rfl, rfl⟩ :=
      connIpSteps_cases stepped
    · rfl
    · rfl
    · rfl
  case below => exact fun _ _ member => nomatch member
  case capped =>
    intro shared call now shared' call' stepped within
    obtain ⟨entered, rfl, below, rfl, rfl⟩ | ⟨entered, rfl, rfl, rfl⟩ | ⟨left, rfl, rfl, rfl⟩ :=
      connIpSteps_cases stepped
    · exact (connIp_admitted below).capped within
    · exact within
    · exact (connIp_released _ shared left).capped within
  case noZero =>
    intro shared call now shared' call' stepped kept
    obtain ⟨entered, rfl, below, rfl, rfl⟩ | ⟨entered, rfl, rfl, rfl⟩ | ⟨left, rfl, rfl, rfl⟩ :=
      connIpSteps_cases stepped
    · exact (connIp_admitted below).noZero kept
    · exact kept
    · exact (connIp_released 0 shared left).noZero kept

structure Books (limiter : Limiter Source Key) (state : Limiter.State Key) : Prop where
  global : ∀ limit ∈ limiter.maxGlobal, Accounts Shared.globalCount Call.inGlobal state
  counts : ∀ key, Accounts (fun shared => shared.ipCounts.count key) (Call.inMap key) state
  lock : Accounts (fun shared => shared.locked.toNat) Call.atLock state
  below : ∀ limit ∈ limiter.maxGlobal, total Call.passed state.calls ≤ limit
  capped : ∀ key, state.shared.ipCounts.count key ≤ limiter.maxPerIp
  noZero : state.shared.ipCounts.NoZero

namespace Limiter

theorem books_new : Books limiter ⟨Shared.new Key, []⟩ := by
  constructor
  case global => exact fun _ _ => rfl
  case counts => exact fun _ => rfl
  case lock => rfl
  case below => exact fun _ _ => Nat.zero_le _
  case capped => exact fun _ => Nat.zero_le _
  case noZero => exact fun _ same => nomatch same

theorem books_step (orderly : Orderly limiter) {state next : State Key}
    {turn : Calls.Turn Source Nat}
    (books : Books limiter state) (stepped : limiter.step state turn = some next) :
    Books limiter next := by
  have cases_ := step_cases stepped
  constructor
  case global =>
    intro limit member
    exact (orderly.global limit member).step (fun _ => rfl) (books.global limit member) stepped
  case counts =>
    intro key
    exact (orderly.counts key).step (fun _ => rfl) (books.counts key) stepped
  case lock => exact orderly.lock.step (fun _ => rfl) books.lock stepped
  case below =>
    intro limit member
    have before := books.below limit member
    have global := books.global limit member
    obtain ⟨request, -, rfl⟩ | ⟨front, call, back, now, shared', call', stood, -, advanced, rfl⟩ :=
      cases_
    · rw [total_append]
      exact before
    · unfold Accounts at global
      have fewer : total Call.passed front + total Call.passed back ≤
          total Call.inGlobal front + total Call.inGlobal back := by
        exact Nat.add_le_add (total_mono fun call _ => call.passed_le_inGlobal)
          (total_mono fun call _ => call.passed_le_inGlobal)
      rw [stood, total_append, total_cons] at before global
      rw [total_append, total_cons]
      obtain kept | ⟨one, room⟩ := orderly.below advanced limit member
      · omega
      · omega
  case capped =>
    obtain ⟨request, -, rfl⟩ | ⟨front, call, back, now, shared', call', stood, -, advanced, rfl⟩ :=
      cases_
    · exact books.capped
    · exact orderly.capped advanced books.capped
  case noZero =>
    obtain ⟨request, -, rfl⟩ | ⟨front, call, back, now, shared', call', stood, -, advanced, rfl⟩ :=
      cases_
    · exact books.noZero
    · exact orderly.noZero advanced books.noZero

theorem books_of_follow (orderly : Orderly limiter) {turns : List (Calls.Turn Source Nat)}
    {state : State Key}
    (followed : Trace.follow limiter.step ⟨Shared.new Key, []⟩ turns = some state) :
    Books limiter state :=
  Trace.follow_keeps (Books limiter) (fun books stepped => books_step orderly books stepped)
    books_new followed

theorem bounded {state : State Key} (books : Books limiter state) :
    (∀ key, total (Call.liveFor key) state.calls ≤ limiter.maxPerIp) ∧
      ∀ limit ∈ limiter.maxGlobal, total Call.live state.calls ≤ limit := by
  constructor
  · intro key
    calc total (Call.liveFor key) state.calls
        ≤ total (Call.inMap key) state.calls := total_mono fun call _ => call.liveFor_le_inMap key
      _ = state.shared.ipCounts.count key := (books.counts key).symm
      _ ≤ limiter.maxPerIp := books.capped key
  · intro limit member
    calc total Call.live state.calls
        ≤ total Call.passed state.calls := total_mono fun call _ => call.live_le_passed
      _ ≤ limit := books.below limit member

theorem settled {state : State Key} (books : Books limiter state) (quiet : Quiet state) :
    (∀ limit ∈ limiter.maxGlobal, state.shared.globalCount = total Call.live state.calls) ∧
      ∀ key, state.shared.ipCounts key =
        if total (Call.liveFor key) state.calls = 0 then none
        else some (total (Call.liveFor key) state.calls) := by
  constructor
  · intro limit member
    exact (books.global limit member).trans
      (total_congr fun call inside => Call.inGlobal_of_resting (quiet call inside))
  · intro key
    have counted : state.shared.ipCounts.count key = total (Call.liveFor key) state.calls :=
      (books.counts key).trans
        (total_congr fun call inside => Call.inMap_of_resting key (quiet call inside))
    rw [← counted, Counts.count]
    cases found : state.shared.ipCounts key with
    | none => rfl
    | some count =>
        have positive : count ≠ 0 := fun zero => books.noZero key (zero ▸ found)
        exact (if_neg positive).symm

theorem unlocked_of_quiet {state : State Key} (books : Books limiter state) (quiet : Quiet state) :
    state.shared.locked = false := by
  have free : state.shared.locked.toNat = 0 := books.lock.trans
    (total_eq_zero fun call inside => Call.atLock_of_resting (quiet call inside))
  exact Bool.toNat_eq_zero.mp free

theorem refused_changes_nothing (orderly : Orderly limiter)
    {turns : List (Calls.Turn Source Nat)}
    {state : State Key} {index : Nat}
    (followed : Trace.follow limiter.step ⟨Shared.new Key, []⟩ turns = some state)
    (refused : state.calls[index]? = some .refused) :
    (∀ limit ∈ limiter.maxGlobal,
      change limiter.start limiter.steps Shared.globalCount index ⟨Shared.new Key, []⟩ turns = 0) ∧
      ∀ key, change limiter.start limiter.steps (fun shared => shared.ipCounts.count key) index
        ⟨Shared.new Key, []⟩ turns = 0 := by
  have ended : ∀ weight : Call Key → Nat, weight .refused = 0 →
      weightAt weight index state.calls = 0 := by
    intro weight none_
    rw [weightAt, refused]
    exact none_
  constructor
  · intro limit member
    have books : Books limiter ⟨Shared.new Key, []⟩ := books_new
    rw [change_eq (orderly.global limit member) (fun _ => rfl) (books.global limit member) followed,
      ended _ rfl]
    rfl
  · intro key
    have books : Books limiter ⟨Shared.new Key, []⟩ := books_new
    rw [change_eq (orderly.counts key) (fun _ => rfl) (books.counts key) followed, ended _ rfl]
    rfl

omit [DecidableEq Key] in
/-- A new call that ends with a guard when it runs by itself. -/
theorem follow_alone {state : State Key} {source : Source} {times : List Nat} {shared : Shared Key}
    {key : Key} (ran : solo limiter.steps state.shared (.called (limiter.key source)) times =
      some (shared, .holding key)) :
    ∃ final, Trace.follow limiter.step state (alone state source times) = some final ∧
      final.calls[state.calls.length]? = some (.holding key) :=
  ⟨_, Option.bind_eq_some_iff.mpr ⟨_, rfl, follow_last ran⟩, List.getElem?_concat_length⟩

/-- A limiter whose books are right is exact once an acquire by itself succeeds. -/
theorem exact_of_orderly (orderly : Orderly limiter)
    {allowed : Shared Key → Key → List Nat → Prop} (admits : limiter.AdmitsAlone allowed) :
    limiter.Exact allowed := by
  constructor
  case bounded =>
    rintro state ⟨turns, followed⟩
    exact bounded (books_of_follow orderly followed)
  case refused => exact fun turns state index followed => refused_changes_nothing orderly followed
  case admits => exact admits
  case settled =>
    rintro state ⟨turns, followed⟩
    exact settled (books_of_follow orderly followed)

end Limiter

/-- Always, where nothing but the counts is asked. -/
def Unconditional (_ : Shared Key) (_ : Key) (_ : List Nat) : Prop := True

theorem acquireSteps_admits {maxGlobal : Nat} (orderly : Orderly limiter)
    (limit : limiter.maxGlobal = some maxGlobal) (two : limiter.acquireSteps = 2)
    (steps : limiter.steps = fun shared call _ =>
      acquireSteps limiter.maxPerIp maxGlobal shared call) :
    limiter.AdmitsAlone Unconditional := by
  rintro state source times ⟨turns, followed⟩ quiet room space length -
  have free := Limiter.unlocked_of_quiet (Limiter.books_of_follow orderly followed) quiet
  obtain ⟨first, second, rfl⟩ := List.length_eq_two.mp (length.trans two)
  have below : ¬maxGlobal ≤ state.shared.globalCount := Nat.not_le_of_lt (room maxGlobal limit)
  have counted : limiter.steps state.shared (.called (limiter.key source)) first =
      some (state.shared.fetchAdd, .counted (limiter.key source)) := by
    rw [steps]
    exact if_neg below
  have admitted : limiter.steps state.shared.fetchAdd (.counted (limiter.key source)) second =
      some (state.shared.fetchAdd.insert (limiter.key source)
        (state.shared.ipCounts.count (limiter.key source) + 1), .holding (limiter.key source)) := by
    rw [steps]
    simp only [acquireSteps, Shared.fetchAdd, free, Bool.false_eq_true, ↓reduceIte,
      Nat.not_le_of_lt space]
  apply Limiter.follow_alone
  rw [solo, counted, Option.bind_some, solo, admitted]
  rfl

theorem connIpSlots_admits (maxConnections : Nat) :
    (connIpSlots maxConnections).AdmitsAlone Unconditional := by
  rintro state source times - quiet - space length -
  obtain ⟨first, rfl⟩ := List.length_eq_one_iff.mp length
  have admitted : (connIpSlots maxConnections).steps state.shared (.called (rateLimitKey source))
      first = some (state.shared.insert (rateLimitKey source)
        (state.shared.ipCounts.count (rateLimitKey source) + 1), .holding (rateLimitKey source)) :=
    if_neg (Nat.not_le_of_lt space)
  apply Limiter.follow_alone
  rw [solo]
  exact Option.bind_eq_some_iff.mpr ⟨_, admitted, rfl⟩

/-- The source is within its rate of reflections when the second step of the
acquire asks. -/
def WithinRate (shared : Shared IpAddr) (ip : IpAddr) (times : List Nat) : Prop :=
  ∀ now, times[1]? = some now → (unauthReflectRateExceeded shared.windows ip now).1 = false

theorem unauthSlots_admits : unauthSlots.AdmitsAlone WithinRate := by
  rintro state source times ⟨turns, followed⟩ quiet room space length allowed
  have free := Limiter.unlocked_of_quiet
    (Limiter.books_of_follow unauthSlots_orderly followed) quiet
  obtain ⟨first, second, third, rfl⟩ := List.length_eq_three.mp length
  have within := allowed second rfl
  have below : ¬5000 ≤ state.shared.globalCount := Nat.not_le_of_lt (room 5000 rfl)
  have counted : unauthSteps state.shared (.called (rateLimitKey source)) first =
      some (state.shared.fetchAdd, .counted (rateLimitKey source)) := if_neg below
  have cleared : unauthSteps state.shared.fetchAdd (.counted (rateLimitKey source)) second =
      some ({ state.shared.fetchAdd with
        windows :=
          (unauthReflectRateExceeded state.shared.windows (rateLimitKey source) second).2 },
        .cleared (rateLimitKey source)) := by
    unfold unauthSteps
    dsimp only
    rw [if_neg]
    · rfl
    · exact Bool.eq_false_iff.mp within
  have admitted : ∀ windows, unauthSteps { state.shared.fetchAdd with windows := windows }
      (.cleared (rateLimitKey source)) third = some
        ({ state.shared.fetchAdd with windows := windows }.insert (rateLimitKey source)
          (state.shared.ipCounts.count (rateLimitKey source) + 1),
        .holding (rateLimitKey source)) := fun _ => unauthSteps_admitted third free space
  apply Limiter.follow_alone
  rw [solo]
  refine Option.bind_eq_some_iff.mpr ⟨_, counted, ?_⟩
  rw [solo]
  refine Option.bind_eq_some_iff.mpr ⟨_, cleared, ?_⟩
  rw [solo]
  exact Option.bind_eq_some_iff.mpr ⟨_, admitted _, rfl⟩

/-- The limiters are exact, whatever their limits and in whatever order the
calls take their steps. A reflection that finds its counts below the limits
gets its slot unless its source has had its share of the window. -/
theorem limiters_exact :
    (∀ maxPerIp maxGlobal, (quicHandshakeLimiter maxPerIp maxGlobal).Exact Unconditional) ∧
      (∀ limiter : QuicRuntimeLimiter,
        limiter.conns.Exact Unconditional ∧ limiter.streams.Exact Unconditional) ∧
      (∀ maxConnections, (connIpSlots maxConnections).Exact Unconditional) ∧
      unauthSlots.Exact WithinRate := by
  refine ⟨?_, ?_, ?_, ?_⟩
  · intro maxPerIp maxGlobal
    have orderly := quicHandshakeLimiter_orderly maxPerIp maxGlobal
    exact Limiter.exact_of_orderly orderly (acquireSteps_admits orderly rfl rfl rfl)
  · intro limiter
    have conns := conns_orderly limiter
    have streams := streams_orderly limiter
    exact ⟨Limiter.exact_of_orderly conns (acquireSteps_admits conns rfl rfl rfl),
      Limiter.exact_of_orderly streams (acquireSteps_admits streams rfl rfl rfl)⟩
  · intro maxConnections
    exact Limiter.exact_of_orderly (connIpSlots_orderly maxConnections)
      (connIpSlots_admits maxConnections)
  · exact Limiter.exact_of_orderly unauthSlots_orderly unauthSlots_admits

end Exact

def reflections (count : Nat) : List (Calls.Turn IpAddr Nat) :=
  (List.range count).flatMap fun index =>
    [.enter (.v4 0x01020304#32), .go index 0, .go index 0, .go index 0]

/-- The thirty-first reflection of a source in a window is refused, with 30 of
100 slots of the source taken and nothing else going on. -/
theorem unauthSlots_rate : ¬unauthSlots.AdmitsAlone Unconditional := by
  intro admits
  have settled : (Trace.follow unauthSlots.step ⟨Shared.new IpAddr, []⟩ (reflections 30)).any
      (fun state => state.calls.length = 30 ∧ (∀ call ∈ state.calls, call.resting) ∧
        state.shared.globalCount = 30 ∧
          state.shared.ipCounts.count (.v4 0x01020304#32) = 30) := by
    decide +kernel
  have refused : ((Trace.follow unauthSlots.step ⟨Shared.new IpAddr, []⟩ (reflections 31)).bind
      fun state => state.calls[30]?) = some .refused := by
    decide +kernel
  obtain ⟨state, followed, found⟩ := (Option.any_eq_true _ _).mp settled
  obtain ⟨thirty, quiet, few, fewer⟩ := of_decide_eq_true found
  have below : ∀ limit ∈ unauthSlots.maxGlobal, state.shared.globalCount < limit := by
    intro limit member
    cases member
    rw [few]
    decide
  have room : state.shared.ipCounts.count (rateLimitKey (.v4 0x01020304#32)) < 100 := by
    rw [rateLimitKey, toCanonical, fewer]
    decide
  obtain ⟨final, ran, holds⟩ := admits state (.v4 0x01020304#32) [0, 0, 0]
    ⟨reflections 30, followed⟩ quiet below room rfl trivial
  have more : reflections 31 =
      reflections 30 ++ Limiter.alone state (.v4 0x01020304#32) [0, 0, 0] := by
    rw [Limiter.alone, thirty]
    rfl
  rw [more, Trace.follow_append, followed, Option.bind_some, ran, Option.bind_some, ← thirty,
    holds] at refused
  cases refused

end Mirage.Handshake
