import Mathlib.Data.List.Basic
import Mathlib.Logic.Function.Basic
import Mirage.Lib.Notify
import Mirage.Lib.Trace
import Mirage.Lib.Word

/-!
`singleflight` of dns/server.rs, over any kind of key. Each call is a query with
a place in the function. Its guard leaves in two steps: the check under the
table's lock, and after the lock the release of its reference to the cell. An
exchange is known by the query that runs it.
-/

namespace Mirage.Dns.Singleflight
open Word Trace Notify Function

/-- What a cell is set to: the exchange and its answer or failure. -/
abbrev Outcome := Nat × Option Bytes

inductive Place where
  | waiting
  /-- Inside `f`, with the cell's permit. -/
  | running
  /-- Done or dropped, before its guard's check. -/
  | leaving (got : Option Outcome)
  /-- After the check, with its reference still counted. -/
  | releasing (got : Option Outcome)
  | gone (got : Option Outcome)
  deriving DecidableEq

namespace Place

def pending : Place → Bool
  | waiting | running => true
  | _ => false

def attends : Place → Bool
  | waiting | running | leaving _ => true
  | _ => false

/-- The query has its reference to the cell. -/
def holds : Place → Bool
  | gone _ => false
  | _ => true

def got : Place → Option Outcome
  | leaving got | releasing got | gone got => got
  | _ => none

theorem holds_of_attends {place : Place} (attends : place.attends = true) : place.holds = true := by
  cases place with
  | gone got => cases attends
  | _ => rfl

theorem holds_of_pending {place : Place} (pending : place.pending = true) : place.holds = true := by
  cases place with
  | gone got => cases pending
  | _ => rfl

end Place

/-- `before` lists the exchanges that had ended when the query came. -/
structure Query (Key : Type) where
  key : Key
  cell : Nat
  place : Place
  before : List Nat

/-- A `OnceCell`. -/
structure Cell (Key : Type) where
  key : Key
  value : Option Outcome

structure Flights (Key : Type) where
  table : Key → Option Nat
  cells : List (Cell Key)
  queries : List (Query Key)
  finished : List Nat

inductive Event (Key : Type) where
  | arrive (key : Key)
  | acquire (id : Nat)
  | finish (id : Nat) (answer : Option Bytes)
  | receive (id : Nat)
  | cancel (id : Nat)
  | check (id : Nat)
  | release (id : Nat)

namespace Flights
variable {Key : Type}

def start : Flights Key := ⟨fun _ => none, [], [], []⟩

def value (state : Flights Key) (cell : Nat) : Option Outcome :=
  (state.cells[cell]?).bind Cell.value

def holders (state : Flights Key) (cell : Nat) : Nat :=
  state.queries.countP fun query => query.cell = cell && query.place.holds

def runners (state : Flights Key) (cell : Nat) : Nat :=
  state.queries.countP fun query => query.cell = cell && query.place = .running

def move (state : Flights Key) (id : Nat) (query : Query Key) (place : Place) : Flights Key :=
  { state with queries := state.queries.set id { query with place } }

def settle (state : Flights Key) (cell : Nat) (outcome : Outcome) : Flights Key :=
  { state with
    cells := state.cells.modify cell fun c => { c with value := some outcome }
    finished := outcome.1 :: state.finished }

section Steps
variable [DecidableEq Key]

/-- The table's reference and those of the guards. -/
def strongCount (state : Flights Key) (key : Key) (cell : Nat) : Nat :=
  (if state.table key = some cell then 1 else 0) + state.holders cell

def arrive (state : Flights Key) (key : Key) : Flights Key :=
  match state.table key with
  | some cell =>
      { state with queries := state.queries ++ [⟨key, cell, .waiting, state.finished⟩] }
  | none =>
      let cell := state.cells.length
      { state with
        table := update state.table key (some cell)
        cells := state.cells ++ [⟨key, none⟩]
        queries := state.queries ++ [⟨key, cell, .waiting, state.finished⟩] }

/-- The guard's `drop` under the table's lock. -/
def check (state : Flights Key) (query : Query Key) : Flights Key :=
  let idle := (state.value query.cell).isSome || state.strongCount query.key query.cell = 2
  if idle ∧ state.table query.key = some query.cell then
    { state with table := update state.table query.key none }
  else state

def step (state : Flights Key) : Event Key → Option (Flights Key)
  | .arrive key => some (state.arrive key)
  | .acquire id =>
      match state.queries[id]? with
      | some query =>
          if query.place = .waiting ∧ state.value query.cell = none ∧
              state.runners query.cell = 0 then
            some (state.move id query .running)
          else none
      | none => none
  | .finish id answer =>
      match state.queries[id]? with
      | some query =>
          if query.place = .running then
            some ((state.settle query.cell (id, answer)).move id query (.leaving (some (id, answer))))
          else none
      | none => none
  | .receive id =>
      match state.queries[id]? with
      | some query =>
          if query.place = .waiting ∧ (state.value query.cell).isSome then
            some (state.move id query (.leaving (state.value query.cell)))
          else none
      | none => none
  | .cancel id =>
      match state.queries[id]? with
      | some query =>
          if query.place.pending then some (state.move id query (.leaving none)) else none
      | none => none
  | .check id =>
      match state.queries[id]? with
      | some query =>
          match query.place with
          | .leaving got => some ((state.check query).move id query (.releasing got))
          | _ => none
      | none => none
  | .release id =>
      match state.queries[id]? with
      | some query =>
          match query.place with
          | .releasing got => some (state.move id query (.gone got))
          | _ => none
      | none => none

/-- Everything an event can do. -/
inductive Taken (state : Flights Key) : Event Key → Flights Key → Prop where
  | arrive (key : Key) : Taken state (.arrive key) (state.arrive key)
  | acquire {id : Nat} {query : Query Key} (here : state.queries[id]? = some query)
      (waits : query.place = .waiting) (unset : state.value query.cell = none)
      (free : state.runners query.cell = 0) :
      Taken state (.acquire id) (state.move id query .running)
  | finish {id : Nat} {query : Query Key} {answer : Option Bytes}
      (here : state.queries[id]? = some query) (active : query.place = .running) :
      Taken state (.finish id answer)
        ((state.settle query.cell (id, answer)).move id query (.leaving (some (id, answer))))
  | receive {id : Nat} {query : Query Key} (here : state.queries[id]? = some query)
      (waits : query.place = .waiting) (set : (state.value query.cell).isSome = true) :
      Taken state (.receive id) (state.move id query (.leaving (state.value query.cell)))
  | cancel {id : Nat} {query : Query Key} (here : state.queries[id]? = some query)
      (pending : query.place.pending = true) :
      Taken state (.cancel id) (state.move id query (.leaving none))
  | check {id : Nat} {query : Query Key} {got : Option Outcome}
      (here : state.queries[id]? = some query) (leaving : query.place = .leaving got) :
      Taken state (.check id) ((state.check query).move id query (.releasing got))
  | release {id : Nat} {query : Query Key} {got : Option Outcome}
      (here : state.queries[id]? = some query) (releasing : query.place = .releasing got) :
      Taken state (.release id) (state.move id query (.gone got))

theorem step_taken {state next : Flights Key} {event : Event Key}
    (stepped : state.step event = some next) : state.Taken event next := by
  cases event with
  | arrive key =>
      cases stepped
      exact .arrive key
  | acquire id | finish id answer | receive id | cancel id =>
      simp only [step] at stepped
      split at stepped
      case h_2 => cases stepped
      case h_1 query here =>
        split at stepped
        case isFalse => cases stepped
        case isTrue allowed =>
          cases stepped
          first
          | exact .acquire here allowed.1 allowed.2.1 allowed.2.2
          | exact .finish here allowed
          | exact .receive here allowed.1 allowed.2
          | exact .cancel here allowed
  | check id | release id =>
      simp only [step] at stepped
      split at stepped
      case h_2 => cases stepped
      case h_1 query here =>
        split at stepped
        case h_2 => cases stepped
        case h_1 got place =>
          cases stepped
          first
          | exact .check here place
          | exact .release here place

end Steps

/-- What every run keeps. A pending query's cell stays in the table until it is
set, so queries that wait for the same key wait for the same cell. -/
structure Sound (state : Flights Key) : Prop where
  keyed : ∀ {key : Key} {cell : Nat}, state.table key = some cell →
    ∃ c, state.cells[cell]? = some c ∧ c.key = key
  owned : ∀ {id : Nat} {query : Query Key}, state.queries[id]? = some query →
    ∃ c, state.cells[query.cell]? = some c ∧ c.key = query.key
  tabled : ∀ {id : Nat} {query : Query Key}, state.queries[id]? = some query → query.place.pending = true →
    state.value query.cell = none → state.table query.key = some query.cell
  running : ∀ {id : Nat} {query : Query Key}, state.queries[id]? = some query → query.place = .running →
    state.value query.cell = none
  single : ∀ cell, state.runners cell ≤ 1
  got : ∀ {id : Nat} {query : Query Key} {outcome : Outcome}, state.queries[id]? = some query → query.place.got = some outcome →
    state.value query.cell = some outcome
  ended : ∀ {id : Nat} {query : Query Key}, state.queries[id]? = some query → query.place.pending = true →
    id ∉ state.finished
  known : ∀ {id : Nat}, id ∈ state.finished → id < state.queries.length
  seen : ∀ {id : Nat} {query : Query Key}, state.queries[id]? = some query → ∀ e ∈ query.before, e ∈ state.finished

section Moves
variable {state next : Flights Key} {id : Nat} {query : Query Key} {place : Place}

/-- A query that goes on without starting to wait again, and takes no other
outcome than its cell's. -/
theorem Sound.move (sound : state.Sound) (here : state.queries[id]? = some query)
    (pending : place.pending = true → query.place.pending = true)
    (runs : place = .running → state.value query.cell = none ∧ state.runners query.cell = 0)
    (got : ∀ outcome, place.got = some outcome → state.value query.cell = some outcome) :
    (state.move id query place).Sound where
  keyed := sound.keyed
  owned := by
    intro other found at_other
    obtain ⟨rfl, rfl⟩ | ⟨_, before⟩ := getElem?_set_cases at_other
    · have kept := sound.owned here
      exact kept
    · exact sound.owned before
  tabled := by
    intro other found at_other waits unset
    obtain ⟨rfl, rfl⟩ | ⟨_, before⟩ := getElem?_set_cases at_other
    · have kept := sound.tabled here (pending waits) unset
      exact kept
    · exact sound.tabled before waits unset
  running := by
    intro other found at_other active
    obtain ⟨rfl, rfl⟩ | ⟨_, before⟩ := getElem?_set_cases at_other
    · exact (runs active).1
    · exact sound.running before active
  single := by
    intro cell
    have counted := countP_set (fun q : Query Key => q.cell = cell && q.place = .running) here
      { query with place }
    have most := sound.single cell
    unfold runners at most ⊢
    -- It is counted only where it starts to run, which it does only if none runs.
    by_cases active : place = .running ∧ query.cell = cell
    · obtain ⟨rfl, rfl⟩ := active
      have none := (runs rfl).2
      unfold runners at none
      rw [none] at counted
      dsimp only at counted
      have one := Bool.toNat_le (decide (query.cell = query.cell) && decide (Place.running = .running))
      exact Nat.le_trans (Nat.le_of_add_right_le (Nat.le_of_eq counted)) (by omega)
    · have quiet : (decide (query.cell = cell) && decide (place = .running)) = false := by
        rw [Bool.and_eq_false_iff, decide_eq_false_iff_not, decide_eq_false_iff_not]
        tauto
      dsimp only at counted
      rw [quiet, Bool.toNat_false] at counted
      exact Nat.le_trans (Nat.le_of_add_right_le (Nat.le_of_eq counted)) most
  got := by
    intro other found outcome at_other received
    obtain ⟨rfl, rfl⟩ | ⟨_, before⟩ := getElem?_set_cases at_other
    · exact got outcome received
    · exact sound.got before received
  ended := by
    intro other found at_other waits
    obtain ⟨rfl, rfl⟩ | ⟨_, before⟩ := getElem?_set_cases at_other
    · exact sound.ended here (pending waits)
    · exact sound.ended before waits
  known := by
    intro other member
    simp only [Flights.move, List.length_set]
    exact sound.known member
  seen := by
    intro other found at_other
    obtain ⟨rfl, rfl⟩ | ⟨_, before⟩ := getElem?_set_cases at_other
    · have kept := sound.seen here
      exact kept
    · exact sound.seen before

/-- One more waiter on a cell of its key that is in the table or already set. -/
theorem Sound.join (sound : state.Sound) {key : Key} {cell : Nat} {c : Cell Key}
    (found : state.cells[cell]? = some c) (same : c.key = key)
    (tabled : state.table key = some cell) :
    Sound { state with queries := state.queries ++ [⟨key, cell, .waiting, state.finished⟩] } where
  keyed := sound.keyed
  owned := by
    intro id query here
    obtain ⟨rfl, rfl⟩ | before := getElem?_append_one_cases here
    · exact ⟨c, found, same⟩
    · exact sound.owned before
  tabled := by
    intro id query here waits unset
    obtain ⟨rfl, rfl⟩ | before := getElem?_append_one_cases here
    · exact tabled
    · exact sound.tabled before waits unset
  running := by
    intro id query here active
    obtain ⟨rfl, rfl⟩ | before := getElem?_append_one_cases here
    · cases active
    · exact sound.running before active
  single := by
    intro other
    have most := sound.single other
    unfold runners at most ⊢
    rw [countP_append_one]
    have quiet : (decide (cell = other) && decide (Place.waiting = .running)) = false :=
      Bool.and_eq_false_iff.mpr (.inr rfl)
    dsimp only
    rw [quiet, Bool.toNat_false]
    exact most
  got := by
    intro id query outcome here received
    obtain ⟨rfl, rfl⟩ | before := getElem?_append_one_cases here
    · cases received
    · exact sound.got before received
  ended := by
    intro id query here waits
    obtain ⟨rfl, rfl⟩ | before := getElem?_append_one_cases here
    · exact fun member => Nat.lt_irrefl _ (sound.known member)
    · exact sound.ended before waits
  known := by
    intro id member
    rw [List.length_append]
    exact Nat.lt_add_right _ (sound.known member)
  seen := by
    intro id query here
    obtain ⟨rfl, rfl⟩ | before := getElem?_append_one_cases here
    · exact fun e member => member
    · exact sound.seen before

theorem value_new {key : Key} (cell : Nat) :
    value { state with cells := state.cells ++ [⟨key, none⟩] } cell = state.value cell := by
  unfold value
  dsimp only
  rcases Nat.lt_trichotomy cell state.cells.length with inside | rfl | outside
  · rw [List.getElem?_append_left inside]
  · rw [List.getElem?_concat_length, List.getElem?_eq_none (Nat.le_refl _)]
    rfl
  · rw [List.getElem?_eq_none (Nat.le_of_lt outside), List.getElem?_eq_none (by
      rw [List.length_append, List.length_singleton]
      exact outside)]

theorem cells_settle {cell other : Nat} {outcome : Outcome} {c : Cell Key}
    (found : state.cells[other]? = some c) :
    ∃ kept, (state.settle cell outcome).cells[other]? = some kept ∧ kept.key = c.key := by
  rw [settle, List.getElem?_modify, found]
  refine ⟨_, rfl, ?_⟩
  split <;> rfl

theorem value_settle_self {cell : Nat} {outcome : Outcome} (inside : cell < state.cells.length) :
    (state.settle cell outcome).value cell = some outcome := by
  unfold value settle
  rw [List.getElem?_modify, List.getElem?_eq_getElem inside]
  simp only [Option.map_eq_map, Option.map_some, if_true, Option.bind_some]

theorem value_settle_ne {cell other : Nat} {outcome : Outcome} (differs : cell ≠ other) :
    (state.settle cell outcome).value other = state.value other := by
  unfold value settle
  rw [List.getElem?_modify]
  simp only [if_neg differs, Option.map_eq_map, Option.map_id']

/-- An exchange ends for a cell that no one runs for any more. -/
theorem Sound.settle (sound : state.Sound) {cell : Nat} {outcome : Outcome}
    (inside : cell < state.cells.length) (unset : state.value cell = none)
    (alone : state.runners cell = 0) (by_query : outcome.1 < state.queries.length)
    (stopped : ∀ query, state.queries[outcome.1]? = some query → query.place.pending = false) :
    (state.settle cell outcome).Sound where
  keyed := by
    intro key other tabled
    obtain ⟨c, found, same⟩ := sound.keyed tabled
    obtain ⟨kept, found, still⟩ := cells_settle found
    exact ⟨kept, found, still.trans same⟩
  owned := by
    intro id query here
    obtain ⟨c, found, same⟩ := sound.owned here
    obtain ⟨kept, found, still⟩ := cells_settle found
    exact ⟨kept, found, still.trans same⟩
  tabled := by
    intro id query here waits none
    apply sound.tabled here waits
    by_cases same : cell = query.cell
    · exact same ▸ unset
    · exact (value_settle_ne same).symm.trans none
  running := by
    intro id query here active
    -- A running query on this cell is excluded, as nothing runs when a value is set.
    have differs : cell ≠ query.cell := by
      rintro rfl
      have counted : 0 < state.runners query.cell := by
        apply List.countP_pos_iff.mpr
        refine ⟨query, List.mem_of_getElem? here, ?_⟩
        rw [active, decide_eq_true rfl, decide_eq_true rfl]
        rfl
      rw [alone] at counted
      cases counted
    exact (value_settle_ne differs).trans (sound.running here active)
  single := sound.single
  got := by
    intro id query outcome here received
    have before := sound.got here received
    have differs : cell ≠ query.cell := by
      rintro rfl
      cases unset.symm.trans before
    exact (value_settle_ne differs).trans before
  ended := by
    intro id query here waits member
    rcases List.mem_cons.mp member with rfl | before
    · cases waits.symm.trans (stopped query here)
    · exact sound.ended here waits before
  known := by
    intro id member
    rcases List.mem_cons.mp member with rfl | before
    · exact by_query
    · exact sound.known before
  seen := fun here e member => List.mem_cons_of_mem _ (sound.seen here e member)

theorem runners_move (sound : state.Sound) (here : state.queries[id]? = some query)
    (active : query.place = .running) (stops : place ≠ .running) :
    (state.move id query place).runners query.cell = 0 := by
  have counted := countP_set (fun q : Query Key => q.cell = query.cell && q.place = .running) here
    { query with place }
  have most := sound.single query.cell
  have quiet : decide (place = .running) = false := decide_eq_false stops
  unfold runners move at *
  dsimp only at counted ⊢
  rw [quiet, active, Bool.and_false, Bool.toNat_false, decide_eq_true rfl, decide_eq_true rfl,
    Bool.and_true, Bool.toNat_true] at counted
  omega

theorem Sound.finish (sound : state.Sound) {answer : Option Bytes}
    (here : state.queries[id]? = some query) (active : query.place = .running) :
    ((state.settle query.cell (id, answer)).move id query (.leaving (some (id, answer)))).Sound := by
  obtain ⟨own, found, _⟩ := sound.owned here
  have inside := (List.getElem?_eq_some_iff.mp found).1
  have unset := sound.running here active
  have stopped : (state.move id query (.leaving none)).Sound :=
    sound.move here (fun waits => nomatch waits) (fun runs => nomatch runs)
      (fun _ received => nomatch received)
  have moved : (state.move id query (.leaving none)).queries[id]? =
      some { query with place := .leaving none } := by
    rw [Flights.move, List.getElem?_set_self (List.getElem?_eq_some_iff.mp here).1]
  have alone : (state.move id query (.leaving none)).runners query.cell = 0 :=
    runners_move sound here active (by decide)
  have settled : ((state.move id query (.leaving none)).settle query.cell (id, answer)).Sound := by
    apply stopped.settle inside unset alone (List.getElem?_eq_some_iff.mp moved).1
    intro other same
    cases moved.symm.trans same
    rfl
  have taken : (((state.move id query (.leaving none)).settle query.cell (id, answer)).move id
      { query with place := .leaving none } (.leaving (some (id, answer)))).Sound := by
    refine settled.move moved ?_ ?_ ?_
    · exact fun waits => nomatch waits
    · exact fun runs => nomatch runs
    · rintro outcome ⟨⟩
      exact value_settle_self inside
  simpa only [Flights.move, Flights.settle, List.set_set] using taken

theorem sound_start : (start : Flights Key).Sound where
  keyed := fun none => nomatch none
  owned := fun none => nomatch none
  tabled := fun none => nomatch none
  running := fun none => nomatch none
  single := fun _ => Nat.zero_le _
  got := fun none => nomatch none
  ended := fun none => nomatch none
  known := fun none => nomatch none
  seen := fun none => nomatch none

/-- No query's cell is set by an exchange that had ended before it came, and a
cell in the table has a guard that will check it. -/
structure Tidy (state : Flights Key) : Prop where
  early : ∀ {id : Nat} {query : Query Key} {outcome : Outcome},
    state.queries[id]? = some query → state.value query.cell = some outcome →
    outcome.1 ∉ query.before
  attended : ∀ {key : Key} {cell : Nat}, state.table key = some cell →
    ∃ (id : Nat) (query : Query Key), state.queries[id]? = some query ∧ query.cell = cell ∧
      query.place.attends = true

theorem Tidy.move (tidy : state.Tidy) (here : state.queries[id]? = some query)
    (attends : query.place.attends = true → place.attends = true) :
    (state.move id query place).Tidy where
  early := by
    intro other found outcome at_other set
    obtain ⟨rfl, rfl⟩ | ⟨_, before⟩ := getElem?_set_cases at_other
    · have kept := tidy.early here set
      exact kept
    · exact tidy.early before set
  attended := by
    intro key cell tabled
    obtain ⟨other, found, at_other, same, guards⟩ := tidy.attended tabled
    by_cases itself : id = other
    · subst itself
      cases here.symm.trans at_other
      exact ⟨id, _, List.getElem?_set_self (List.getElem?_eq_some_iff.mp here).1, same,
        attends guards⟩
    · exact ⟨other, found, (List.getElem?_set_ne itself).trans at_other, same, guards⟩

theorem Tidy.settle (sound : state.Sound) (tidy : state.Tidy) {outcome : Outcome}
    (here : state.queries[id]? = some query) (active : query.place = .running)
    (own : outcome.1 = id) : (state.settle query.cell outcome).Tidy where
  early := by
    intro other found set at_other valued
    by_cases same : query.cell = found.cell
    · obtain ⟨c, inCells, _⟩ := sound.owned here
      have inside := (List.getElem?_eq_some_iff.mp inCells).1
      rw [← same, value_settle_self inside] at valued
      cases valued
      -- The exchange has not ended yet, so no query can have come after its end.
      intro member
      have ended := sound.seen at_other _ member
      rw [own] at ended
      exact sound.ended here (active ▸ rfl) ended
    · rw [value_settle_ne same] at valued
      exact tidy.early at_other valued
  attended := tidy.attended

theorem Tidy.finish (sound : state.Sound) (tidy : state.Tidy) {answer : Option Bytes}
    (here : state.queries[id]? = some query) (active : query.place = .running) :
    ((state.settle query.cell (id, answer)).move id query (.leaving (some (id, answer)))).Tidy :=
  Tidy.move (tidy.settle sound here active rfl) here (fun _ => rfl)

theorem holders_alone {got : Option Outcome} (here : state.queries[id]? = some query)
    (leaving : query.place = .leaving got)
    (alone : ∀ other found, other ≠ id → state.queries[other]? = some found →
      found.cell = query.cell → found.place.holds = false) : state.holders query.cell = 1 := by
  have counted := countP_set (fun q : Query Key => q.cell = query.cell && q.place.holds) here
    { query with place := .gone none }
  have left : (state.queries.set id { query with place := .gone none }).countP
      (fun q : Query Key => q.cell = query.cell && q.place.holds) = 0 := by
    rw [List.countP_eq_zero]
    intro found member
    obtain ⟨other, at_other⟩ := List.getElem?_of_mem member
    rw [Bool.and_eq_true, decide_eq_true_iff]
    rintro ⟨same, holds⟩
    obtain ⟨_, rfl⟩ | ⟨differs, before⟩ := getElem?_set_cases at_other
    · cases holds
    · rw [alone other found differs before same] at holds
      cases holds
  unfold holders
  rw [left, leaving] at counted
  dsimp only at counted
  have one : (decide (query.cell = query.cell) && (Place.leaving got).holds).toNat = 1 := by
    rw [decide_eq_true rfl]
    rfl
  have zero : (decide (query.cell = query.cell) && (Place.gone none).holds).toNat = 0 := by
    rw [decide_eq_true rfl]
    rfl
  omega

variable [DecidableEq Key]

theorem Sound.open (sound : state.Sound) {key : Key} (missing : state.table key = none) :
    Sound { state with
      table := update state.table key (some state.cells.length)
      cells := state.cells ++ [⟨key, none⟩] } where
  keyed := by
    intro other cell tabled
    dsimp only at tabled
    by_cases same : other = key
    · subst same
      rw [update_self] at tabled
      cases tabled
      exact ⟨_, List.getElem?_concat_length, rfl⟩
    · rw [update_of_ne same] at tabled
      obtain ⟨c, found, keyed⟩ := sound.keyed tabled
      exact ⟨c, (List.getElem?_append_left (List.getElem?_eq_some_iff.mp found).1).trans found, keyed⟩
  owned := by
    intro id query here
    obtain ⟨c, found, keyed⟩ := sound.owned here
    exact ⟨c, (List.getElem?_append_left (List.getElem?_eq_some_iff.mp found).1).trans found, keyed⟩
  tabled := by
    intro id query here waits unset
    have before := sound.tabled here waits ((value_new query.cell).symm.trans unset)
    have differs : query.key ≠ key := by
      rintro rfl
      cases before.symm.trans missing
    exact (update_of_ne differs _ _).trans before
  running := fun here active => (value_new _).trans (sound.running here active)
  single := sound.single
  got := fun here received => (value_new _).trans (sound.got here received)
  ended := sound.ended
  known := sound.known
  seen := sound.seen

theorem Sound.arrive (sound : state.Sound) (key : Key) : (state.arrive key).Sound := by
  unfold Flights.arrive
  split
  case h_1 cell tabled =>
    obtain ⟨c, found, same⟩ := sound.keyed tabled
    exact sound.join found same tabled
  case h_2 missing =>
    have opened := sound.open missing
    exact opened.join List.getElem?_concat_length rfl (update_self _ _ _)

theorem check_queries : (state.check query).queries = state.queries := by
  unfold Flights.check
  dsimp only
  split <;> rfl

/-- Under the table's lock, an unset cell goes only when its guard is the last,
so no pending query loses its cell. -/
theorem Sound.check (sound : state.Sound) (here : state.queries[id]? = some query)
    {got : Option Outcome} (leaving : query.place = .leaving got) :
    (state.check query).Sound := by
  unfold Flights.check
  dsimp only
  split
  case isFalse => exact sound
  case isTrue removed =>
    obtain ⟨idle, mine⟩ := removed
    refine ⟨?_, sound.owned, ?_, sound.running, sound.single, sound.got, sound.ended, sound.known,
      sound.seen⟩
    · intro key cell tabled
      dsimp only at tabled
      by_cases same : key = query.key
      · subst same
        rw [update_self] at tabled
        cases tabled
      · rw [update_of_ne same] at tabled
        exact sound.keyed tabled
    · intro other found at_other waits unset
      have before := sound.tabled at_other waits unset
      have differs : found.key ≠ query.key := by
        intro same
        rw [same, mine] at before
        have sameCell := Option.some.inj before
        have unset : state.value query.cell = none := sameCell ▸ unset
        rw [unset, Option.isSome_none, Bool.false_or, decide_eq_true_iff, strongCount,
          if_pos mine] at idle
        have distinct : other ≠ id := by
          rintro rfl
          cases here.symm.trans at_other
          rw [leaving] at waits
          cases waits
        have both : 2 ≤ state.holders query.cell := by
          apply two_le_countP _ distinct at_other here
          · rw [sameCell, decide_eq_true rfl, Place.holds_of_pending waits]
            rfl
          · rw [leaving, decide_eq_true rfl]
            rfl
        omega
      exact (update_of_ne differs _ _).trans before

theorem Sound.taken {event : Event Key} (sound : state.Sound) (taken : state.Taken event next) :
    next.Sound := by
  cases taken with
  | arrive key => exact sound.arrive key
  | acquire here waits unset free =>
      refine sound.move here (fun _ => ?_) (fun _ => ⟨unset, free⟩) (fun _ received => nomatch received)
      rw [waits]
      rfl
  | finish here active => exact sound.finish here active
  | receive here waits set =>
      exact sound.move here (fun waits => nomatch waits) (fun runs => nomatch runs)
        (fun _ received => received)
  | cancel here pending =>
      exact sound.move here (fun waits => nomatch waits) (fun runs => nomatch runs)
        (fun _ received => nomatch received)
  | @check id query got here leaving =>
      have checked := sound.check here leaving
      have still : (state.check query).queries[id]? = some query := by
        rw [check_queries]
        exact here
      refine checked.move still (fun waits => nomatch waits) (fun runs => nomatch runs) ?_
      intro outcome received
      apply checked.got still
      rw [leaving]
      exact received
  | release here releasing =>
      refine sound.move here (fun waits => nomatch waits) (fun runs => nomatch runs) ?_
      intro outcome received
      apply sound.got here
      rw [releasing]
      exact received

theorem cell_kept {event : Event Key} (taken : state.Taken event next)
    (here : state.queries[id]? = some query) :
    ∃ kept, next.queries[id]? = some kept ∧ kept.cell = query.cell := by
  have moved : ∀ {other : Nat} {found : Query Key} {place : Place},
      state.queries[other]? = some found →
      ∃ kept, (state.queries.set other { found with place })[id]? = some kept ∧
        kept.cell = query.cell := by
    intro other found place at_other
    by_cases same : other = id
    · subst same
      cases here.symm.trans at_other
      exact ⟨_, List.getElem?_set_self (List.getElem?_eq_some_iff.mp here).1, rfl⟩
    · exact ⟨query, (List.getElem?_set_ne same).trans here, rfl⟩
  cases taken with
  | arrive key =>
      have appended : ∀ new : Query Key, (state.queries ++ [new])[id]? = some query := fun new =>
        (List.getElem?_append_left (List.getElem?_eq_some_iff.mp here).1).trans here
      refine ⟨query, ?_, rfl⟩
      unfold Flights.arrive
      split <;> exact appended _
  | check at_other leaving =>
      simp only [Flights.move, check_queries]
      exact moved at_other
  | acquire at_other | finish at_other | receive at_other | cancel at_other | release at_other =>
      exact moved at_other

/-- Arrivals find no set cell, and no guard that has passed its check still
counts against the last one to check. -/
def Orderly (state : Flights Key) : Event Key → Prop
  | .arrive key => ∀ cell, state.table key = some cell → state.value cell = none
  | .check id =>
      ∀ query, state.queries[id]? = some query → state.value query.cell = none →
        (∃ other found, other ≠ id ∧ state.queries[other]? = some found ∧
          found.cell = query.cell ∧ found.place.holds = true) →
        ∃ other found, other ≠ id ∧ state.queries[other]? = some found ∧
          found.cell = query.cell ∧ found.place.attends = true
  | _ => True

theorem Tidy.arrive (tidy : state.Tidy) {key : Key}
    (orderly : ∀ cell, state.table key = some cell → state.value cell = none) :
    (state.arrive key).Tidy := by
  unfold Flights.arrive
  split
  case h_1 cell tabled =>
    constructor
    · intro id query outcome here set
      obtain ⟨rfl, rfl⟩ | before := getElem?_append_one_cases here
      · cases (orderly cell tabled).symm.trans set
      · exact tidy.early before set
    · intro other cell tabled
      obtain ⟨id, query, here, same, guards⟩ := tidy.attended tabled
      exact ⟨id, query,
        (List.getElem?_append_left (List.getElem?_eq_some_iff.mp here).1).trans here, same, guards⟩
  case h_2 missing =>
    have none : state.value state.cells.length = none := by
      rw [value, List.getElem?_eq_none (Nat.le_refl _)]
      rfl
    constructor
    · intro id query outcome here set
      have set := (value_new query.cell).symm.trans set
      obtain ⟨rfl, rfl⟩ | before := getElem?_append_one_cases here
      · cases none.symm.trans set
      · exact tidy.early before set
    · intro other cell tabled
      dsimp only at tabled
      by_cases same : other = key
      · subst same
        rw [update_self] at tabled
        cases tabled
        exact ⟨_, _, List.getElem?_concat_length, rfl, rfl⟩
      · rw [update_of_ne same] at tabled
        obtain ⟨id, query, here, same, guards⟩ := tidy.attended tabled
        exact ⟨id, query,
          (List.getElem?_append_left (List.getElem?_eq_some_iff.mp here).1).trans here, same,
          guards⟩

/-- The guard that passes its check leaves another that attends its cell, or
takes the cell out of the table. -/
theorem Tidy.check (sound : state.Sound) (tidy : state.Tidy) {got : Option Outcome}
    (here : state.queries[id]? = some query) (leaving : query.place = .leaving got)
    (orderly : state.value query.cell = none →
      (∃ other found, other ≠ id ∧ state.queries[other]? = some found ∧
        found.cell = query.cell ∧ found.place.holds = true) →
      ∃ other found, other ≠ id ∧ state.queries[other]? = some found ∧
        found.cell = query.cell ∧ found.place.attends = true) :
    ((state.check query).move id query (.releasing got)).Tidy := by
  have tabled_of : ∀ {key cell}, (state.check query).table key = some cell →
      state.table key = some cell ∧ (cell = query.cell → ∃ other found, other ≠ id ∧
        state.queries[other]? = some found ∧ found.cell = cell ∧ found.place.attends = true) := by
    intro key cell tabled
    have key_of : state.table key = some cell → cell = query.cell → key = query.key := by
      rintro before rfl
      obtain ⟨c, found, same⟩ := sound.keyed before
      obtain ⟨d, also, its⟩ := sound.owned here
      cases found.symm.trans also
      exact same.symm.trans its
    unfold Flights.check at tabled
    dsimp only at tabled
    split at tabled
    case isTrue removed =>
      have differs : key ≠ query.key := by
        rintro rfl
        dsimp only at tabled
        rw [update_self] at tabled
        cases tabled
      have before : state.table key = some cell := (update_of_ne differs _ _).symm.trans tabled
      exact ⟨before, fun same => absurd (key_of before same) differs⟩
    -- The cell stays for a value or for another holder; without a value that holder attends it.
    case isFalse stays =>
      refine ⟨tabled, ?_⟩
      rintro rfl
      have mine := tabled
      rw [key_of tabled rfl] at mine
      have busy : ¬ _ := fun idle => stays ⟨idle, mine⟩
      rw [Bool.or_eq_true, not_or, Option.isSome_iff_ne_none, Decidable.not_not,
        decide_eq_true_iff, strongCount, if_pos mine] at busy
      apply orderly busy.1
      by_contra alone
      apply busy.2
      rw [holders_alone here leaving fun other found differs at_other same =>
        Bool.eq_false_iff.mpr fun holds => alone ⟨other, found, differs, at_other, same, holds⟩]
  constructor
  · intro other found outcome at_other valued
    have same : ∀ cell, (state.check query).value cell = state.value cell := by
      intro cell
      unfold Flights.check
      dsimp only
      split <;> rfl
    have set : state.value found.cell = some outcome := (same _).symm.trans valued
    rw [Flights.move, check_queries] at at_other
    obtain ⟨rfl, rfl⟩ | ⟨_, before⟩ := getElem?_set_cases at_other
    · have kept := tidy.early here set
      exact kept
    · exact tidy.early before set
  · intro key cell tabled
    obtain ⟨before, others⟩ := tabled_of tabled
    have other : ∃ other found, other ≠ id ∧ state.queries[other]? = some found ∧
        found.cell = cell ∧ found.place.attends = true := by
      by_cases same : cell = query.cell
      · exact others same
      · obtain ⟨other, found, at_other, its, guards⟩ := tidy.attended before
        refine ⟨other, found, ?_, at_other, its, guards⟩
        rintro rfl
        cases here.symm.trans at_other
        exact same its.symm
    obtain ⟨other, found, differs, at_other, its, guards⟩ := other
    refine ⟨other, found, ?_, its, guards⟩
    rw [Flights.move, check_queries, List.getElem?_set_ne differs.symm]
    exact at_other

theorem Tidy.taken {event : Event Key} (sound : state.Sound) (tidy : state.Tidy)
    (orderly : state.Orderly event) (taken : state.Taken event next) : next.Tidy := by
  cases taken with
  | arrive key => exact tidy.arrive orderly
  | acquire here waits _ _ => exact tidy.move here (fun _ => rfl)
  | finish here active => exact tidy.finish sound here active
  | receive here _ _ => exact tidy.move here (fun _ => rfl)
  | cancel here _ => exact tidy.move here (fun _ => rfl)
  | check here leaving => exact tidy.check sound here leaving (orderly _ here)
  | release here releasing =>
      refine tidy.move here fun attends => ?_
      rw [releasing] at attends
      cases attends

end Moves

def Awaits (state : Flights Key) (key : Key) (id cell : Nat) : Prop :=
  ∃ query, state.queries[id]? = some query ∧ query.key = key ∧ query.cell = cell ∧
    query.place.pending = true ∧ state.value cell = none

def Received (state : Flights Key) (id : Nat) (outcome : Outcome) : Prop :=
  ∃ query, state.queries[id]? = some query ∧ query.place.got = some outcome

/-- Its exchange had ended when the query came. -/
def Stale (state : Flights Key) (id : Nat) : Prop :=
  ∃ query outcome, state.queries[id]? = some query ∧ query.place.got = some outcome ∧
    outcome.1 ∈ query.before

/-- No query of the key is left. -/
def Deserted (state : Flights Key) (key : Key) : Prop :=
  ∀ (id : Nat) (query : Query Key), state.queries[id]? = some query → query.key = key →
    query.place.holds = false

/-- The query has its outcome at hand, or its turn to run the exchange, or another
runs it. -/
def Proceeds [DecidableEq Key] (state : Flights Key) (id : Nat) (query : Query Key) : Prop :=
  (∃ next, state.step (.receive id) = some next) ∨
    (∃ next, state.step (.acquire id) = some next) ∨
    ∃ (other : Nat) (runner : Query Key), state.queries[other]? = some runner ∧
      runner.place = .running ∧ runner.cell = query.cell

theorem tidy_start : (start : Flights Key).Tidy where
  early := fun none => nomatch none
  attended := fun none => nomatch none

section Reached
variable {state : Flights Key}

theorem Sound.same_cell (sound : state.Sound) {key : Key} {first second one two : Nat}
    (awaits : state.Awaits key first one) (also : state.Awaits key second two) : one = two := by
  obtain ⟨query, here, rfl, rfl, pending, unset⟩ := awaits
  obtain ⟨other, at_other, same, rfl, waits, missing⟩ := also
  have tabled := sound.tabled here pending unset
  rw [← same] at tabled
  exact Option.some.inj (tabled.symm.trans (sound.tabled at_other waits missing))

theorem progress [DecidableEq Key] {id : Nat} {query : Query Key}
    (here : state.queries[id]? = some query) (waits : query.place = .waiting) :
    state.Proceeds id query := by
  cases valued : state.value query.cell with
  | some outcome =>
      left
      simp only [step, here]
      rw [if_pos ⟨waits, by rw [valued, Option.isSome_some]⟩]
      exact ⟨_, rfl⟩
  | none =>
      right
      by_cases free : state.runners query.cell = 0
      · left
        simp only [step, here]
        rw [if_pos ⟨waits, valued, free⟩]
        exact ⟨_, rfl⟩
      · right
        obtain ⟨runner, member, active⟩ := List.countP_pos_iff.mp (Nat.pos_of_ne_zero free)
        obtain ⟨other, at_other⟩ := List.getElem?_of_mem member
        rw [Bool.and_eq_true, decide_eq_true_iff, decide_eq_true_iff] at active
        exact ⟨other, runner, at_other, active.2, active.1⟩

theorem cleared (sound : state.Sound) (tidy : state.Tidy) {key : Key}
    (deserted : state.Deserted key) : state.table key = none := by
  cases tabled : state.table key with
  | none => rfl
  | some cell =>
      obtain ⟨id, query, here, rfl, attends⟩ := tidy.attended tabled
      obtain ⟨c, found, same⟩ := sound.keyed tabled
      obtain ⟨d, also, its⟩ := sound.owned here
      cases found.symm.trans also
      have left := deserted id query here (its.symm.trans same)
      rw [Place.holds_of_attends attends] at left
      cases left

end Reached

end Flights

section Runs
open Flights
variable {Key : Type} [DecidableEq Key] {past rest : List (Event Key)}
  {middle final : Flights Key}

theorem sound_of_follow (reached : follow step start past = some middle) : middle.Sound :=
  follow_keeps Sound (fun sound stepped => sound.taken (step_taken stepped)) sound_start reached

theorem cell_of_follow (followed : follow step middle rest = some final) {id : Nat}
    {query : Query Key} (here : middle.queries[id]? = some query) :
    ∃ kept, final.queries[id]? = some kept ∧ kept.cell = query.cell := by
  apply follow_keeps (fun state => ∃ kept, state.queries[id]? = some kept ∧ kept.cell = query.cell)
    _ ⟨query, here, rfl⟩ followed
  rintro state event next ⟨kept, at_kept, same⟩ stepped
  obtain ⟨later, at_later, still⟩ := cell_kept (step_taken stepped) at_kept
  exact ⟨later, at_later, still.trans same⟩

theorem received_value (reached : follow step start past = some middle)
    (followed : follow step middle rest = some final) {key : Key} {id cell : Nat}
    {outcome : Outcome} (awaits : middle.Awaits key id cell)
    (received : final.Received id outcome) : final.value cell = some outcome := by
  have all : follow step start (past ++ rest) = some final := by
    rw [follow_append, reached]
    exact followed
  obtain ⟨query, here, _, rfl, _⟩ := awaits
  obtain ⟨kept, at_kept, same⟩ := cell_of_follow followed here
  obtain ⟨last, at_last, got⟩ := received
  cases at_kept.symm.trans at_last
  rw [← same]
  exact (sound_of_follow all).got at_last got

theorem tidy_of_follow (reached : follow step start past = some middle)
    (orderly : Throughout step Orderly start past) : middle.Tidy := by
  have both := follow_invariant (fun state => state.Sound ∧ state.Tidy)
    (fun kept allowed stepped =>
      ⟨kept.1.taken (step_taken stepped), kept.2.taken kept.1 allowed (step_taken stepped)⟩)
    ⟨sound_start, tidy_start⟩ reached orderly
  exact both.2

/-- In every state reached, queries that wait for one key wait for one exchange
and whatever they get from it is the same. In an orderly run no query gets an
exchange from before it came, and a key that no one asks for has no entry. -/
theorem singleflight_common (reached : follow step start past = some middle)
    (followed : follow step middle rest = some final) :
    (∀ cell, middle.runners cell ≤ 1) ∧
      (∀ key first second one two, middle.Awaits key first one → middle.Awaits key second two →
        one = two ∧ ∀ x y, final.Received first x → final.Received second y → x = y) ∧
      (∀ (id : Nat) (query : Query Key), middle.queries[id]? = some query →
        query.place = .waiting →
        middle.Proceeds id query) ∧
      (Throughout step Orderly start (past ++ rest) →
        (∀ id, ¬ final.Stale id) ∧ ∀ key, final.Deserted key → final.table key = none) := by
  have sound := sound_of_follow reached
  have all : follow step start (past ++ rest) = some final := by
    rw [follow_append, reached]
    exact followed
  refine ⟨sound.single, ?_, fun id query here waits => progress here waits, ?_⟩
  · intro key first second one two awaits also
    obtain rfl := sound.same_cell awaits also
    refine ⟨rfl, fun x y gotX gotY => ?_⟩
    have valueX := received_value reached followed awaits gotX
    have valueY := received_value reached followed also gotY
    exact Option.some.inj (valueX.symm.trans valueY)
  · intro orderly
    have tidy := tidy_of_follow all orderly
    refine ⟨?_, fun key deserted => cleared (sound_of_follow all) tidy deserted⟩
    rintro id ⟨query, outcome, here, got, member⟩
    exact tidy.early here ((sound_of_follow all).got here got) member

end Runs

def joined : List (Event Nat) := [.arrive 0, .arrive 0, .acquire 0]

def shared : List (Event Nat) :=
  [.finish 0 (some []), .receive 1, .check 0, .check 1, .release 0, .release 1]

theorem orderly_shared :
    Throughout Flights.step Flights.Orderly Flights.start (joined ++ shared) := by
  have first : ∀ cell, (Flights.start : Flights Nat).table 0 = some cell →
      (Flights.start : Flights Nat).value cell = none := fun _ none => nomatch none
  refine throughout_cons first rfl (throughout_cons ?_ rfl (throughout_cons trivial rfl
    (throughout_cons trivial rfl (throughout_cons trivial rfl (throughout_cons ?_ rfl
      (throughout_cons ?_ rfl (throughout_cons trivial rfl (throughout_cons trivial rfl trivial))))))))
  · rintro cell ⟨⟩
    rfl
  · rintro query ⟨⟩ unset
    cases unset
  · rintro query ⟨⟩ unset
    cases unset

theorem shared_flight_common : ∃ middle final,
    follow Flights.step Flights.start joined = some middle ∧
      follow Flights.step middle shared = some final ∧
      (∀ x y, final.Received 0 x → final.Received 1 y → x = y) ∧ final.table 0 = none := by
  refine ⟨_, _, rfl, rfl, ?_, ?_⟩
  · have common := @singleflight_common Nat _ joined shared _ _ rfl rfl
    exact (common.2.1 0 0 1 0 0 ⟨_, rfl, rfl, rfl, rfl, rfl⟩ ⟨_, rfl, rfl, rfl, rfl, rfl⟩).2
  · have common := @singleflight_common Nat _ joined shared _ _ rfl rfl
    apply (common.2.2.2 orderly_shared).2
    rintro (_ | _ | id) query here - <;> cases here <;> rfl

/-- Both are cancelled, and both pass their checks before either lets go of its
reference. -/
def abandonedFlight : List (Event Nat) :=
  [.arrive 0, .arrive 0, .cancel 0, .cancel 1, .check 0, .check 1, .release 0, .release 1]

/-- The second query comes between the end of the exchange and the check. -/
def lateFlight : List (Event Nat) := [.arrive 0, .acquire 0, .finish 0 (some []), .arrive 0, .receive 1]

theorem abandoned_entry_stays :
    (∃ final, follow Flights.step Flights.start abandonedFlight = some final ∧
      final.Deserted 0 ∧ final.table 0 = some 0) ∧
    ∃ final, follow Flights.step Flights.start lateFlight = some final ∧ final.Stale 1 := by
  refine ⟨⟨_, rfl, ?_, rfl⟩, ⟨_, rfl, ⟨_, _, rfl, rfl, List.mem_singleton_self 0⟩⟩⟩
  rintro (_ | _ | id) query here - <;> cases here <;> rfl

end Mirage.Dns.Singleflight
