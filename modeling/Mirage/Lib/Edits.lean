import Mathlib.Init

/-!
Edits of a state in place, which may be refused on the way. What has been written by
then stays, unless nothing has.
-/

namespace Mirage.Edits

section Bind
variable {Error State Result Later : Type} {first other : EStateM Error State Result}
  {next : Result → EStateM Error State Later} {state state' : State}

theorem bind_ok {result : Result} (ran : first state = .ok result state') :
    (first >>= next) state = next result state' := by
  change EStateM.bind first next state = _
  rw [EStateM.bind, ran]

theorem bind_error {error : Error} (failed : first state = .error error state') :
    (first >>= next) state = .error error state' := by
  change EStateM.bind first next state = _
  rw [EStateM.bind, failed]

theorem bind_congr_run (same : first state = other state) :
    (first >>= next) state = (other >>= next) state := by
  change EStateM.bind first next state = EStateM.bind other next state
  rw [EStateM.bind, EStateM.bind, same]

end Bind

section Outcomes
variable {Error State : Type} (edit : EStateM Error State Unit) (state : State)

/-- Refused, the edit leaves everything as it is. -/
def Atomic : Prop := ∀ reason left, edit state = .error reason left → left = state

def Succeeds : Prop := ∃ left, edit state = .ok () left

/-- What is there afterwards, refused or not. -/
def stateAfter : State :=
  match edit state with
  | .ok _ left | .error _ left => left

variable {edit state}

theorem Succeeds.atomic (succeeds : Succeeds edit state) : Atomic edit state := by
  obtain ⟨after, ran⟩ := succeeds
  intro reason left failed
  cases ran.symm.trans failed

theorem atomic_of_same (error : Error) (same : edit state = .error error state) :
    Atomic edit state := by
  intro reason left failed
  cases same.symm.trans failed
  rfl

theorem succeeds_modify (change : State → State) (state : State) :
    Succeeds (modify change : EStateM Error State Unit) state := ⟨change state, rfl⟩

end Outcomes

section Part
variable {Error Part Whole : Type} {put : Part → Whole} {part : Part} {place : Whole}

/-- The outcome of an edit of a part, seen as one of the whole. -/
def mapState {Result : Type} (put : Part → Whole) :
    EStateM.Result Error Part Result → EStateM.Result Error Whole Result
  | .ok result state => .ok result (put state)
  | .error reason state => .error reason (put state)

theorem mapState_leaves (exact : ∀ other, put other = place ↔ other = part)
    (edit : EStateM Error Part Unit) :
    (∀ reason left, mapState put (edit part) = .error reason left → left = place) ↔
      Atomic edit part := by
  constructor
  · intro leaves reason left failed
    have same := leaves reason (put left) (by rw [failed]; rfl)
    exact (exact left).mp same
  · intro atomic reason left failed
    cases ran : edit part with
    | ok result state =>
        rw [ran] at failed
        cases failed
    | error _ state =>
        rw [ran] at failed
        cases failed
        exact (exact state).mpr (atomic _ state ran)

theorem mapState_succeeds (edit : EStateM Error Part Unit) :
    (∃ left, mapState put (edit part) = .ok () left) ↔ Succeeds edit part := by
  constructor
  · rintro ⟨left, ran⟩
    cases inner : edit part with
    | ok result state => exact ⟨state, inner⟩
    | error reason state =>
        rw [inner] at ran
        cases ran
  · rintro ⟨left, ran⟩
    exact ⟨put left, by rw [ran]; rfl⟩

theorem stateAfter_mapState {edit : EStateM Error Part Unit} {whole : EStateM Error Whole Unit}
    (ran : whole place = mapState put (edit part)) :
    stateAfter whole place = put (stateAfter edit part) := by
  unfold stateAfter
  rw [ran]
  cases edit part with
  | ok _ left => rfl
  | error _ left => rfl

end Part

section Keeps
variable {Error State : Type} {good : State → Prop} {first second : EStateM Error State Unit}

/-- Refused or not, the edit leaves a good state if it found one. -/
def Keeps (good : State → Prop) (edit : EStateM Error State Unit) : Prop :=
  ∀ state, good state → good (stateAfter edit state)

theorem keeps_bind (keeps : Keeps good first) (later : Keeps good second) :
    Keeps good (do first; second) := by
  intro state fine
  have before := keeps state fine
  unfold stateAfter at *
  cases ran : first state with
  | ok _ left =>
      rw [ran] at before
      rw [bind_ok ran]
      exact later left before
  | error reason left =>
      rw [ran] at before
      rw [bind_error ran]
      exact before

theorem keeps_get {next : State → EStateM Error State Unit}
    (keeps : ∀ state, Keeps good (next state)) : Keeps good (do next (← get)) :=
  fun state fine => keeps state state fine

theorem keeps_throw (error : Error) : Keeps good (throw error : EStateM Error State Unit) :=
  fun _ fine => fine

theorem keeps_pure : Keeps good (pure () : EStateM Error State Unit) := fun _ fine => fine

theorem keeps_modify {change : State → State} (fine : ∀ state, good state → good (change state)) :
    Keeps good (modify change : EStateM Error State Unit) := fine

theorem keeps_ite {condition : Prop} [Decidable condition] (keeps : Keeps good first)
    (otherwise : Keeps good second) : Keeps good (if condition then first else second) := by
  split
  · exact keeps
  · exact otherwise

end Keeps

section Runs
variable {Error State Request : Type} (edit : Request → EStateM Error State Unit)

/-- One request after the other, each on what the one before has left. -/
def goOn (requests : List Request) (state : State) : State :=
  requests.foldl (fun state request => stateAfter (edit request) state) state

/-- What is there if nobody makes the requests that are refused. -/
def acceptedOnly (requests : List Request) (state : State) : State :=
  requests.foldl (fun state request =>
    match edit request state with
    | .ok _ left => left
    | .error _ _ => state) state

def Along (fine : Request → State → Prop) : List Request → State → Prop
  | [], _ => True
  | request :: rest, state => fine request state ∧ Along fine rest (stateAfter (edit request) state)

variable {edit}

/-- Where every refusal on the way is atomic, only what is accepted has an effect. -/
theorem goOn_eq_acceptedOnly {good : State → Prop} {fine : Request → State → Prop}
    (keeps : ∀ request, Keeps good (edit request))
    (atomic : ∀ request state, good state → fine request state → Atomic (edit request) state)
    {requests : List Request} {state : State} (starts : good state)
    (along : Along edit fine requests state) :
    goOn edit requests state = acceptedOnly edit requests state := by
  induction requests generalizing state with
  | nil => rfl
  | cons request rest ih =>
      obtain ⟨here, later⟩ := along
      have next := ih (keeps request state starts) later
      have same : stateAfter (edit request) state =
          match edit request state with
          | .ok _ left => left
          | .error _ _ => state := by
        unfold stateAfter
        cases ran : edit request state with
        | ok _ left => rfl
        | error reason left => exact atomic request state starts here reason left ran
      calc goOn edit (request :: rest) state
          = goOn edit rest (stateAfter (edit request) state) := rfl
        _ = acceptedOnly edit rest (stateAfter (edit request) state) := next
        _ = acceptedOnly edit (request :: rest) state := by
            rw [same, acceptedOnly, acceptedOnly, List.foldl_cons]

end Runs

end Mirage.Edits
