import Mathlib.Data.List.Basic
import Mathlib.Data.List.Induction

/-!
Runs of a machine that answers one input at a time. `run` is the state after a
list of inputs and `answer` what the machine says to one more. What one step
keeps holds after every run; `run_clocked` is the form for inputs that carry a
clock reading. `follow` is for a machine that cannot take every event in every
state: a run is a list of events that each had their turn.
-/

namespace Mirage.Trace

variable {State Input Output : Type} (step : State → Input → Output × State)

def run (start : State) (inputs : List Input) : State :=
  inputs.foldl (fun state input => (step state input).2) start

def answer (start : State) (past : List Input) (input : Input) : Output :=
  (step (run step start past) input).1

variable {step} {start : State}

@[simp] theorem run_nil : run step start [] = start := rfl

@[simp] theorem run_cons (input : Input) (rest : List Input) :
    run step start (input :: rest) = run step (step start input).2 rest := rfl

@[simp] theorem run_append (first second : List Input) :
    run step start (first ++ second) = run step (run step start first) second :=
  List.foldl_append

theorem run_invariant (Inv : State → Prop)
    (keep : ∀ state input, Inv state → Inv (step state input).2)
    (initial : Inv start) (inputs : List Input) : Inv (run step start inputs) := by
  induction inputs generalizing start with
  | nil => exact initial
  | cons input rest ih => exact ih (keep start input initial)

/-- An invariant that speaks of the inputs so far. -/
theorem run_history (Inv : List Input → State → Prop) (initial : Inv [] start)
    (keep : ∀ past state input, Inv past state → Inv (past ++ [input]) (step state input).2)
    (inputs : List Input) : Inv inputs (run step start inputs) := by
  induction inputs using List.reverseRecOn with
  | nil => exact initial
  | append_singleton past input ih =>
      rw [run_append]
      exact keep past _ input ih

/-- When a step from a good state ends well exactly if it is `ok`, a run is good
all along exactly if all its steps are. -/
theorem run_good_iff {Frame Good : State → Prop} {ok : State → Input → Prop}
    (frame : ∀ state input, Frame state → Frame (step state input).2)
    (exact : ∀ state input, Frame state → Good state →
      (Good (step state input).2 ↔ ok state input))
    (framed : Frame start) (good : Good start) (inputs : List Input) :
    (∀ past, past <+: inputs → Good (run step start past)) ↔
      ∀ past input, past ++ [input] <+: inputs → ok (run step start past) input := by
  have reached : ∀ past, Frame (run step start past) := run_invariant Frame frame framed
  constructor
  · intro all past input inside
    have before := all past ((List.prefix_append past [input]).trans inside)
    apply (exact _ input (reached past) before).mp
    simpa using all (past ++ [input]) inside
  · intro all past
    induction past using List.reverseRecOn with
    | nil => exact fun _ => good
    | append_singleton past input ih =>
        intro inside
        have before := ih ((List.prefix_append past [input]).trans inside)
        simpa using (exact _ input (reached past) before).mpr (all past input inside)

/-- An invariant that may weaken as time passes, over inputs in clock order. -/
theorem run_clocked (Inv : Nat → State → Prop) (clock : Input → Nat)
    (weaken : ∀ {early late : Nat} {state : State}, early ≤ late → Inv early state →
      Inv late state)
    (keep : ∀ state input, Inv (clock input) state → Inv (clock input) (step state input).2)
    {now : Nat} (initial : Inv now start) (inputs : List Input)
    (sorted : inputs.Pairwise fun a b => clock a ≤ clock b)
    (after : ∀ input ∈ inputs, now ≤ clock input)
    {limit : Nat} (passed : now ≤ limit) (before : ∀ input ∈ inputs, clock input ≤ limit) :
    Inv limit (run step start inputs) := by
  induction inputs generalizing start now with
  | nil => exact weaken passed initial
  | cons input rest ih =>
      obtain ⟨later, tail⟩ := List.pairwise_cons.mp sorted
      apply ih (keep start input (weaken (after input List.mem_cons_self) initial)) tail later
      · exact before input List.mem_cons_self
      · intro other member
        exact before other (List.mem_cons_of_mem _ member)

section Events
variable {Event : Type} (step : State → Event → Option State)

def follow (start : State) : List Event → Option State
  | [] => some start
  | event :: rest => (step start event).bind fun next => follow next rest

theorem follow_append {step : State → Event → Option State} (start : State)
    (first second : List Event) :
    follow step start (first ++ second) =
      (follow step start first).bind fun middle => follow step middle second := by
  induction first generalizing start with
  | nil => rfl
  | cons event rest ih =>
      simp only [List.cons_append, follow, Option.bind_assoc]
      exact Option.bind_congr fun next _ => ih next

/-- `ok` of every event of a run, in the state the event meets. -/
def Throughout (ok : State → Event → Prop) (start : State) : List Event → Prop
  | [] => True
  | event :: rest =>
      ok start event ∧ ∀ next, step start event = some next → Throughout ok next rest

instance decidableThroughout {step : State → Event → Option State} {ok : State → Event → Prop}
    [decide : ∀ state event, Decidable (ok state event)] :
    ∀ (start : State) (events : List Event), Decidable (Throughout step ok start events)
  | _, [] => .isTrue trivial
  | start, event :: rest =>
      have : Decidable (∀ next, step start event = some next → Throughout step ok next rest) :=
        match step start event with
        | none => .isTrue fun _ same => nomatch same
        | some next =>
            match decidableThroughout next rest with
            | .isTrue held => .isTrue fun _ same =>
                Option.some.inj same ▸ held
            | .isFalse fails => .isFalse fun all => fails (all next rfl)
      inferInstanceAs (Decidable (_ ∧ _))

theorem throughout_cons {step : State → Event → Option State} {ok : State → Event → Prop}
    {start next : State} {event : Event} {rest : List Event} (allowed : ok start event)
    (stepped : step start event = some next) (later : Throughout step ok next rest) :
    Throughout step ok start (event :: rest) := by
  refine ⟨allowed, ?_⟩
  intro other same
  cases stepped.symm.trans same
  exact later

theorem throughout_left {step : State → Event → Option State} {ok : State → Event → Prop}
    {start : State} {first second : List Event}
    (held : Throughout step ok start (first ++ second)) : Throughout step ok start first := by
  induction first generalizing start with
  | nil => trivial
  | cons event rest ih => exact ⟨held.1, fun next stepped => ih (held.2 next stepped)⟩

theorem throughout_append {step : State → Event → Option State} {ok : State → Event → Prop}
    {start : State} {first second : List Event} (held : Throughout step ok start first)
    (later : ∀ middle, follow step start first = some middle → Throughout step ok middle second) :
    Throughout step ok start (first ++ second) := by
  induction first generalizing start with
  | nil => exact later start rfl
  | cons event rest ih =>
      refine ⟨held.1, fun next stepped => ih (held.2 next stepped) fun middle reached => later middle ?_⟩
      rw [follow, stepped]
      exact reached

/-- `ok` of an event may be shown in the state that the events before it lead to. -/
theorem throughout_of_reached {step : State → Event → Option State} {ok : State → Event → Prop}
    {start final : State} {events : List Event}
    (followed : follow step start events = some final)
    (each : ∀ past state event next, past ++ [event] <+: events →
      follow step start past = some state → step state event = some next → ok state event) :
    Throughout step ok start events := by
  induction events generalizing start with
  | nil => trivial
  | cons first rest ih =>
      obtain ⟨middle, stepped, tail⟩ := Option.bind_eq_some_iff.mp followed
      refine throughout_cons (each [] start first middle ⟨rest, rfl⟩ rfl stepped) stepped
        (ih tail ?_)
      intro past state event next inside reached moved
      apply each (first :: past) state event next (List.cons_prefix_cons.mpr ⟨rfl, inside⟩) _ moved
      rw [follow, stepped]
      exact reached

/-- What the events of a run keep as long as they are `ok` holds at its end. -/
theorem follow_invariant {step : State → Event → Option State} {ok : State → Event → Prop}
    (Inv : State → Prop)
    (keep : ∀ {state event next}, Inv state → ok state event → step state event = some next →
      Inv next)
    {start final : State} {events : List Event} (initial : Inv start)
    (followed : follow step start events = some final) (held : Throughout step ok start events) :
    Inv final := by
  induction events generalizing start with
  | nil =>
      cases followed
      exact initial
  | cons event rest ih =>
      obtain ⟨next, stepped, tail⟩ := Option.bind_eq_some_iff.mp followed
      exact ih (keep initial held.1 stepped) tail (held.2 next stepped)

/-- The event a run goes on with is `ok` in the state the run has reached. -/
theorem throughout_reached {step : State → Event → Option State} {ok : State → Event → Prop}
    {start state : State} {past rest : List Event} {event : Event}
    (held : Throughout step ok start (past ++ event :: rest))
    (reached : follow step start past = some state) : ok state event := by
  induction past generalizing start with
  | nil =>
      cases reached
      exact held.1
  | cons first past ih =>
      obtain ⟨next, stepped, tail⟩ := Option.bind_eq_some_iff.mp reached
      exact ih (held.2 next stepped) tail

theorem throughout_of_invariant {step : State → Event → Option State}
    {ok good : State → Event → Prop} (Inv : State → Prop)
    (keep : ∀ {state event next}, Inv state → ok state event → step state event = some next →
      Inv next)
    (gives : ∀ {state event}, Inv state → ok state event → good state event)
    {start : State} {events : List Event} (initial : Inv start)
    (held : Throughout step ok start events) : Throughout step good start events := by
  induction events generalizing start with
  | nil => trivial
  | cons event rest ih =>
      refine ⟨gives initial held.1, ?_⟩
      intro next stepped
      exact ih (keep initial held.1 stepped) (held.2 next stepped)

theorem follow_keeps {step : State → Event → Option State} (Inv : State → Prop)
    (keep : ∀ {state event next}, Inv state → step state event = some next → Inv next)
    {start final : State} {events : List Event} (initial : Inv start)
    (followed : follow step start events = some final) : Inv final := by
  induction events generalizing start with
  | nil =>
      cases followed
      exact initial
  | cons event rest ih =>
      obtain ⟨next, stepped, tail⟩ := Option.bind_eq_some_iff.mp followed
      exact ih (keep initial stepped) tail

/-- What means the same of every event that finds the invariant means the same of a
whole run. -/
theorem throughout_congr {step : State → Event → Option State} {ok good : State → Event → Prop}
    (Inv : State → Prop)
    (keep : ∀ {state event next}, Inv state → step state event = some next → Inv next)
    (same : ∀ {state event next}, Inv state → step state event = some next →
      (ok state event ↔ good state event))
    {start final : State} {events : List Event} (initial : Inv start)
    (followed : follow step start events = some final) :
    Throughout step ok start events ↔ Throughout step good start events := by
  induction events generalizing start with
  | nil => exact Iff.rfl
  | cons event rest ih =>
      obtain ⟨next, stepped, tail⟩ := Option.bind_eq_some_iff.mp followed
      refine and_congr (same initial stepped) (forall_congr' fun other => ?_)
      refine forall_congr' fun moved => ?_
      cases stepped.symm.trans moved
      exact ih (keep initial stepped) tail

/-- When an event that meets a good state leaves one exactly if it is `ok`, all
the states of a run are good exactly if its events are `ok` throughout. -/
theorem throughout_iff {step : State → Event → Option State} {ok : State → Event → Prop}
    {Good : State → Prop}
    (exact : ∀ {state event next}, Good state → step state event = some next →
      (Good next ↔ ok state event))
    {start final : State} {events : List Event} (initial : Good start)
    (followed : follow step start events = some final) :
    Throughout step ok start events ↔
      ∀ past state, past <+: events → follow step start past = some state → Good state := by
  induction events generalizing start with
  | nil =>
      refine ⟨?_, fun _ => trivial⟩
      intro _ past state inside reached
      rw [List.prefix_nil.mp inside] at reached
      cases reached
      exact initial
  | cons event rest ih =>
      obtain ⟨next, stepped, tail⟩ := Option.bind_eq_some_iff.mp followed
      constructor
      · rintro ⟨allowed, later⟩ past state inside reached
        have good := (exact initial stepped).mpr allowed
        cases past with
        | nil =>
            cases reached
            exact initial
        | cons first past =>
            obtain ⟨rfl, shorter⟩ := List.cons_prefix_cons.mp inside
            rw [follow, stepped] at reached
            exact (ih good tail).mp (later next stepped) past state shorter reached
      · intro all
        have after : ∀ past, follow step start (event :: past) = follow step next past := by
          intro past
          rw [follow, stepped]
          rfl
        have good : Good next := by
          apply all [event] next
          · exact ⟨rest, rfl⟩
          · rw [after]
            rfl
        refine throughout_cons ((exact initial stepped).mp good) stepped ((ih good tail).mpr ?_)
        intro past state inside reached
        apply all (event :: past) state
        · exact List.cons_prefix_cons.mpr ⟨rfl, inside⟩
        · rw [after, reached]

end Events

end Mirage.Trace
