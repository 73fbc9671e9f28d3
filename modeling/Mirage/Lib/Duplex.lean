import Mathlib.Logic.Basic

/-!
Two sequential programs joined by a pair of reliable queues, as over a stream
connection: a receive takes the oldest message, and meets the end of the
stream once the peer has halted and its messages are read. The scheduler may
run either side whenever it can move. Since moves of the two sides commute,
every schedule takes the same number of steps to the same end.
-/

namespace Mirage.Duplex

section Descent
variable {State : Type} (step : State → State → Prop)

/-- Runs of an exact number of steps. -/
inductive Runs : Nat → State → State → Prop
  | stay (s : State) : Runs 0 s s
  | move {n : Nat} {s t u : State} (first : step s t) (rest : Runs n t u) : Runs (n + 1) s u

def Terminal (s : State) : Prop := ∀ t, ¬ step s t

/-- Different first moves can be completed to a common state by one move each. -/
def Commutes : Prop :=
  ∀ s t u, step s t → step s u → t = u ∨ ∃ v, step t v ∧ step u v

/-- Every run from the state is bounded, and where no move is left the state
has the property. -/
def Always (s : State) (holds : State → Prop) : Prop :=
  (∃ bound, ∀ n t, Runs step n s t → n ≤ bound) ∧
    ∀ n t, Runs step n s t → Terminal step t → holds t

variable {step}

theorem Runs.trans {n m : Nat} {s t u : State} (first : Runs step n s t)
    (second : Runs step m t u) : Runs step (n + m) s u := by
  induction first with
  | stay => simpa using second
  | move head _ ih =>
      rw [Nat.add_right_comm]
      exact .move head (ih second)

/-- Whatever is done first, one step of the way to the end is done. -/
theorem descend (commutes : Commutes step) {n : Nat} {s t final : State}
    (run : Runs step (n + 1) s final) (done : Terminal step final) (first : step s t) :
    Runs step n t final := by
  induction n generalizing s t with
  | zero =>
      cases run with
      | move other rest =>
          cases rest
          rcases commutes _ _ _ first other with rfl | ⟨v, _, further⟩
          · exact .stay _
          · exact absurd further (done v)
  | succ n ih =>
      cases run with
      | move other rest =>
          rcases commutes _ _ _ first other with rfl | ⟨v, join, further⟩
          · exact rest
          · exact .move join (ih rest further)

theorem descend_run (commutes : Commutes step) {n m : Nat} {s t final : State}
    (run : Runs step n s final) (done : Terminal step final) (taken : Runs step m s t) :
    m ≤ n ∧ Runs step (n - m) t final := by
  induction taken generalizing n with
  | stay => exact ⟨Nat.zero_le _, run⟩
  | move first _ ih =>
      cases n with
      | zero =>
          cases run
          exact absurd first (done _)
      | succ n =>
          obtain ⟨fits, rest⟩ := ih (descend commutes run done first)
          refine ⟨Nat.succ_le_succ fits, ?_⟩
          rwa [Nat.succ_sub_succ]

/-- One run to the end decides what holds at the end of all of them. -/
theorem always_iff (commutes : Commutes step) {n : Nat} {s final : State}
    (run : Runs step n s final) (done : Terminal step final) (holds : State → Prop) :
    Always step s holds ↔ holds final := by
  constructor
  · intro always
    exact always.2 n final run done
  · intro holdsFinal
    refine ⟨⟨n, fun m t taken => (descend_run commutes run done taken).1⟩, ?_⟩
    intro m t taken stopped
    have rest := (descend_run commutes run done taken).2
    cases left : n - m with
    | zero =>
        rw [left] at rest
        cases rest
        exact holdsFinal
    | succ k =>
        rw [left] at rest
        cases rest with
        | move first _ => exact absurd first (stopped _)

theorem Always.exists_terminal {s : State} {holds : State → Prop} (always : Always step s holds) :
    ∃ n t, Runs step n s t ∧ Terminal step t := by
  obtain ⟨⟨bound, bounded⟩, _⟩ := always
  -- Induction on the number of moves that are still allowed.
  have search : ∀ left n t, Runs step n s t → bound ≤ n + left →
      ∃ m u, Runs step m s u ∧ Terminal step u := by
    intro left
    induction left with
    | zero =>
        intro n t run full
        refine ⟨n, t, run, fun u further => ?_⟩
        have := bounded _ _ (run.trans (.move further (.stay u)))
        omega
    | succ left ih =>
        intro n t run full
        by_cases stopped : Terminal step t
        · exact ⟨n, t, run, stopped⟩
        · simp only [Terminal, not_forall, not_not] at stopped
          obtain ⟨u, further⟩ := stopped
          exact ih (n + 1) u (run.trans (.move further (.stay u))) (by omega)
  exact search bound 0 s (.stay s) (by omega)

/-- What always holds at the end is the same before and after some moves. -/
theorem always_run (commutes : Commutes step) {n : Nat} {s t : State} (run : Runs step n s t)
    (holds : State → Prop) : Always step s holds ↔ Always step t holds := by
  constructor
  · rintro ⟨⟨bound, bounded⟩, ends⟩
    refine ⟨⟨bound, fun m u more => ?_⟩, fun m u more stopped => ends _ u (run.trans more) stopped⟩
    have := bounded _ u (run.trans more)
    omega
  · intro always
    obtain ⟨m, final, rest, done⟩ := always.exists_terminal
    exact (always_iff commutes (run.trans rest) done holds).mpr (always.2 m final rest done)

theorem always_terminal (commutes : Commutes step) {s : State} (done : Terminal step s)
    (holds : State → Prop) : Always step s holds ↔ holds s :=
  always_iff commutes (.stay s) done holds

theorem Runs.preserves {n : Nat} {s t : State} (run : Runs step n s t) {keeps : State → Prop}
    (preserved : ∀ u v, step u v → keeps u → keeps v) (start : keeps s) : keeps t := by
  induction run with
  | stay => exact start
  | move first _ ih => exact ih (preserved _ _ first start)

/-- A property that no run can leave refutes one that it excludes. -/
theorem not_always {s : State} {holds keeps : State → Prop}
    (preserved : ∀ u v, step u v → keeps u → keeps v) (start : keeps s)
    (excluded : ∀ t, keeps t → ¬ holds t) : ¬ Always step s holds := by
  intro always
  obtain ⟨n, t, run, done⟩ := always.exists_terminal
  exact excluded t (run.preserves preserved start) (always.2 n t run done)

end Descent

inductive Program (Message Out : Type) where
  | send (message : Message) (next : Program Message Out)
  | receive (next : Option Message → Program Message Out)
  | halt (out : Out)

namespace Program
variable {Message Out : Type}

def halted : Program Message Out → Bool
  | halt _ => true
  | _ => false

def sendAll (next : Program Message Out) (messages : List Message) : Program Message Out :=
  messages.foldr send next

/-- One move of a program, given its inbox and whether the peer has halted:
the program after it, the rest of the inbox and what it sends. -/
def move (peerHalted : Bool) (inbox : List Message) :
    Program Message Out → Option (Program Message Out × List Message × List Message)
  | send message next => some (next, inbox, [message])
  | receive next =>
      match inbox with
      | message :: rest => some (next (some message), rest, [])
      | [] => if peerHalted then some (next none, [], []) else none
  | halt _ => none

/-- However it goes on, the program can only halt like this. -/
def Ends (only : Out → Prop) : Program Message Out → Prop
  | send _ next => next.Ends only
  | receive next => ∀ message, (next message).Ends only
  | halt out => only out

theorem Ends.move {only : Out → Prop} {program next : Program Message Out} (ends : program.Ends only)
    {peerHalted : Bool} {inbox rest sent : List Message}
    (moved : program.move peerHalted inbox = some (next, rest, sent)) : next.Ends only := by
  cases program with
  | send message later =>
      cases moved
      exact ends
  | receive later =>
      cases inbox with
      | cons message inbox =>
          cases moved
          exact ends _
      | nil =>
          cases peerHalted with
          | false => cases moved
          | true =>
              cases moved
              exact ends _
  | halt out => cases moved

theorem move_halted {program : Program Message Out} {peerHalted : Bool} {inbox : List Message}
    {result : Program Message Out × List Message × List Message}
    (moved : program.move peerHalted inbox = some result) : program.halted = false := by
  cases program with
  | halt _ => cases moved
  | send _ _ | receive _ => rfl

/-- A move against a running peer is not disturbed by what the peer does. -/
theorem move_stable {program : Program Message Out} {inbox : List Message}
    {result : Program Message Out × List Message × List Message}
    (moved : program.move false inbox = some result) (peerHalted : Bool) (more : List Message) :
    program.move peerHalted (inbox ++ more) = some (result.1, result.2.1 ++ more, result.2.2) := by
  cases program with
  | halt _ => cases moved
  | send _ _ =>
      cases moved
      rfl
  | receive next =>
      cases inbox with
      | nil => simp [move] at moved
      | cons message rest =>
          cases moved
          rfl

end Program

structure Config (Message Left Right : Type) where
  left : Program Message Left
  right : Program Message Right
  toLeft : List Message
  toRight : List Message

variable {Message Left Right : Type}

inductive Step : Config Message Left Right → Config Message Left Right → Prop
  | left {config : Config Message Left Right} {program : Program Message Left}
      {inbox sent : List Message}
      (moved : config.left.move config.right.halted config.toLeft = some (program, inbox, sent)) :
      Step config { config with
        left := program, toLeft := inbox, toRight := config.toRight ++ sent }
  | right {config : Config Message Left Right} {program : Program Message Right}
      {inbox sent : List Message}
      (moved : config.right.move config.left.halted config.toRight = some (program, inbox, sent)) :
      Step config { config with
        right := program, toRight := inbox, toLeft := config.toLeft ++ sent }

/-- The two sides do not disturb each other: a side that can move has a
message, or nothing to wait for. -/
theorem step_commutes : Commutes (@Step Message Left Right) := by
  -- A left and a right move from one configuration can be done in either order.
  have cross : ∀ {config : Config Message Left Right} {leftProgram rightProgram}
      {leftInbox leftSent rightInbox rightSent : List Message},
      config.left.move config.right.halted config.toLeft =
        some (leftProgram, leftInbox, leftSent) →
      config.right.move config.left.halted config.toRight =
        some (rightProgram, rightInbox, rightSent) →
      ∃ join, Step { config with
          left := leftProgram, toLeft := leftInbox, toRight := config.toRight ++ leftSent } join ∧
        Step { config with
          right := rightProgram, toRight := rightInbox, toLeft := config.toLeft ++ rightSent }
          join := by
    intro config leftProgram rightProgram leftInbox leftSent rightInbox rightSent onLeft onRight
    have leftRuns := Program.move_halted onLeft
    have rightRuns := Program.move_halted onRight
    rw [rightRuns] at onLeft
    rw [leftRuns] at onRight
    refine ⟨⟨leftProgram, rightProgram, leftInbox ++ rightSent, rightInbox ++ leftSent⟩, ?_, ?_⟩
    · exact .right (Program.move_stable onRight _ leftSent)
    · exact .left (Program.move_stable onLeft _ rightSent)
  intro config first second toFirst toSecond
  cases toFirst with
  | left moved =>
      cases toSecond with
      | left other =>
          rw [moved] at other
          cases other
          exact Or.inl rfl
      | right other => exact Or.inr (cross moved other)
  | right moved =>
      cases toSecond with
      | left other =>
          obtain ⟨join, fromLeft, fromRight⟩ := cross other moved
          exact Or.inr ⟨join, fromRight, fromLeft⟩
      | right other =>
          rw [moved] at other
          cases other
          exact Or.inl rfl

section Schedules
variable {config : Config Message Left Right}

/-- Both sides have halted, or wait for a message that will not come. -/
theorem terminal_of_halted {out : Left} {result : Right} {toLeft toRight : List Message} :
    Terminal Step (⟨.halt out, .halt result, toLeft, toRight⟩ : Config Message Left Right) := by
  intro other step
  cases step with
  | left moved => cases moved
  | right moved => cases moved

/-- A side that can only halt in a way the property excludes. -/
theorem not_always_left {only : Left → Prop} {holds : Config Message Left Right → Prop}
    (ends : config.left.Ends only)
    (excluded : ∀ t : Config Message Left Right, t.left.Ends only → ¬ holds t) :
    ¬ Always Step config holds := by
  refine @not_always _ _ _ _ (fun t => t.left.Ends only) ?_ ends excluded
  intro u v step kept
  cases step with
  | left moved => exact kept.move moved
  | right moved => exact kept

theorem not_always_right {only : Right → Prop} {holds : Config Message Left Right → Prop}
    (ends : config.right.Ends only)
    (excluded : ∀ t : Config Message Left Right, t.right.Ends only → ¬ holds t) :
    ¬ Always Step config holds := by
  refine @not_always _ _ _ _ (fun t => t.right.Ends only) ?_ ends excluded
  intro u v step kept
  cases step with
  | left moved => exact kept
  | right moved => exact kept.move moved

theorem left_sends (messages : List Message) (next : Program Message Left)
    (right : Program Message Right) (toLeft toRight : List Message) :
    Runs Step messages.length (⟨next.sendAll messages, right, toLeft, toRight⟩)
      ⟨next, right, toLeft, toRight ++ messages⟩ := by
  induction messages generalizing toRight with
  | nil => simpa [Program.sendAll] using Runs.stay _
  | cons message rest ih =>
      have tail := ih (toRight ++ [message])
      rw [List.append_assoc] at tail
      exact .move (.left rfl) tail

theorem right_sends (messages : List Message) (left : Program Message Left)
    (next : Program Message Right) (toLeft toRight : List Message) :
    Runs Step messages.length (⟨left, next.sendAll messages, toLeft, toRight⟩)
      ⟨left, next, toLeft ++ messages, toRight⟩ := by
  induction messages generalizing toLeft with
  | nil => simpa [Program.sendAll] using Runs.stay _
  | cons message rest ih =>
      have tail := ih (toLeft ++ [message])
      rw [List.append_assoc] at tail
      exact .move (.right rfl) tail

theorem left_receives {next : Option Message → Program Message Left}
    {right : Program Message Right} {message : Message} {toLeft toRight : List Message} :
    Runs Step 1 ⟨.receive next, right, message :: toLeft, toRight⟩
      ⟨next (some message), right, toLeft, toRight⟩ := by
  have step : Step (⟨.receive next, right, message :: toLeft, toRight⟩ : Config Message Left Right)
      ⟨next (some message), right, toLeft, toRight ++ []⟩ := .left rfl
  rw [List.append_nil] at step
  exact .move step (.stay _)

theorem right_receives {left : Program Message Left}
    {next : Option Message → Program Message Right} {message : Message}
    {toLeft toRight : List Message} :
    Runs Step 1 ⟨left, .receive next, toLeft, message :: toRight⟩
      ⟨left, next (some message), toLeft, toRight⟩ := by
  have step : Step (⟨left, .receive next, toLeft, message :: toRight⟩ : Config Message Left Right)
      ⟨left, next (some message), toLeft ++ [], toRight⟩ := .right rfl
  rw [List.append_nil] at step
  exact .move step (.stay _)

end Schedules

end Mirage.Duplex
