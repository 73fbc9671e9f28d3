import Mirage.Lib.Word

/-!
A TCP socket as a relay sees it. The peer's bytes queue up until the peer ends
its stream with a FIN or a reset; a reset is reported once, to the first call
that finds nothing queued or to a write, and reads return zero from then on.
-/

namespace Mirage.Relay
open Word

/-- How the peer's stream stands: `spent` is a reset that has been reported. -/
inductive Ending where
  | live
  | fin
  | reset
  | spent
  deriving DecidableEq

/-- How this side closed the socket: `shutdown(SHUT_RDWR)`, or `abort_socket`. -/
inductive Close where
  | fin
  | rst
  deriving DecidableEq

structure Socket where
  queued : Bytes
  ending : Ending
  taken : Bytes
  closed : Option Close
  deriving DecidableEq

inductive Read where
  | data (size : Nat)
  | zero
  | wouldBlock
  | failed
  deriving DecidableEq

/-- The size of the buffer that both relays read into. -/
def bufLen : Nat := 65536

namespace Socket

def connected : Socket := ⟨[], .live, [], none⟩

def arrive (self : Socket) (bytes : Bytes) : Option Socket :=
  if self.ending = .live then some { self with queued := self.queued ++ bytes } else none

def peerEnds (self : Socket) (ending : Ending) : Option Socket :=
  if self.ending = .live ∧ (ending = .fin ∨ ending = .reset) then some { self with ending }
  else none

/-- The socket after a read that reported this, if it can report it. An aborted
socket may lose what is queued, and says zero or an error. -/
def observe (self : Socket) : Read → Option Socket
  | .data size =>
      if 0 < size ∧ size ≤ self.queued.length then
        some { self with
          queued := self.queued.drop size
          taken := self.taken ++ self.queued.take size }
      else none
  | .zero =>
      if self.closed = some .rst ∨ self.queued = [] ∧
          (self.ending = .fin ∨ self.ending = .spent ∨ self.closed.isSome) then some self
      else none
  | .wouldBlock => some self
  | .failed =>
      if self.queued = [] ∧ self.ending = .reset then some { self with ending := .spent }
      else if self.closed = some .rst then some self
      else none

/-- A write that fails takes the report of a reset. -/
def writeFailed (self : Socket) : Socket :=
  if self.ending = .reset then { self with ending := .spent } else self

/-- The first to close a socket decides how. -/
def close (self : Socket) (how : Close) : Socket :=
  if self.closed = none then { self with closed := some how } else self

/-- The call reports a reset and so hides it from every later read. -/
def TakesReset (self : Socket) : Read → Prop
  | .failed => self.queued = [] ∧ self.ending = .reset
  | _ => False

variable {self next : Socket} {seen : Read}

@[simp] theorem close_queued (how : Close) : (self.close how).queued = self.queued := by
  unfold close
  split <;> rfl

@[simp] theorem close_taken (how : Close) : (self.close how).taken = self.taken := by
  unfold close
  split <;> rfl

@[simp] theorem close_ending (how : Close) : (self.close how).ending = self.ending := by
  unfold close
  split <;> rfl

@[simp] theorem close_ne_none (how : Close) : (self.close how).closed ≠ none := by
  unfold close
  split
  · simp
  · assumption

theorem close_closed {how other : Close} (closed : (self.close how).closed = some other) :
    self.closed = some other ∨ how = other := by
  unfold close at closed
  split at closed
  · exact .inr (Option.some.inj closed)
  · exact .inl closed

@[simp] theorem writeFailed_queued : self.writeFailed.queued = self.queued := by
  unfold writeFailed
  split <;> rfl

@[simp] theorem writeFailed_taken : self.writeFailed.taken = self.taken := by
  unfold writeFailed
  split <;> rfl

@[simp] theorem writeFailed_closed : self.writeFailed.closed = self.closed := by
  unfold writeFailed
  split <;> rfl

@[simp] theorem writeFailed_fin : self.writeFailed.ending = .fin ↔ self.ending = .fin := by
  unfold writeFailed
  split
  · next reset => simp [reset]
  · rfl

theorem arrive_cases {bytes : Bytes} (arrived : self.arrive bytes = some next) :
    self.ending = .live ∧ next = { self with queued := self.queued ++ bytes } := by
  unfold arrive at arrived
  split at arrived
  · next live => exact ⟨live, (Option.some.inj arrived).symm⟩
  · cases arrived

theorem peerEnds_cases {ending : Ending} (ended : self.peerEnds ending = some next) :
    self.ending = .live ∧ ending ≠ .spent ∧ next = { self with ending } := by
  unfold peerEnds at ended
  split at ended
  · next allowed =>
    refine ⟨allowed.1, ?_, (Option.some.inj ended).symm⟩
    rintro rfl
    simp at allowed
  · cases ended

theorem observe_closed (observed : self.observe seen = some next) : next.closed = self.closed := by
  unfold observe at observed
  repeat' split at observed
  all_goals cases observed <;> rfl

/-- A read changes how the stream stands only by taking the report of a reset. -/
theorem observe_ending (observed : self.observe seen = some next)
    (untaken : ¬ self.TakesReset seen) : next.ending = self.ending := by
  unfold observe at observed
  split at observed
  case h_4 =>
    rw [if_neg (show ¬ (self.queued = [] ∧ self.ending = .reset) from untaken)] at observed
    split at observed <;> cases observed
    rfl
  all_goals
    repeat' split at observed
    all_goals cases observed <;> rfl

theorem observe_data {size : Nat} (observed : self.observe (.data size) = some next) :
    self.queued ≠ [] ∧ next = { self with
      queued := self.queued.drop size
      taken := self.taken ++ self.queued.take size } := by
  unfold observe at observed
  dsimp only at observed
  split at observed
  · next sized =>
    refine ⟨?_, (Option.some.inj observed).symm⟩
    apply List.ne_nil_of_length_pos
    omega
  · cases observed

theorem observe_zero (observed : self.observe .zero = some next) :
    next = self ∧ (self.closed = none →
      self.queued = [] ∧ (self.ending = .fin ∨ self.ending = .spent)) := by
  unfold observe at observed
  dsimp only at observed
  split at observed
  · next why =>
    refine ⟨(Option.some.inj observed).symm, ?_⟩
    intro unclosed
    simpa [unclosed] using why
  · cases observed

theorem observe_failed (observed : self.observe .failed = some next) :
    next.queued = self.queued ∧ next.taken = self.taken ∧
      (self.closed = none → self.queued = [] ∧ next.ending = .spent) := by
  unfold observe at observed
  dsimp only at observed
  split at observed
  · next reset =>
    cases observed
    exact ⟨rfl, rfl, fun _ => ⟨reset.1, rfl⟩⟩
  · split at observed
    · next aborted =>
      cases observed
      exact ⟨rfl, rfl, by simp [aborted]⟩
    · cases observed

end Socket
end Mirage.Relay
