import Mathlib.Algebra.Group.Nat.Defs
import Mirage.Lib.Word

/-!
Programs that hold a conversation over a byte stream: they read what the peer sends,
an exact number of bytes at a time, and answer. `Takes` says of a program what it has
heard and what it has answered when it returns, `Fails` what it has answered when it
does not; both have a rule for each way in which programs are put together.
-/

namespace Mirage.Exchange
open Word

/-- What the peer sends before it closes, how many writes still succeed, and what was
written. -/
structure Stream where
  sent : Bytes
  room : Nat
  written : Bytes
  deriving DecidableEq

abbrev Session (Err : Type) := EStateM Err Stream

variable {Err : Type}

def readExact (broken : Err) (n : Nat) : Session Err Bytes := fun stream =>
  if stream.sent.length < n then .error broken { stream with sent := [] }
  else .ok (stream.sent.take n) { stream with sent := stream.sent.drop n }

def writeAll (broken : Err) (bytes : Bytes) : Session Err Unit := fun stream =>
  match stream.room with
  | 0 => .error broken stream
  | room + 1 => .ok () { stream with room, written := stream.written ++ bytes }

def writeLast (broken : Err) (bytes : Bytes) : Session Err Unit := fun stream =>
  match writeAll broken bytes stream with
  | .ok () next => .ok () next
  | .error _ next => .ok () next

section Rules
variable {α β : Type} {stream left : Stream}

/-- The peer said `heard` and was answered `replies`, one write each. -/
structure Exchanged (stream : Stream) (heard : Bytes) (replies : List Bytes) (left : Stream) :
    Prop where
  sent : stream.sent = heard ++ left.sent
  room : stream.room = replies.length + left.room
  written : left.written = stream.written ++ replies.flatten

/-- What a part of the session returns is told by what it hears and what it answers. -/
def Takes (part : Session Err α) (talk : α → Bytes → List Bytes → Prop) : Prop :=
  ∀ stream value left, part stream = .ok value left ↔
    ∃ heard replies, talk value heard replies ∧ Exchanged stream heard replies left

theorem exchanged_nil_iff : Exchanged stream [] [] left ↔ stream = left := by
  constructor
  · rintro ⟨sent, room, written⟩
    cases stream
    cases left
    simp_all
  · rintro rfl
    exact ⟨rfl, (Nat.zero_add _).symm, (List.append_nil _).symm⟩

theorem exchanged_append_iff {first second : Bytes} {early late : List Bytes} :
    Exchanged stream (first ++ second) (early ++ late) left ↔
      ∃ between, Exchanged stream first early between ∧ Exchanged between second late left := by
  constructor
  · rintro ⟨sent, room, written⟩
    rw [List.append_assoc] at sent
    rw [List.length_append, Nat.add_assoc] at room
    rw [List.flatten_append, ← List.append_assoc] at written
    exact ⟨⟨second ++ left.sent, late.length + left.room, stream.written ++ early.flatten⟩,
      ⟨sent, room, rfl⟩, ⟨rfl, rfl, written⟩⟩
  · rintro ⟨between, before, after_⟩
    constructor
    · rw [before.sent, after_.sent, List.append_assoc]
    · rw [before.room, after_.room, List.length_append, Nat.add_assoc]
    · rw [after_.written, before.written, List.flatten_append, List.append_assoc]

theorem takes_of_iff {part : Session Err α} {talk speech : α → Bytes → List Bytes → Prop}
    (takes : Takes part talk)
    (same : ∀ value heard replies, talk value heard replies ↔ speech value heard replies) :
    Takes part speech := by
  intro stream value left
  simp only [takes stream value left, same]

theorem takes_pure (value : α) :
    Takes (pure value : Session Err α) fun result heard replies =>
      result = value ∧ heard = [] ∧ replies = [] := by
  intro stream result left
  change EStateM.Result.ok value stream = .ok result left ↔ _
  constructor
  · intro same
    cases same
    exact ⟨[], [], ⟨rfl, rfl, rfl⟩, exchanged_nil_iff.mpr rfl⟩
  · rintro ⟨heard, replies, ⟨rfl, rfl, rfl⟩, nothing⟩
    rw [exchanged_nil_iff.mp nothing]

theorem takes_throw (failure : Err) :
    Takes (throw failure : Session Err α) fun _ _ _ => False := by
  intro stream value left
  constructor
  · intro returned
    cases returned
  · rintro ⟨_, _, nothing, _⟩
    exact nothing.elim

theorem takes_bind {part : Session Err α} {next : α → Session Err β}
    {talk : α → Bytes → List Bytes → Prop} {speech : α → β → Bytes → List Bytes → Prop}
    (first : Takes part talk) (second : ∀ value, Takes (next value) (speech value)) :
    Takes (part >>= next) fun result heard replies =>
      ∃ value front early back late, talk value front early ∧ speech value result back late ∧
        heard = front ++ back ∧ replies = early ++ late := by
  intro stream result left
  have unfolded : (part >>= next) stream = .ok result left ↔
      ∃ value between, part stream = .ok value between ∧ next value between = .ok result left := by
    change EStateM.bind part next stream = .ok result left ↔ _
    unfold EStateM.bind
    cases part stream with
    | ok value between =>
        constructor
        · intro returned
          exact ⟨value, between, rfl, returned⟩
        · rintro ⟨_, _, same, returned⟩
          cases same
          exact returned
    | error failure between =>
        constructor
        · intro returned
          cases returned
        · rintro ⟨_, _, same, _⟩
          cases same
  rw [unfolded]
  constructor
  · rintro ⟨value, between, one, two⟩
    obtain ⟨front, early, said, before⟩ := (first _ _ _).mp one
    obtain ⟨back, late, told, after_⟩ := (second value _ _ _).mp two
    exact ⟨_, _, ⟨value, front, early, back, late, said, told, rfl, rfl⟩,
      exchanged_append_iff.mpr ⟨between, before, after_⟩⟩
  · rintro ⟨_, _, ⟨value, front, early, back, late, said, told, rfl, rfl⟩, whole⟩
    -- Where the first part ends is told by what it has heard.
    obtain ⟨between, before, after_⟩ := exchanged_append_iff.mp whole
    exact ⟨value, between, (first _ _ _).mpr ⟨_, _, said, before⟩,
      (second value _ _ _).mpr ⟨_, _, told, after_⟩⟩

theorem takes_refuse (part : Session Err β) (failure : Err) :
    Takes (part >>= fun _ => (throw failure : Session Err α)) fun _ _ _ => False := by
  intro stream value left
  change EStateM.bind part _ stream = .ok value left ↔ _
  unfold EStateM.bind
  cases part stream with
  | ok _ between =>
      constructor
      · intro returned
        cases returned
      · rintro ⟨_, _, nothing, _⟩
        exact nothing.elim
  | error failure between =>
      constructor
      · intro returned
        cases returned
      · rintro ⟨_, _, nothing, _⟩
        exact nothing.elim

theorem takes_ite {test : Prop} [Decidable test] {part other : Session Err α}
    {talk speech : α → Bytes → List Bytes → Prop} (yes : Takes part talk)
    (no : Takes other speech) :
    Takes (if test then part else other) fun value heard replies =>
      (test ∧ talk value heard replies) ∨ (¬ test ∧ speech value heard replies) := by
  split
  · rename_i holds
    exact takes_of_iff yes fun _ _ _ => by simp [holds]
  · rename_i fails
    exact takes_of_iff no fun _ _ _ => by simp [fails]

theorem takes_readExact (broken : Err) (n : Nat) :
    Takes (readExact broken n) fun bytes heard replies =>
      bytes.length = n ∧ heard = bytes ∧ replies = [] := by
  intro stream bytes left
  unfold readExact
  constructor
  · intro read
    split at read
    · cases read
    · rename_i enough
      cases read
      refine ⟨_, [], ⟨List.length_take_of_le (Nat.le_of_not_lt enough), rfl, rfl⟩, ?_⟩
      exact ⟨(List.take_append_drop _ _).symm, (Nat.zero_add _).symm, (List.append_nil _).symm⟩
  · rintro ⟨heard, replies, ⟨rfl, rfl, rfl⟩, sent, room, written⟩
    have enough : ¬ stream.sent.length < heard.length := by
      rw [sent, List.length_append]
      omega
    rw [if_neg enough, sent, List.take_left, List.drop_left]
    cases left
    simp_all

theorem takes_writeAll (broken : Err) (bytes : Bytes) :
    Takes (writeAll broken bytes) fun _ heard replies =>
      heard = [] ∧ replies = [bytes] := by
  intro stream value left
  unfold writeAll
  constructor
  · intro wrote
    split at wrote
    · cases wrote
    · rename_i room more
      cases wrote
      exact ⟨[], [bytes], ⟨rfl, rfl⟩, rfl, by rw [more]; exact Nat.add_comm room 1,
        by rw [List.flatten_singleton]⟩
  · rintro ⟨_, _, ⟨rfl, rfl⟩, sent, room, written⟩
    rw [List.length_singleton, Nat.add_comm] at room
    rw [List.flatten_singleton] at written
    cases left
    simp_all

end Rules

section Failures
variable {α β : Type} {told : List Bytes → Prop}

/-- What a part that fails has answered before. -/
def Fails (part : Session Err α) (told : List Bytes → Prop) : Prop :=
  ∀ stream failure left, part stream = .error failure left →
    ∃ replies, told replies ∧ left.written = stream.written ++ replies.flatten

theorem written_nil (stream : Stream) :
    stream.written = stream.written ++ ([] : List Bytes).flatten :=
  (List.append_nil _).symm

theorem fails_pure (value : α) : Fails (pure value : Session Err α) told := by
  intro stream failure left failed
  cases failed

theorem fails_throw (failure : Err) (nothing : told []) :
    Fails (throw failure : Session Err α) told := by
  intro stream _ left failed
  cases failed
  exact ⟨[], nothing, written_nil _⟩

theorem fails_ite {test : Prop} [Decidable test] {part other : Session Err α}
    (yes : Fails part told) (no : Fails other told) :
    Fails (if test then part else other) told := by
  split
  · exact yes
  · exact no

theorem fails_readExact (broken : Err) (n : Nat) (nothing : told []) :
    Fails (readExact broken n) told := by
  intro stream _ left failed
  unfold readExact at failed
  split at failed
  · cases failed
    exact ⟨[], nothing, written_nil _⟩
  · cases failed

theorem fails_writeAll (broken : Err) (bytes : Bytes) (nothing : told []) :
    Fails (writeAll broken bytes) told := by
  intro stream _ left failed
  unfold writeAll at failed
  split at failed
  · cases failed
    exact ⟨[], nothing, written_nil _⟩
  · cases failed

theorem fails_bind {part : Session Err α} {next : α → Session Err β}
    {talk : α → Bytes → List Bytes → Prop} (first : Fails part told) (takes : Takes part talk)
    (second : ∀ value heard early, talk value heard early →
      Fails (next value) fun late => told (early ++ late)) :
    Fails (part >>= next) told := by
  intro stream failure left failed
  change EStateM.bind part next stream = .error failure left at failed
  unfold EStateM.bind at failed
  split at failed
  · rename_i value between returned
    obtain ⟨heard, early, said, exchanged⟩ := (takes _ _ _).mp returned
    obtain ⟨late, allowed, written⟩ := second value heard early said _ _ _ failed
    refine ⟨early ++ late, allowed, ?_⟩
    rw [written, exchanged.written, List.flatten_append, List.append_assoc]
  · rename_i broke
    cases failed
    exact first _ _ _ broke

theorem fails_read {broken : Err} {n : Nat} {next : Bytes → Session Err β} (nothing : told [])
    (rest : ∀ bytes, Fails (next bytes) told) : Fails (readExact broken n >>= next) told := by
  refine fails_bind (fails_readExact broken n nothing) (takes_readExact broken n) ?_
  rintro bytes _ _ ⟨_, _, rfl⟩
  exact rest bytes

theorem fails_refuse (broken failure : Err) (bytes : Bytes) (nothing : told [])
    (refusal : told [bytes]) :
    Fails (writeLast broken bytes >>= fun _ => (throw failure : Session Err α)) told := by
  intro stream _ left failed
  cases stream with
  | mk sent room written =>
      cases room with
      | zero =>
          cases failed
          exact ⟨[], nothing, written_nil _⟩
      | succ room =>
          cases failed
          refine ⟨[bytes], refusal, ?_⟩
          rw [List.flatten_singleton]

end Failures

end Mirage.Exchange
