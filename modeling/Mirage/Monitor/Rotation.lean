import Mirage.Monitor.LogRotation

/-!
What a careful rotation keeps. At most one compression is under way, that of the
newest segment; the archives below it are whole and in order.
-/

namespace Mirage.Monitor.RotatingFile
open Word Places Trace

variable {compress : Bytes → Bytes} {settings : Settings}

section Invariant

/-- `.1.gz` has been moved away and the new thread is not there yet. -/
def Exposed : Stage → Prop
  | .shift 0 | .reopen _ => True
  | _ => False

def layout (stage : Stage) (row : List (Option Nat)) : List (Option Nat) :=
  match stage with
  | .idle | .remove => row
  | .shift left => withGap row left
  | .reopen _ => withGap row 0

def capacity (settings : Settings) : Stage → Nat
  | .idle | .remove => settings.keepArchives
  | .shift _ | .reopen _ => settings.keepArchives - 1

/-- What the compression under way, if there is one, puts before the whole
archives `files`. With a single archive to keep, its file may be deleted first. -/
inductive Newest (compress : Bytes → Bytes) (settings : Settings) (contents : Nat → Bytes)
    (stage : Stage) (files : List Nat) : List Thread → List (Option Nat) → Prop
  | settled {threads} (all : ∀ thread ∈ threads, thread.isDone) :
      Newest compress settings contents stage files threads []
  | waiting {before : List Thread} {segment : Bytes} (others : ∀ thread ∈ before, thread.isDone)
      (covered : ¬Exposed stage) :
      Newest compress settings contents stage files (before ++ [⟨segment, .waiting⟩]) [none]
  | writing {before : List Thread} {segment : Bytes} {target offset : Nat}
      (others : ∀ thread ∈ before, thread.isDone)
      (content : contents target = (compress segment).take offset)
      (within : offset ≤ (compress segment).length) :
      Newest compress settings contents stage files
        (before ++ [⟨segment, .writing target offset⟩]) [some target]
  | ended {before : List Thread} {segment : Bytes} {target : Nat}
      (others : ∀ thread ∈ before, thread.isDone) (content : contents target = compress segment) :
      Newest compress settings contents stage files
        (before ++ [⟨segment, .ended (some target)⟩]) [some target]
  | unlinked {before : List Thread} {thread : Thread}
      (others : ∀ thread ∈ before, thread.isDone) (runs : ¬thread.isDone)
      (opened : ¬thread.isWaiting) (single : settings.keepArchives = 1) (exposed : Exposed stage)
      (alone : files = []) :
      Newest compress settings contents stage files (before ++ [thread]) []

/-- The whole archives, newest first, are `files` and hold the segments `held`. -/
structure Arranged (compress : Bytes → Bytes) (settings : Settings) (file : RotatingFile)
    (pruned held : List Bytes) (front : List (Option Nat)) (files : List Nat) : Prop where
  holds : Holds file.archives (layout file.stage (front ++ files.map some))
  room : front.length + files.length ≤ capacity settings file.stage
  stored : files.map file.contents = held.map compress
  distinct : (front.reduceOption ++ files).Nodup
  fresh : ∀ archive ∈ front.reduceOption ++ files, archive < file.nextFile
  newest : Newest compress settings file.contents file.stage files file.threads front
  log : file.log = (pruned ++ held.reverse ++ file.pending).flatten ++ file.current
  count : pruned = [] ∨
    settings.keepArchives ≤ held.length + file.pending.length + file.stage.rotating

def Kept (compress : Bytes → Bytes) (settings : Settings) (file : RotatingFile) : Prop :=
  ∃ pruned held front files, Arranged compress settings file pruned held front files

end Invariant

section Threads

variable {contents : Nat → Bytes} {stage : Stage} {files : List Nat} {threads : List Thread}
  {front : List (Option Nat)}

theorem pendingOf_done (all : ∀ thread ∈ threads, thread.isDone) : pendingOf threads = [] := by
  rw [pendingOf, List.filter_eq_nil_iff.mpr, List.map_nil]
  intro thread member
  rw [all thread member]
  decide

theorem pendingOf_last {before : List Thread} {thread : Thread}
    (others : ∀ thread ∈ before, thread.isDone) (runs : ¬thread.isDone) :
    pendingOf (before ++ [thread]) = [thread.pending] := by
  have none_ := pendingOf_done others
  rw [pendingOf] at none_ ⊢
  rw [List.filter_append, List.map_append, none_, List.filter_cons_of_pos (by simpa using runs)]
  rfl

theorem last_of_getElem? {before : List Thread} {last thread : Thread} {id : Nat}
    (others : ∀ thread ∈ before, thread.isDone)
    (found : (before ++ [last])[id]? = some thread) (runs : ¬thread.isDone) :
    thread = last ∧ ∀ next, (before ++ [last]).set id next = before ++ [next] := by
  rcases Nat.lt_trichotomy id before.length with inside | here | beyond
  · rw [List.getElem?_append_left inside] at found
    exact absurd (others thread (List.mem_of_getElem? found)) runs
  · subst here
    rw [List.getElem?_append_right (Nat.le_refl _), Nat.sub_self] at found
    refine ⟨(Option.some.inj found).symm, ?_⟩
    intro next
    rw [List.set_append_right _ _ (Nat.le_refl _), Nat.sub_self]
    rfl
  · rw [List.getElem?_eq_none (by simp; omega)] at found
    cases found

theorem not_running {thread : Thread} {id : Nat} (all : ∀ thread ∈ threads, thread.isDone)
    (found : threads[id]? = some thread) : thread.isDone :=
  all thread (List.mem_of_getElem? found)

theorem Newest.goOn (newest : Newest compress settings contents stage files threads front)
    {next : Stage} {rest : List Nat} (waits : Exposed next → ∀ thread ∈ threads, ¬thread.isWaiting)
    (exposed : Exposed stage → Exposed next ∧ rest = files) :
    Newest compress settings contents next rest threads front := by
  cases newest with
  | settled all => exact .settled all
  | waiting others covered =>
      refine .waiting others fun late => ?_
      exact waits late _ (List.mem_append_right _ (List.mem_singleton_self _)) rfl
  | writing others content within => exact .writing others content within
  | ended others content => exact .ended others content
  | unlinked others runs opened single late alone =>
      exact .unlinked others runs opened single (exposed late).1 ((exposed late).2.trans alone)

theorem Newest.front_le (newest : Newest compress settings contents stage files threads front) :
    front.length ≤ (pendingOf threads).length := by
  cases newest with
  | settled all => exact Nat.zero_le _
  | waiting others covered =>
      rw [pendingOf_last others (by simp [Thread.isDone])]
      exact Nat.le_refl _
  | writing others content within =>
      rw [pendingOf_last others (by simp [Thread.isDone])]
      exact Nat.le_refl _
  | ended others content =>
      rw [pendingOf_last others (by simp [Thread.isDone])]
      exact Nat.le_refl _
  | unlinked others runs opened single late alone => exact Nat.zero_le _

end Threads

section Writer

variable {file next : RotatingFile} {pruned held : List Bytes} {front : List (Option Nat)}
  {files : List Nat}

theorem Arranged.grow (arranged : Arranged compress settings file pruned held front files)
    (idle : file.stage = .idle) (more : Bytes) (written : Nat) {stage : Stage}
    (trigger : stage = .idle ∨ stage = .remove) :
    Arranged compress settings
      { file with
        current := file.current ++ more
        log := file.log ++ more
        written
        stage } pruned held front files := by
  obtain ⟨holds, room, stored, distinct, fresh, newest, log, count⟩ := arranged
  have still : layout stage = layout .idle ∧ capacity settings stage = capacity settings .idle ∧
      stage.pending = [] ∧ ¬Exposed stage := by
    rcases trigger with rfl | rfl
    · exact ⟨rfl, rfl, rfl, id⟩
    · exact ⟨rfl, rfl, rfl, id⟩
  obtain ⟨sameLayout, sameCapacity, noneLeft, covered⟩ := still
  have same : pendingOf file.threads ++ stage.pending = file.pending := by
    rw [pending, idle, noneLeft]
    rfl
  rw [idle] at holds room newest count
  refine ⟨?_, ?_, stored, distinct, fresh, ?_, ?_, ?_⟩
  · exact sameLayout ▸ holds
  · exact sameCapacity ▸ room
  · exact newest.goOn (fun late => absurd late covered) fun late => late.elim
  · change file.log ++ more = (pruned ++ held.reverse ++
      (pendingOf file.threads ++ stage.pending)).flatten ++ (file.current ++ more)
    rw [same, log, List.append_assoc]
  · refine count.imp_right fun enough => ?_
    change _ ≤ held.length + (pendingOf file.threads ++ stage.pending).length + stage.rotating
    rw [same]
    exact Nat.le_trans enough (Nat.le_add_right _ _)

theorem Newest.front_short {contents : Nat → Bytes} {stage : Stage} {threads : List Thread}
    (newest : Newest compress settings contents stage files threads front) : front.length ≤ 1 := by
  cases newest <;> simp

/-- With one archive to keep, that of the compression under way may be deleted. -/
theorem Newest.unlink {contents : Nat → Bytes} {stage : Stage} {threads : List Thread}
    (newest : Newest compress settings contents stage [] threads front) (some_ : front.length = 1)
    (single : settings.keepArchives = 1) (opened : ∀ thread ∈ threads, ¬thread.isWaiting)
    {next : Stage} (exposed : Exposed next) :
    Newest compress settings contents next [] threads [] := by
  have last : ∀ {before : List Thread} {thread : Thread}, thread ∈ before ++ [thread] :=
    List.mem_append_right _ (List.mem_singleton_self _)
  cases newest with
  | settled all => cases some_
  | waiting others covered => exact absurd rfl (opened _ last)
  | writing others content within =>
      exact .unlinked others (by simp [Thread.isDone]) (opened _ last) single exposed rfl
  | ended others content =>
      exact .unlinked others (by simp [Thread.isDone]) (opened _ last) single exposed rfl
  | unlinked others runs opened single late alone => cases some_

theorem Arranged.remove (positive : settings.keepArchives ≠ 0)
    (arranged : Arranged compress settings file pruned held front files)
    (here : file.stage = .remove)
    (careful : settings.keepArchives = 1 → ∀ thread ∈ file.threads, ¬thread.isWaiting) :
    Kept compress settings
      { file with
        archives := Function.update file.archives settings.keepArchives none
        stage := .shift (settings.keepArchives - 1) } := by
  obtain ⟨holds, room, stored, distinct, fresh, newest, log, count⟩ := arranged
  obtain ⟨top, size⟩ := Nat.exists_eq_succ_of_ne_zero positive
  have same : pendingOf file.threads ++ (Stage.shift top).pending = file.pending := by
    rw [pending, here]
    rfl
  have short := newest.front_le
  have total : file.pending.length = (pendingOf file.threads).length := by
    rw [← same]
    exact congrArg List.length (List.append_nil _)
  rw [here] at holds room newest count
  have capacity_ : front.length + files.length ≤ top + 1 := by
    rw [← Nat.succ_eq_add_one, ← size]
    exact room
  have within : (front ++ files.map some).length ≤ top + 1 := by
    rwa [List.length_append, List.length_map]
  have cleared : Holds (Function.update file.archives (top + 1) none)
      (withGap ((front ++ files.map some).take top) top) := Holds.clear holds within
  have late : ¬Exposed .remove := id
  rw [size, Nat.succ_eq_add_one, Nat.add_sub_cancel]
  rw [size] at careful count
  have opened : Exposed (.shift top) → ∀ thread ∈ file.threads, ¬thread.isWaiting := by
    intro exposed
    cases top with
    | zero => exact careful rfl
    | succ top => exact exposed.elim
  -- The highest number is given away: to an archive with a segment, to one without, or to none.
  rcases Nat.lt_or_ge top (front.length + files.length) with full | less
  · rcases List.eq_nil_or_concat files with rfl | ⟨rest, last, rfl⟩
    · have one : top = 0 ∧ front.length = 1 := by
        have := newest.front_short
        rw [List.length_nil] at full
        omega
      obtain ⟨rfl, single⟩ := one
      rw [List.take_zero] at cleared
      refine ⟨pruned, held, [], [], cleared, Nat.zero_le _, stored, List.nodup_nil,
        fun _ member => absurd member List.not_mem_nil, ?_, ?_, ?_⟩
      · exact newest.unlink single size (careful rfl) trivial
      · change file.log = (pruned ++ held.reverse ++
          (pendingOf file.threads ++ (Stage.shift 0).pending)).flatten ++ file.current
        rw [same, log]
      · refine count.imp_right fun enough => ?_
        change _ ≤ held.length + (pendingOf file.threads ++ (Stage.shift 0).pending).length + 1
        rw [same, size]
        exact enough
    -- The oldest archive goes, and its segment with it: it joins what was pruned.
    · rw [List.concat_eq_append] at *
      have ends : held.map compress = rest.map file.contents ++ [file.contents last] := by
        rw [← stored, List.map_append]
        rfl
      obtain ⟨kept, oldest, rfl, keptStored, oldestStored⟩ := List.map_eq_append_iff.mp ends
      obtain ⟨segment, rfl⟩ : ∃ segment, oldest = [segment] := by
        rw [List.map_eq_singleton_iff] at oldestStored
        exact oldestStored.imp fun _ found => found.1
      have lengths : kept.length = rest.length := by
        have := congrArg List.length keptStored
        rwa [List.length_map, List.length_map] at this
      have topSize : front.length + rest.length = top := by
        rw [List.length_append, List.length_singleton] at full capacity_
        omega
      have taken : (front ++ (rest ++ [last]).map some).take top = front ++ rest.map some := by
        rw [List.map_append, ← List.append_assoc]
        exact List.take_left' (by rw [List.length_append, List.length_map, topSize])
      rw [taken] at cleared
      refine ⟨pruned ++ [segment], kept, front, rest, cleared, ?_, keptStored.symm, ?_, ?_, ?_, ?_,
        Or.inr ?_⟩
      · change front.length + rest.length ≤ settings.keepArchives - 1
        omega
      · rw [← List.append_assoc] at distinct
        exact (List.nodup_append.mp distinct).1
      · intro archive member
        exact fresh archive (by
          rw [← List.append_assoc]
          exact List.mem_append_left _ member)
      · exact newest.goOn opened fun exposed => absurd exposed late
      · change file.log = (pruned ++ [segment] ++ kept.reverse ++
          (pendingOf file.threads ++ (Stage.shift top).pending)).flatten ++ file.current
        rw [same, log, List.reverse_append]
        simp
      · change settings.keepArchives ≤
          kept.length + (pendingOf file.threads ++ (Stage.shift top).pending).length + 1
        rw [same, total, size]
        omega
  · rw [List.take_of_length_le (by rwa [List.length_append, List.length_map])] at cleared
    refine ⟨pruned, held, front, files, cleared, ?_, stored, distinct, fresh, ?_, ?_, ?_⟩
    · change front.length + files.length ≤ settings.keepArchives - 1
      omega
    · exact newest.goOn opened fun exposed => absurd exposed late
    · change file.log = (pruned ++ held.reverse ++
        (pendingOf file.threads ++ (Stage.shift top).pending)).flatten ++ file.current
      rw [same, log]
    · refine count.imp_right fun enough => ?_
      change _ ≤ held.length + (pendingOf file.threads ++ (Stage.shift top).pending).length + 1
      rw [same, size]
      exact enough

theorem Arranged.shift {left : Nat}
    (arranged : Arranged compress settings file pruned held front files)
    (here : file.stage = .shift (left + 1))
    (careful : file.stage = .shift 1 → ∀ thread ∈ file.threads, ¬thread.isWaiting) :
    Arranged compress settings
      { file with archives := moveUp file.archives (left + 1), stage := .shift left }
      pruned held front files := by
  obtain ⟨holds, room, stored, distinct, fresh, newest, log, count⟩ := arranged
  have same : pendingOf file.threads ++ (Stage.shift left).pending = file.pending := by
    rw [pending, here]
    rfl
  have opened : Exposed (.shift left) → ∀ thread ∈ file.threads, ¬thread.isWaiting := by
    intro exposed
    cases left with
    | zero => exact careful here
    | succ left => exact exposed.elim
  rw [here] at holds room newest count
  refine ⟨holds.moveUp, room, stored, distinct, fresh, ?_, ?_, ?_⟩
  · exact newest.goOn opened fun exposed => exposed.elim
  · change file.log = (pruned ++ held.reverse ++
      (pendingOf file.threads ++ (Stage.shift left).pending)).flatten ++ file.current
    rw [same, log]
  · refine count.imp_right fun enough => ?_
    change _ ≤ held.length + (pendingOf file.threads ++ (Stage.shift left).pending).length + 1
    rw [same]
    exact enough

theorem Newest.not_waiting {contents : Nat → Bytes} {stage : Stage} {threads : List Thread}
    (newest : Newest compress settings contents stage files threads front)
    (exposed : Exposed stage) : ∀ thread ∈ threads, ¬thread.isWaiting := by
  have done : ∀ thread : Thread, thread.isDone → ¬thread.isWaiting := by
    intro thread done waits
    simp only [Thread.isDone, Thread.isWaiting, decide_eq_true_eq] at done waits
    rw [done] at waits
    cases waits
  intro thread member
  cases newest with
  | settled all => exact done thread (all thread member)
  | waiting others covered => exact absurd exposed covered
  | writing others content within =>
      rcases List.mem_append.mp member with earlier | last
      · exact done thread (others thread earlier)
      · rw [List.mem_singleton.mp last]
        simp [Thread.isWaiting]
  | ended others content =>
      rcases List.mem_append.mp member with earlier | last
      · exact done thread (others thread earlier)
      · rw [List.mem_singleton.mp last]
        simp [Thread.isWaiting]
  | unlinked others runs opened single late alone =>
      rcases List.mem_append.mp member with earlier | last
      · exact done thread (others thread earlier)
      · rwa [List.mem_singleton.mp last]

theorem Arranged.swap (arranged : Arranged compress settings file pruned held front files)
    (here : file.stage = .shift 0) :
    Arranged compress settings { file with current := [], stage := .reopen file.current }
      pruned held front files := by
  obtain ⟨holds, room, stored, distinct, fresh, newest, log, count⟩ := arranged
  have same : file.pending = pendingOf file.threads := by
    rw [pending, here]
    exact List.append_nil _
  rw [here] at holds room newest count
  refine ⟨holds, room, stored, distinct, fresh, ?_, ?_, ?_⟩
  · exact newest.goOn (fun _ => newest.not_waiting trivial) fun _ => ⟨trivial, rfl⟩
  · change file.log = (pruned ++ held.reverse ++
      (pendingOf file.threads ++ [file.current])).flatten ++ []
    rw [log, same]
    simp
  · refine count.imp_right fun enough => ?_
    change _ ≤ held.length + (pendingOf file.threads ++ [file.current]).length + 0
    rw [same] at enough
    rw [List.length_append]
    exact enough

theorem Arranged.reopen {segment : Bytes} (positive : settings.keepArchives ≠ 0)
    (arranged : Arranged compress settings file pruned held front files)
    (here : file.stage = .reopen segment) (all : ∀ thread ∈ file.threads, thread.isDone) :
    Arranged compress settings
      { file with
        written := 0
        stage := .idle
        threads := file.threads ++ [⟨segment, .waiting⟩] } pruned held [none] files := by
  obtain ⟨holds, room, stored, distinct, fresh, newest, log, count⟩ := arranged
  have bare : front = [] := by
    have short := newest.front_le
    rw [pendingOf_done all] at short
    exact List.length_eq_zero_iff.mp (Nat.le_zero.mp short)
  have same : pendingOf (file.threads ++ [⟨segment, .waiting⟩]) ++ Stage.idle.pending =
      file.pending := by
    rw [pending, here, pendingOf_done all, pendingOf_last all (by simp [Thread.isDone])]
    rfl
  subst bare
  rw [here] at holds room newest count
  refine ⟨holds, ?_, stored, distinct, fresh, .waiting all id, ?_, ?_⟩
  · change 1 + files.length ≤ settings.keepArchives
    have less : 0 + files.length ≤ settings.keepArchives - 1 := room
    omega
  · change file.log = (pruned ++ held.reverse ++
      (pendingOf (file.threads ++ [⟨segment, .waiting⟩]) ++ Stage.idle.pending)).flatten ++
        file.current
    rw [same, log]
  · refine count.imp_right fun enough => ?_
    change _ ≤ held.length +
      (pendingOf (file.threads ++ [⟨segment, .waiting⟩]) ++ Stage.idle.pending).length + 0
    rw [same]
    exact enough

end Writer

section Compression

variable {file : RotatingFile} {pruned held : List Bytes} {front : List (Option Nat)}
  {files : List Nat} {contents : Nat → Bytes} {stage : Stage} {threads : List Thread}
  {thread : Thread} {id : Nat}

theorem writeAt_end {data : Bytes} {offset : Nat} (size : data.length = offset) (chunk : Bytes) :
    writeAt data offset chunk = data ++ chunk := by
  rw [writeAt, size, Nat.sub_self, List.replicate_zero, List.append_nil,
    List.take_of_length_le (Nat.le_of_eq size), List.drop_of_length_le (by omega), List.append_nil]

/-- The newest segment stands in front unless its number is free already. -/
theorem layout_cons (covered : ¬Exposed stage) (row : List (Option Nat)) :
    ∃ rest, ∀ first, layout stage (first :: row) = first :: rest := by
  cases stage with
  | idle => exact ⟨row, fun _ => rfl⟩
  | remove => exact ⟨row, fun _ => rfl⟩
  | shift left =>
      cases left with
      | zero => exact absurd trivial covered
      | succ left => exact ⟨withGap row left, fun _ => rfl⟩
  | reopen segment => exact absurd trivial covered

theorem Newest.moving (newest : Newest compress settings contents stage files threads front)
    (found : threads[id]? = some thread) (runs : ¬thread.isDone) :
    ∃ before, (∀ other ∈ before, other.isDone) ∧ threads = before ++ [thread] ∧
      ∀ next, threads.set id next = before ++ [next] := by
  cases newest with
  | settled all => exact absurd (not_running all found) runs
  | waiting others covered =>
      obtain ⟨rfl, sets⟩ := last_of_getElem? others found runs
      exact ⟨_, others, rfl, sets⟩
  | writing others content within =>
      obtain ⟨rfl, sets⟩ := last_of_getElem? others found runs
      exact ⟨_, others, rfl, sets⟩
  | ended others content =>
      obtain ⟨rfl, sets⟩ := last_of_getElem? others found runs
      exact ⟨_, others, rfl, sets⟩
  | unlinked others still opened single late alone =>
      obtain ⟨rfl, sets⟩ := last_of_getElem? others found runs
      exact ⟨_, others, rfl, sets⟩

/-- How the newest segment stands, read off its thread. -/
theorem Newest.of_last {before : List Thread}
    (newest : Newest compress settings contents stage files (before ++ [thread]) front)
    (runs : ¬thread.isDone) :
    (thread.phase = .waiting ∧ front = [none] ∧ ¬Exposed stage) ∨
      (∃ target offset, thread.phase = .writing target offset ∧ front = [some target] ∧
        contents target = (compress thread.pending).take offset ∧
        offset ≤ (compress thread.pending).length) ∨
      (∃ target, thread.phase = .ended (some target) ∧ front = [some target] ∧
        contents target = compress thread.pending) ∨
      (¬thread.isWaiting ∧ front = [] ∧ settings.keepArchives = 1 ∧ Exposed stage ∧
        files = []) := by
  generalize same : before ++ [thread] = threads at newest
  have last : ∀ {other : List Thread} {moved : Thread}, before ++ [thread] = other ++ [moved] →
      thread = moved := by
    intro other moved whole
    exact List.singleton_inj.mp (List.append_inj' whole rfl).2
  cases newest with
  | settled all =>
      exact absurd (all thread (same ▸ List.mem_append_right _ (List.mem_singleton_self _))) runs
  | waiting others covered =>
      obtain rfl := last same
      exact Or.inl ⟨rfl, rfl, covered⟩
  | writing others content within =>
      obtain rfl := last same
      exact Or.inr (Or.inl ⟨_, _, rfl, rfl, content, within⟩)
  | ended others content =>
      obtain rfl := last same
      exact Or.inr (Or.inr (Or.inl ⟨_, rfl, rfl, content⟩))
  | unlinked others still opened single late alone =>
      obtain rfl := last same
      exact Or.inr (Or.inr (Or.inr ⟨opened, rfl, single, late, alone⟩))

theorem pending_moved {before : List Thread} (others : ∀ other ∈ before, other.isDone)
    (runs : ¬thread.isDone) {phase : Phase} (still : phase ≠ .done) :
    pendingOf (before ++ [⟨thread.pending, phase⟩]) = pendingOf (before ++ [thread]) := by
  rw [pendingOf_last others runs, pendingOf_last others (by simpa [Thread.isDone] using still)]

/-- The archive is opened where the newest number is free. -/
theorem Arranged.openTarget (arranged : Arranged compress settings file pruned held front files)
    (found : file.threads[id]? = some thread) (waits : thread.phase = .waiting) :
    file.archives 1 = none ∧
      Arranged compress settings
        ({ file with
          archives := Function.update file.archives 1 (some file.nextFile)
          contents := Function.update file.contents file.nextFile []
          nextFile := file.nextFile + 1 }.setThread id
          { thread with phase := .writing file.nextFile 0 })
        pruned held [some file.nextFile] files := by
  obtain ⟨holds, room, stored, distinct, fresh, newest, log, count⟩ := arranged
  have runs : ¬thread.isDone := by
    rw [Thread.isDone, waits]
    decide
  obtain ⟨before, others, threads, sets⟩ := newest.moving found runs
  rw [threads] at newest
  -- A thread that waits is the last, and number one stays free for it until the file is renamed.
  have shape : front = [none] ∧ ¬Exposed file.stage := by
    rcases newest.of_last runs with ⟨-, bare, covered⟩ | ⟨_, _, writes, -⟩ | ⟨_, ends, -⟩ |
      ⟨opened, -⟩
    · exact ⟨bare, covered⟩
    · rw [waits] at writes
      cases writes
    · rw [waits] at ends
      cases ends
    · exact absurd (by rw [Thread.isWaiting, waits]; rfl) opened
  obtain ⟨rfl, covered⟩ := shape
  obtain ⟨rest, splits⟩ := layout_cons covered (files.map some)
  have row : Holds file.archives (none :: rest) := by
    rw [← splits]
    exact holds
  have unseen : file.nextFile ∉ files := by
    intro member
    exact absurd (fresh _ (List.mem_append_right _ member)) (Nat.lt_irrefl _)
  have moved : pendingOf (file.threads.set id ⟨thread.pending, .writing file.nextFile 0⟩) =
      pendingOf file.threads := by
    rw [sets, threads]
    exact pending_moved others runs (by simp)
  refine ⟨row.2 0, ?_, room, ?_, ?_, ?_, ?_, ?_, ?_⟩
  · change Holds _ (layout file.stage (some file.nextFile :: files.map some))
    rw [splits]
    exact row.put _
  · rw [← stored]
    refine List.map_congr_left fun archive member => Function.update_of_ne ?_ _ _
    intro same
    exact unseen (same ▸ member)
  · exact List.nodup_cons.mpr ⟨unseen, distinct⟩
  · intro archive member
    rcases List.mem_cons.mp member with rfl | older
    · exact Nat.lt_succ_self _
    · exact Nat.lt_succ_of_lt (fresh archive older)
  · change Newest _ _ _ _ _ (file.threads.set id ⟨thread.pending, .writing file.nextFile 0⟩) _
    rw [sets]
    refine .writing others ?_ (Nat.zero_le _)
    rw [List.take_zero]
    exact Function.update_self ..
  · change file.log = (pruned ++ held.reverse ++ (pendingOf (file.threads.set id
      ⟨thread.pending, .writing file.nextFile 0⟩) ++ file.stage.pending)).flatten ++ file.current
    rw [moved]
    exact log
  · refine count.imp_right fun enough => ?_
    change _ ≤ held.length + (pendingOf (file.threads.set id
      ⟨thread.pending, .writing file.nextFile 0⟩) ++ file.stage.pending).length +
        file.stage.rotating
    rw [moved]
    exact enough

theorem Arranged.moves (arranged : Arranged compress settings file pruned held front files)
    (found : file.threads[id]? = some thread) (runs : ¬thread.isDone) {phase : Phase}
    (still : phase ≠ .done)
    (untouched : ∀ archive ∈ files, contents archive = file.contents archive)
    (newest : ∀ before, (∀ other ∈ before, other.isDone) →
      Newest compress settings file.contents file.stage files (before ++ [thread]) front →
      Newest compress settings contents file.stage files
        (before ++ [⟨thread.pending, phase⟩]) front) :
    Arranged compress settings
      ({ file with contents }.setThread id ⟨thread.pending, phase⟩) pruned held front files := by
  obtain ⟨holds, room, stored, distinct, fresh, before_, log, count⟩ := arranged
  obtain ⟨before, others, threads, sets⟩ := before_.moving found runs
  have moved : pendingOf (file.threads.set id ⟨thread.pending, phase⟩) =
      pendingOf file.threads := by
    rw [sets, threads]
    exact pending_moved others runs still
  rw [threads] at before_
  refine ⟨holds, room, ?_, distinct, fresh, ?_, ?_, ?_⟩
  · rw [← stored]
    exact List.map_congr_left untouched
  · change Newest _ _ _ _ _ (file.threads.set id ⟨thread.pending, phase⟩) _
    rw [sets]
    exact newest before others before_
  · change file.log = (pruned ++ held.reverse ++ (pendingOf (file.threads.set id
      ⟨thread.pending, phase⟩) ++ file.stage.pending)).flatten ++ file.current
    rw [moved]
    exact log
  · refine count.imp_right fun enough => ?_
    change _ ≤ held.length + (pendingOf (file.threads.set id ⟨thread.pending, phase⟩) ++
      file.stage.pending).length + file.stage.rotating
    rw [moved]
    exact enough

theorem Arranged.target_free (arranged : Arranged compress settings file pruned held front files)
    {target : Nat} (stands : front = [some target] ∨ files = []) : target ∉ files := by
  rcases stands with rfl | rfl
  · exact (List.nodup_cons.mp arranged.distinct).1
  · exact List.not_mem_nil

theorem Arranged.copy (arranged : Arranged compress settings file pruned held front files)
    {target offset : Nat} (found : file.threads[id]? = some thread)
    (writes : thread.phase = .writing target offset) (n : Nat) :
    Arranged compress settings
      ({ file with
        contents := Function.update file.contents target (writeAt (file.contents target) offset
          (((compress thread.pending).drop offset).take n)) }.setThread id
        ⟨thread.pending, .writing target
          (offset + (((compress thread.pending).drop offset).take n).length)⟩)
      pruned held front files := by
  have runs : ¬thread.isDone := by simp [Thread.isDone, writes]
  have opened : ¬thread.isWaiting := by simp [Thread.isWaiting, writes]
  -- The file that is written is still number one, or it has been removed from the table.
  have stands : front = [some target] ∨ files = [] := by
    obtain ⟨before, others, threads, -⟩ := arranged.newest.moving found runs
    have newest := arranged.newest
    rw [threads] at newest
    rcases newest.of_last runs with ⟨waits, -⟩ | ⟨_, _, same, bare, -⟩ | ⟨_, ends, -⟩ |
      ⟨-, -, -, -, alone⟩
    · rw [writes] at waits
      cases waits
    · rw [writes] at same
      cases same
      exact Or.inl bare
    · rw [writes] at ends
      cases ends
    · exact Or.inr alone
  have free := arranged.target_free stands
  refine arranged.moves found runs (by simp) ?_ ?_
  · intro archive member
    exact Function.update_of_ne (ne_of_mem_of_not_mem member free) _ _
  · intro before others newest
    rcases newest.of_last runs with ⟨waits, -⟩ | ⟨_, _, same, rfl, content, within⟩ |
      ⟨_, ends, -⟩ | ⟨-, rfl, single, late, alone⟩
    · rw [writes] at waits
      cases waits
    · rw [writes] at same
      cases same
      have size : (file.contents target).length = offset := by
        rw [content, List.length_take]
        omega
      refine .writing others ?_ ?_
      · have chunk : ∀ data : Bytes, data.take (data.take n).length = data.take n := by
          intro data
          rw [List.length_take, ← List.take_take, List.take_length]
        rw [Function.update_self, writeAt_end size, content, List.take_add, chunk]
      · rw [List.length_take, List.length_drop]
        omega
    · rw [writes] at ends
      cases ends
    · exact .unlinked others (by simp [Thread.isDone]) (by simp [Thread.isWaiting]) single late
        alone

theorem Arranged.finish (arranged : Arranged compress settings file pruned held front files)
    {target offset : Nat} (found : file.threads[id]? = some thread)
    (writes : thread.phase = .writing target offset)
    (whole : (compress thread.pending).length ≤ offset) :
    Arranged compress settings (file.setThread id ⟨thread.pending, .ended (some target)⟩)
      pruned held front files := by
  have runs : ¬thread.isDone := by simp [Thread.isDone, writes]
  refine arranged.moves found runs (by simp) (fun _ _ => rfl) ?_
  intro before others newest
  rcases newest.of_last runs with ⟨waits, -⟩ | ⟨_, _, same, rfl, content, within⟩ |
    ⟨_, ends, -⟩ | ⟨-, rfl, single, late, alone⟩
  · rw [writes] at waits
    cases waits
  · rw [writes] at same
    cases same
    refine .ended others ?_
    rw [content, List.take_of_length_le whole]
  · rw [writes] at ends
    cases ends
  · exact .unlinked others (by simp [Thread.isDone]) (by simp [Thread.isWaiting]) single late alone

theorem Arranged.cleanup (arranged : Arranged compress settings file pruned held front files)
    {target : Option Nat} (found : file.threads[id]? = some thread)
    (ends : thread.phase = .ended target) :
    Kept compress settings (file.setThread id ⟨thread.pending, .done⟩) := by
  have runs : ¬thread.isDone := by simp [Thread.isDone, ends]
  obtain ⟨holds, room, stored, distinct, fresh, newest, log, count⟩ := arranged
  obtain ⟨before, others, threads, sets⟩ := newest.moving found runs
  have all : ∀ other ∈ file.threads.set id ⟨thread.pending, .done⟩, other.isDone := by
    intro other member
    rw [sets] at member
    rcases List.mem_append.mp member with earlier | last
    · exact others other earlier
    · rw [List.mem_singleton.mp last]
      rfl
  have one : file.pending = thread.pending :: file.stage.pending := by
    rw [pending, threads, pendingOf_last others runs]
    rfl
  have gone : pendingOf (file.threads.set id ⟨thread.pending, .done⟩) = [] := pendingOf_done all
  rw [threads] at newest
  rw [one] at log count
  rcases newest.of_last runs with ⟨waits, -⟩ | ⟨_, _, writes, -⟩ |
    ⟨archive, same, rfl, content⟩ | ⟨-, rfl, single, late, rfl⟩
  · rw [ends] at waits
    cases waits
  · rw [ends] at writes
    cases writes
  -- The archive has been written: the segment is held in it from now on.
  · refine ⟨pruned, thread.pending :: held, [], archive :: files, holds, ?_, ?_, distinct, fresh,
      .settled all, ?_, ?_⟩
    · change 0 + (files.length + 1) ≤ capacity settings file.stage
      have fits : 1 + files.length ≤ capacity settings file.stage := room
      omega
    · exact congrArg₂ List.cons content stored
    · change file.log = (pruned ++ (thread.pending :: held).reverse ++
        (pendingOf (file.threads.set id ⟨thread.pending, .done⟩) ++ file.stage.pending)).flatten ++
          file.current
      rw [gone, log]
      simp
    · refine count.imp_right fun enough => ?_
      change _ ≤ (held.length + 1) + (pendingOf (file.threads.set id ⟨thread.pending, .done⟩) ++
        file.stage.pending).length + file.stage.rotating
      rw [gone, List.nil_append]
      rw [List.length_cons] at enough
      omega
  -- Its archive was removed meanwhile, as only a single one is kept: the segment is pruned.
  · have none_ : held = [] := List.map_eq_nil_iff.mp stored.symm
    subst none_
    refine ⟨pruned ++ [thread.pending], [], [], [], holds, room, stored, distinct, fresh,
      .settled all, ?_, Or.inr ?_⟩
    · change file.log = (pruned ++ [thread.pending] ++ [].reverse ++
        (pendingOf (file.threads.set id ⟨thread.pending, .done⟩) ++ file.stage.pending)).flatten ++
          file.current
      rw [gone, log]
      simp
    · change settings.keepArchives ≤ 0 + (pendingOf (file.threads.set id
        ⟨thread.pending, .done⟩) ++ file.stage.pending).length + file.stage.rotating
      rw [gone, List.nil_append, single]
      cases stage : file.stage with
      | idle => rw [stage] at late; exact late.elim
      | remove => rw [stage] at late; exact late.elim
      | shift left => exact Nat.le_refl 1
      | reopen segment => exact Nat.le_refl 1

end Compression

section Broken

/-- A write that fills the log, and the rotation it starts. -/
def rotation (buf : Bytes) : List Event :=
  [.write buf, .remove, .shift, .swap true, .reopen true true]

def compression (compress : Bytes → Bytes) (id : Nat) (segment : Bytes) : List Event :=
  [.thread id .open_, .thread id (.copy (compress segment).length), .thread id .finish,
    .thread id .cleanup]

variable {compress : Bytes → Bytes} {file : RotatingFile} {rotateAt : Nat}

theorem follow_rotation (idle : file.stage = .idle) (named : file.named = true) {buf : Bytes}
    (full : rotateAt ≤ buf.length) :
    follow (step compress ⟨rotateAt, 2⟩) file (rotation buf) =
      some { file with
        current := []
        written := 0
        stage := .idle
        archives := moveUp (Function.update file.archives 2 none) 1
        threads := file.threads ++ [⟨file.current ++ buf, .waiting⟩]
        log := file.log ++ buf } := by
  have enough : rotateAt ≤ file.written + buf.length := by omega
  simp only [rotation, follow, step, idle, named, enough, ↓reduceIte, Option.bind_some]
  rfl

theorem follow_compression {settings : Settings} {id : Nat} {segment : Bytes}
    (found : file.threads[id]? = some ⟨segment, .waiting⟩) (free : file.archives 1 = none) :
    follow (step compress settings) file (compression compress id segment) =
      some { file with
        archives := Function.update file.archives 1 (some file.nextFile)
        contents := Function.update (Function.update file.contents file.nextFile []) file.nextFile
          (writeAt (Function.update file.contents file.nextFile [] file.nextFile) 0
            (((compress segment).drop 0).take (compress segment).length))
        nextFile := file.nextFile + 1
        threads := file.threads.set id ⟨segment, .done⟩ } := by
  have inside : id < file.threads.length := (List.getElem?_eq_some_iff.mp found).1
  have whole : (compress segment).length ≤
      0 + (((compress segment).drop 0).take (compress segment).length).length := by simp
  simp only [compression, follow, step, advance, setThread, found, free, whole, ↓reduceIte,
    Option.bind_some, List.getElem?_set_self, inside, List.set_set]

theorem broken_of_lost {settings : Settings} {pend : List Bytes} {log : Bytes}
    (archived_ : file.archived settings = []) (pending_ : file.pending = pend)
    (current_ : file.current = []) (log_ : file.log = log) (idle : file.stage = .idle)
    (lost : pend.flatten ≠ log) (few : pend.length < settings.keepArchives) :
    ¬Promise compress settings file := by
  rintro ⟨⟨pruned, segments, whole, archives, count⟩, -, -⟩
  rw [archived_] at archives
  have empty := List.map_eq_nil_iff.mp archives.symm
  subst empty
  rw [pending_, current_, log_, List.append_nil, List.append_nil] at whole
  rcases count with rfl | enough
  · exact lost whole.symm
  · rw [pending_, idle, List.length_nil, Stage.rotating] at enough
    omega

theorem failure_breaks {buf : Bytes} (some_ : buf ≠ []) : ∃ final,
    follow (step compress ⟨buf.length, 2⟩) (start compress [] [])
      (rotation buf ++ [.thread 0 .fail, .thread 0 .cleanup]) = some final ∧
    ¬Promise compress ⟨buf.length, 2⟩ final := by
  refine ⟨?final, ?run, ?broken⟩
  case run =>
    rw [follow_append, follow_rotation rfl rfl (Nat.le_refl _)]
    rfl
  case broken =>
    exact @broken_of_lost _ _ _ [] buf rfl rfl rfl rfl rfl some_.symm Nat.zero_lt_two

theorem overlap_breaks {buf : Bytes} (some_ : buf ≠ []) : ∃ final,
    follow (step compress ⟨buf.length, 2⟩) (start compress [] [])
      (rotation buf ++ (rotation buf ++ (compression compress 0 buf ++ [.thread 1 .open_]))) =
        some final ∧
    ¬Promise compress ⟨buf.length, 2⟩ final := by
  have lost : [buf].flatten ≠ buf ++ buf := by simpa using some_.symm
  refine ⟨?final, ?run, ?broken⟩
  case run =>
    rw [follow_append, follow_rotation rfl rfl (Nat.le_refl _), Option.bind_some, follow_append,
      follow_rotation rfl rfl (Nat.le_refl _), Option.bind_some, follow_append,
      @follow_compression compress _ _ 0 buf rfl rfl]
    rfl
  case broken =>
    exact @broken_of_lost _ _ _ [buf] (buf ++ buf) rfl rfl rfl rfl rfl lost Nat.one_lt_two

/-- A failed compression deletes its segment; of two at once, the second empties
the archive of the first. -/
theorem segment_lost : ∃ buf : Bytes, ∀ compress : Bytes → Bytes,
    (∃ final, follow (step compress (withSettings (some 1) (some 2))) (start compress [] [])
      (rotation buf ++ [.thread 0 .fail, .thread 0 .cleanup]) = some final ∧
      ¬Promise compress (withSettings (some 1) (some 2)) final) ∧
    ∃ final, follow (step compress (withSettings (some 1) (some 2))) (start compress [] [])
      (rotation buf ++ (rotation buf ++ (compression compress 0 buf ++ [.thread 1 .open_]))) =
        some final ∧
      ¬Promise compress (withSettings (some 1) (some 2)) final := by
  obtain ⟨buf, full⟩ : ∃ buf : Bytes, buf.length = (withSettings (some 1) (some 2)).rotateAt :=
    ⟨List.replicate _ 97, List.length_replicate⟩
  have some_ : buf ≠ [] := by
    rintro rfl
    revert full
    decide
  have settings : withSettings (some 1) (some 2) = ⟨buf.length, 2⟩ := by
    rw [full]
    rfl
  rw [settings]
  exact ⟨buf, fun compress => ⟨failure_breaks some_, overlap_breaks some_⟩⟩

end Broken

section Runs

theorem kept_step {file next : RotatingFile} {event : Event}
    (positive : settings.keepArchives ≠ 0) (kept : Kept compress settings file)
    (careful : Careful settings file event)
    (stepped : step compress settings file event = some next) : Kept compress settings next := by
  obtain ⟨pruned, held, front, files, arranged⟩ := kept
  cases event with
  | write buf =>
      rw [step] at stepped
      split at stepped
      · rename_i idle
        cases stepped
        refine ⟨pruned, held, front, files, arranged.grow idle buf _ ?_⟩
        split
        · exact Or.inr rfl
        · exact Or.inl rfl
      · cases stepped
  | torn part =>
      rw [step] at stepped
      split at stepped
      · rename_i idle
        cases stepped
        have grown := arranged.grow idle part file.written (Or.inl rfl)
        rw [← idle] at grown
        exact ⟨pruned, held, front, files, grown⟩
      · cases stepped
  | remove =>
      rw [step] at stepped
      split at stepped
      · rename_i here
        cases stepped
        exact arranged.remove positive here careful
      · cases stepped
  | shift =>
      rw [step] at stepped
      split at stepped
      · rename_i left here
        cases stepped
        exact ⟨pruned, held, front, files, arranged.shift here careful⟩
      · cases stepped
  -- A rename that fails is excluded by `careful`: the segment would be cut off.
  | swap renamed =>
      rw [step, if_pos (show renamed = true from careful)] at stepped
      split at stepped
      · rename_i here
        split at stepped
        · cases stepped
          exact ⟨pruned, held, front, files, arranged.swap here⟩
        · cases stepped
      · cases stepped
  | reopen opened restored =>
      rw [step] at stepped
      split at stepped
      · rename_i segment here
        rw [if_pos careful.1] at stepped
        cases stepped
        exact ⟨pruned, held, [none], files, arranged.reopen positive here careful.2⟩
      · cases stepped
  | thread id move =>
      rw [step] at stepped
      split at stepped
      · rename_i thread found
        cases move with
        | open_ =>
            rw [advance] at stepped
            split at stepped
            · rename_i waits
              obtain ⟨free, opened⟩ := arranged.openTarget found waits
              rw [free] at stepped
              cases stepped
              exact ⟨pruned, held, _, files, opened⟩
            · cases stepped
        | copy n =>
            rw [advance] at stepped
            split at stepped
            · rename_i target offset writes
              cases stepped
              exact ⟨pruned, held, front, files, arranged.copy found writes n⟩
            · cases stepped
        | finish =>
            rw [advance] at stepped
            split at stepped
            · rename_i target offset writes
              split at stepped
              · rename_i whole
                cases stepped
                exact ⟨pruned, held, front, files, arranged.finish found writes whole⟩
              · cases stepped
            · cases stepped
        -- A failed compression leaves the segment uncompressed, also excluded.
        | fail => exact careful.elim
        | cleanup =>
            rw [advance] at stepped
            split at stepped
            · rename_i target ends
              cases stepped
              exact arranged.cleanup found ends
            · cases stepped
      · cases stepped

theorem kept_start (old : List Bytes) (few : old.length ≤ settings.keepArchives) (tail : Bytes) :
    Kept compress settings (start compress old tail) := by
  refine ⟨[], old.reverse, [], List.range old.length, ⟨rfl, ?_⟩, ?_, ?_, List.nodup_range, ?_,
    .settled fun _ member => absurd member List.not_mem_nil, ?_, Or.inl rfl⟩
  · intro i
    change (if 1 ≤ i + 1 ∧ i + 1 ≤ old.length then some (i + 1 - 1) else none) =
      (((List.range old.length).map some)[i]?).join
    rw [List.getElem?_map]
    rcases Nat.lt_or_ge i old.length with inside | beyond
    · rw [if_pos ⟨by omega, inside⟩, List.getElem?_range inside]
      rfl
    · rw [if_neg (by omega), List.getElem?_eq_none (by rwa [List.length_range])]
      rfl
  · change 0 + (List.range old.length).length ≤ settings.keepArchives
    rw [List.length_range]
    omega
  · refine List.ext_getElem (by simp) ?_
    intro i inside within
    simp only [List.length_map, List.length_range] at inside
    simp [start, inside]
  · intro archive member
    exact List.mem_range.mp member
  · change old.flatten ++ tail = ([] ++ old.reverse.reverse ++ ([] ++ [])).flatten ++ tail
    simp

theorem layout_reduceOption (stage : Stage) (row : List (Option Nat)) :
    (layout stage row).reduceOption = row.reduceOption := by
  cases stage with
  | idle => rfl
  | remove => rfl
  | shift left => exact reduceOption_withGap row left
  | reopen segment => exact reduceOption_withGap row 0

theorem layout_length {file : RotatingFile} {pruned held : List Bytes}
    {front : List (Option Nat)} {files : List Nat} (positive : settings.keepArchives ≠ 0)
    (arranged : Arranged compress settings file pruned held front files) :
    (layout file.stage (front ++ files.map some)).length ≤ settings.keepArchives := by
  have room := arranged.room
  have size : (front ++ files.map some).length = front.length + files.length := by
    rw [List.length_append, List.length_map]
  cases stage : file.stage with
  | idle =>
      rw [stage] at room
      exact size ▸ room
  | remove =>
      rw [stage] at room
      exact size ▸ room
  | shift left =>
      rw [stage] at room
      have less : front.length + files.length ≤ settings.keepArchives - 1 := room
      rw [layout, length_withGap, size]
      omega
  | reopen segment =>
      rw [stage] at room
      have less : front.length + files.length ≤ settings.keepArchives - 1 := room
      rw [layout, length_withGap, size]
      omega

/-- Just the archive in front is still written. -/
theorem Newest.targets {contents : Nat → Bytes} {stage : Stage} {files : List Nat}
    {threads : List Thread} {front : List (Option Nat)}
    (newest : Newest compress settings contents stage files threads front) :
    (∀ archive ∈ front.reduceOption, ∃ thread ∈ threads, thread.target = some archive) ∧
      ∀ thread ∈ threads, ∀ archive, thread.target = some archive →
        front = [some archive] ∨ files = [] := by
  have done : ∀ thread : Thread, thread.isDone → thread.target = none := by
    intro thread done
    rw [Thread.isDone, decide_eq_true_eq] at done
    rw [Thread.target, done]
  have settled : ∀ {list : List Thread}, (∀ thread ∈ list, thread.isDone) → ∀ thread ∈ list,
      ∀ archive, thread.target = some archive → front = [some archive] ∨ files = [] := by
    intro list all thread member archive targets
    rw [done thread (all thread member)] at targets
    cases targets
  have last : ∀ {before : List Thread} {thread : Thread}, thread ∈ before ++ [thread] :=
    List.mem_append_right _ (List.mem_singleton_self _)
  cases newest with
  | settled all => exact ⟨fun _ member => absurd member List.not_mem_nil, settled all⟩
  | waiting others covered =>
      refine ⟨fun _ member => absurd member List.not_mem_nil, ?_⟩
      intro thread member archive targets
      rcases List.mem_append.mp member with earlier | here
      · exact settled others thread earlier archive targets
      · rw [List.mem_singleton.mp here] at targets
        cases targets
  | writing others content within =>
      refine ⟨fun archive member => ⟨_, last, ?_⟩, ?_⟩
      · rw [List.mem_singleton.mp member]
        rfl
      · intro thread member archive targets
        rcases List.mem_append.mp member with earlier | here
        · exact settled others thread earlier archive targets
        · rw [List.mem_singleton.mp here] at targets
          cases targets
          exact Or.inl rfl
  | ended others content =>
      refine ⟨fun archive member => ⟨_, last, ?_⟩, ?_⟩
      · rw [List.mem_singleton.mp member]
        rfl
      · intro thread member archive targets
        rcases List.mem_append.mp member with earlier | here
        · exact settled others thread earlier archive targets
        · rw [List.mem_singleton.mp here] at targets
          cases targets
          exact Or.inl rfl
  | unlinked others runs opened single late alone =>
      exact ⟨fun _ member => absurd member List.not_mem_nil, fun _ _ _ _ => Or.inr alone⟩

/-- What careful rotations keep is what they promise. -/
theorem promise_of_kept {file : RotatingFile} (positive : settings.keepArchives ≠ 0)
    (kept : Kept compress settings file) : Promise compress settings file := by
  obtain ⟨pruned, held, front, files, arranged⟩ := kept
  have short := layout_length positive arranged
  have top : settings.keepArchives ≤ topNumber settings := Nat.le_max_left _ _
  have listed : listing file.archives (topNumber settings) =
      (front.reduceOption ++ files).reverse := by
    rw [listing_of_holds arranged.holds (Nat.le_trans short top), layout_reduceOption,
      List.reduceOption_append]
    congr 2
    rw [List.reduceOption, List.filterMap_map]
    exact List.filterMap_some
  obtain ⟨written, whole⟩ := arranged.newest.targets
  have whole_ : files.reverse.filter (fun archive =>
      file.threads.all fun thread => thread.target ≠ some archive) = files.reverse := by
    refine List.filter_eq_self.mpr fun archive member => ?_
    rw [List.mem_reverse] at member
    simp only [ne_eq, List.all_eq_true, decide_eq_true_eq]
    intro thread present targets
    exact arranged.target_free (whole thread present archive targets) member
  have unfinished : front.reduceOption.reverse.filter (fun archive =>
      file.threads.all fun thread => thread.target ≠ some archive) = [] := by
    refine List.filter_eq_nil_iff.mpr fun archive member => ?_
    obtain ⟨thread, present, targets⟩ := written archive (List.mem_reverse.mp member)
    simp only [ne_eq, List.all_eq_true, decide_eq_true_eq]
    exact fun all => all thread present targets
  refine ⟨⟨pruned, held.reverse, arranged.log, ?_, ?_⟩, ?_, ?_⟩
  · rw [archived, listed, List.reverse_append, List.filter_append, whole_, unfinished,
      List.append_nil, List.map_reverse, List.map_reverse, arranged.stored]
  · rw [List.length_reverse]
    exact arranged.count
  · intro all
    have bare : front = [] := by
      have less := arranged.newest.front_le
      rw [pendingOf_done all] at less
      exact List.length_eq_zero_iff.mp (Nat.le_zero.mp less)
    rw [listed, List.length_reverse, bare]
    have room := arranged.room
    have less : capacity settings file.stage ≤ settings.keepArchives := by
      cases file.stage with
      | idle => exact Nat.le_refl _
      | remove => exact Nat.le_refl _
      | shift left => exact Nat.sub_le _ _
      | reopen segment => exact Nat.sub_le _ _
    rw [bare, List.length_nil, Nat.zero_add] at room
    exact Nat.le_trans room less
  · intro i beyond
    exact arranged.holds.beyond (Nat.lt_of_le_of_lt (Nat.le_trans short top) beyond)

/-- The promise holds as long as every step is careful, over whole runs. -/
theorem log_kept (positive : settings.keepArchives ≠ 0) {old : List Bytes}
    (few : old.length ≤ settings.keepArchives) (tail : Bytes) {events : List Event}
    {final : RotatingFile}
    (ran : follow (step compress settings) (start compress old tail) events = some final)
    (careful : Throughout (step compress settings) (Careful settings)
      (start compress old tail) events) :
    Promise compress settings final :=
  promise_of_kept positive (follow_invariant (Kept compress settings)
    (fun kept careful stepped => kept_step positive kept careful stepped)
    (kept_start old few tail) ran careful)

/-- What the encoder makes of one letter. -/
def gzipOfA (segment : Bytes) : Bytes :=
  if segment = [97] then
    [31, 139, 8, 0, 0, 0, 0, 0, 0, 255, 75, 4, 0, 67, 190, 183, 232, 1, 0, 0, 0]
  else []

/-- One line that fills the log, and its compression. -/
theorem log_kept_once : ∃ final,
    follow (step gzipOfA ⟨1, 2⟩) (start gzipOfA [] [])
      (rotation [97] ++ compression gzipOfA 0 [97]) = some final ∧
    Promise gzipOfA ⟨1, 2⟩ final :=
  ⟨_, rfl, @log_kept gzipOfA ⟨1, 2⟩ (by decide) [] (Nat.zero_le 2) []
    (rotation [97] ++ compression gzipOfA 0 [97]) _ rfl (by decide)⟩

end Runs

end Mirage.Monitor.RotatingFile
