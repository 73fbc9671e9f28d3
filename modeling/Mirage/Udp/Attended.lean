import Mirage.Udp.Isolation

/-!
When the server of a tunnel forgets a session: its task is spawned before the
session is in the table, and takes the entry out of the table when it ends. If it
ends first, there is nothing to take out, and the entry stays behind.
-/

namespace Mirage.Udp.Shared
open Assoc Trace

instance (found : SidEgress) : Decidable found.Alive :=
  inferInstanceAs (Decidable (_ ∨ _))

/-- The session that is about to be inserted, if there is one. -/
def Mux.unsettled (self : Mux) : Option SidEgress :=
  self.job.spawnedAt.bind fun egress => self.egresses[egress]?

/-- A session finds its task there when it is inserted. -/
def Timely (state : Mux) : Event → Prop
  | .insert => ∀ found ∈ state.unsettled, found.Alive
  | _ => True

instance decidableTimely (state : Mux) : ∀ event, Decidable (Timely state event)
  | .insert => inferInstanceAs (Decidable (∀ found ∈ state.unsettled, found.Alive))
  | .allocSid _ _ | .tryRegister _ | .push _ _ | .pump _ _ | .unregister _ | .write _
  | .carryUp _ | .handle _ | .count | .opened _ | .send _ | .stop | .recv _ _ _ | .leave _
  | .remove _ | .reply | .carryDown _ | .demux => .isTrue trivial

/-- Every session in the table has its task, which runs or is about to take out
this entry. -/
def Attended (state : Mux) : Prop :=
  ∀ sid egress, (sid, egress) ∈ state.sessions → ∃ found,
    state.egresses[egress]? = some found ∧ found.sid = sid ∧ found.Alive

section Insertions
variable {self next : Mux} {event : Event}

theorem settle_early {found : SidEgress} (alive : found.Alive) : found.settle.early = false := by
  simp only [SidEgress.settle, decide_eq_false_iff_not]
  rintro ⟨stopped, stayed⟩
  exact alive.elim stopped stayed

theorem insert_met (sound : Sound self) (timely : Timely self .insert) (met : Met self)
    (moved : self.insert = some next) : Met next := by
  unfold Mux.insert at moved
  split at moved
  · rename_i uf egress job
    have absent := sound.table.absent uf (by rw [job]; rfl)
    simp only [absent, Option.elim_none] at moved
    cases moved
    intro taken found here
    by_cases same : egress = taken
    · subst same
      rw [List.getElem?_modify_eq] at here
      obtain ⟨before, known, rfl⟩ := Option.map_eq_some_iff.mp here
      apply settle_early (timely before _)
      rw [Mux.unsettled, job]
      exact known
    · rw [List.getElem?_modify_ne _ _ same] at here
      exact met taken found here
  · cases moved

theorem met_step (sound : Sound self) (timely : Timely self event) (met : Met self)
    (stepped : self.step event = some next) : Met next := by
  by_cases insertion : event = .insert
  · subst insertion
    exact insert_met sound timely met stepped
  · exact (step_frame stepped).2 insertion met

theorem attended_of_met (sound : Sound self) (met : Met self) : Attended self := by
  intro sid egress member
  obtain ⟨found, here, same, alive | early⟩ := sound.table.entries sid egress member
  · exact ⟨found, here, same, alive⟩
  · rw [met egress found here] at early
    cases early

theorem alive_of_abort {found : SidEgress} (alive : found.abort.Alive) : found.Alive := by
  unfold SidEgress.abort at alive
  split at alive
  · exact Or.inl ‹_›
  · exact alive

/-- What is inserted is in the table, with the task as it was. -/
theorem timely_of_attended (attended : Attended next) (stepped : self.step event = some next) :
    Timely self event := by
  cases event with
  | insert =>
      intro found member
      simp only [Mux.step, Mux.insert] at stepped
      split at stepped
      · rename_i uf egress job
        rw [Mux.unsettled, job] at member
        have here : self.egresses[egress]? = some found := member
        cases stepped
        have entry : (uf.sid, egress) ∈ put self.sessions uf.sid egress :=
          List.mem_append_right _ (List.mem_singleton_self _)
        obtain ⟨moved, there, -, alive⟩ := attended _ _ entry
        cases held : self.sessions.lookup uf.sid with
        | none =>
            simp only [held, Option.elim_none, List.getElem?_modify_eq, here] at there
            cases there
            exact alive
        | some old =>
            simp only [held, Option.elim_some, Mux.abort, List.getElem?_modify_eq,
              List.getElem?_modify, here] at there
            split at there
            · cases there
              exact alive_of_abort alive
            · cases there
              exact alive
      · cases stepped
  | _ => trivial

end Insertions

section Runs

/-- Along every run with ids to spare flows stay apart, and no session is without
its task in any state exactly if each found its task there when it was inserted. -/
theorem mux_isolated_iff (events : List Event) (state : Mux)
    (followed : follow Mux.step Mux.start events = some state)
    (few : state.tasks.length ≤ 2 ^ 32) :
    Isolated state ∧
      (Throughout Mux.step Timely Mux.start events ↔
        ∀ past middle, past <+: events → follow Mux.step Mux.start past = some middle →
          Attended middle) := by
  refine ⟨(sound_of_reached ⟨events, followed⟩ few).isolated few, ?_, ?_⟩
  · intro timely past middle inside reached
    obtain ⟨rest, rfl⟩ := inside
    rw [follow_append, reached] at followed
    have grown : middle.tasks.length ≤ state.tasks.length :=
      follow_keeps (fun later => middle.tasks.length ≤ later.tasks.length)
        (fun held stepped => held.trans (tasks_grow stepped)) (Nat.le_refl _) followed
    have kept : middle.tasks.length ≤ 2 ^ 32 → Sound middle ∧ Met middle := by
      refine follow_invariant (fun now => now.tasks.length ≤ 2 ^ 32 → Sound now ∧ Met now) ?_
        (fun _ => ⟨sound_start, nofun⟩) reached (throughout_left timely)
      intro now event next held allowed stepped fits
      obtain ⟨sound, met⟩ := held ((tasks_grow stepped).trans fits)
      exact ⟨sound.step stepped fits, met_step sound allowed met stepped⟩
    obtain ⟨sound, met⟩ := kept (grown.trans few)
    exact attended_of_met sound met
  · intro attended
    refine throughout_of_reached followed ?_
    intro past now event next inside reached stepped
    refine timely_of_attended (attended (past ++ [event]) next inside ?_) stepped
    rw [follow_append, reached, Option.bind_some, follow, stepped]
    rfl

theorem two_flows_attended : ∃ state : Mux, follow Mux.step Mux.start twoFlows = some state ∧
    Attended state := by
  obtain ⟨state, followed, two⟩ : ∃ state : Mux,
      follow Mux.step Mux.start twoFlows = some state ∧ state.tasks.length = 2 := ⟨_, rfl, rfl⟩
  have timely : Throughout Mux.step Timely Mux.start twoFlows := by decide
  have run := (mux_isolated_iff twoFlows state followed (by omega)).2.mp timely
  exact ⟨state, followed, run twoFlows state (List.prefix_refl _) followed⟩

/-- The task of the first session has come to its end before the insertion. -/
def lateInsertion : List Event :=
  [.allocSid (.ip 0x01020304) 53, .tryRegister 0, .push 0 [7], .pump 0 0, .write 0,
    .carryUp 100, .handle .pass, .count, .opened (some ⟨.v4 0x01020304, 53⟩), .leave 0,
    .remove 0, .insert, .send true]

theorem late_insertion_stays : ∃ state : Mux,
    follow Mux.step Mux.start lateInsertion = some state ∧ ¬ Attended state := by
  refine ⟨_, rfl, fun attended => ?_⟩
  obtain ⟨found, here, -, alive⟩ := attended 1 0 (by decide)
  cases here
  exact absurd alive (by decide)

end Runs

end Mirage.Udp.Shared
