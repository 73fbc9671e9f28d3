import Mathlib.Algebra.Group.Nat.Defs
import Mathlib.Data.List.Forall2
import Mirage.Lib.Notify
import Mirage.Udp.Shared

/-!
Flows that share a tunnel stay apart. A session id names one flow, so what
stands between its socket and the target is in order and its own, both ways:
frames on the tunnel, the frame the server works on, and what has left. A
session and the task that reads its socket belong to each other.
-/

namespace Mirage.Udp.Shared
open Assoc Framing Notify Trace Word

section Ways

/-- Bytes on a tunnel, and the datagrams whose frames they are. -/
def Carries (bytes : Bytes) (frames : List UplinkFrame) : Prop :=
  ∃ calls parts, List.Forall₂ (fun call part => FrameMux.frame call = some part) calls parts ∧
    bytes = parts.flatten ∧ frames = calls.map FrameMux.sent

variable {bytes more buffer rest : Bytes} {frames later : List UplinkFrame}

theorem carries_nil : Carries [] [] := ⟨[], [], .nil, rfl, rfl⟩

theorem Carries.append (first : Carries bytes frames) (second : Carries more later) :
    Carries (bytes ++ more) (frames ++ later) := by
  obtain ⟨calls, parts, built, rfl, rfl⟩ := first
  obtain ⟨others, pieces, made, rfl, rfl⟩ := second
  refine ⟨calls ++ others, parts ++ pieces, List.rel_append built made, ?_, ?_⟩
  · rw [List.flatten_append]
  · rw [List.map_append]

theorem Carries.one {call : FrameMux} (built : call.frame = some bytes) :
    Carries bytes [call.sent] :=
  ⟨[call], [bytes], .cons built .nil, (List.append_nil bytes).symm, rfl⟩

/-- What a parser takes off the buffer is the first frame on the way. -/
theorem Carries.read {Frame : Type} {parser : FrameParser UInt8 Frame}
    {reading : UplinkFrame → Frame} {used : Nat} {read : Frame}
    (encodes : ∀ {call part}, FrameMux.frame call = some part →
      Encodes parser part (reading call.sent))
    (carried : Carries (buffer ++ rest) frames) (taken : parser.parse buffer = some (used, read)) :
    ∃ first later, frames = first :: later ∧ read = reading first ∧
      Carries (buffer.drop used ++ rest) later := by
  -- A frame found in the buffer is found with the rest of the bytes behind it, too.
  have whole := parser.stable buffer rest _ taken
  obtain ⟨some_, within⟩ := parser.consumes _ _ _ taken
  obtain ⟨calls, parts, built, same, rfl⟩ := carried
  have behind : buffer.drop used ++ rest = (buffer ++ rest).drop used :=
    (List.drop_append_of_le_length within).symm
  cases built with
  | nil =>
      have none_ : (buffer ++ rest).length = 0 := congrArg List.length same
      rw [List.length_append] at none_
      omega
  | @cons call part calls parts one tail =>
      have front := parser.stable part parts.flatten _ (encodes one)
      rw [List.flatten_cons] at same
      rw [same, front] at whole
      cases whole
      refine ⟨call.sent, calls.map FrameMux.sent, rfl, rfl, calls, parts, tail, ?_, rfl⟩
      rw [behind, same, List.drop_left]

theorem Carries.uplink {used : Nat} {read : Option UplinkFrame}
    (carried : Carries (buffer ++ rest) frames)
    (taken : parseMuxUplink buffer = some (used, read)) :
    ∃ first later, frames = first :: later ∧ read = some first ∧
      Carries (buffer.drop used ++ rest) later :=
  @Carries.read _ _ _ _ uplinkParser some _ _ (fun built => (frame_encodes built).1) carried taken

theorem Carries.downlink {used : Nat} {datagram : Option (UInt32 × Bytes)}
    (carried : Carries (buffer ++ rest) frames)
    (taken : (parseMuxFrame buffer).taken = some (used, datagram)) :
    ∃ first later, frames = first :: later ∧ datagram = some (first.sid, first.payload) ∧
      Carries (buffer.drop used ++ rest) later :=
  @Carries.read _ _ _ _ downlinkParser (fun sent => some (sent.sid, sent.payload)) _ _
    (fun built => (frame_encodes built).2) carried taken

end Ways

section Batches
variable {frame : Bytes → Option Bytes} {batch pkt : Bytes} {queue rest : List Bytes} {more : Nat}

theorem coalesce_more : coalesce frame (more + 1) batch (pkt :: rest) =
    if batch.length < coalesceCap then coalesce frame more (batch ++ (frame pkt).getD []) rest
    else (batch, pkt :: rest) := rfl

theorem coalesce_eq (frame : Bytes → Option Bytes) (more : Nat) (batch : Bytes)
    (queue : List Bytes) : ∃ taken, queue = taken ++ (coalesce frame more batch queue).2 ∧
      (coalesce frame more batch queue).1 = batch ++ (taken.filterMap frame).flatten := by
  induction more generalizing batch queue with
  | zero => exact ⟨[], rfl, (List.append_nil batch).symm⟩
  | succ more ih =>
      cases queue with
      | nil => exact ⟨[], rfl, (List.append_nil batch).symm⟩
      | cons pkt rest =>
          rw [coalesce_more]
          split
          · obtain ⟨taken, stood, grown⟩ := ih (batch ++ (frame pkt).getD []) rest
            refine ⟨pkt :: taken, congrArg (pkt :: ·) stood, ?_⟩
            rw [grown, List.filterMap_cons, List.append_assoc]
            cases frame pkt with
            | none => rfl
            | some part => rfl
          · exact ⟨[], rfl, (List.append_nil batch).symm⟩

namespace Flow
variable {flow : Flow}

def call (flow : Flow) (pkt : Bytes) : FrameMux :=
  match flow.target with
  | .domain d => .domain flow.sid d flow.port pkt
  | .ip ip => .ipv4 flow.sid ip flow.port pkt

theorem mkFrame_eq (pkt : Bytes) : flow.mkFrame pkt = (flow.call pkt).frame := by
  unfold mkFrame call
  cases flow.target with
  | domain name => rfl
  | ip addr => rfl

theorem sent_call (pkt : Bytes) : (flow.call pkt).sent = flow.datagram pkt := by
  unfold datagram call
  cases flow.target with
  | domain name => rfl
  | ip addr => rfl

theorem carries_frames (flow : Flow) (taken : List Bytes) :
    ∃ kept : List Bytes, kept.Sublist taken ∧
    Carries (taken.filterMap flow.mkFrame).flatten (kept.map flow.datagram) := by
  induction taken with
  | nil => exact ⟨[], .slnil, carries_nil⟩
  | cons pkt rest ih =>
      obtain ⟨kept, inside, carried⟩ := ih
      cases built : flow.mkFrame pkt with
      | none =>
          refine ⟨kept, inside.cons pkt, ?_⟩
          rwa [List.filterMap_cons_none built]
      | some part =>
          refine ⟨pkt :: kept, inside.cons_cons pkt, ?_⟩
          rw [List.filterMap_cons_some built, List.map_cons, ← sent_call pkt]
          exact (Carries.one ((mkFrame_eq pkt).symm.trans built)).append carried

theorem carries_batch {pkt batch : Bytes} (built : flow.mkFrame pkt = some batch)
    (more : Nat) (rest : List Bytes) : ∃ kept : List Bytes,
      (kept ++ (coalesce flow.mkFrame more batch rest).2).Sublist (pkt :: rest) ∧
        Carries (coalesce flow.mkFrame more batch rest).1 (kept.map flow.datagram) := by
  obtain ⟨taken, stood, grown⟩ := coalesce_eq flow.mkFrame more batch rest
  obtain ⟨kept, inside, carried⟩ := flow.carries_frames (pkt :: taken)
  rw [List.filterMap_cons_some built] at carried
  refine ⟨kept, ?_, ?_⟩
  · have whole := inside.append_right (coalesce flow.mkFrame more batch rest).2
    rwa [List.cons_append, ← stood] at whole
  · rwa [grown]

end Flow

end Batches

section Keys

def Flow.key (flow : Flow) : UInt32 × String × UInt16 :=
  (flow.sid, flow.target.target.text, flow.port)

def SidEgress.key (egress : SidEgress) : UInt32 × String × UInt16 :=
  (egress.sid, egress.host, egress.port)

def keyOf (frame : UplinkFrame) : UInt32 × String × UInt16 :=
  (frame.sid, frame.target, frame.port)

def Owned (tasks : List Flow) (key : UInt32 × String × UInt16) : Prop :=
  ∃ (task : Nat) (flow : Flow), tasks[task]? = some flow ∧ flow.key = key

def Distinct (tasks : List Flow) : Prop :=
  ∀ ⦃first second : Nat⦄ ⦃flow other : Flow⦄, tasks[first]? = some flow →
    tasks[second]? = some other → flow.sid = other.sid → first = second

variable {tasks : List Flow} {flow moved : Flow} {task : Nat}
  {key other : UInt32 × String × UInt16}

theorem Owned.same (distinct : Distinct tasks) (first : Owned tasks key)
    (second : Owned tasks other) (sid : key.1 = other.1) : key = other := by
  obtain ⟨task, flow, here, rfl⟩ := first
  obtain ⟨task', flow', there, rfl⟩ := second
  obtain rfl := distinct here there sid
  cases here.symm.trans there
  rfl

theorem Owned.set (owned : Owned tasks key) (here : tasks[task]? = some flow)
    (same : moved.key = flow.key) : Owned (tasks.set task moved) key := by
  obtain ⟨other, found, there, rfl⟩ := owned
  by_cases equal : task = other
  · subst equal
    cases here.symm.trans there
    exact ⟨task, moved, List.getElem?_set_self (List.getElem?_eq_some_iff.mp here).1, same⟩
  · exact ⟨other, found, (List.getElem?_set_ne equal).trans there, rfl⟩

theorem Owned.append (owned : Owned tasks key) (new : Flow) : Owned (tasks ++ [new]) key := by
  obtain ⟨other, found, there, rfl⟩ := owned
  have inside := (List.getElem?_eq_some_iff.mp there).1
  exact ⟨other, found, (List.getElem?_append_left inside).trans there, rfl⟩

end Keys

section Lines

def payloads (sid : UInt32) (line : List UplinkFrame) : List Bytes :=
  (line.filter fun datagram => datagram.sid = sid).map UplinkFrame.payload

variable {tasks : List Flow} {flow moved new : Flow} {task : Nat} {sid : UInt32}
  {line frames later received : List UplinkFrame} {datagram : UplinkFrame}

theorem payloads_append (sid : UInt32) (line later : List UplinkFrame) :
    payloads sid (line ++ later) = payloads sid line ++ payloads sid later := by
  simp only [payloads, List.filter_append, List.map_append]

theorem payloads_mono (inside : line.Sublist later) :
    (payloads sid line).Sublist (payloads sid later) :=
  (inside.filter _).map _

theorem payloads_none (apart : ∀ datagram ∈ line, datagram.sid ≠ sid) : payloads sid line = [] := by
  have none_ : line.filter (fun datagram => datagram.sid = sid) = [] := by
    apply List.filter_eq_nil_iff.mpr
    intro datagram member
    rw [decide_eq_true_iff]
    exact apart datagram member
  rw [payloads, none_]
  rfl

theorem payloads_cons_self (same : datagram.sid = sid) :
    payloads sid (datagram :: line) = datagram.payload :: payloads sid line := by
  unfold payloads
  rw [List.filter_cons_of_pos (by exact decide_eq_true same), List.map_cons]

theorem payloads_own (kept : List Bytes) :
    payloads flow.sid (kept.map flow.datagram) = kept := by
  induction kept with
  | nil => rfl
  | cons pkt rest ih =>
      have first : (flow.datagram pkt).sid = flow.sid := rfl
      rw [List.map_cons, payloads_cons_self first, ih]
      rfl

/-- What has been taken from the flows on its way to the targets. -/
structure Line (tasks : List Flow) (line : List UplinkFrame) : Prop where
  owned : ∀ datagram ∈ line, Owned tasks (keyOf datagram)
  order : ∀ (task : Nat) (flow : Flow), tasks[task]? = some flow →
    (payloads flow.sid line ++ flow.rx).Sublist flow.pushed

theorem Line.sublist (whole : Line tasks later) (inside : line.Sublist later) :
    Line tasks line := by
  refine ⟨fun datagram member => whole.owned datagram (inside.subset member), ?_⟩
  intro task flow here
  exact ((payloads_mono inside).append_right flow.rx).trans (whole.order task flow here)

/-- A flow moves and puts packets on the line. -/
theorem Line.change (whole : Line tasks line) (distinct : Distinct tasks)
    (here : tasks[task]? = some flow) (same : moved.key = flow.key) (kept : List Bytes)
    (order : ∀ before, (before ++ flow.rx).Sublist flow.pushed →
      (before ++ (kept ++ moved.rx)).Sublist moved.pushed) :
    Line (tasks.set task moved) (line ++ kept.map flow.datagram) := by
  have sid : moved.sid = flow.sid := congrArg Prod.fst same
  constructor
  · intro datagram member
    rcases List.mem_append.mp member with old | fresh
    · exact (whole.owned datagram old).set here same
    · obtain ⟨pkt, -, rfl⟩ := List.mem_map.mp fresh
      have mine : Owned tasks (keyOf (flow.datagram pkt)) := ⟨task, flow, here, rfl⟩
      exact mine.set here same
  · intro other found there
    rcases getElem?_set_cases there with ⟨rfl, rfl⟩ | ⟨apart, old⟩
    · rw [sid, payloads_append, payloads_own, List.append_assoc]
      exact order _ (whole.order other flow here)
    · -- Another flow has another id, so nothing new on the line is its own.
      have none_ : payloads found.sid (kept.map flow.datagram) = [] := by
        apply payloads_none
        intro datagram member equal
        obtain ⟨pkt, -, rfl⟩ := List.mem_map.mp member
        exact apart (distinct old here equal.symm)
      rw [payloads_append, none_, List.append_nil]
      exact whole.order other found old

theorem Line.stay (whole : Line tasks line) (distinct : Distinct tasks)
    (here : tasks[task]? = some flow) (same : moved.key = flow.key)
    (order : ∀ before, (before ++ flow.rx).Sublist flow.pushed →
      (before ++ moved.rx).Sublist moved.pushed) : Line (tasks.set task moved) line := by
  have moved_ := whole.change distinct here same [] order
  rwa [List.map_nil, List.append_nil] at moved_

theorem Line.enter (whole : Line tasks line) (distinct : Distinct (tasks ++ [new]))
    (empty : new.rx = []) : Line (tasks ++ [new]) line := by
  refine ⟨fun datagram member => (whole.owned datagram member).append new, ?_⟩
  intro other found there
  rcases getElem?_append_one_cases there with ⟨rfl, rfl⟩ | old
  · have none_ : payloads found.sid line = [] := by
      apply payloads_none
      intro datagram member equal
      obtain ⟨task, flow, known, same⟩ := whole.owned datagram member
      have inside := (List.getElem?_eq_some_iff.mp known).1
      have sids : flow.sid = found.sid := (congrArg Prod.fst same).trans equal
      have index := distinct ((List.getElem?_append_left inside).trans known) there sids
      exact inside.ne index
    rw [none_, empty]
    exact List.nil_sublist _
  · exact whole.order other found old

/-- What has been read from the targets on its way to the flows. -/
structure Back (tasks : List Flow) (frames received : List UplinkFrame) : Prop where
  owned : ∀ datagram ∈ received, Owned tasks (keyOf datagram)
  every : ∀ sid, (payloads sid frames).Sublist (payloads sid received)
  order : ∀ (task : Nat) (flow : Flow), tasks[task]? = some flow →
    (flow.replied ++ payloads flow.sid frames).Sublist (payloads flow.sid received)

theorem Back.read (back : Back tasks frames received) (known : Owned tasks (keyOf datagram))
    (same : ∀ sid, (payloads sid later).Sublist (payloads sid [datagram])) :
    Back tasks (frames ++ later) (received ++ [datagram]) := by
  refine ⟨?_, ?_, ?_⟩
  · intro other member
    rcases List.mem_append.mp member with old | new
    · exact back.owned other old
    · cases List.mem_singleton.mp new
      exact known
  · intro sid
    rw [payloads_append, payloads_append]
    exact (back.every sid).append (same sid)
  · intro task flow here
    rw [payloads_append, payloads_append, ← List.append_assoc]
    exact (back.order task flow here).append (same flow.sid)

theorem Back.skip (back : Back tasks (datagram :: frames) received) :
    Back tasks frames received := by
  have inside : ∀ sid, (payloads sid frames).Sublist (payloads sid (datagram :: frames)) :=
    fun sid => payloads_mono (List.sublist_cons_self datagram frames)
  refine ⟨back.owned, fun sid => (inside sid).trans (back.every sid), ?_⟩
  intro task flow here
  exact ((inside flow.sid).append_left flow.replied).trans (back.order task flow here)

theorem Back.deliver (back : Back tasks (datagram :: frames) received)
    (here : tasks[task]? = some flow) (same : flow.sid = datagram.sid) :
    Back (tasks.set task (flow.reply datagram.payload)) frames received := by
  refine ⟨fun other member => (back.owned other member).set here rfl, back.skip.every, ?_⟩
  intro other found there
  rcases getElem?_set_cases there with ⟨rfl, rfl⟩ | ⟨-, old⟩
  · have next := back.order other flow here
    rw [payloads_cons_self same.symm] at next
    rwa [Flow.reply, List.append_assoc, List.singleton_append]
  · exact back.skip.order other found old

theorem Back.stay (back : Back tasks frames received) (here : tasks[task]? = some flow)
    (same : moved.key = flow.key) (replied : moved.replied = flow.replied) :
    Back (tasks.set task moved) frames received := by
  refine ⟨fun other member => (back.owned other member).set here same, back.every, ?_⟩
  intro other found there
  rcases getElem?_set_cases there with ⟨rfl, rfl⟩ | ⟨-, old⟩
  · have sid : found.sid = flow.sid := congrArg Prod.fst same
    rw [replied, sid]
    exact back.order other flow here
  · exact back.order other found old

theorem Back.enter (back : Back tasks frames received) (empty : new.replied = []) :
    Back (tasks ++ [new]) frames received := by
  refine ⟨fun other member => (back.owned other member).append new, back.every, ?_⟩
  intro other found there
  rcases getElem?_append_one_cases there with ⟨rfl, rfl⟩ | old
  · rw [empty]
    exact back.every found.sid
  · exact back.order other found old

end Lines

section Numbers

/-- The ids go to the flows in order, and the table of the client holds flows. -/
structure Numbered (tasks : List Flow) (nextSid : UInt32) (flows : List (UInt32 × Nat)) :
    Prop where
  next : nextSid = UInt32.ofNat (tasks.length + 1)
  sids : ∀ (task : Nat) (flow : Flow), tasks[task]? = some flow →
    flow.sid = UInt32.ofNat (task + 1)
  held : ∀ sid task, (sid, task) ∈ flows → ∃ flow, tasks[task]? = some flow ∧ flow.sid = sid
  few : flows.length ≤ maxSids

variable {tasks : List Flow} {flow moved new : Flow} {task : Nat} {nextSid : UInt32}
  {flows : List (UInt32 × Nat)}

theorem Numbered.distinct (numbered : Numbered tasks nextSid flows)
    (few : tasks.length ≤ 2 ^ 32) : Distinct tasks := by
  intro first second flow other here there same
  rw [numbered.sids first flow here, numbered.sids second other there] at same
  have inside := (List.getElem?_eq_some_iff.mp here).1
  have inside' := (List.getElem?_eq_some_iff.mp there).1
  have equal := congrArg UInt32.toNat same
  rw [UInt32.toNat_ofNat', UInt32.toNat_ofNat'] at equal
  omega

theorem Numbered.set (numbered : Numbered tasks nextSid flows) (here : tasks[task]? = some flow)
    (same : moved.sid = flow.sid) : Numbered (tasks.set task moved) nextSid flows := by
  refine ⟨?_, ?_, ?_, numbered.few⟩
  · rw [List.length_set]
    exact numbered.next
  · intro other found there
    rcases getElem?_set_cases there with ⟨rfl, rfl⟩ | ⟨-, old⟩
    · rw [same]
      exact numbered.sids other flow here
    · exact numbered.sids other found old
  · intro sid other member
    obtain ⟨found, there, known⟩ := numbered.held sid other member
    by_cases equal : task = other
    · subst equal
      cases here.symm.trans there
      refine ⟨moved, ?_, same.trans known⟩
      exact List.getElem?_set_self (List.getElem?_eq_some_iff.mp here).1
    · exact ⟨found, (List.getElem?_set_ne equal).trans there, known⟩

theorem Numbered.enter (numbered : Numbered tasks nextSid flows) (same : new.sid = nextSid) :
    Numbered (tasks ++ [new]) (nextSid + 1) flows := by
  refine ⟨?_, ?_, ?_, numbered.few⟩
  · rw [List.length_append, List.length_singleton, numbered.next]
    exact (UInt32.ofNat_add _ 1).symm
  · intro other found there
    rcases getElem?_append_one_cases there with ⟨rfl, rfl⟩ | old
    · exact same.trans numbered.next
    · exact numbered.sids other found old
  · intro sid other member
    obtain ⟨found, there, known⟩ := numbered.held sid other member
    have inside := (List.getElem?_eq_some_iff.mp there).1
    exact ⟨found, (List.getElem?_append_left inside).trans there, known⟩

theorem Numbered.register (numbered : Numbered tasks nextSid flows)
    (here : tasks[task]? = some flow) (room : flows.length < maxSids) :
    Numbered tasks nextSid (put flows flow.sid task) := by
  refine ⟨numbered.next, numbered.sids, ?_, length_put_le.trans room⟩
  intro sid other member
  rcases List.mem_append.mp member with old | fresh
  · exact numbered.held sid other (List.mem_filter.mp old).1
  · cases List.mem_singleton.mp fresh
    exact ⟨flow, here, rfl⟩

theorem Numbered.unregister (numbered : Numbered tasks nextSid flows) (sid : UInt32) :
    Numbered tasks nextSid (erase flows sid) := by
  refine ⟨numbered.next, numbered.sids, ?_, length_erase_le.trans numbered.few⟩
  intro other task member
  exact numbered.held other task (List.mem_filter.mp member).1

end Numbers

section Sessions

namespace Job

def frames : Job → List UplinkFrame
  | .counting uf | .opening uf | .spawned uf _ | .sending _ uf => [uf]
  | .reading | .over_ => []

def missing : Job → Option UplinkFrame
  | .counting uf | .opening uf | .spawned uf _ => some uf
  | _ => none

def making : Job → Option UplinkFrame
  | .opening uf | .spawned uf _ => some uf
  | _ => none

def chosen : Job → Option (Nat × UplinkFrame)
  | .spawned uf egress | .sending egress uf => some (egress, uf)
  | _ => none

def spawnedAt : Job → Option Nat
  | .spawned _ egress => some egress
  | _ => none

end Job

def SidEgress.Alive (self : SidEgress) : Prop := self.pump = .running ∨ self.pump = .leaving

/-- The sessions and the tasks that read their sockets. A session whose task is
gone is one whose task was gone before it came into the table. -/
structure Table (sessions : List (UInt32 × Nat)) (egresses : List SidEgress) (job : Job) :
    Prop where
  unique : UniqueKeys sessions
  few : sessions.length ≤ maxSids
  room : ∀ uf, job.making = some uf → sessions.length < maxSids
  absent : ∀ uf, job.missing = some uf → sessions.lookup uf.sid = none
  chosen : ∀ egress uf, job.chosen = some (egress, uf) →
    ∃ found, egresses[egress]? = some found ∧ found.key = keyOf uf
  entries : ∀ sid egress, (sid, egress) ∈ sessions →
    ∃ found, egresses[egress]? = some found ∧ found.sid = sid ∧
      (found.Alive ∨ found.early = true)
  live : ∀ (egress : Nat) (found : SidEgress), egresses[egress]? = some found → found.Alive →
    (found.sid, egress) ∈ sessions ∨ job.spawnedAt = some egress ∨ job = .over_
  cleared : job = .over_ → sessions = []

variable {sessions : List (UInt32 × Nat)} {egresses : List SidEgress} {job next : Job}
  {found : SidEgress} {egress other : Nat} {uf : UplinkFrame}

namespace Table

/-- The session of a task that is still there is its own. -/
theorem sole (table : Table sessions egresses job) (here : egresses[egress]? = some found)
    (alive : found.Alive) (held : sessions.lookup found.sid = some other) : other = egress := by
  have member := mem_of_lookup held
  rcases table.live egress found here alive with mine | spawned | over_
  · exact table.unique.same member mine
  · cases job with
    | spawned uf taken =>
        -- Only the read loop inserts, and it found no session under the id.
        cases spawned
        obtain ⟨known, there, key⟩ := table.chosen egress uf rfl
        cases here.symm.trans there
        have sid : found.sid = uf.sid := congrArg Prod.fst key
        have none_ := table.absent uf rfl
        rw [← sid, held] at none_
        cases none_
    | _ => cases spawned
  · rw [table.cleared over_] at member
    cases member

theorem goTo (table : Table sessions egresses job)
    (room : ∀ uf, next.making = some uf → sessions.length < maxSids)
    (absent : ∀ uf, next.missing = some uf → sessions.lookup uf.sid = none)
    (chosen : ∀ egress uf, next.chosen = some (egress, uf) →
      ∃ found, egresses[egress]? = some found ∧ found.key = keyOf uf)
    (settled : job.spawnedAt = none) (goes : job ≠ .over_) (goes_on : next ≠ .over_) :
    Table sessions egresses next := by
  refine ⟨table.unique, table.few, room, absent, chosen, table.entries, ?_,
    fun over_ => absurd over_ goes_on⟩
  intro egress found here alive
  rcases table.live egress found here alive with mine | spawned | over_
  · exact Or.inl mine
  · rw [settled] at spawned
    cases spawned
  · exact absurd over_ goes

theorem opened (table : Table sessions egresses (.opening uf)) (addr : SocketAddr) :
    Table sessions (egresses ++ [⟨uf.sid, uf.target, uf.port, addr, .running, false⟩])
      (.spawned uf egresses.length) := by
  refine ⟨table.unique, table.few, ?_, ?_, ?_, ?_, ?_, nofun⟩
  · intro same made
    exact table.room uf rfl
  · intro same missed
    cases missed
    exact table.absent uf rfl
  · intro egress same taken
    cases taken
    exact ⟨_, List.getElem?_concat_length, rfl⟩
  · intro sid egress member
    obtain ⟨found, here, known⟩ := table.entries sid egress member
    have inside := (List.getElem?_eq_some_iff.mp here).1
    exact ⟨found, (List.getElem?_append_left inside).trans here, known⟩
  · intro egress found here alive
    rcases getElem?_append_one_cases here with ⟨rfl, -⟩ | old
    · exact Or.inr (Or.inl rfl)
    · rcases table.live egress found old alive with mine | spawned | over_
      · exact Or.inl mine
      · cases spawned
      · cases over_

theorem insert (table : Table sessions egresses (.spawned uf egress)) :
    Table (put sessions uf.sid egress) (egresses.modify egress SidEgress.settle)
      (.sending egress uf) := by
  obtain ⟨known, there, key⟩ := table.chosen egress uf rfl
  have sid : known.sid = uf.sid := congrArg Prod.fst key
  have settled : (egresses.modify egress SidEgress.settle)[egress]? = some known.settle := by
    rw [List.getElem?_modify_eq, there]
    rfl
  have absent := table.absent uf rfl
  refine ⟨table.unique.put uf.sid egress, ?_, nofun, nofun, ?_, ?_, ?_, nofun⟩
  · exact length_put_le.trans (table.room uf rfl)
  · intro taken same chosen
    cases chosen
    exact ⟨known.settle, settled, key⟩
  · intro other taken member
    rcases List.mem_append.mp member with old | fresh
    · obtain ⟨inside, apart⟩ := List.mem_filter.mp old
      obtain ⟨found, here, same, alive⟩ := table.entries other taken inside
      have elsewhere : egress ≠ taken := by
        rintro rfl
        cases there.symm.trans here
        exact of_decide_eq_true apart (same.symm.trans sid)
      exact ⟨found, (List.getElem?_modify_ne _ _ elsewhere).trans here, same, alive⟩
    · cases List.mem_singleton.mp fresh
      refine ⟨known.settle, settled, sid, ?_⟩
      -- The task may have come and gone before its session got here.
      by_cases alive : known.Alive
      · exact Or.inl alive
      · exact Or.inr (decide_eq_true (not_or.mp alive))
  · intro taken found here alive
    by_cases same : egress = taken
    · subst same
      cases settled.symm.trans here
      refine Or.inl (List.mem_append_right _ ?_)
      exact List.mem_singleton.mpr (congrArg (·, egress) sid)
    · rw [List.getElem?_modify_ne _ _ same] at here
      rcases table.live taken found here alive with mine | spawned | over_
      · refine Or.inl (List.mem_append_left _ (List.mem_filter.mpr ⟨mine, ?_⟩))
        apply decide_eq_true
        intro equal
        exact not_mem_of_lookup absent taken (equal ▸ mine)
      · cases spawned
        exact absurd rfl same
      · cases over_

theorem leave (table : Table sessions egresses job) (here : egresses[egress]? = some found)
    (running : found.pump = .running) :
    Table sessions (egresses.set egress (found.setPump .leaving)) job := by
  have changed : (egresses.set egress (found.setPump .leaving))[egress]? =
      some (found.setPump .leaving) :=
    List.getElem?_set_self (List.getElem?_eq_some_iff.mp here).1
  refine ⟨table.unique, table.few, table.room, table.absent, ?_, ?_, ?_, table.cleared⟩
  · intro taken uf chosen
    obtain ⟨known, there, key⟩ := table.chosen taken uf chosen
    by_cases same : egress = taken
    · subst same
      cases here.symm.trans there
      exact ⟨_, changed, key⟩
    · exact ⟨known, (List.getElem?_set_ne same).trans there, key⟩
  · intro sid taken member
    obtain ⟨known, there, sid_, alive⟩ := table.entries sid taken member
    by_cases same : egress = taken
    · subst same
      cases here.symm.trans there
      exact ⟨_, changed, sid_, Or.inl (Or.inr rfl)⟩
    · exact ⟨known, (List.getElem?_set_ne same).trans there, sid_, alive⟩
  · intro taken known there alive
    rcases getElem?_set_cases there with ⟨rfl, rfl⟩ | ⟨-, old⟩
    · exact table.live taken found here (Or.inl running)
    · exact table.live taken known old alive

theorem remove (table : Table sessions egresses job) (here : egresses[egress]? = some found)
    (leaving : found.pump = .leaving) :
    Table (erase sessions found.sid) (egresses.set egress (found.setPump .ended)) job := by
  have changed : (egresses.set egress (found.setPump .ended))[egress]? =
      some (found.setPump .ended) :=
    List.getElem?_set_self (List.getElem?_eq_some_iff.mp here).1
  refine ⟨table.unique.erase found.sid, length_erase_le.trans table.few, ?_, ?_, ?_, ?_, ?_, ?_⟩
  · intro uf made
    exact Nat.lt_of_le_of_lt length_erase_le (table.room uf made)
  · intro uf missed
    exact lookup_filter_none (table.absent uf missed) _
  · intro taken uf chosen
    obtain ⟨known, there, key⟩ := table.chosen taken uf chosen
    by_cases same : egress = taken
    · subst same
      cases here.symm.trans there
      exact ⟨_, changed, key⟩
    · exact ⟨known, (List.getElem?_set_ne same).trans there, key⟩
  · intro sid taken member
    obtain ⟨inside, apart⟩ := List.mem_filter.mp member
    obtain ⟨known, there, sid_, alive⟩ := table.entries sid taken inside
    have elsewhere : egress ≠ taken := by
      rintro rfl
      cases here.symm.trans there
      exact of_decide_eq_true apart sid_.symm
    exact ⟨known, (List.getElem?_set_ne elsewhere).trans there, sid_, alive⟩
  · intro taken known there alive
    rcases getElem?_set_cases there with ⟨rfl, rfl⟩ | ⟨differs, old⟩
    · rcases alive with running | still
      · cases running
      · cases still
    · rcases table.live taken known old alive with mine | spawned | over_
      · refine Or.inl (List.mem_filter.mpr ⟨mine, decide_eq_true ?_⟩)
        intro (equal : known.sid = found.sid)
        have held := table.unique.lookup_of_mem mine
        rw [equal] at held
        exact differs (table.sole here (Or.inr leaving) held)
      · exact Or.inr (Or.inl spawned)
      · exact Or.inr (Or.inr over_)
  · intro over_
    rw [table.cleared over_]
    rfl

theorem stop (egresses : List SidEgress) : Table [] egresses .over_ :=
  ⟨List.nodup_nil, Nat.zero_le _, nofun, nofun, nofun, nofun, fun _ _ _ _ => Or.inr (Or.inr rfl),
    fun _ => rfl⟩

end Table

end Sessions

section Steps

structure Sound (state : Mux) : Prop where
  numbered : Numbered state.tasks state.nextSid state.flows
  up : ∃ frames, Carries (state.buffer ++ (state.up ++ state.uplink.flatten)) frames ∧
    Line state.tasks (state.sent ++ (state.job.frames ++ frames))
  back : ∃ frames, Carries (state.acc ++ (state.down ++ state.tx.flatten)) frames ∧
    Back state.tasks frames state.received
  owners : ∀ (egress : Nat) (found : SidEgress), state.egresses[egress]? = some found →
    Owned state.tasks found.key
  table : Table state.sessions state.egresses state.job

variable {self next : Mux} {flow moved : Flow} {found : SidEgress} {task egress : Nat}

namespace Sound

theorem allocSid (sound : Sound self) {target : PerFlow.FlowTarget} {port : UInt16}
    (few : (self.allocSid target port).tasks.length ≤ 2 ^ 32) :
    Sound (self.allocSid target port) := by
  have numbered : Numbered (self.allocSid target port).tasks (self.allocSid target port).nextSid
    self.flows := sound.numbered.enter rfl
  have distinct := numbered.distinct few
  obtain ⟨frames, carried, line⟩ := sound.up
  obtain ⟨replies, returning, back⟩ := sound.back
  refine ⟨numbered, ⟨frames, carried, line.enter distinct rfl⟩,
    ⟨replies, returning, back.enter rfl⟩, ?_, sound.table⟩
  intro egress found here
  exact (sound.owners egress found here).append _

theorem owners_set (sound : Sound self) (here : self.tasks[task]? = some flow)
    (same : moved.key = flow.key) (egress : Nat) (found : SidEgress)
    (there : self.egresses[egress]? = some found) : Owned (self.tasks.set task moved) found.key :=
  (sound.owners egress found there).set here same

theorem up_set (sound : Sound self) (distinct : Distinct self.tasks)
    (here : self.tasks[task]? = some flow) (same : moved.key = flow.key)
    (order : ∀ before, (before ++ flow.rx).Sublist flow.pushed →
      (before ++ moved.rx).Sublist moved.pushed) :
    ∃ frames, Carries (self.buffer ++ (self.up ++ self.uplink.flatten)) frames ∧
      Line (self.tasks.set task moved) (self.sent ++ (self.job.frames ++ frames)) := by
  obtain ⟨frames, carried, line⟩ := sound.up
  exact ⟨frames, carried, line.stay distinct here same order⟩

theorem setFlow (sound : Sound self) (distinct : Distinct self.tasks)
    (here : self.tasks[task]? = some flow) (same : moved.key = flow.key)
    (replied : moved.replied = flow.replied)
    (order : ∀ before, (before ++ flow.rx).Sublist flow.pushed →
      (before ++ moved.rx).Sublist moved.pushed) : Sound (self.setFlow task moved) := by
  obtain ⟨replies, returning, back⟩ := sound.back
  exact ⟨sound.numbered.set here (congrArg Prod.fst same),
    sound.up_set distinct here same order, ⟨replies, returning, back.stay here same replied⟩,
    sound.owners_set here same, sound.table⟩

theorem tryRegister (sound : Sound self) (distinct : Distinct self.tasks)
    (here : self.tasks[task]? = some flow) : Sound (self.tryRegister task flow) := by
  have kept : ∀ stage, Sound (self.setFlow task (flow.goTo stage)) := fun stage =>
    sound.setFlow distinct here rfl rfl fun _ inside => inside
  unfold Mux.tryRegister
  split
  · exact kept .gone
  · rename_i room
    have entered := kept .registered
    have there : (self.tasks.set task (flow.goTo .registered))[task]? =
        some (flow.goTo .registered) :=
      List.getElem?_set_self (List.getElem?_eq_some_iff.mp here).1
    have registered := entered.numbered.register there (Nat.lt_of_not_le room)
    exact ⟨registered, entered.up, entered.back, entered.owners, entered.table⟩

theorem push (sound : Sound self) (distinct : Distinct self.tasks)
    (here : self.tasks[task]? = some flow) (pkt : Bytes) : Sound (self.push task flow pkt) := by
  unfold Mux.push
  split
  · refine sound.setFlow distinct here rfl rfl ?_
    intro before inside
    rw [Flow.push, ← List.append_assoc]
    exact inside.append_right [pkt]
  · exact sound

theorem pump (sound : Sound self) (distinct : Distinct self.tasks)
    (here : self.tasks[task]? = some flow) {more : Nat}
    (moved : self.pump task flow more = some next) : Sound next := by
  unfold Mux.pump at moved
  cases queue : flow.rx with
  | nil =>
      rw [queue] at moved
      cases moved
  | cons pkt rest =>
      rw [queue] at moved
      cases built : flow.mkFrame pkt with
      | none =>
          simp only [built] at moved
          cases moved
          refine sound.setFlow distinct here rfl rfl ?_
          intro before inside
          rw [queue] at inside
          exact ((List.sublist_cons_self pkt rest).append_left before).trans inside
      | some batch =>
          simp only [built] at moved
          cases moved
          obtain ⟨kept, off, batched⟩ := flow.carries_batch built more rest
          obtain ⟨frames, carried, line⟩ := sound.up
          obtain ⟨replies, returning, back⟩ := sound.back
          refine ⟨sound.numbered.set here rfl, ⟨frames ++ kept.map flow.datagram, ?_, ?_⟩,
            ⟨replies, returning, back.stay here rfl rfl⟩, ?_, sound.table⟩
          · have whole := carried.append batched
            simp only [List.flatten_append, List.flatten_singleton, List.append_assoc] at whole ⊢
            exact whole
          · have key : (flow.leaveQueue (coalesce flow.mkFrame more batch rest).2).key =
              flow.key := rfl
            have longer : Line (self.tasks.set task
                (flow.leaveQueue (coalesce flow.mkFrame more batch rest).2))
                (self.sent ++ (self.job.frames ++ frames) ++ kept.map flow.datagram) := by
              refine line.change distinct here key kept ?_
              intro before inside
              rw [queue] at inside
              exact (off.append_left before).trans inside
            simp only [List.append_assoc] at longer ⊢
            exact longer
          · exact sound.owners_set here rfl

theorem unregister (sound : Sound self) (distinct : Distinct self.tasks)
    (here : self.tasks[task]? = some flow) : Sound (self.unregister task flow) := by
  have kept : Sound (self.setFlow task (flow.goTo .gone)) :=
    sound.setFlow distinct here rfl rfl fun _ inside => inside
  exact ⟨kept.numbered.unregister flow.sid, kept.up, kept.back, kept.owners, kept.table⟩

theorem write (sound : Sound self) {more : Nat} (moved : self.write more = some next) :
    Sound next := by
  unfold Mux.write at moved
  cases queue : self.uplink with
  | nil =>
      rw [queue] at moved
      cases moved
  | cons batch rest =>
      rw [queue] at moved
      cases moved
      obtain ⟨taken, stood, grown⟩ := coalesce_eq some more batch rest
      obtain ⟨frames, carried, line⟩ := sound.up
      refine ⟨sound.numbered, ⟨frames, ?_, line⟩, sound.back, sound.owners, sound.table⟩
      rw [queue] at carried
      have same : (coalesce some more batch rest).1 ++ (coalesce some more batch rest).2.flatten =
          (batch :: rest).flatten := by
        rw [grown, List.filterMap_some, List.append_assoc, ← List.flatten_append, ← stood]
        rfl
      simp only [List.append_assoc, same]
      exact carried

theorem carryUp (sound : Sound self) {n : Nat} (moved : self.carryUp n = some next) :
    Sound next := by
  unfold Mux.carryUp at moved
  split at moved
  · split at moved
    · cases moved
      obtain ⟨frames, carried, line⟩ := sound.up
      refine ⟨sound.numbered, ⟨frames, ?_, line⟩, sound.back, sound.owners, sound.table⟩
      have same : self.up.take n ++ (self.up.drop n ++ self.uplink.flatten) =
          self.up ++ self.uplink.flatten := by
        rw [← List.append_assoc, List.take_append_drop]
      simp only [List.append_assoc, same]
      exact carried
    · cases moved
  · cases moved

theorem stop {frames : List UplinkFrame} (sound : Sound self)
    (carried : Carries (self.buffer ++ (self.up ++ self.uplink.flatten)) frames)
    (line : Line self.tasks (self.sent ++ frames)) : Sound self.stop := by
  refine ⟨sound.numbered, ⟨frames, carried, line⟩, sound.back, ?_, Table.stop _⟩
  intro egress found there
  have mapped : ∃ before, self.egresses[egress]? = some before ∧ found.key = before.key := by
    simp only [Mux.stop, List.getElem?_mapIdx] at there
    obtain ⟨before, known, same⟩ := Option.map_eq_some_iff.mp there
    refine ⟨before, known, ?_⟩
    split at same
    · rw [← same]
      unfold SidEgress.abort
      split
      · rfl
      · rfl
    · rw [← same]
  obtain ⟨before, known, same⟩ := mapped
  rw [same]
  exact sound.owners egress before known

theorem handle (sound : Sound self) (distinct : Distinct self.tasks) {verdict : Verdict}
    (moved : self.handle verdict = some next) : Sound next := by
  unfold Mux.handle at moved
  split at moved
  · rename_i consumed read job taken
    obtain ⟨frames, carried, line⟩ := sound.up
    obtain ⟨first, later, rfl, rfl, left⟩ := carried.uplink taken
    have table := sound.table
    simp only [job] at line table
    have rest : Line self.tasks (self.sent ++ later) :=
      line.sublist ((List.sublist_cons_self first later).append_left self.sent)
    have resting : Line self.tasks (self.sent ++ (self.job.frames ++ later)) := by
      rw [job]
      exact rest
    have owned : Owned self.tasks (keyOf first) :=
      line.owned first (List.mem_append_right _ List.mem_cons_self)
    split at moved
    · rename_i none_
      cases none_
    · cases moved
      exact ⟨sound.numbered, ⟨later, left, resting⟩, sound.back, sound.owners, sound.table⟩
    · cases moved
      have skipped : Sound { self with buffer := self.buffer.drop consumed } :=
        ⟨sound.numbered, ⟨later, left, resting⟩, sound.back, sound.owners, sound.table⟩
      exact skipped.stop left rest
    · rename_i uf same
      cases same
      dsimp only at moved
      split at moved
      · rename_i egress held
        cases moved
        obtain ⟨found, here, sid, -⟩ := table.entries _ _ (mem_of_lookup held)
        -- One id stands for one flow, so the session leads to the datagram's target.
        have key := (sound.owners egress found here).same distinct owned sid
        refine ⟨sound.numbered, ⟨later, left, line⟩, sound.back, sound.owners,
          table.goTo nofun nofun ?_ rfl nofun nofun⟩
        intro taken uf chosen
        cases chosen
        exact ⟨found, here, key⟩
      · rename_i missing
        cases moved
        refine ⟨sound.numbered, ⟨later, left, line⟩, sound.back, sound.owners,
          table.goTo nofun ?_ nofun rfl nofun nofun⟩
        intro uf missed
        cases missed
        exact missing
  · cases moved

theorem count (sound : Sound self) (moved : self.count = some next) : Sound next := by
  unfold Mux.count at moved
  split at moved
  · rename_i uf job
    obtain ⟨frames, carried, line⟩ := sound.up
    have table := sound.table
    simp only [job] at line table
    have rest : Line self.tasks (self.sent ++ frames) :=
      line.sublist ((List.sublist_cons_self uf frames).append_left self.sent)
    split at moved
    · cases moved
      exact ⟨sound.numbered, ⟨frames, carried, rest⟩, sound.back, sound.owners,
        table.goTo nofun nofun nofun rfl nofun nofun⟩
    · rename_i room
      cases moved
      refine ⟨sound.numbered, ⟨frames, carried, line⟩, sound.back, sound.owners,
        table.goTo ?_ ?_ nofun rfl nofun nofun⟩
      · exact fun _ _ => Nat.lt_of_not_le room
      · intro same missed
        cases missed
        exact table.absent uf rfl
  · cases moved

theorem opened (sound : Sound self) {addr : Option SocketAddr}
    (moved : self.opened addr = some next) : Sound next := by
  unfold Mux.opened at moved
  obtain ⟨frames, carried, line⟩ := sound.up
  have table := sound.table
  split at moved
  · rename_i uf job
    cases moved
    simp only [job] at line table
    have rest : Line self.tasks (self.sent ++ frames) :=
      line.sublist ((List.sublist_cons_self uf frames).append_left self.sent)
    exact ⟨sound.numbered, ⟨frames, carried, rest⟩, sound.back, sound.owners,
      table.goTo nofun nofun nofun rfl nofun nofun⟩
  · rename_i uf addr job
    cases moved
    simp only [job] at line table
    refine ⟨sound.numbered, ⟨frames, carried, line⟩, sound.back, ?_, table.opened addr⟩
    intro egress found here
    rcases getElem?_append_one_cases here with ⟨-, rfl⟩ | old
    · exact line.owned uf (List.mem_append_right _ List.mem_cons_self)
    · exact sound.owners egress found old
  · cases moved

theorem insert (sound : Sound self) (moved : self.insert = some next) : Sound next := by
  unfold Mux.insert at moved
  split at moved
  · rename_i uf egress job
    obtain ⟨frames, carried, line⟩ := sound.up
    have table := sound.table
    simp only [job] at line table
    simp only [table.absent uf rfl, Option.elim_none] at moved
    cases moved
    refine ⟨sound.numbered, ⟨frames, carried, line⟩, sound.back, ?_, table.insert⟩
    intro taken found here
    by_cases same : egress = taken
    · subst same
      rw [List.getElem?_modify_eq] at here
      obtain ⟨before, known, rfl⟩ := Option.map_eq_some_iff.mp here
      exact sound.owners egress before known
    · rw [List.getElem?_modify_ne _ _ same] at here
      exact sound.owners taken found here
  · cases moved

theorem send (sound : Sound self) {done : Bool} (moved : self.send done = some next) :
    Sound next := by
  unfold Mux.send at moved
  split at moved
  · rename_i egress uf job
    obtain ⟨found, here, rfl⟩ := Option.map_eq_some_iff.mp moved
    obtain ⟨frames, carried, line⟩ := sound.up
    have table := sound.table
    simp only [job] at line table
    obtain ⟨known, there, key⟩ := table.chosen egress uf rfl
    cases here.symm.trans there
    have same : found.datagram uf.payload = uf := by
      cases uf
      simp only [SidEgress.key, keyOf, Prod.mk.injEq] at key
      simp only [SidEgress.datagram, key]
    refine ⟨sound.numbered, ⟨frames, carried, ?_⟩, sound.back, sound.owners,
      table.goTo nofun nofun nofun rfl nofun nofun⟩
    cases done with
    | true =>
        simp only [same, reduceIte, List.append_assoc]
        exact line
    | false =>
        exact line.sublist ((List.sublist_cons_self uf frames).append_left self.sent)
  · cases moved

theorem recv (sound : Sound self) (here : self.egresses[egress]? = some found) {pkt : Bytes}
    {pass : Bool} (moved : self.recv found pkt pass = some next) : Sound next := by
  unfold Mux.recv at moved
  split at moved
  · cases moved
    obtain ⟨replies, returning, back⟩ := sound.back
    have owned : Owned self.tasks (keyOf (found.datagram pkt)) := sound.owners egress found here
    -- What the bucket or the length stops is read and goes no further.
    have quiet : Back self.tasks replies (self.received ++ [found.datagram pkt]) := by
      have none_ : ∀ sid, (payloads sid []).Sublist (payloads sid [found.datagram pkt]) :=
        fun _ => List.nil_sublist _
      have more := back.read owned none_
      rwa [List.append_nil] at more
    refine ⟨sound.numbered, sound.up, ?_, sound.owners, sound.table⟩
    cases pass with
    | false => exact ⟨replies, returning, quiet⟩
    | true =>
        cases built : frameMuxAddr found.sid found.addr pkt with
        | none =>
            refine ⟨replies, ?_, quiet⟩
            simpa only [reduceIte, Option.toList_none, List.append_nil, built] using returning
        | some frame =>
            have one := Carries.one (show (FrameMux.addr found.sid found.addr pkt).frame =
              some frame from built)
            refine ⟨replies ++ [(FrameMux.addr found.sid found.addr pkt).sent], ?_,
              back.read owned ?_⟩
            · have whole := returning.append one
              simpa only [reduceIte, Option.toList_some, built, List.flatten_append,
                List.flatten_singleton, List.append_assoc] using whole
            · intro sid
              by_cases same : found.sid = sid
              · rw [payloads_cons_self same, payloads_cons_self same]
                exact List.Sublist.refl _
              · rw [payloads_none]
                · exact List.nil_sublist _
                · intro datagram member
                  cases List.mem_singleton.mp member
                  exact same
  · cases moved

theorem owners_setPump (sound : Sound self) (here : self.egresses[egress]? = some found)
    (pump : Pump) (other : Nat) (known : SidEgress)
    (there : (self.egresses.set egress (found.setPump pump))[other]? = some known) :
    Owned self.tasks known.key := by
  rcases getElem?_set_cases there with ⟨rfl, rfl⟩ | ⟨-, old⟩
  · exact sound.owners other found here
  · exact sound.owners other known old

theorem leave (sound : Sound self) (here : self.egresses[egress]? = some found)
    (moved : self.leave egress found = some next) : Sound next := by
  unfold Mux.leave at moved
  split at moved
  · rename_i running
    cases moved
    exact ⟨sound.numbered, sound.up, sound.back, sound.owners_setPump here .leaving,
      sound.table.leave here running⟩
  · cases moved

/-- A task that goes takes its own session along, and no other one. -/
theorem remove (sound : Sound self) (here : self.egresses[egress]? = some found)
    (moved : self.remove egress found = some next) : Sound next := by
  unfold Mux.remove at moved
  split at moved
  · rename_i leaving
    have table := sound.table.remove here leaving
    have owners := sound.owners_setPump here .ended
    have own : ((self.setEgress egress (found.setPump .ended)).sessions.lookup found.sid).elim
        (self.setEgress egress (found.setPump .ended))
          (self.setEgress egress (found.setPump .ended)).abort =
            self.setEgress egress (found.setPump .ended) := by
      change (self.sessions.lookup found.sid).elim _ _ = _
      cases held : self.sessions.lookup found.sid with
      | none => rfl
      | some other =>
          -- The session is the task's own, and a task past its loop is not aborted.
          obtain rfl := sound.table.sole here (Or.inr leaving) held
          have same : (self.egresses.set other (found.setPump .ended)).modify other
              SidEgress.abort = self.egresses.set other (found.setPump .ended) := by
            apply List.ext_getElem?
            intro index
            by_cases equal : other = index
            · subst equal
              rw [List.getElem?_modify_eq,
                List.getElem?_set_self (List.getElem?_eq_some_iff.mp here).1]
              rfl
            · rw [List.getElem?_modify_ne _ _ equal]
          simp only [Option.elim_some, Mux.abort, Mux.setEgress, same]
    dsimp only at moved
    rw [own] at moved
    cases moved
    exact ⟨sound.numbered, sound.up, sound.back, owners, table⟩
  · cases moved

theorem reply (sound : Sound self) (moved : self.reply = some next) : Sound next := by
  unfold Mux.reply at moved
  split at moved
  · cases moved
  · rename_i pkt rest queue
    cases moved
    obtain ⟨replies, returning, back⟩ := sound.back
    refine ⟨sound.numbered, sound.up, ⟨replies, ?_, back⟩, sound.owners, sound.table⟩
    rw [queue, List.flatten_cons] at returning
    simpa only [List.append_assoc] using returning

theorem carryDown (sound : Sound self) {n : Nat} (moved : self.carryDown n = some next) :
    Sound next := by
  unfold Mux.carryDown at moved
  split at moved
  · cases moved
    obtain ⟨replies, returning, back⟩ := sound.back
    refine ⟨sound.numbered, sound.up, ⟨replies, ?_, back⟩, sound.owners, sound.table⟩
    have same : self.down.take n ++ (self.down.drop n ++ self.tx.flatten) =
        self.down ++ self.tx.flatten := by
      rw [← List.append_assoc, List.take_append_drop]
    simp only [List.append_assoc, same]
    exact returning
  · cases moved

theorem demux (sound : Sound self) (distinct : Distinct self.tasks)
    (moved : self.demux = some next) : Sound next := by
  unfold Mux.demux at moved
  obtain ⟨replies, returning, back⟩ := sound.back
  split at moved
  · cases moved
  · rename_i consumed parsed
    obtain ⟨first, later, -, absurd_, -⟩ := @Carries.downlink _ _ _ consumed none returning
      (by rw [parsed]; rfl)
    cases absurd_
  · rename_i sid payload consumed parsed
    obtain ⟨first, later, rfl, same, left⟩ := @Carries.downlink _ _ _ consumed
      (some (sid, payload)) returning (by rw [parsed]; rfl)
    cases same
    have skipped : Sound { self with acc := self.acc.drop consumed } :=
      ⟨sound.numbered, sound.up, ⟨later, left, back.skip⟩, sound.owners, sound.table⟩
    cases held : self.flows.lookup first.sid with
    | none =>
        simp only [held, Option.bind_none, Option.getD_none] at moved
        cases moved
        exact skipped
    | some task =>
        obtain ⟨flow, here, known⟩ := sound.numbered.held _ _ (mem_of_lookup held)
        simp only [held, Option.bind_some, here, Option.map_some, Option.getD_some] at moved
        cases moved
        exact ⟨sound.numbered.set here rfl,
          sound.up_set distinct here rfl fun _ inside => inside,
          ⟨later, left, back.deliver here known⟩, sound.owners_set here rfl, sound.table⟩

end Sound

theorem withFlow_cases {stage : Stage} {move : Flow → Option Mux}
    (moved : self.withFlow task stage move = some next) :
    ∃ flow, self.tasks[task]? = some flow ∧ move flow = some next := by
  obtain ⟨flow, here, went⟩ := Option.bind_eq_some_iff.mp moved
  split at went
  · exact ⟨flow, here, went⟩
  · cases went

theorem length_setFlow : (self.setFlow task flow).tasks.length = self.tasks.length :=
  List.length_set

theorem tasks_elim (held : Option Nat) : (held.elim self self.abort).tasks = self.tasks := by
  cases held with
  | none => rfl
  | some egress => rfl

/-- No session has come into the table without its task. -/
def Met (self : Mux) : Prop :=
  ∀ (egress : Nat) (found : SidEgress), self.egresses[egress]? = some found → found.early = false

namespace Met

theorem abort_early (found : SidEgress) : found.abort.early = found.early := by
  unfold SidEgress.abort
  split
  · rfl
  · rfl

theorem stop (met : Met self) : Met self.stop := by
  intro egress found here
  simp only [Mux.stop, List.getElem?_mapIdx, Option.map_eq_some_iff] at here
  obtain ⟨before, there, rfl⟩ := here
  split
  · exact (abort_early before).trans (met egress before there)
  · exact met egress before there

theorem opened {fresh : SidEgress} {job : Job} (new : fresh.early = false) (met : Met self) :
    Met { self with job, egresses := self.egresses ++ [fresh] } := by
  intro egress found here
  rcases getElem?_append_one_cases here with ⟨-, rfl⟩ | old
  · exact new
  · exact met egress found old

theorem setPump (met : Met self) {egress : Nat} {found : SidEgress}
    (here : self.egresses[egress]? = some found) (pump : Pump) :
    Met (self.setEgress egress (found.setPump pump)) := by
  intro other moved there
  rcases getElem?_set_cases there with ⟨rfl, rfl⟩ | ⟨-, old⟩
  · exact met _ found here
  · exact met other moved old

theorem elim {sessions : List (UInt32 × Nat)} (met : Met self) (held : Option Nat) :
    Met { held.elim self self.abort with sessions } := by
  cases held with
  | none => exact met
  | some taken =>
      intro egress found here
      simp only [Option.elim_some, Mux.abort, List.getElem?_modify, Option.map_eq_map,
        Option.map_eq_some_iff] at here
      obtain ⟨before, there, rfl⟩ := here
      split
      · exact (abort_early before).trans (met egress before there)
      · exact met egress before there

end Met

/-- No task is forgotten, and only an insertion finds a session without its task. -/
theorem step_frame {event : Event} (stepped : self.step event = some next) :
    self.tasks.length ≤ next.tasks.length ∧ (event ≠ .insert → Met self → Met next) := by
  cases event with
  | allocSid target port =>
      cases stepped
      rw [Mux.allocSid, List.length_append]
      exact ⟨Nat.le_add_right _ _, fun _ => id⟩
  | tryRegister task =>
      obtain ⟨flow, -, moved⟩ := withFlow_cases stepped
      cases moved
      unfold Mux.tryRegister
      split
      · exact ⟨length_setFlow.ge, fun _ => id⟩
      · exact ⟨length_setFlow.ge, fun _ => id⟩
  | push task pkt =>
      obtain ⟨flow, -, moved⟩ := withFlow_cases stepped
      cases moved
      unfold Mux.push
      split
      · exact ⟨length_setFlow.ge, fun _ => id⟩
      · exact ⟨Nat.le_refl _, fun _ => id⟩
  | pump task more =>
      obtain ⟨flow, -, moved⟩ := withFlow_cases stepped
      unfold Mux.pump at moved
      split at moved
      · cases moved
      · split at moved
        · cases moved
          exact ⟨length_setFlow.ge, fun _ => id⟩
        · cases moved
          exact ⟨length_setFlow.ge, fun _ => id⟩
  | unregister task =>
      obtain ⟨flow, -, moved⟩ := withFlow_cases stepped
      cases moved
      exact ⟨length_setFlow.ge, fun _ => id⟩
  | write more =>
      simp only [Mux.step, Mux.write] at stepped
      split at stepped
      · cases stepped
      · cases stepped
        exact ⟨Nat.le_refl _, fun _ => id⟩
  | carryUp n =>
      simp only [Mux.step, Mux.carryUp] at stepped
      split at stepped
      · split at stepped
        · cases stepped
          exact ⟨Nat.le_refl _, fun _ => id⟩
        · cases stepped
      · cases stepped
  -- A registration may tell the task of an older session to end, no more.
  | handle verdict =>
      simp only [Mux.step, Mux.handle] at stepped
      split at stepped
      · split at stepped
        · cases stepped
          exact ⟨Nat.le_refl _, fun _ => id⟩
        · cases stepped
          exact ⟨Nat.le_refl _, fun _ => id⟩
        · cases stepped
          exact ⟨Nat.le_refl _, fun _ => Met.stop⟩
        · split at stepped
          · cases stepped
            exact ⟨Nat.le_refl _, fun _ => id⟩
          · cases stepped
            exact ⟨Nat.le_refl _, fun _ => id⟩
      · cases stepped
  | count =>
      simp only [Mux.step, Mux.count] at stepped
      split at stepped
      · split at stepped
        · cases stepped
          exact ⟨Nat.le_refl _, fun _ => id⟩
        · cases stepped
          exact ⟨Nat.le_refl _, fun _ => id⟩
      · cases stepped
  | opened addr =>
      simp only [Mux.step, Mux.opened] at stepped
      split at stepped
      · cases stepped
        exact ⟨Nat.le_refl _, fun _ => id⟩
      · cases stepped
        exact ⟨Nat.le_refl _, fun _ => Met.opened rfl⟩
      · cases stepped
  -- What the insertion finds is not promised: the session may have been closed meanwhile.
  | insert =>
      simp only [Mux.step, Mux.insert] at stepped
      split at stepped
      · rename_i uf egress job
        cases stepped
        exact ⟨(congrArg List.length (tasks_elim _)).ge, fun other => absurd rfl other⟩
      · cases stepped
  | send done =>
      simp only [Mux.step, Mux.send] at stepped
      split at stepped
      · obtain ⟨found, -, rfl⟩ := Option.map_eq_some_iff.mp stepped
        exact ⟨Nat.le_refl _, fun _ => id⟩
      · cases stepped
  | stop =>
      simp only [Mux.step] at stepped
      split at stepped
      · cases stepped
        exact ⟨Nat.le_refl _, fun _ => Met.stop⟩
      · cases stepped
  | recv egress pkt pass =>
      obtain ⟨found, -, moved⟩ := Option.bind_eq_some_iff.mp stepped
      unfold Mux.recv at moved
      split at moved
      · cases moved
        exact ⟨Nat.le_refl _, fun _ => id⟩
      · cases moved
  | leave egress =>
      obtain ⟨found, here, moved⟩ := Option.bind_eq_some_iff.mp stepped
      unfold Mux.leave at moved
      split at moved
      · cases moved
        exact ⟨Nat.le_refl _, fun _ met => met.setPump here _⟩
      · cases moved
  | remove egress =>
      obtain ⟨found, here, moved⟩ := Option.bind_eq_some_iff.mp stepped
      unfold Mux.remove at moved
      split at moved
      · cases moved
        let left := self.setEgress egress (found.setPump .ended)
        have kept := @tasks_elim left (left.sessions.lookup found.sid)
        exact ⟨(congrArg List.length kept).ge, fun _ met => (met.setPump here _).elim _⟩
      · cases moved
  | reply =>
      simp only [Mux.step, Mux.reply] at stepped
      split at stepped
      · cases stepped
      · cases stepped
        exact ⟨Nat.le_refl _, fun _ => id⟩
  | carryDown n =>
      simp only [Mux.step, Mux.carryDown] at stepped
      split at stepped
      · cases stepped
        exact ⟨Nat.le_refl _, fun _ => id⟩
      · cases stepped
  | demux =>
      simp only [Mux.step, Mux.demux] at stepped
      split at stepped
      · cases stepped
      · cases stepped
        exact ⟨Nat.le_refl _, fun _ => id⟩
      · rename_i sid payload consumed parsed
        cases stepped
        cases self.flows.lookup sid with
        | none => exact ⟨Nat.le_refl _, fun _ => id⟩
        | some task =>
            rw [Option.bind_some]
            cases self.tasks[task]? with
            | none => exact ⟨Nat.le_refl _, fun _ => id⟩
            | some flow => exact ⟨length_setFlow.ge, fun _ => id⟩

theorem tasks_grow {event : Event} (stepped : self.step event = some next) :
    self.tasks.length ≤ next.tasks.length := (step_frame stepped).1

theorem Sound.step {event : Event} (sound : Sound self) (stepped : self.step event = some next)
    (few : next.tasks.length ≤ 2 ^ 32) : Sound next := by
  -- The flows before the step are no more than those after it.
  have distinct := sound.numbered.distinct ((tasks_grow stepped).trans few)
  cases event with
  | allocSid target port =>
      cases stepped
      exact sound.allocSid few
  | tryRegister task =>
      obtain ⟨flow, here, moved⟩ := withFlow_cases stepped
      cases moved
      exact sound.tryRegister distinct here
  | push task pkt =>
      obtain ⟨flow, here, moved⟩ := withFlow_cases stepped
      cases moved
      exact sound.push distinct here pkt
  | pump task more =>
      obtain ⟨flow, here, moved⟩ := withFlow_cases stepped
      exact sound.pump distinct here moved
  | unregister task =>
      obtain ⟨flow, here, moved⟩ := withFlow_cases stepped
      cases moved
      exact sound.unregister distinct here
  | write more => exact sound.write stepped
  | carryUp n => exact sound.carryUp stepped
  | handle verdict => exact sound.handle distinct stepped
  | count => exact sound.count stepped
  | opened addr => exact sound.opened stepped
  | insert => exact sound.insert stepped
  | send done => exact sound.send stepped
  | stop =>
      simp only [Mux.step] at stepped
      split at stepped
      · rename_i job
        cases stepped
        obtain ⟨frames, carried, line⟩ := sound.up
        rw [job] at line
        exact sound.stop carried line
      · cases stepped
  | recv egress pkt pass =>
      obtain ⟨found, here, moved⟩ := Option.bind_eq_some_iff.mp stepped
      exact sound.recv here moved
  | leave egress =>
      obtain ⟨found, here, moved⟩ := Option.bind_eq_some_iff.mp stepped
      exact sound.leave here moved
  | remove egress =>
      obtain ⟨found, here, moved⟩ := Option.bind_eq_some_iff.mp stepped
      exact sound.remove here moved
  | reply => exact sound.reply stepped
  | carryDown n => exact sound.carryDown stepped
  | demux => exact sound.demux distinct stepped

end Steps

section Runs

/-- What a tunnel and its two ends can come to. -/
def Reached (self : Mux) : Prop := ∃ events, follow Mux.step Mux.start events = some self

variable {self : Mux}

theorem sound_start : Sound Mux.start where
  numbered := ⟨rfl, nofun, nofun, Nat.zero_le _⟩
  up := ⟨[], carries_nil, nofun, nofun⟩
  back := ⟨[], carries_nil, nofun, fun _ => List.Sublist.refl _, nofun⟩
  owners := nofun
  table := ⟨List.nodup_nil, Nat.zero_le _, nofun, nofun, nofun, nofun, nofun, nofun⟩

theorem sound_of_reached (reached : Reached self) (few : self.tasks.length ≤ 2 ^ 32) :
    Sound self := by
  obtain ⟨events, followed⟩ := reached
  have kept : self.tasks.length ≤ 2 ^ 32 → Sound self :=
    follow_keeps (fun state => state.tasks.length ≤ 2 ^ 32 → Sound state)
      (fun held stepped fits => (held ((tasks_grow stepped).trans fits)).step stepped fits)
      (fun _ => sound_start) followed
  exact kept few

/-- The datagrams of a log that bear a flow's session id. -/
theorem filter_owned {log : List UplinkFrame} {flow : Flow} {task : Nat} {tasks : List Flow}
    (distinct : Distinct tasks) (here : tasks[task]? = some flow)
    (owned : ∀ datagram ∈ log, Owned tasks (keyOf datagram)) :
    log.filter (fun datagram => datagram.sid = flow.sid) =
      (payloads flow.sid log).map flow.datagram := by
  rw [payloads, List.map_map]
  refine (List.map_id _).symm.trans (List.map_congr_left fun datagram member => ?_)
  obtain ⟨inside, same⟩ := List.mem_filter.mp member
  have mine : Owned tasks flow.key := ⟨task, flow, here, rfl⟩
  have key := (owned datagram inside).same distinct mine (of_decide_eq_true same)
  cases datagram
  simp only [keyOf, Flow.key, Prod.mk.injEq] at key
  simp only [id_eq, Function.comp_apply, Flow.datagram, key]

/-- A flow's datagrams reach its own target only and in order, what its socket gets
was read from that target, in order, and a task that leaves takes no session but
its own. -/
structure Isolated (state : Mux) : Prop where
  uplink : ∀ flow ∈ state.tasks,
    (state.sent.filter fun datagram => datagram.sid = flow.sid).Sublist
      (flow.pushed.map flow.datagram)
  downlink : ∀ flow ∈ state.tasks, (flow.replied.map flow.datagram).Sublist
    (state.received.filter fun datagram => datagram.sid = flow.sid)
  owned : ∀ datagram ∈ state.sent ++ state.received, ∃ flow ∈ state.tasks,
    datagram = flow.datagram datagram.payload
  few : state.sessions.length ≤ maxSids
  sole : ∀ (egress : Nat) (found : SidEgress), state.egresses[egress]? = some found →
    found.pump = .leaving →
      ∀ other, state.sessions.lookup found.sid = some other → other = egress

theorem Sound.isolated (sound : Sound self) (few : self.tasks.length ≤ 2 ^ 32) :
    Isolated self := by
  have distinct := sound.numbered.distinct few
  obtain ⟨frames, -, line⟩ := sound.up
  obtain ⟨replies, -, back⟩ := sound.back
  have sent := line.sublist (List.sublist_append_left self.sent (self.job.frames ++ frames))
  constructor
  · intro flow member
    obtain ⟨task, here⟩ := List.mem_iff_getElem?.mp member
    rw [filter_owned distinct here sent.owned]
    exact ((List.sublist_append_left _ _).trans (sent.order task flow here)).map flow.datagram
  · intro flow member
    obtain ⟨task, here⟩ := List.mem_iff_getElem?.mp member
    rw [filter_owned distinct here back.owned]
    exact ((List.sublist_append_left _ _).trans (back.order task flow here)).map flow.datagram
  · intro datagram member
    have owned : Owned self.tasks (keyOf datagram) := by
      rcases List.mem_append.mp member with out | inside
      · exact sent.owned datagram out
      · exact back.owned datagram inside
    obtain ⟨task, flow, here, same⟩ := owned
    refine ⟨flow, List.mem_iff_getElem?.mpr ⟨task, here⟩, ?_⟩
    cases datagram
    simp only [keyOf, Flow.key, Prod.mk.injEq] at same
    simp only [Flow.datagram, same]
  · exact sound.table.few
  · intro egress found here leaving other held
    exact sound.table.sole here (Or.inr leaving) held

/-- Whatever flows come and go on a tunnel, and whatever sessions end and are
made again, a flow's datagrams reach its own target only and in order, and what
its socket gets was read from that target, in order, as long as the session ids
have not gone round. -/
theorem flows_isolated (state : Mux) (reached : Reached state)
    (few : state.tasks.length ≤ 2 ^ 32) :
    (∀ flow ∈ state.tasks,
      (state.sent.filter fun datagram => datagram.sid = flow.sid).Sublist
          (flow.pushed.map flow.datagram) ∧
        (flow.replied.map flow.datagram).Sublist
          (state.received.filter fun datagram => datagram.sid = flow.sid)) ∧
      (∀ datagram ∈ state.sent ++ state.received, ∃ flow ∈ state.tasks,
        datagram = flow.datagram datagram.payload) ∧
      state.flows.length ≤ maxSids ∧ state.sessions.length ≤ maxSids ∧
      (∀ sid egress, (sid, egress) ∈ state.sessions → ∃ found,
        state.egresses[egress]? = some found ∧ found.sid = sid ∧
          (found.pump = .running ∨ found.pump = .leaving ∨ found.early = true)) ∧
      ∀ (egress : Nat) (found : SidEgress), state.egresses[egress]? = some found →
        found.pump = .leaving →
          ∀ other, state.sessions.lookup found.sid = some other → other = egress := by
  have sound := sound_of_reached reached few
  have isolated := sound.isolated few
  refine ⟨fun flow member => ⟨isolated.uplink flow member, isolated.downlink flow member⟩,
    isolated.owned, sound.numbered.few, isolated.few, ?_, isolated.sole⟩
  intro sid egress member
  obtain ⟨found, here, same, alive⟩ := sound.table.entries sid egress member
  exact ⟨found, here, same, or_assoc.mp alive⟩

/-- Two flows, each with one datagram and one reply. -/
def twoFlows : List Event :=
  [.allocSid (.ip 0x01020304) 53, .allocSid (.domain "b") 80, .tryRegister 0, .tryRegister 1,
    .push 0 [7], .push 1 [8], .pump 0 0, .pump 1 0, .write 5, .carryUp 100, .handle .pass, .count,
    .opened (some ⟨.v4 0x01020304, 53⟩), .insert, .send true, .handle .pass, .count,
    .opened (some ⟨.v4 0x05060708, 80⟩), .insert, .send true, .recv 1 [9] true,
    .recv 0 [10] true, .reply, .reply, .carryDown 100, .demux, .demux]

theorem two_flows_isolated : ∃ state : Mux,
    state.tasks.map Flow.replied = [[[10]], [[9]]] ∧
      ∀ datagram ∈ state.sent ++ state.received, ∃ flow ∈ state.tasks,
        datagram = flow.datagram datagram.payload := by
  obtain ⟨state, followed, replied⟩ : ∃ state : Mux,
      follow Mux.step Mux.start twoFlows = some state ∧
        state.tasks.map Flow.replied = [[[10]], [[9]]] := ⟨_, rfl, rfl⟩
  have few : state.tasks.length = 2 := by simpa using congrArg List.length replied
  exact ⟨state, replied, (flows_isolated state ⟨twoFlows, followed⟩ (by omega)).2.1⟩

end Runs

end Mirage.Udp.Shared
