import Mirage.Lib.Notify
import Mirage.Udp.Transparent

/-!
What every run of the flow table keeps. The slots of the table and the tasks
that have not given theirs back belong to each other one to one, and each reply
socket counts the tasks that acquired it. The two parts of a guard's `drop` are
two steps, with any step of another task in between.
-/

namespace Mirage.Udp.Transparent
open Assoc Notify Trace

namespace Task

def Owns (task : Task) (slot : FlowSlot) : Prop :=
  match task.committedId, slot with
  | none, .setting => True
  | some id, .ready cur _ => cur = id
  | _, _ => False

/-- The guard's fields are those of the place the task has come to. -/
def Fits (task : Task) : Prop :=
  match task.stage with
  | .start | .query | .answered | .prepare _ _ _ => task.committedId = none ∧ task.reply = none
  | .reply | .acquired _ _ => task.committedId = none ∧ task.reply.isSome = true
  | .serve => task.committedId.isSome = true ∧ task.reply.isSome = true
  | .dropSlot | .dropReply => True
  | .gone => task.reply = none

theorem live_of_mayExit {task : Task} (may : task.mayExit = true) : task.live = true := by
  unfold mayExit at may
  unfold live
  cases stage : task.stage <;> rw [stage] at may <;> first | rfl | cases may

end Task

/-- Slots and live tasks, one to one. -/
structure SlotsSound (sessions : List (FlowKey × FlowSlot)) (tasks : List Task) : Prop where
  unique : UniqueKeys sessions
  bounded : sessions.length ≤ maxFlows
  owned : ∀ {id : Nat} {task : Task}, tasks[id]? = some task → task.live = true →
    ∃ slot, sessions.lookup task.key = some slot ∧ task.Owns slot
  owner : ∀ {key : FlowKey} {slot : FlowSlot}, sessions.lookup key = some slot →
    ∃ (id : Nat) (task : Task), tasks[id]? = some task ∧ task.live = true ∧ task.key = key
  single : ∀ {first second : Nat} {one two : Task}, tasks[first]? = some one →
    tasks[second]? = some two → one.live = true → two.live = true → one.key = two.key →
    first = second

/-- Reply sockets and the tasks that acquired them. -/
structure RepliesSound (replies : List (SocketAddrV4 × ReplyEntry)) (tasks : List Task) : Prop where
  unique : UniqueKeys replies
  counted : ∀ addr, ((replies.lookup addr).map ReplyEntry.refs).getD 0 =
    tasks.countP (·.acquiredAt addr)
  positive : ∀ {addr : SocketAddrV4} {entry : ReplyEntry}, replies.lookup addr = some entry →
    0 < entry.refs
  held : ∀ {id : Nat} {task : Task} {sock : Nat}, tasks[id]? = some task → task.reply = some sock →
    ∃ entry, replies.lookup task.origDst = some entry ∧ entry.sock = sock

section Slots
variable {sessions : List (FlowKey × FlowSlot)} {tasks : List Task} {id : Nat} {task next : Task}

/-- A task that moves on keeps its key, so no key gets a second live task. -/
theorem SlotsSound.single_set (sound : SlotsSound sessions tasks) (here : tasks[id]? = some task)
    (key : next.key = task.key) (alive : next.live = true → task.live = true)
    {first second : Nat} {one two : Task} (at_one : (tasks.set id next)[first]? = some one)
    (at_two : (tasks.set id next)[second]? = some two) (lives : one.live = true)
    (also : two.live = true) (same : one.key = two.key) : first = second := by
  have old : ∀ {other : Nat} {found : Task}, (tasks.set id next)[other]? = some found →
      found.live = true → ∃ before, tasks[other]? = some before ∧ before.live = true ∧
        before.key = found.key := by
    intro other found at_other living
    obtain ⟨rfl, rfl⟩ | ⟨_, before⟩ := getElem?_set_cases at_other
    · exact ⟨task, here, alive living, key.symm⟩
    · exact ⟨found, before, living, rfl⟩
  obtain ⟨before, at_before, living, itsKey⟩ := old at_one lives
  obtain ⟨other, at_other, others, alsoKey⟩ := old at_two also
  exact sound.single at_before at_other living others (itsKey.trans (same.trans alsoKey.symm))

theorem SlotsSound.keep (sound : SlotsSound sessions tasks) (here : tasks[id]? = some task)
    (key : next.key = task.key) (committed : next.committedId = task.committedId)
    (live : next.live = task.live) : SlotsSound sessions (tasks.set id next) where
  unique := sound.unique
  bounded := sound.bounded
  owned := by
    intro other found at_other alive
    obtain ⟨rfl, rfl⟩ | ⟨_, before⟩ := getElem?_set_cases at_other
    · obtain ⟨slot, tabled, owns⟩ := sound.owned here (live ▸ alive)
      refine ⟨slot, key ▸ tabled, ?_⟩
      unfold Task.Owns at owns ⊢
      rwa [committed]
    · exact sound.owned before alive
  owner := by
    intro wanted slot tabled
    obtain ⟨other, found, at_other, alive, same⟩ := sound.owner tabled
    by_cases itself : id = other
    · subst itself
      cases here.symm.trans at_other
      exact ⟨id, next, List.getElem?_set_self (List.getElem?_eq_some_iff.mp here).1,
        live.trans alive, key.trans same⟩
    · exact ⟨other, found, (List.getElem?_set_ne itself).trans at_other, alive, same⟩
  single := sound.single_set here key fun alive => live.symm.trans alive

theorem SlotsSound.spawn (sound : SlotsSound sessions tasks) {key : FlowKey}
    (free : sessions.lookup key = none) (room : sessions.length < maxFlows) :
    SlotsSound (put sessions key .setting) (tasks ++ [.spawn key]) where
  unique := sound.unique.put key _
  bounded := Nat.le_trans length_put_le room
  owned := by
    intro other found at_other alive
    obtain ⟨rfl, rfl⟩ | before := getElem?_append_one_cases at_other
    · exact ⟨.setting, lookup_put_self, trivial⟩
    · obtain ⟨slot, tabled, owns⟩ := sound.owned before alive
      have differs : found.key ≠ key := by
        intro same
        rw [same, free] at tabled
        cases tabled
      exact ⟨slot, (lookup_put_ne differs).trans tabled, owns⟩
  owner := by
    intro wanted slot tabled
    by_cases same : wanted = key
    · exact ⟨tasks.length, .spawn key, List.getElem?_concat_length, rfl, same.symm⟩
    · rw [lookup_put_ne same] at tabled
      obtain ⟨other, found, at_other, alive, its⟩ := sound.owner tabled
      exact ⟨other, found,
        (List.getElem?_append_left (List.getElem?_eq_some_iff.mp at_other).1).trans at_other,
        alive, its⟩
  single := by
    have fresh : ∀ {other : Nat} {found : Task}, tasks[other]? = some found →
        found.live = true → found.key ≠ key := by
      intro other found at_other alive same
      obtain ⟨slot, tabled, _⟩ := sound.owned at_other alive
      rw [same, free] at tabled
      cases tabled
    intro first second one two at_one at_two alive also same
    obtain ⟨rfl, rfl⟩ | old := getElem?_append_one_cases at_one
    · obtain ⟨rfl, rfl⟩ | other := getElem?_append_one_cases at_two
      · rfl
      · exact absurd same.symm (fresh other also)
    · obtain ⟨rfl, rfl⟩ | other := getElem?_append_one_cases at_two
      · exact absurd same (fresh old alive)
      · exact sound.single old other alive also same

theorem SlotsSound.commit (sound : SlotsSound sessions tasks) (here : tasks[id]? = some task)
    (alive : task.live = true) (key : next.key = task.key) (live : next.live = true)
    {slot : FlowSlot} (owns : next.Owns slot) :
    SlotsSound (put sessions task.key slot) (tasks.set id next) where
  unique := sound.unique.put _ _
  bounded := by
    obtain ⟨before, tabled, _⟩ := sound.owned here alive
    exact Nat.le_trans (length_put_of_lookup tabled) sound.bounded
  owned := by
    intro other found at_other lives
    obtain ⟨rfl, rfl⟩ | ⟨distinct, before⟩ := getElem?_set_cases at_other
    · rw [key]
      exact ⟨slot, lookup_put_self, owns⟩
    · obtain ⟨its, tabled, owned⟩ := sound.owned before lives
      have differs : found.key ≠ task.key := fun same =>
        distinct (sound.single before here lives alive same)
      exact ⟨its, (lookup_put_ne differs).trans tabled, owned⟩
  owner := by
    intro wanted found tabled
    have set := List.getElem?_set_self (a := next) (List.getElem?_eq_some_iff.mp here).1
    by_cases same : wanted = task.key
    · exact ⟨id, next, set, live, key.trans same.symm⟩
    · rw [lookup_put_ne same] at tabled
      obtain ⟨other, owner, at_other, lives, its⟩ := sound.owner tabled
      have distinct : id ≠ other := by
        rintro rfl
        cases here.symm.trans at_other
        exact same its.symm
      exact ⟨other, owner, (List.getElem?_set_ne distinct).trans at_other, lives, its⟩
  single := sound.single_set here key fun _ => alive

theorem SlotsSound.leave (sound : SlotsSound sessions tasks) (here : tasks[id]? = some task)
    (alive : task.live = true) (key : next.key = task.key) (ended : next.live = false) :
    SlotsSound (erase sessions task.key) (tasks.set id next) where
  unique := sound.unique.erase _
  bounded := Nat.le_trans length_erase_le sound.bounded
  owned := by
    intro other found at_other lives
    obtain ⟨rfl, rfl⟩ | ⟨distinct, before⟩ := getElem?_set_cases at_other
    · rw [ended] at lives
      cases lives
    · obtain ⟨its, tabled, owned⟩ := sound.owned before lives
      have differs : found.key ≠ task.key := fun same =>
        distinct (sound.single before here lives alive same)
      exact ⟨its, (lookup_erase_ne differs).trans tabled, owned⟩
  owner := by
    intro wanted found tabled
    have differs : wanted ≠ task.key := by
      rintro rfl
      rw [lookup_erase_self] at tabled
      cases tabled
    rw [lookup_erase_ne differs] at tabled
    obtain ⟨other, owner, at_other, lives, its⟩ := sound.owner tabled
    have distinct : id ≠ other := by
      rintro rfl
      cases here.symm.trans at_other
      exact differs its.symm
    exact ⟨other, owner, (List.getElem?_set_ne distinct).trans at_other, lives, its⟩
  single := sound.single_set here key fun _ => alive

end Slots

section Replies
variable {replies : List (SocketAddrV4 × ReplyEntry)} {tasks : List Task} {id : Nat}
  {task next : Task}

theorem RepliesSound.keep (sound : RepliesSound replies tasks) (here : tasks[id]? = some task)
    (key : next.key = task.key) (reply : next.reply = task.reply) :
    RepliesSound replies (tasks.set id next) where
  unique := sound.unique
  counted := by
    intro addr
    have moved := countP_set (·.acquiredAt addr) here next
    have same : next.acquiredAt addr = task.acquiredAt addr := by
      unfold Task.acquiredAt Task.origDst
      rw [key, reply]
    rw [sound.counted addr]
    rw [same] at moved
    exact (Nat.add_right_cancel moved).symm
  positive := sound.positive
  held := by
    intro other found sock at_other holds
    obtain ⟨rfl, rfl⟩ | ⟨_, before⟩ := getElem?_set_cases at_other
    · unfold Task.origDst
      rw [key]
      exact sound.held here (reply.symm.trans holds)
    · exact sound.held before holds

theorem RepliesSound.spawn (sound : RepliesSound replies tasks) (key : FlowKey) :
    RepliesSound replies (tasks ++ [.spawn key]) where
  unique := sound.unique
  counted := by
    intro addr
    rw [countP_append_one, sound.counted addr]
    have none : (Task.spawn key).acquiredAt addr = false := Bool.and_false _
    rw [none]
    rfl
  positive := sound.positive
  held := by
    intro other found sock at_other holds
    obtain ⟨rfl, rfl⟩ | before := getElem?_append_one_cases at_other
    · cases holds
    · exact sound.held before holds

/-- The entry at one address changes together with the task that acquired or
released it. -/
theorem RepliesSound.change (sound : RepliesSound replies tasks) (here : tasks[id]? = some task)
    (key : next.key = task.key) {later : List (SocketAddrV4 × ReplyEntry)}
    (unique : UniqueKeys later)
    (others : ∀ addr, addr ≠ task.origDst → later.lookup addr = replies.lookup addr)
    (counted : ((later.lookup task.origDst).map ReplyEntry.refs).getD 0 + task.reply.isSome.toNat =
      ((replies.lookup task.origDst).map ReplyEntry.refs).getD 0 + next.reply.isSome.toNat)
    (positive : ∀ entry, later.lookup task.origDst = some entry → 0 < entry.refs)
    (own : ∀ sock, next.reply = some sock →
      ∃ entry, later.lookup task.origDst = some entry ∧ entry.sock = sock)
    (kept : ∀ entry, replies.lookup task.origDst = some entry →
      (task.reply.isSome = true → 1 < entry.refs) →
      ∃ still, later.lookup task.origDst = some still ∧ still.sock = entry.sock) :
    RepliesSound later (tasks.set id next) := by
  have target : next.origDst = task.origDst := congrArg FlowKey.origDst key
  constructor
  case unique => exact unique
  case counted =>
    intro addr
    have moved := countP_set (·.acquiredAt addr) here next
    rw [← sound.counted addr] at moved
    unfold Task.acquiredAt at moved ⊢
    rw [target] at moved
    by_cases same : task.origDst = addr
    · subst same
      rw [decide_eq_true rfl, Bool.true_and, Bool.true_and] at moved
      omega
    · rw [decide_eq_false same, Bool.false_and, Bool.false_and] at moved
      rw [others addr (Ne.symm same)]
      exact (Nat.add_right_cancel moved).symm
  case positive =>
    intro addr entry tabled
    by_cases same : addr = task.origDst
    · subst same
      exact positive entry tabled
    · rw [others addr same] at tabled
      exact sound.positive tabled
  case held =>
    intro other found sock at_other holds
    obtain ⟨rfl, rfl⟩ | ⟨distinct, before⟩ := getElem?_set_cases at_other
    · rw [target]
      exact own sock holds
    · obtain ⟨entry, tabled, its⟩ := sound.held before holds
      by_cases same : found.origDst = task.origDst
      · rw [same] at tabled
        -- Two tasks hold the socket, so that one of them may let go of it.
        have shared : task.reply.isSome = true → 1 < entry.refs := by
          intro holder
          have both := two_le_countP (·.acquiredAt task.origDst) distinct before here
            (by rw [Task.acquiredAt, same, holds, decide_eq_true rfl]; rfl)
            (by rw [Task.acquiredAt, holder, decide_eq_true rfl]; rfl)
          have total := sound.counted task.origDst
          rw [tabled] at total
          exact Nat.lt_of_lt_of_eq both total.symm
        obtain ⟨still, after, socket⟩ := kept entry tabled shared
        exact ⟨still, same ▸ after, socket.trans its⟩
      · exact ⟨entry, (others _ same).trans tabled, its⟩

/-- What `acquire_reply` and the guard do to the entry, and to the task. -/
theorem RepliesSound.acquire {proxy acquired : Proxy} {built : Bool} {sock : Nat}
    (sound : RepliesSound proxy.replies proxy.tasks) (here : proxy.tasks[id]? = some task)
    (none_yet : task.reply = none) (key : next.key = task.key) (reply : next.reply = some sock)
    (took : proxy.acquireReply task.origDst built = some (sock, acquired)) :
    RepliesSound acquired.replies (proxy.tasks.set id next) := by
  unfold Proxy.acquireReply at took
  split at took
  case h_1 e tabled =>
    cases took
    refine sound.change here key (sound.unique.put _ _) (fun addr => lookup_put_ne) ?_ ?_ ?_ ?_
    · rw [lookup_put_self, tabled, none_yet, reply]
      rfl
    · intro entry found
      rw [lookup_put_self] at found
      cases found
      exact Nat.succ_pos _
    · intro other its
      rw [reply] at its
      cases its
      exact ⟨_, lookup_put_self, rfl⟩
    · intro entry found _
      cases tabled.symm.trans found
      exact ⟨_, lookup_put_self, rfl⟩
  case h_2 missing =>
    split at took
    case isFalse => cases took
    case isTrue =>
      cases took
      refine sound.change here key (sound.unique.put _ _) (fun addr => lookup_put_ne) ?_ ?_ ?_ ?_
      · rw [lookup_put_self, missing, none_yet, reply]
        rfl
      · intro entry found
        rw [lookup_put_self] at found
        cases found
        exact Nat.one_pos
      · intro other its
        rw [reply] at its
        cases its
        exact ⟨_, lookup_put_self, rfl⟩
      · intro entry found _
        cases missing.symm.trans found

theorem RepliesSound.release {proxy : Proxy} (sound : RepliesSound proxy.replies proxy.tasks)
    (here : proxy.tasks[id]? = some task) (key : next.key = task.key) (reply : next.reply = none) :
    RepliesSound (proxy.dropReply task).replies (proxy.tasks.set id next) := by
  unfold Proxy.dropReply
  split
  case isFalse nothing =>
    exact sound.keep here key (reply.trans (Option.not_isSome_iff_eq_none.mp nothing).symm)
  case isTrue holds =>
    obtain ⟨sock, its⟩ := Option.isSome_iff_exists.mp holds
    obtain ⟨e, tabled, _⟩ := sound.held here its
    have some_ref := sound.positive tabled
    rw [tabled]
    dsimp only
    split
    case isTrue last =>
      refine sound.change here key (sound.unique.erase _) (fun addr => lookup_erase_ne) ?_ ?_ ?_ ?_
      · rw [lookup_erase_self, tabled, reply, holds]
        dsimp only [Option.map_none, Option.map_some, Option.getD_none, Option.getD_some,
          Option.isSome_none, Bool.toNat_true, Bool.toNat_false]
        omega
      · intro entry found
        rw [lookup_erase_self] at found
        cases found
      · intro other acquired
        rw [reply] at acquired
        cases acquired
      · intro entry found shared
        cases tabled.symm.trans found
        have more := shared holds
        omega
    case isFalse more =>
      refine sound.change here key (sound.unique.put _ _) (fun addr => lookup_put_ne) ?_ ?_ ?_ ?_
      · rw [lookup_put_self, tabled, reply, holds]
        dsimp only [Option.map_some, Option.getD_some, Option.isSome_none, Bool.toNat_true,
          Bool.toNat_false]
        omega
      · intro entry found
        rw [lookup_put_self] at found
        cases found
        exact Nat.pos_of_ne_zero more
      · intro other acquired
        rw [reply] at acquired
        cases acquired
      · intro entry found _
        cases tabled.symm.trans found
        exact ⟨_, lookup_put_self, rfl⟩

end Replies

namespace Proxy

structure Sound (proxy : Proxy) : Prop where
  slots : SlotsSound proxy.sessions proxy.tasks
  sockets : RepliesSound proxy.replies proxy.tasks
  fits : ∀ {id : Nat} {task : Task}, proxy.tasks[id]? = some task → task.Fits

/-- The kinds of steps. A quiet one moves a task within its `setup_flow`. -/
inductive Taken (proxy : Proxy) : Event → Proxy → Prop where
  | idle (key : FlowKey) : Taken proxy (.recv key) proxy
  | spawn {key : FlowKey} (free : proxy.sessions.lookup key = none)
      (room : proxy.sessions.length < maxFlows) :
      Taken proxy (.recv key)
        { proxy with
          sessions := put proxy.sessions key .setting
          tasks := proxy.tasks ++ [.spawn key] }
  | quiet {id : Nat} {task : Task} {move : Move} {stage : Stage} (flowId : UInt64)
      (here : proxy.tasks[id]? = some task) (live : task.live = true)
      (later : (task.goTo stage).live = true) (fits : task.Fits → (task.goTo stage).Fits) :
      Taken proxy (.task id move)
        ({ proxy with nextFlowId := flowId }.setTask id (task.goTo stage))
  | acquire {id sock : Nat} {task : Task} {built : Bool} {stage : Stage} {acquired : Proxy}
      (here : proxy.tasks[id]? = some task) (live : task.live = true)
      (later : (task.goTo stage).live = true) (before : task.Fits → task.reply = none)
      (fits : task.Fits → Task.Fits { task with stage := stage, reply := some sock })
      (took : proxy.acquireReply task.origDst built = some (sock, acquired)) :
      Taken proxy (.task id (.acquire built))
        (acquired.setTask id { task with stage := stage, reply := some sock })
  | commit {id : Nat} {task : Task} {leg : Leg} {flow : UInt64}
      (here : proxy.tasks[id]? = some task) (stage : task.stage = .acquired leg flow) :
      Taken proxy (.task id .commit)
        ({ proxy with sessions := put proxy.sessions task.key (.ready flow leg.sink) }.setTask id
          { task with stage := .serve, committedId := some flow })
  | dropSlot {id : Nat} {task : Task} (here : proxy.tasks[id]? = some task)
      (stage : task.stage = .dropSlot) :
      Taken proxy (.task id .dropSlot) ((proxy.dropSlot task).setTask id (task.goTo .dropReply))
  | dropReply {id : Nat} {task : Task} (here : proxy.tasks[id]? = some task)
      (stage : task.stage = .dropReply) :
      Taken proxy (.task id .dropReply)
        ((proxy.dropReply task).setTask id { task with stage := .gone, reply := none })

section Taken
variable {hijackDns : Bool} {proxy next : Proxy} {event : Event} {id : Nat} {task : Task}

theorem taken_of_receive (key : FlowKey) : proxy.Taken (.recv key) (proxy.receive key) := by
  unfold receive decision
  cases tabled : proxy.sessions.lookup key with
  | some slot =>
      cases slot with
      | setting => exact .idle key
      | ready id sink => exact .idle key
  | none =>
      dsimp only
      by_cases full : maxFlows ≤ proxy.sessions.length
      · rw [if_pos full]
        exact .idle key
      · rw [if_neg full]
        exact .spawn tabled (Nat.lt_of_not_le full)

theorem taken_of_acquire {built : Bool} {stage : Stage} (here : proxy.tasks[id]? = some task)
    (live : task.live = true) (later : (task.goTo stage).live = true)
    (before : task.Fits → task.reply = none)
    (fits : ∀ sock, task.Fits → Task.Fits { task with stage := stage, reply := some sock }) :
    proxy.Taken (.task id (.acquire built)) (proxy.acquire id task stage built) := by
  unfold acquire
  split
  case h_1 sock acquired took => exact .acquire here live later before (fits sock) took
  case h_2 => exact .quiet proxy.nextFlowId here live rfl fun _ => trivial

theorem taken_of_step (stepped : proxy.step hijackDns event = some next) :
    proxy.Taken event next := by
  cases event with
  | recv key =>
      cases stepped
      exact taken_of_receive key
  | task id move =>
      simp only [step] at stepped
      split at stepped
      case h_2 => cases stepped
      case h_1 task here =>
        obtain ⟨key, stage, committedId, reply⟩ := task
        cases move with
        | hijack =>
            simp only [advance] at stepped
            split at stepped
            case isFalse => cases stepped
            case isTrue allowed =>
              obtain rfl : stage = .start := allowed.1
              cases stepped
              exact .quiet proxy.nextFlowId here rfl rfl fun fits => fits
        | answer =>
            simp only [advance] at stepped
            split at stepped
            case isFalse => cases stepped
            case isTrue allowed =>
              obtain rfl : stage = .query := allowed
              cases stepped
              exact .quiet proxy.nextFlowId here rfl rfl fun fits => fits
        -- A task that routes takes a number for its flow, whether it comes to use it or not.
        | route leg =>
            simp only [advance] at stepped
            split at stepped
            case isFalse => cases stepped
            case isTrue allowed =>
              obtain rfl : stage = .start := allowed.1
              cases stepped
              exact .quiet (proxy.nextFlowId + 1) here rfl rfl fun fits => fits
        | pass =>
            simp only [advance] at stepped
            split at stepped
            case h_2 => cases stepped
            case h_1 leg flow one left at_stage =>
              cases stepped
              exact .quiet proxy.nextFlowId here rfl rfl fun fits => fits
        | acquire built =>
            simp only [advance] at stepped
            split at stepped
            case h_1 at_stage =>
              cases stepped
              exact taken_of_acquire here rfl rfl (fun fits => fits.2) fun sock fits => ⟨fits.1, rfl⟩
            case h_2 leg flow at_stage =>
              cases stepped
              exact taken_of_acquire here rfl rfl (fun fits => fits.2) fun sock fits => ⟨fits.1, rfl⟩
            case h_3 => cases stepped
        | commit =>
            simp only [advance] at stepped
            split at stepped
            case h_2 => cases stepped
            case h_1 leg flow at_stage =>
              cases stepped
              exact .commit here rfl
        | exit =>
            simp only [advance] at stepped
            split at stepped
            case isFalse => cases stepped
            case isTrue allowed =>
              cases stepped
              exact .quiet proxy.nextFlowId here (Task.live_of_mayExit allowed) rfl fun _ => trivial
        | dropSlot =>
            simp only [advance] at stepped
            split at stepped
            case isFalse => cases stepped
            case isTrue allowed =>
              cases stepped
              exact .dropSlot here allowed
        | dropReply =>
            simp only [advance] at stepped
            split at stepped
            case isFalse => cases stepped
            case isTrue allowed =>
              cases stepped
              exact .dropReply here allowed

end Taken

section Kept
variable {hijackDns : Bool} {proxy next : Proxy} {event : Event} {id : Nat} {task : Task}

theorem dropSlot_eq (slots : SlotsSound proxy.sessions proxy.tasks)
    (here : proxy.tasks[id]? = some task) (live : task.live = true) :
    proxy.dropSlot task = { proxy with sessions := erase proxy.sessions task.key } := by
  obtain ⟨slot, tabled, owns⟩ := slots.owned here live
  unfold dropSlot
  unfold Task.Owns at owns
  rw [tabled]
  cases committed : task.committedId with
  | none =>
      rw [committed] at owns
      cases slot with
      | setting => rfl
      | ready cur sink => exact owns.elim
  | some flow =>
      rw [committed] at owns
      cases slot with
      | setting => exact owns.elim
      | ready cur sink => exact if_pos owns

theorem acquireReply_keeps {addr : SocketAddrV4} {built : Bool} {sock : Nat} {acquired : Proxy}
    (took : proxy.acquireReply addr built = some (sock, acquired)) :
    acquired.sessions = proxy.sessions ∧ acquired.tasks = proxy.tasks := by
  unfold acquireReply at took
  split at took
  case h_1 =>
    cases took
    exact ⟨rfl, rfl⟩
  case h_2 =>
    split at took
    case isFalse => cases took
    case isTrue =>
      cases took
      exact ⟨rfl, rfl⟩

theorem dropReply_keeps :
    (proxy.dropReply task).sessions = proxy.sessions ∧
      (proxy.dropReply task).tasks = proxy.tasks := by
  unfold dropReply
  split
  case isFalse => exact ⟨rfl, rfl⟩
  case isTrue =>
    split
    case h_2 => exact ⟨rfl, rfl⟩
    case h_1 => split <;> exact ⟨rfl, rfl⟩

theorem fits_set {tasks : List Task} {moved : Task}
    (fits : ∀ {other : Nat} {found : Task}, tasks[other]? = some found → found.Fits)
    (new : moved.Fits) {other : Nat} {found : Task} (at_other : (tasks.set id moved)[other]? = some found) :
    found.Fits := by
  obtain ⟨_, rfl⟩ | ⟨_, before⟩ := getElem?_set_cases at_other
  · exact new
  · exact fits before

theorem Sound.taken (sound : proxy.Sound) (taken : proxy.Taken event next) : next.Sound := by
  cases taken with
  | idle key => exact sound
  | @spawn key free room =>
      refine ⟨sound.slots.spawn free room, sound.sockets.spawn key, ?_⟩
      intro other found at_other
      obtain ⟨_, rfl⟩ | before := getElem?_append_one_cases at_other
      · exact ⟨rfl, rfl⟩
      · exact sound.fits before
  | quiet flowId here live later fits =>
      exact ⟨sound.slots.keep here rfl rfl (later.trans live.symm), sound.sockets.keep here rfl rfl,
        fits_set sound.fits (fits (sound.fits here))⟩
  | acquire here live later before fits took =>
      obtain ⟨sessions, tasks⟩ := acquireReply_keeps took
      have fit := sound.fits here
      refine ⟨?_, ?_, ?_⟩
      · simp only [setTask, sessions, tasks]
        exact sound.slots.keep here rfl rfl (later.trans live.symm)
      · simp only [setTask, tasks]
        exact sound.sockets.acquire here (before fit) rfl rfl took
      · simp only [setTask, tasks]
        exact fits_set sound.fits (fits fit)
  | @commit id task leg flow here stage =>
      have live : task.live = true := by rw [Task.live, stage]
      have fit := sound.fits here
      unfold Task.Fits at fit
      rw [stage] at fit
      -- The slot is ready now, and the task owns it under the number it committed.
      let after : Task := { task with stage := .serve, committedId := some flow }
      have owns : after.Owns (.ready flow leg.sink) := rfl
      have fits : after.Fits := ⟨rfl, fit.2⟩
      exact ⟨sound.slots.commit here live (rfl : after.key = task.key) rfl owns,
        sound.sockets.keep here rfl rfl, fits_set sound.fits fits⟩
  | @dropSlot id task here stage =>
      have live : task.live = true := by rw [Task.live, stage]
      have fits : (task.goTo .dropReply).Fits := trivial
      rw [dropSlot_eq sound.slots here live]
      exact ⟨sound.slots.leave here live rfl rfl, sound.sockets.keep here rfl rfl,
        fits_set sound.fits fits⟩
  | @dropReply id task here stage =>
      have ended : task.live = false := by rw [Task.live, stage]
      obtain ⟨sessions, tasks⟩ : (proxy.dropReply task).sessions = proxy.sessions ∧
        (proxy.dropReply task).tasks = proxy.tasks := dropReply_keeps
      have fits : Task.Fits { task with stage := .gone, reply := none } := rfl
      refine ⟨?_, ?_, ?_⟩
      · simp only [setTask, sessions, tasks]
        exact sound.slots.keep here rfl rfl ended.symm
      · simp only [setTask, tasks]
        exact sound.sockets.release here rfl rfl
      · simp only [setTask, tasks]
        exact fits_set sound.fits fits

theorem sound_start : start.Sound where
  slots := by
    refine ⟨List.nodup_nil, Nat.zero_le _, ?_, ?_, ?_⟩
    · exact fun none => nomatch none
    · exact fun none => nomatch none
    · exact fun none => nomatch none
  sockets := by
    refine ⟨List.nodup_nil, fun _ => rfl, ?_, ?_⟩
    · exact fun none => nomatch none
    · exact fun none => nomatch none
  fits := fun none => nomatch none

theorem sound_of_follow {events : List Event}
    (followed : follow (step hijackDns) start events = some proxy) : proxy.Sound :=
  follow_keeps Sound (fun sound stepped => sound.taken (taken_of_step stepped)) sound_start followed

end Kept

end Proxy

def Event.flow : Event → Option Nat
  | .recv _ => none
  | .task id _ => some id

namespace Proxy

/-- The task of a `Setting` slot. -/
def SettingUp (proxy : Proxy) (id : Nat) (key : FlowKey) : Prop :=
  ∃ task, proxy.tasks[id]? = some task ∧ task.live = true ∧ task.key = key ∧
    task.committedId = none

/-- The flow of a `Ready` slot. -/
def Flowing (proxy : Proxy) (id : Nat) (key : FlowKey) (flow : UInt64) : Prop :=
  ∃ task, proxy.tasks[id]? = some task ∧ task.live = true ∧ task.key = key ∧
    task.committedId = some flow

section Results
variable {hijackDns : Bool} {proxy next : Proxy} {event : Event}

theorem Sound.slot_owner (sound : proxy.Sound) {key : FlowKey} {slot : FlowSlot}
    (tabled : proxy.sessions.lookup key = some slot) :
    ∃ (id : Nat) (task : Task), proxy.tasks[id]? = some task ∧ task.live = true ∧
      task.key = key ∧ task.Owns slot ∧ ∀ (other : Nat) (found : Task), proxy.tasks[other]? = some found → found.live = true →
        found.key = key → other = id := by
  obtain ⟨id, task, here, live, rfl⟩ := sound.slots.owner tabled
  obtain ⟨its, found, owns⟩ := sound.slots.owned here live
  cases tabled.symm.trans found
  refine ⟨id, task, here, live, rfl, owns, ?_⟩
  intro other found at_other lives same
  exact sound.slots.single at_other here lives live same

theorem Sound.setting_owner (sound : proxy.Sound) {key : FlowKey}
    (tabled : proxy.sessions.lookup key = some .setting) : ∃! id, proxy.SettingUp id key := by
  obtain ⟨id, task, here, live, same, owns, alone⟩ := sound.slot_owner tabled
  have uncommitted : task.committedId = none := by
    unfold Task.Owns at owns
    cases committed : task.committedId with
    | none => rfl
    | some flow =>
        rw [committed] at owns
        exact owns.elim
  refine ⟨id, ⟨task, here, live, same, uncommitted⟩, ?_⟩
  rintro other ⟨found, at_other, lives, its, _⟩
  exact alone other found at_other lives its

theorem Sound.ready_owner (sound : proxy.Sound) {key : FlowKey} {flow : UInt64} {sink : FlowSink}
    (tabled : proxy.sessions.lookup key = some (.ready flow sink)) :
    ∃! id, proxy.Flowing id key flow := by
  obtain ⟨id, task, here, live, same, owns, alone⟩ := sound.slot_owner tabled
  have committed : task.committedId = some flow := by
    unfold Task.Owns at owns
    cases its : task.committedId with
    | none =>
        rw [its] at owns
        exact owns.elim
    | some other =>
        rw [its] at owns
        exact congrArg some owns.symm
  refine ⟨id, ⟨task, here, live, same, committed⟩, ?_⟩
  rintro other ⟨found, at_other, lives, its, _⟩
  exact alone other found at_other lives its

/-- A step of one flow, or of the loop, leaves the slot and the reply socket of
every other flow as they are. -/
theorem Sound.others_kept (sound : proxy.Sound) (taken : proxy.Taken event next) {id : Nat}
    {task : Task} (here : proxy.tasks[id]? = some task) (other : event.flow ≠ some id) :
    next.tasks[id]? = some task ∧
      (task.live = true → next.sessions.lookup task.key = proxy.sessions.lookup task.key) := by
  cases taken with
  | idle key => exact ⟨here, fun _ => rfl⟩
  | @spawn key free room =>
      refine ⟨(List.getElem?_append_left (List.getElem?_eq_some_iff.mp here).1).trans here, ?_⟩
      intro live
      obtain ⟨slot, tabled, _⟩ := sound.slots.owned here live
      apply lookup_put_ne
      intro same
      rw [same, free] at tabled
      cases tabled
  | @quiet mover moved move stage flowId at_mover live later fits =>
      have distinct : mover ≠ id := fun same => other (congrArg some same)
      exact ⟨(List.getElem?_set_ne distinct).trans here, fun _ => rfl⟩
  | @acquire mover sock moved built stage acquired at_mover live later before fits took =>
      have distinct : mover ≠ id := fun same => other (congrArg some same)
      obtain ⟨sessions, tasks⟩ := acquireReply_keeps took
      simp only [setTask, sessions, tasks]
      exact ⟨(List.getElem?_set_ne distinct).trans here, fun _ => trivial⟩
  | @commit mover moved leg flow at_mover stage =>
      have distinct : mover ≠ id := fun same => other (congrArg some same)
      have lives : moved.live = true := by rw [Task.live, stage]
      refine ⟨(List.getElem?_set_ne distinct).trans here, ?_⟩
      intro live
      apply lookup_put_ne
      exact fun same => distinct (sound.slots.single at_mover here lives live same.symm)
  | @dropSlot mover moved at_mover stage =>
      have distinct : mover ≠ id := fun same => other (congrArg some same)
      have lives : moved.live = true := by rw [Task.live, stage]
      rw [dropSlot_eq sound.slots at_mover lives]
      refine ⟨(List.getElem?_set_ne distinct).trans here, ?_⟩
      intro live
      apply lookup_erase_ne
      exact fun same => distinct (sound.slots.single at_mover here lives live same.symm)
  | @dropReply mover moved at_mover stage =>
      have distinct : mover ≠ id := fun same => other (congrArg some same)
      obtain ⟨sessions, tasks⟩ : (proxy.dropReply moved).sessions = proxy.sessions ∧
        (proxy.dropReply moved).tasks = proxy.tasks := dropReply_keeps
      simp only [setTask, sessions, tasks]
      exact ⟨(List.getElem?_set_ne distinct).trans here, fun _ => trivial⟩

/-- The accounting of the flow table, after any run. -/
theorem flow_accounting {events : List Event}
    (followed : follow (step hijackDns) start events = some proxy) :
    UniqueKeys proxy.sessions ∧ proxy.sessions.length ≤ maxFlows ∧
      (∀ key, proxy.sessions.lookup key = some .setting → ∃! id, proxy.SettingUp id key) ∧
      (∀ key flow sink, proxy.sessions.lookup key = some (.ready flow sink) →
        ∃! id, proxy.Flowing id key flow) ∧
      (∀ addr, ((proxy.replies.lookup addr).map ReplyEntry.refs).getD 0 =
          proxy.tasks.countP (·.acquiredAt addr) ∧
        (proxy.replies.lookup addr = none ↔ proxy.tasks.countP (·.acquiredAt addr) = 0)) ∧
      ∀ event next, proxy.step hijackDns event = some next →
        ∀ (id : Nat) (task : Task), proxy.tasks[id]? = some task → event.flow ≠ some id →
          (task.live = true → next.sessions.lookup task.key = proxy.sessions.lookup task.key ∧
            proxy.sessions.lookup task.key ≠ none) ∧
          ∀ sock, task.reply = some sock →
            ∃ entry, next.replies.lookup task.origDst = some entry ∧ entry.sock = sock := by
  have sound := sound_of_follow followed
  refine ⟨sound.slots.unique, sound.slots.bounded, fun key => sound.setting_owner,
    fun key flow sink => sound.ready_owner, ?_, ?_⟩
  · intro addr
    have counted := sound.sockets.counted addr
    refine ⟨counted, ?_⟩
    rw [← counted]
    cases tabled : proxy.replies.lookup addr with
    | none => exact ⟨fun _ => rfl, fun _ => rfl⟩
    | some entry =>
        have positive := sound.sockets.positive tabled
        exact ⟨(fun same => nomatch same), fun zero => absurd zero (Nat.ne_of_gt positive)⟩
  · intro event next stepped id task here other
    have taken := taken_of_step stepped
    obtain ⟨there, kept⟩ := sound.others_kept taken here other
    refine ⟨?_, fun sock => (sound.taken taken).sockets.held there⟩
    intro live
    obtain ⟨slot, tabled, _⟩ := sound.slots.owned here live
    refine ⟨kept live, ?_⟩
    rw [tabled]
    exact Option.some_ne_none slot

end Results

section Sample

def quicFlow : FlowKey := ⟨⟨0x0a000002#32, 5000⟩, ⟨0xc6336401#32, 443⟩⟩

/-- A direct flow ends, and its key comes back before its reply socket is
released. -/
def recreated : List Event :=
  [.recv quicFlow, .task 0 (.route .direct), .task 0 .pass, .task 0 .pass, .task 0 .pass,
    .task 0 .pass, .task 0 (.acquire true), .task 0 .commit, .task 0 .exit, .task 0 .dropSlot,
    .recv quicFlow, .task 0 .dropReply]

theorem recreated_accounting : ∃ proxy, follow (step false) start recreated = some proxy ∧
    proxy.sessions.length ≤ maxFlows ∧ ∃! id, proxy.SettingUp id quicFlow := by
  refine ⟨_, rfl, ?_, ?_⟩
  · exact (@flow_accounting false _ recreated rfl).2.1
  · exact (@flow_accounting false _ recreated rfl).2.2.1 quicFlow rfl

end Sample

end Proxy

end Mirage.Udp.Transparent
