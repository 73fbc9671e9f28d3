import Mirage.Egress.FailClosed
import Mirage.Lib.Trace
import Mirage.Reload.Build

/-!
`ConfigWatcher::new` and the event loop of `spawn_watcher`, config_watcher.rs,
step by step beside a file that changes at any time. A file is known by its real
path, modification time and length; `contents` is what it says then. Every file
system event is queued with whether its paths make the loop reload. Directories
can be watched.
-/

namespace Mirage.Reload
open Router Egress Trace

/-- What `inspect_config` sees of the file. -/
structure Record where
  path : String
  mtime : Option Nat
  len : Nat
  deriving DecidableEq

/-- What a reload is due to: an event, or a poll that saw a record. -/
inductive Via where
  | event
  | poll (seen : Option Record)

/-- Where the start and the loop are. A reload waits, has read the file once, and
is through. -/
inductive Phase where
  | boot
  | loaded
  | watching
  | exited
  | waiting
  | begun (via : Via)
  | reading (via : Via) (first : Option Record)
  | done (via : Via)

variable {Text Outlet Outbounds Extras : Type}

/-- The file, the events in the channel, and the process. `attempted` is what the
last load read first. -/
structure World (Outlet Outbounds Extras : Type) where
  file : Option Record
  queue : List Bool
  phase : Phase
  lastRecord : Option Record
  attempted : Option Record
  core : Option (CoreState Outbounds Extras)
  globals : Globals Outlet

inductive Event (Text Outlet Outbounds Extras : Type) where
  | change (file : Option Record) (seen : List Bool)
  | load (build : Build Text Outlet Outbounds Extras)
  | watch
  | inspect
  | receive
  | poll
  | readFirst
  | build (build : Build Text Outlet Outbounds Extras)
  | record

/-- Events reach the channel from the time the directories are watched. -/
def Phase.watched : Phase → Bool
  | .boot | .loaded | .exited => false
  | _ => true

def World.rebuilt (contents : Record → Text) (world : World Outlet Outbounds Extras)
    (build : Build Text Outlet Outbounds Extras) (first : Option Record)
    (core : CoreState Outbounds Extras) :
    Except String (CoreState Outbounds Extras × Globals Outlet) :=
  buildState build (first.map contents) (world.file.map contents) (some core.outbounds) world.globals

def World.step (contents : Record → Text) (world : World Outlet Outbounds Extras) :
    Event Text Outlet Outbounds Extras → Option (World Outlet Outbounds Extras)
  | .change file seen =>
      some { world with
        file := file
        queue := world.queue ++ if world.phase.watched then seen else [] }
  | .load build =>
      match world.phase with
      | .boot =>
          let content := world.file.map contents
          match buildState build content content none world.globals with
          | .ok (core, globals) =>
              some { world with
                phase := .loaded
                attempted := world.file
                core := some core
                globals := globals }
          | .error _ => some { world with phase := .exited }
      | _ => none
  | .watch =>
      match world.phase with
      | .loaded => some { world with phase := .watching }
      | _ => none
  | .inspect =>
      match world.phase with
      | .watching => some { world with phase := .waiting, lastRecord := world.file }
      | _ => none
  | .receive =>
      match world.phase, world.queue with
      | .waiting, triggers :: rest =>
          some { world with queue := rest, phase := if triggers then .begun .event else .waiting }
      | _, _ => none
  | .poll =>
      match world.phase, world.queue with
      | .waiting, [] =>
          let seen := world.file
          if seen.isSome && !decide (seen = world.lastRecord) then
            some { world with phase := .begun (.poll seen) }
          else some world
      | _, _ => none
  | .readFirst =>
      match world.phase with
      | .begun via => some { world with phase := .reading via world.file, attempted := world.file }
      | _ => none
  | .build build =>
      match world.phase, world.core with
      | .reading via first, some core =>
          match world.rebuilt contents build first core with
          | .ok (core, globals) =>
              some { world with phase := .done via, core := some core, globals := globals }
          | .error _ => some { world with phase := .done via }
      | _, _ => none
  | .record =>
      match world.phase with
      | .done .event => some { world with phase := .waiting, lastRecord := world.file }
      | .done (.poll seen) => some { world with phase := .waiting, lastRecord := seen }
      | _ => none

/-- The process has not read anything. -/
def World.Initial (world : World Outlet Outbounds Extras) : Prop :=
  world.phase = .boot ∧ world.queue = []

section Statements
variable (contents : Record → Text)

/-- The last load read what the file says. -/
def World.Current (world : World Outlet Outbounds Extras) : Prop :=
  ∀ r, world.file = some r → world.attempted.map contents = some (contents r)

/-- While the loop waits without an event, the last load read what the file says,
or the next poll reloads. -/
def World.Fresh (world : World Outlet Outbounds Extras) : Prop :=
  world.phase = .waiting → world.queue = [] → ∀ r, world.file = some r →
    world.attempted.map contents = some (contents r) ∨ world.lastRecord ≠ some r

/-- What a reload owes: nothing of a failed one remains, and one that succeeds while
the file stays the same applies all of it. Nothing else touches the tables. -/
structure Trusted (world : World Outlet Outbounds Extras)
    (event : Event Text Outlet Outbounds Extras) (next : World Outlet Outbounds Extras) : Prop where
  untouched : (∀ build, event ≠ .load build) → (∀ build via first core, event = .build build →
      world.phase = .reading via first → world.core = some core →
      ∃ reason, world.rebuilt contents build first core = .error reason) →
    next.core = world.core ∧ next.globals = world.globals
  applied : ∀ build via first core made globals, event = .build build →
    world.phase = .reading via first → world.core = some core → first = world.file →
    world.rebuilt contents build first core = .ok (made, globals) →
    next.core = some made ∧ next.globals = globals ∧ ∃ r config, world.file = some r ∧
      build.parse (contents r) = .ok config ∧ AllOf build config world.globals made globals

/-- The record that the next poll compares with, where it is known. -/
def Phase.mark (lastRecord : Option Record) : Phase → Option (Option Record)
  | .waiting => some lastRecord
  | .reading (.poll seen) _ | .done (.poll seen) => some seen
  | _ => none

/-- A change that a record is taken after, but not read, is followed by an event that
reloads; so is one that brings the record back which the next poll compares with,
though the last load read something else; and no tag stands twice in the file. -/
def Conforming (world : World Outlet Outbounds Extras) :
    Event Text Outlet Outbounds Extras → Prop
  | .change file seen =>
      ∀ r, file = some r → world.phase.mark world.lastRecord = some (some r) →
        world.attempted.map contents = some (contents r) ∨ true ∈ seen ∨ true ∈ world.queue
  | .inspect => world.Current contents ∨ true ∈ world.queue
  | .record => world.phase = .done .event → world.Current contents ∨ true ∈ world.queue
  | .build build => ∀ r config, world.file = some r → build.parse (contents r) = .ok config →
      config.serverTags.Nodup
  | _ => True

end Statements

section Invariant
variable {contents : Record → Text} {world next : World Outlet Outbounds Extras}
  {event : Event Text Outlet Outbounds Extras}

/-- Where a poll would not see the file as changed, the last load read it, unless an
event that reloads is queued. -/
def Marked (contents : Record → Text) (world : World Outlet Outbounds Extras) : Prop :=
  ∀ r, world.file = some r → world.phase.mark world.lastRecord = some (some r) →
    world.attempted.map contents = some (contents r) ∨ true ∈ world.queue

theorem marked_change {file : Option Record} {seen : List Bool}
    (conforming : Conforming contents world (.change file seen))
    (stepped : world.step contents (.change file seen) = some next) : Marked contents next := by
  cases stepped
  intro r isFile isMark
  dsimp only at isFile isMark ⊢
  rcases conforming r isFile isMark with same | triggers | queued
  · exact .inl same
  · -- a mark is only known while the directories are watched
    have watched : world.phase.watched = true := by
      cases phase : world.phase <;> rw [phase] at isMark <;> first | rfl | cases isMark
    rw [watched, if_pos rfl]
    exact .inr (List.mem_append_right _ triggers)
  · exact .inr (List.mem_append_left _ queued)

theorem marked_step (marked : Marked contents world) (conforming : Conforming contents world event)
    (stepped : world.step contents event = some next) : Marked contents next := by
  cases event with
  | change => exact marked_change conforming stepped
  | load build =>
      rw [World.step] at stepped
      split at stepped
      · dsimp only at stepped
        split at stepped <;> cases stepped <;> intro r _ isMark <;> cases isMark
      · cases stepped
  | watch =>
      rw [World.step] at stepped
      split at stepped
      · cases stepped
        intro r _ isMark
        cases isMark
      · cases stepped
  | inspect =>
      rw [World.step] at stepped
      split at stepped
      · cases stepped
        intro r isFile _
        exact conforming.imp_left fun current => current r isFile
      · cases stepped
  -- A notice that triggers nothing is taken from the queue, the one that did is still in it.
  | receive =>
      rw [World.step] at stepped
      split at stepped
      · next triggers rest waiting queue =>
        cases stepped
        intro r isFile isMark
        cases triggers with
        | true => cases isMark
        | false =>
            have before : world.phase.mark world.lastRecord = some (some r) := by
              rw [waiting]
              exact isMark
            refine (marked r isFile before).imp_right fun queued => ?_
            rw [queue] at queued
            exact (List.mem_cons.mp queued).resolve_left (by decide)
      · cases stepped
  | poll =>
      rw [World.step] at stepped
      split at stepped
      · dsimp only at stepped
        split at stepped
        · cases stepped
          intro r _ isMark
          cases isMark
        · cases stepped
          exact marked
      · cases stepped
  | readFirst =>
      rw [World.step] at stepped
      split at stepped
      · cases stepped
        intro r isFile _
        dsimp only at isFile ⊢
        rw [isFile]
        exact .inl rfl
      · cases stepped
  | build build =>
      rw [World.step] at stepped
      split at stepped
      -- Only a poll that found a change carries the record of the file it saw.
      · next via first core phase isCore =>
        have same : ∀ r, (Phase.done via).mark world.lastRecord = some (some r) →
            world.phase.mark world.lastRecord = some (some r) := by
          intro r isMark
          rw [phase]
          cases via with
          | event => cases isMark
          | poll seen => exact isMark
        split at stepped <;> cases stepped <;> exact fun r isFile isMark =>
          marked r isFile (same r isMark)
      · cases stepped
  | record =>
      rw [World.step] at stepped
      split at stepped
      · next phase =>
        cases stepped
        intro r isFile _
        exact (conforming phase).imp_left fun current => current r isFile
      · next seen phase =>
        cases stepped
        intro r isFile isMark
        refine marked r isFile ?_
        rw [phase]
        exact isMark
      · cases stepped

theorem trusted_step (conforming : Conforming contents world event)
    (stepped : world.step contents event = some next) : Trusted contents world event next := by
  refine ⟨?_, ?_⟩
  · intro notLoad failed
    cases event with
    | load build => exact absurd rfl (notLoad build)
    | build build =>
        rw [World.step] at stepped
        split at stepped
        · next via first core phase isCore =>
          obtain ⟨reason, error⟩ := failed build via first core rfl phase isCore
          rw [error] at stepped
          cases stepped
          exact ⟨rfl, rfl⟩
        · cases stepped
    | change =>
        cases stepped
        exact ⟨rfl, rfl⟩
    | watch | inspect | readFirst | receive | record =>
        rw [World.step] at stepped
        split at stepped <;> cases stepped <;> exact ⟨rfl, rfl⟩
    | poll =>
        rw [World.step] at stepped
        split at stepped
        · dsimp only at stepped
          split at stepped <;> cases stepped <;> exact ⟨rfl, rfl⟩
        · cases stepped
  · rintro build via first core made globals rfl phase isCore rfl built
    rw [World.step, phase, isCore] at stepped
    dsimp only at stepped
    rw [built] at stepped
    cases stepped
    obtain ⟨text, config, said, parsed, all⟩ := buildState_ok built
    obtain ⟨r, isFile, rfl⟩ := Option.map_eq_some_iff.mp said
    exact ⟨rfl, rfl, r, config, isFile, parsed, all (conforming r config isFile parsed)⟩

end Invariant

/-- Hot reload is all or nothing and misses no change, wherever the file changes
between its reads with an event that is queued, and no tag stands twice. -/
theorem reload_trusted {contents : Record → Text} {start world : World Outlet Outbounds Extras}
    {events : List (Event Text Outlet Outbounds Extras)} (initial : start.Initial)
    (followed : follow (World.step contents) start events = some world)
    (conforming : Throughout (World.step contents) (Conforming contents) start events) :
    world.Fresh contents ∧ Throughout (World.step contents) (fun world event =>
      ∀ next, world.step contents event = some next → Trusted contents world event next)
        start events := by
  have marked : Marked contents start := by
    intro r _ isMark
    rw [initial.1] at isMark
    cases isMark
  refine ⟨?_, ?_⟩
  · have final : Marked contents world :=
      follow_invariant (Marked contents) marked_step marked followed conforming
    intro waiting empty r isFile
    by_cases recorded : world.lastRecord = some r
    · have isMark : world.phase.mark world.lastRecord = some (some r) := by
        rw [waiting]
        exact congrArg some recorded
      rcases final r isFile isMark with same | queued
      · exact .inl same
      · rw [empty] at queued
        cases queued
    · exact .inr recorded
  · exact throughout_of_invariant (fun _ => True) (fun _ _ _ => trivial)
      (fun _ conforming _ stepped => trusted_step conforming stepped) trivial conforming

/-- Files say configurations outright, and every outbound is there. -/
def plainBuild : Build Config UpstreamConfig Unit Unit where
  parse := .ok
  parsers := plainParsers
  crates := literalCrates
  geo := noGeoData
  upstreams := plainUpstreams
  newOutbounds _ := .ok ()
  containsKey _ _ := true
  extras _ := ()
  rates := []
  now := 0

/-- The length tells the two configurations apart. -/
def twoContents (r : Record) : Config where
  inbounds := [.other "in"]
  outbounds := []
  rules := []
  defaultOutbound := if r.len = 1 then "direct" else "block"
  deviceProfiles := []
  profiles _ := none

def oldRecord : Record := ⟨"/etc/mirage/config.json", some 0, 1⟩

def newRecord : Record := ⟨"/etc/mirage/config.json", some 1, 2⟩

def bootWorld : World UpstreamConfig Unit Unit where
  file := some oldRecord
  queue := []
  phase := .boot
  lastRecord := none
  attempted := none
  core := none
  globals := ⟨none, none, ⟨Auth.CredsRegistry.empty, [], fun _ => by simp [Auth.CredsRegistry.empty],
    Quota.Registry.empty⟩⟩

def noticedChange : List (Event Config UpstreamConfig Unit Unit) :=
  [.load plainBuild, .watch, .inspect, .change (some newRecord) [true], .receive, .readFirst,
    .build plainBuild, .record]

theorem noticedChange_conforming :
    Throughout (World.step twoContents) (Conforming twoContents) bootWorld noticedChange := by
  have current : ∀ r, some oldRecord = some r →
      some (twoContents oldRecord) = some (twoContents r) := by
    rintro r ⟨⟩
    rfl
  have renewed : ∀ r, some newRecord = some r →
      some (twoContents newRecord) = some (twoContents r) := by
    rintro r ⟨⟩
    rfl
  refine throughout_cons trivial rfl ?_
  refine throughout_cons trivial rfl ?_
  refine throughout_cons (.inl current) rfl ?_
  refine throughout_cons (fun _ _ _ => .inr (.inl List.mem_cons_self)) rfl ?_
  refine throughout_cons trivial rfl ?_
  refine throughout_cons trivial rfl ?_
  refine throughout_cons ?_ rfl ?_
  · intro r config _ parsed
    cases parsed
    exact List.nodup_nil
  · exact throughout_cons (fun _ => .inl renewed) rfl trivial

/-- After that the loop has the new configuration. -/
theorem reload_trusted_noticed : ∃ world,
    follow (World.step twoContents) bootWorld noticedChange = some world ∧
      world.Fresh twoContents := by
  obtain ⟨world, followed⟩ : ∃ world,
      follow (World.step twoContents) bootWorld noticedChange = some world := ⟨_, rfl⟩
  exact ⟨world, followed, (reload_trusted ⟨rfl, rfl⟩ followed noticedChange_conforming).1⟩

/-- A change between the first load and the watch is never noticed: the loop takes
the new file for the one it loaded. -/
theorem early_change_missed : ¬ ∀ (start world : World UpstreamConfig Unit Unit)
    (events : List (Event Config UpstreamConfig Unit Unit)), start.Initial →
    follow (World.step twoContents) start events = some world →
    world.Fresh twoContents ∧ Throughout (World.step twoContents) (fun world event =>
      ∀ next, world.step twoContents event = some next → Trusted twoContents world event next)
        start events := by
  intro law
  obtain ⟨world, followed, waiting, empty, file, attempted, recorded⟩ : ∃ world,
      follow (World.step twoContents) bootWorld
        [.load plainBuild, .change (some newRecord) [], .watch, .inspect] = some world ∧
      world.phase = .waiting ∧ world.queue = [] ∧ world.file = some newRecord ∧
      world.attempted = some oldRecord ∧ world.lastRecord = some newRecord :=
    ⟨_, rfl, rfl, rfl, rfl, rfl, rfl⟩
  have fresh := (law bootWorld world _ ⟨rfl, rfl⟩ followed).1 waiting empty newRecord file
  rw [attempted, recorded] at fresh
  rcases fresh with same | differs
  · have defaults := congrArg Config.defaultOutbound (Option.some.inj same)
    exact absurd defaults (by decide)
  · exact differs rfl

end Mirage.Reload
