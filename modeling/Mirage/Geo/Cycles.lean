import Mirage.Geo.Updater

/-!
Update cycles of the geo data updater over the life of its processes:
`spawn_updater` of router/geo_updater.rs, one file operation at a time. Each
cycle has the configuration of its time.
-/

namespace Mirage.Geo
open Trace Word

structure UpdaterState where
  geodataDir : String
  sources : List GeoSource
  updateDays : Nat

structure Received where
  url : String
  validators : Validators
  body : Bytes
  deriving DecidableEq

/-- An update under way: the operations to come, what it returns then, and what
it puts in place. -/
structure Job where
  source : GeoSource
  ops : List FileOp
  result : Except String MetaFile
  body : Option Received

/-- A cycle under way. `failed` are the sources whose update failed, `installed`
those whose file was replaced. -/
structure Cycle where
  snap : UpdaterState
  remaining : List GeoSource
  metadata : MetaFile
  job : Option Job
  failed : List String
  installed : List String

/-- The data directories and the running cycle. What has arrived and where the
last file of each source came from are remembered for the statements only. -/
structure World where
  disks : String → Disk
  cycle : Option Cycle
  received : List Received
  origin : String → String → Option String

inductive Event where
  | start (snap : UpdaterState) (metaRead : Bool)
  | ask (env : Env)
  | op
  | finish (written : Bool)
  | crash
  | removed (dir name : String)

def Cycle.proceed (cycle : Cycle) (job : Job) : Cycle :=
  match job.ops with
  | _ :: _ => { cycle with job := some job }
  | [] =>
      match job.result with
      | .ok metadata => { cycle with metadata := metadata, job := none }
      | .error _ => { cycle with failed := job.source.name :: cycle.failed, job := none }

def Job.of (cycle : Cycle) (source : GeoSource) (env : Env) (disk : Disk) : Job :=
  let update := updateOne cycle.snap.updateDays source env disk cycle.metadata
  { source := source
    ops := update.1
    result := update.2
    body :=
      match request cycle.snap.updateDays source env disk cycle.metadata with
      | some (_, .ok (url, .body bytes validators)) => some ⟨url, validators, bytes⟩
      | _ => none }

def FileOp.installs : FileOp → Bool
  | .rename _ => true
  | _ => false

def World.step (world : World) : Event → Option World
  | .start snap metaRead =>
      match world.cycle with
      | some _ => none
      | none =>
          if snap.sources.isEmpty || !decide (snap.sources.map GeoSource.name).Nodup then some world
          else
            let metadata : MetaFile :=
              if metaRead then (world.disks snap.geodataDir).metadata else fun _ => none
            some { world with cycle := some ⟨snap, snap.sources, metadata, none, [], []⟩ }
  | .ask env =>
      match world.cycle with
      | none => none
      | some cycle =>
          match cycle.job, cycle.remaining with
          | none, source :: rest =>
              let job := Job.of cycle source env (world.disks cycle.snap.geodataDir)
              some { world with
                cycle := some (Cycle.proceed { cycle with remaining := rest } job)
                received := world.received ++ job.body.toList }
          | _, _ => none
  | .op =>
      match world.cycle with
      | none => none
      | some cycle =>
          match cycle.job with
          | some { source, ops := first :: rest, result, body } =>
              let dir := cycle.snap.geodataDir
              let job : Job := ⟨source, rest, result, body⟩
              let cycle := if first.installs then
                  { cycle with installed := source.name :: cycle.installed } else cycle
              some { world with
                disks := Function.update world.disks dir ((world.disks dir).apply first)
                cycle := some (cycle.proceed job)
                origin := if first.installs then
                    Function.update world.origin dir
                      (Function.update (world.origin dir) source.name (body.map Received.url))
                  else world.origin }
          | _ => none
  | .finish written =>
      match world.cycle with
      | none => none
      | some cycle =>
          match cycle.job, cycle.remaining with
          | none, [] =>
              let dir := cycle.snap.geodataDir
              let disk := world.disks dir
              some { world with
                disks := Function.update world.disks dir
                  { disk with metadata := if written then cycle.metadata else disk.metadata }
                cycle := none }
          | _, _ => none
  | .crash => some { world with cycle := none }
  | .removed dir name =>
      let disk := world.disks dir
      some { world with
        disks := Function.update world.disks dir
          { disk with dat := Function.update disk.dat name none } }

def World.Initial (world : World) : Prop :=
  world.cycle = none ∧ world.received = [] ∧ (∀ dir name, world.origin dir name = none) ∧
    ∀ dir name, (world.disks dir).metadata name = none

section Statements

def World.asked (world : World) : Option (Cycle × GeoSource) :=
  world.cycle.bind fun cycle =>
    match cycle.job, cycle.remaining with
    | none, source :: _ => some (cycle, source)
    | _, _ => none

/-- A file of the directory is untouched, or a body that arrived from a mirror of
the source, whole and as data of its kind. -/
def FileTrusted (world next : World) (dir name : String) : Prop :=
  (next.disks dir).dat name = (world.disks dir).dat name ∨
    ∃ cycle ∈ world.cycle, cycle.snap.geodataDir = dir ∧ ∃ source ∈ cycle.snap.sources,
      source.name = name ∧ ∃ r ∈ next.received, r.url ∈ source.url ∧
        (next.disks dir).dat name = some r.body ∧ validateDat (.ok r.body) source.kind = .ok () ∧
        isData source.kind r.body = true

structure Trusted (world : World) (event : Event) (next : World) : Prop where
  files : ∀ dir name, event = .removed dir name ∨ FileTrusted world next dir name
  notModified : ∀ env cycle source cond url, event = .ask env → world.asked = some (cycle, source) →
    request cycle.snap.updateDays source env (world.disks cycle.snap.geodataDir) cycle.metadata =
      some (cond, .ok (url, .notModified)) →
    ∃ r ∈ world.received, r.url = url ∧ cond = some r.validators ∧
      (world.disks cycle.snap.geodataDir).dat source.name = some r.body
  failed : ∀ cycle job reason, event = .op → world.cycle = some cycle → cycle.job = some job →
    job.result = .error reason → ∀ dir name, (next.disks dir).dat name = (world.disks dir).dat name
  metadata : ∀ dir name, (next.disks dir).metadata name = (world.disks dir).metadata name ∨
    ∃ cycle ∈ world.cycle, event = .finish true ∧ cycle.snap.geodataDir = dir ∧
      name ∉ cycle.failed

/-- Mirrors send data of the source's kind or nothing that passes for data, answer
304 only to validators and only where the file came from them, and meta.json is
read at the start of a cycle and written at its end if a file was replaced. -/
def Conforming (world : World) : Event → Prop
  | .start snap metaRead =>
      metaRead = true ∨ ∀ name, (world.disks snap.geodataDir).metadata name = none
  | .ask env =>
      ∀ cycle source, world.asked = some (cycle, source) → ∀ attempt i,
        (∀ cond bytes validators,
          doFetch (env.net.answer attempt i cond) = .ok (.body bytes validators) →
          validateDat (.ok bytes) source.kind = .ok () → isData source.kind bytes = true) ∧
        doFetch (env.net.answer attempt i none) ≠ .ok .notModified ∧
        ∀ url validators, source.url[i]? = some url →
          doFetch (env.net.answer attempt i (some validators)) = .ok .notModified →
          world.origin cycle.snap.geodataDir source.name = some url
  | .op => True
  | .finish written => written = true ∨ ∀ cycle ∈ world.cycle, cycle.installed = []
  | .crash => ∀ cycle ∈ world.cycle, cycle.installed = []
  | .removed _ _ => True

end Statements

section Updates
variable {cycle : Cycle} {source : GeoSource} {env : Env} {disk : Disk}

/-- A body in place was accepted by the validation. -/
theorem install_cases (metadata : MetaFile) (bytes : Bytes) (validators : Validators) :
    ((∃ reason, (install source env metadata bytes validators).2 = .error reason) ∧
      ∀ op ∈ (install source env metadata bytes validators).1, op.installs = false) ∨
    validateDat (.ok bytes) source.kind = .ok () ∧
      install source env metadata bytes validators =
        ([.writeTmp source.name bytes, .rename source.name],
          .ok (stamped source env metadata validators)) := by
  have undo : ∀ op ∈ FileOp.writeTmp source.name bytes ::
      (if env.removed then [FileOp.removeTmp source.name] else []), op.installs = false := by
    split <;> simp [FileOp.installs]
  simp only [install]
  cases env.dirMade with
  | false => exact .inl ⟨⟨_, rfl⟩, fun _ member => absurd member List.not_mem_nil⟩
  | true =>
      rw [Bool.not_true, if_neg Bool.false_ne_true]
      cases env.written with
      | some part =>
          refine .inl ⟨⟨_, rfl⟩, ?_⟩
          intro op member
          rw [List.mem_singleton.mp member]
          rfl
      | none =>
          dsimp only
          cases read : env.readable with
          | false => exact .inl ⟨⟨_, rfl⟩, undo⟩
          | true =>
              rw [if_pos rfl]
              cases valid : validateDat (.ok bytes) source.kind with
              | error reason => exact .inl ⟨⟨_, rfl⟩, undo⟩
              | ok _ =>
                  dsimp only
                  cases env.renamed with
                  | false => exact .inl ⟨⟨_, rfl⟩, undo⟩
                  | true => exact .inr ⟨rfl, rfl⟩

/-- An update fails without touching the file, has nothing to do, hears that the
file is up to date, or puts a body in place. -/
theorem jobOf_cases (cycle : Cycle) (source : GeoSource) (env : Env) (disk : Disk) :
    ((∃ reason, (Job.of cycle source env disk).result = .error reason) ∧
      ∀ op ∈ (Job.of cycle source env disk).ops, op.installs = false) ∨
    ((Job.of cycle source env disk).ops = [] ∧
      (Job.of cycle source env disk).result = .ok cycle.metadata) ∨
    ((Job.of cycle source env disk).ops = [] ∧ ∃ url,
      fetchWithFallback source env.net (condition source disk cycle.metadata) =
        .ok (url, .notModified) ∧
      (Job.of cycle source env disk).result = .ok (stamped source env cycle.metadata
        (((cycle.metadata source.name).map SourceMeta.validators).getD ⟨none, none⟩))) ∨
    ∃ r, (Job.of cycle source env disk).body = some r ∧
      fetchWithFallback source env.net (condition source disk cycle.metadata) =
        .ok (r.url, .body r.body r.validators) ∧
      validateDat (.ok r.body) source.kind = .ok () ∧
      (Job.of cycle source env disk).ops =
        [.writeTmp source.name r.body, .rename source.name] ∧
      (Job.of cycle source env disk).result =
        .ok (stamped source env cycle.metadata r.validators) := by
  simp only [Job.of, updateOne]
  cases asked : request cycle.snap.updateDays source env disk cycle.metadata with
  | none =>
      dsimp only
      split
      · exact .inl ⟨⟨_, rfl⟩, fun _ member => absurd member List.not_mem_nil⟩
      · exact .inr (.inl ⟨rfl, rfl⟩)
  | some answer =>
      obtain ⟨cond, fetched⟩ := answer
      have isIt : fetchWithFallback source env.net (condition source disk cycle.metadata) =
          fetched := by
        rw [request] at asked
        split at asked
        · cases asked
        · cases asked
          rfl
      cases fetched with
      | error reason => exact .inl ⟨⟨_, rfl⟩, fun _ member => absurd member List.not_mem_nil⟩
      | ok found =>
          obtain ⟨url, out⟩ := found
          cases out with
          | notModified => exact .inr (.inr (.inl ⟨rfl, url, isIt, rfl⟩))
          | body bytes validators =>
              rcases install_cases cycle.metadata bytes validators with failed | ⟨valid, placed⟩
              · exact .inl failed
              · refine .inr (.inr (.inr ⟨⟨url, validators, bytes⟩, rfl, isIt, valid, ?_, ?_⟩))
                · exact congrArg Prod.fst placed
                · exact congrArg Prod.snd placed

theorem condition_some {metadata : MetaFile} {validators : Validators}
    (sent : condition source disk metadata = some validators) :
    (disk.dat source.name).isSome ∧ ∃ m, metadata source.name = some m ∧ m.validators = validators := by
  rw [condition] at sent
  split at sent
  · next there =>
    obtain ⟨m, remembered, same⟩ := Option.map_eq_some_iff.mp sent
    exact ⟨((Bool.and_eq_true _ _).mp there).1, m, remembered, same⟩
  · cases sent

end Updates

section Invariant
variable {world next : World} {dir name : String} {cycle : Cycle} {job : Job}

/-- The validators came with the body that was put in place last, which is still
there unless it was deleted. -/
def Synced (world : World) (dir name : String) (validators : Validators) : Prop :=
  ∃ r ∈ world.received, world.origin dir name = some r.url ∧ r.validators = validators ∧
    ((world.disks dir).dat name = none ∨ (world.disks dir).dat name = some r.body)

/-- A job ends in an error and installs nothing, or is putting a good body in place. -/
inductive JobOk (disk : Disk) (received : List Received) (metadata : MetaFile) (job : Job) : Prop where
  | failing (reason : String) (result : job.result = .error reason)
      (quiet : ∀ op ∈ job.ops, op.installs = false)
  | installing (r : Received) (arrived : r ∈ received) (body : job.body = some r)
      (mirror : r.url ∈ job.source.url) (valid : validateDat (.ok r.body) job.source.kind = .ok ())
      (data : isData job.source.kind r.body = true) (env : Env)
      (result : job.result = .ok (stamped job.source env metadata r.validators))
      (ops : job.ops = [.writeTmp job.source.name r.body, .rename job.source.name] ∨
        job.ops = [.rename job.source.name] ∧ disk.tmp job.source.name = some r.body)

/-- The sources whose update is to come or under way. -/
def Cycle.names (cycle : Cycle) : List String :=
  (cycle.job.map fun job => job.source.name).toList ++ cycle.remaining.map GeoSource.name

structure Running (world : World) (cycle : Cycle) : Prop where
  distinct : (cycle.failed ++ cycle.names).Nodup
  kept : ∀ name ∈ cycle.failed ++ cycle.names,
    cycle.metadata name = (world.disks cycle.snap.geodataDir).metadata name
  synced : ∀ name m, cycle.metadata name = some m →
    Synced world cycle.snap.geodataDir name m.validators
  listed : ∀ source ∈ cycle.remaining, source ∈ cycle.snap.sources
  job : ∀ job ∈ cycle.job, job.source ∈ cycle.snap.sources ∧
    JobOk (world.disks cycle.snap.geodataDir) world.received cycle.metadata job

structure Settled (world : World) : Prop where
  saved : ∀ dir name m, (world.disks dir).metadata name = some m →
    Synced world dir name m.validators ∨
      ∃ cycle ∈ world.cycle, cycle.snap.geodataDir = dir ∧ name ∈ cycle.installed
  running : ∀ cycle ∈ world.cycle, Running world cycle

theorem Synced.mono {validators : Validators} (synced : Synced world dir name validators)
    (received : world.received ⊆ next.received)
    (origin : next.origin dir name = world.origin dir name)
    (dat : (next.disks dir).dat name = (world.disks dir).dat name ∨ (next.disks dir).dat name = none) :
    Synced next dir name validators := by
  obtain ⟨r, arrived, from_, came, there⟩ := synced
  refine ⟨r, received arrived, origin.trans from_, came, ?_⟩
  rcases dat with same | gone
  · rw [same]
    exact there
  · exact .inl gone

theorem JobOk.mono {disk disk' : Disk} {received received' : List Received} {metadata : MetaFile}
    (ok : JobOk disk received metadata job) (more : received ⊆ received')
    (tmp : disk'.tmp = disk.tmp) : JobOk disk' received' metadata job := by
  cases ok with
  | failing reason result quiet => exact .failing reason result quiet
  | installing r arrived body mirror valid data env result ops =>
      exact .installing r (more arrived) body mirror valid data env result (tmp ▸ ops)

theorem running_proceed
    (distinct : (cycle.failed ++ job.source.name :: cycle.remaining.map GeoSource.name).Nodup)
    (kept : ∀ name ∈ cycle.failed ++ job.source.name :: cycle.remaining.map GeoSource.name,
      cycle.metadata name = (world.disks cycle.snap.geodataDir).metadata name)
    (listed : ∀ source ∈ cycle.remaining, source ∈ cycle.snap.sources)
    (member : job.source ∈ cycle.snap.sources)
    (going : job.ops ≠ [] ∨ (∃ reason, job.result = .error reason) →
      (∀ name m, cycle.metadata name = some m →
        Synced world cycle.snap.geodataDir name m.validators) ∧
      (job.ops ≠ [] →
        JobOk (world.disks cycle.snap.geodataDir) world.received cycle.metadata job))
    (done : ∀ metadata, job.ops = [] → job.result = .ok metadata →
      (∀ name, name ≠ job.source.name → metadata name = cycle.metadata name) ∧
      ∀ name m, metadata name = some m →
        Synced world cycle.snap.geodataDir name m.validators) :
    Running world (cycle.proceed job) := by
  rw [Cycle.proceed]
  cases ops : job.ops with
  | cons first rest =>
      have more : job.ops ≠ [] := by
        rw [ops]
        exact List.cons_ne_nil _ _
      obtain ⟨synced, ok⟩ := going (.inl more)
      refine ⟨distinct, kept, synced, listed, ?_⟩
      rintro other isIt
      cases isIt
      exact ⟨member, ok more⟩
  | nil =>
      have swapped := @List.perm_middle _ job.source.name cycle.failed
        (cycle.remaining.map GeoSource.name)
      have shorter : cycle.remaining.map GeoSource.name ⊆
          job.source.name :: cycle.remaining.map GeoSource.name := List.subset_cons_self _ _
      cases result : job.result with
      | error reason =>
          obtain ⟨synced, _⟩ := going (.inr ⟨reason, result⟩)
          exact ⟨swapped.nodup_iff.mp distinct, fun name inside => kept name (swapped.mem_iff.mpr inside),
            synced, listed, fun _ missing => (nomatch missing)⟩
      | ok metadata =>
          obtain ⟨differs, synced⟩ := done metadata ops result
          obtain ⟨apart, rest⟩ := List.nodup_cons.mp (swapped.nodup_iff.mp distinct)
          refine ⟨rest, ?_, synced, listed, fun _ missing => (nomatch missing)⟩
          intro name inside
          have other : name ≠ job.source.name := fun same => apart (same ▸ inside)
          refine (differs name other).trans (kept name ?_)
          rcases List.mem_append.mp inside with failed | later
          · exact List.mem_append_left _ failed
          · exact List.mem_append_right _ (shorter later)

theorem settled_start {snap : UpdaterState} {metaRead : Bool} (settled : Settled world)
    (conforming : Conforming world (.start snap metaRead))
    (stepped : world.step (.start snap metaRead) = some next) : Settled next := by
  rw [World.step] at stepped
  cases idle : world.cycle with
  | some cycle =>
      rw [idle] at stepped
      cases stepped
  | none =>
      rw [idle] at stepped
      dsimp only at stepped
      split at stepped
      · cases stepped
        exact settled
      · next distinct =>
        have loaded : (if metaRead then (world.disks snap.geodataDir).metadata else fun _ => none) =
            (world.disks snap.geodataDir).metadata := by
          rcases conforming with read | empty
          · rw [if_pos read]
          · funext name
            split
            · rfl
            · exact (empty name).symm
        rw [loaded] at stepped
        cases stepped
        rw [Bool.or_eq_true, not_or, Bool.not_eq_true', Bool.not_eq_false, decide_eq_true_iff]
          at distinct
        have saved : ∀ dir name m, (world.disks dir).metadata name = some m →
            Synced world dir name m.validators := by
          intro dir name m remembered
          rcases settled.saved dir name m remembered with synced | ⟨_, running, _⟩
          · exact synced
          · rw [idle] at running
            cases running
        refine ⟨fun dir name m remembered => .inl (saved dir name m remembered), ?_⟩
        rintro cycle isIt
        cases isIt
        exact ⟨distinct.2, fun _ _ => rfl, saved snap.geodataDir, fun _ member => member,
          fun _ missing => (nomatch missing)⟩

@[simp] theorem proceed_snap : (cycle.proceed job).snap = cycle.snap := by
  rw [Cycle.proceed]
  split
  · rfl
  · split <;> rfl

@[simp] theorem proceed_installed : (cycle.proceed job).installed = cycle.installed := by
  rw [Cycle.proceed]
  split
  · rfl
  · split <;> rfl

section Ask
variable {source : GeoSource} {rest : List GeoSource} {env : Env}

theorem asked_eq (running : world.cycle = some cycle) (idle : cycle.job = none)
    (remaining : cycle.remaining = source :: rest) : world.asked = some (cycle, source) := by
  simp only [World.asked, running, Option.bind_some, idle, remaining]

/-- A 304 comes of the mirror that sent the file and the validators. -/
theorem notModified_trusted (settled : Running world cycle) (running : world.cycle = some cycle)
    (idle : cycle.job = none) (remaining : cycle.remaining = source :: rest)
    (conforming : Conforming world (.ask env)) {cond : Option Validators} {url : String}
    (sent : cond = condition source (world.disks cycle.snap.geodataDir) cycle.metadata)
    (fetched : fetchWithFallback source env.net cond = .ok (url, .notModified)) :
    ∃ m, cycle.metadata source.name = some m ∧ ∃ r ∈ world.received, r.url = url ∧
      cond = some r.validators ∧ r.validators = m.validators ∧
      (world.disks cycle.snap.geodataDir).dat source.name = some r.body := by
  obtain ⟨attempt, i, mirror, answer⟩ := answered_of_fetch fetched
  obtain ⟨_, unasked, asked⟩ := conforming cycle source (asked_eq running idle remaining) attempt i
  cases kind : cond with
  | none =>
      rw [kind] at answer
      exact absurd answer unasked
  | some validators =>
      rw [kind] at answer sent
      have origin := asked url validators mirror answer
      obtain ⟨there, m, remembered, same⟩ := condition_some sent.symm
      obtain ⟨r, arrived, from_, came, standing⟩ := settled.synced source.name m remembered
      refine ⟨m, remembered, r, arrived, ?_, ?_, came, ?_⟩
      · exact Option.some.inj (from_.symm.trans origin)
      · rw [came, same]
      · rcases standing with gone | stands
        · rw [gone] at there
          cases there
        · exact stands

theorem settled_ask (settled : Settled world) (conforming : Conforming world (.ask env))
    (stepped : world.step (.ask env) = some next) : Settled next := by
  rw [World.step] at stepped
  cases running : world.cycle with
  | none =>
      rw [running] at stepped
      cases stepped
  | some cycle =>
      rw [running] at stepped
      dsimp only at stepped
      split at stepped
      · next source rest idle remaining =>
        have ok := settled.running cycle running
        have distinct := ok.distinct
        have kept := ok.kept
        simp only [Cycle.names, idle, remaining, Option.map_none, Option.toList_none,
          List.nil_append, List.map_cons] at distinct kept
        have listed : ∀ other ∈ source :: rest, other ∈ cycle.snap.sources := remaining ▸ ok.listed
        cases stepped
        have more : world.received ⊆ world.received ++
            (Job.of cycle source env (world.disks cycle.snap.geodataDir)).body.toList :=
          List.subset_append_left _ _
        refine ⟨?_, ?_⟩
        · intro dir name m remembered
          rcases settled.saved dir name m remembered with synced | ⟨other, isIt, here, installed⟩
          · exact .inl (synced.mono more rfl (.inl rfl))
          · rw [running] at isIt
            cases isIt
            exact .inr ⟨_, rfl, by rw [proceed_snap]; exact here,
              by rw [proceed_installed]; exact installed⟩
        · rintro other isIt
          cases isIt
          have synced : ∀ name m, cycle.metadata name = some m → Synced
              { world with
                cycle := some (Cycle.proceed { cycle with remaining := rest }
                  (Job.of cycle source env (world.disks cycle.snap.geodataDir)))
                received := world.received ++
                  (Job.of cycle source env (world.disks cycle.snap.geodataDir)).body.toList }
              cycle.snap.geodataDir name m.validators := fun name m remembered =>
            (ok.synced name m remembered).mono more rfl (.inl rfl)
          refine running_proceed distinct kept
            (fun other member => listed other (List.mem_cons_of_mem _ member))
            (listed source List.mem_cons_self) ?_ ?_
          · intro unfinished
            refine ⟨synced, fun pending => ?_⟩
            rcases jobOf_cases cycle source env (world.disks cycle.snap.geodataDir) with
              ⟨⟨reason, result⟩, quiet⟩ | ⟨ops, _⟩ | ⟨ops, _⟩ |
                ⟨r, body, fetched, valid, ops, result⟩
            · exact .failing reason result quiet
            · exact absurd ops pending
            · exact absurd ops pending
            -- Only here a file is about to be replaced, by bytes that a mirror sent and that passed
            -- the check.
            · obtain ⟨attempt, i, mirror, answer⟩ := answered_of_fetch fetched
              obtain ⟨kind, _⟩ := conforming cycle source (asked_eq running idle remaining) attempt i
              refine .installing r (List.mem_append_right _ ?_) body ?_ valid
                (kind _ _ _ answer valid) env result (.inl ops)
              · rw [body]
                exact List.mem_singleton.mpr rfl
              · exact List.mem_of_getElem? mirror
          · intro metadata none_ result
            rcases jobOf_cases cycle source env (world.disks cycle.snap.geodataDir) with
              ⟨⟨reason, failed⟩, _⟩ | ⟨_, same⟩ | ⟨_, url, fetched, same⟩ | ⟨r, _, _, _, ops, _⟩
            · rw [failed] at result
              cases result
            · rw [same] at result
              cases result
              exact ⟨fun _ _ => rfl, synced⟩
            · rw [same] at result
              cases result
              -- Not modified: the entry gets a new time of check and keeps its validators.
              obtain ⟨m, remembered, _⟩ := notModified_trusted ok running idle remaining conforming
                rfl fetched
              refine ⟨fun name other => Function.update_of_ne other _ _, ?_⟩
              intro name entry written
              by_cases here : name = source.name
              · subst here
                rw [stamped, Function.update_self, remembered] at written
                cases written
                exact synced source.name m remembered
              · rw [stamped, Function.update_of_ne here] at written
                exact synced name entry written
            · rw [ops] at none_
              cases none_
      · cases stepped

end Ask

@[simp] theorem apply_metadata (disk : Disk) (op : FileOp) :
    (disk.apply op).metadata = disk.metadata := by
  cases op <;> rfl

theorem apply_dat {op : FileOp} (quiet : op.installs = false) (disk : Disk) :
    (disk.apply op).dat = disk.dat := by
  cases op with
  | writeTmp => rfl
  | removeTmp => rfl
  | rename => cases quiet

section Op
variable {source : GeoSource} {first : FileOp} {rest : List FileOp} {result : Except String MetaFile}
  {body : Option Received}

theorem step_op (stepped : world.step .op = some next) :
    ∃ cycle source first rest result body, world.cycle = some cycle ∧
      cycle.job = some ⟨source, first :: rest, result, body⟩ ∧
      next.received = world.received ∧
      next.disks = Function.update world.disks cycle.snap.geodataDir
        ((world.disks cycle.snap.geodataDir).apply first) ∧
      next.cycle = some (Cycle.proceed (if first.installs then
        { cycle with installed := source.name :: cycle.installed } else cycle)
          ⟨source, rest, result, body⟩) ∧
      next.origin = if first.installs then
          Function.update world.origin cycle.snap.geodataDir
            (Function.update (world.origin cycle.snap.geodataDir) source.name
              (body.map Received.url))
        else world.origin := by
  rw [World.step] at stepped
  cases running : world.cycle with
  | none =>
      rw [running] at stepped
      cases stepped
  | some cycle =>
      rw [running] at stepped
      dsimp only at stepped
      split at stepped
      · next source first rest result body job =>
        cases stepped
        exact ⟨cycle, source, first, rest, result, body, rfl, job, rfl, rfl, rfl, rfl⟩
      · cases stepped

theorem settled_op_quiet (settled : Settled world) (running : world.cycle = some cycle)
    (job : cycle.job = some ⟨source, first :: rest, result, body⟩) (quiet : first.installs = false)
    (ok : ∀ disk received, world.received ⊆ received →
      disk = (world.disks cycle.snap.geodataDir).apply first →
      JobOk disk received cycle.metadata ⟨source, rest, result, body⟩)
    (unfinished : rest = [] → ∃ reason, result = .error reason)
    (received : next.received = world.received)
    (disks : next.disks = Function.update world.disks cycle.snap.geodataDir
      ((world.disks cycle.snap.geodataDir).apply first))
    (goesOn : next.cycle = some (cycle.proceed ⟨source, rest, result, body⟩))
    (origin : next.origin = world.origin) : Settled next := by
  have now := settled.running cycle running
  have distinct := now.distinct
  have kept := now.kept
  simp only [Cycle.names, job, Option.map_some, Option.toList_some, List.singleton_append]
    at distinct kept
  have dat : ∀ dir, (next.disks dir).dat = (world.disks dir).dat := by
    intro dir
    rw [disks]
    by_cases here : dir = cycle.snap.geodataDir
    · rw [here, Function.update_self, apply_dat quiet]
    · rw [Function.update_of_ne here]
  have metadata : ∀ dir, (next.disks dir).metadata = (world.disks dir).metadata := by
    intro dir
    rw [disks]
    by_cases here : dir = cycle.snap.geodataDir
    · rw [here, Function.update_self, apply_metadata]
    · rw [Function.update_of_ne here]
  have frame : ∀ dir name validators, Synced world dir name validators →
      Synced next dir name validators := by
    intro dir name validators synced
    exact synced.mono (by rw [received]; exact List.Subset.refl _) (by rw [origin])
      (.inl (by rw [dat]))
  refine ⟨?_, ?_⟩
  · intro dir name m remembered
    rw [metadata] at remembered
    rcases settled.saved dir name m remembered with synced | ⟨other, isIt, here, installed⟩
    · exact .inl (frame dir name _ synced)
    · rw [running] at isIt
      cases isIt
      exact .inr ⟨_, goesOn, by rw [proceed_snap]; exact here,
        by rw [proceed_installed]; exact installed⟩
  · intro other isIt
    rw [goesOn] at isIt
    cases isIt
    refine running_proceed distinct ?_ now.listed (now.job _ job).1 ?_ ?_
    · intro name inside
      rw [metadata]
      exact kept name inside
    · intro _
      refine ⟨fun name m remembered => frame _ _ _ (now.synced name m remembered), fun _ => ?_⟩
      apply ok
      · rw [received]
        exact List.Subset.refl _
      · rw [disks, Function.update_self]
    · intro final none_ succeeded
      obtain ⟨reason, failed⟩ := unfinished none_
      rw [failed] at succeeded
      cases succeeded

theorem settled_op (settled : Settled world) (stepped : world.step .op = some next) :
    Settled next := by
  obtain ⟨cycle, source, first, rest, result, body, running, job, received, disks, goesOn, origin⟩ :=
    step_op stepped
  have now := settled.running cycle running
  have ok := (now.job _ job).2
  cases ok with
  | failing reason failed quiet =>
      have calm : first.installs = false := quiet first List.mem_cons_self
      rw [calm, if_neg Bool.false_ne_true] at goesOn origin
      refine settled_op_quiet settled running job calm ?_ (fun _ => ⟨reason, failed⟩) received disks
        goesOn origin
      intro disk _ _ _
      exact .failing reason failed fun op member => quiet op (List.mem_cons_of_mem _ member)
  | installing r arrived isBody mirror valid data env succeeded ops =>
      dsimp only at isBody succeeded mirror valid data ops
      rcases ops with ops | ⟨ops, written⟩
      · -- the body goes to the .tmp file
        obtain ⟨rfl, rfl⟩ := List.cons.inj ops
        refine settled_op_quiet settled running job rfl ?_ nofun received disks goesOn origin
        intro disk _ more isIt
        refine .installing r (more arrived) isBody mirror valid data env succeeded (.inr ⟨rfl, ?_⟩)
        rw [isIt]
        exact Function.update_self _ _ _
      · -- the .tmp file becomes the .dat file
        obtain ⟨rfl, rfl⟩ := List.cons.inj ops
        rw [isBody] at origin
        have installs : (FileOp.rename source.name).installs = true := rfl
        rw [if_pos installs] at goesOn origin
        have distinct := now.distinct
        have kept := now.kept
        simp only [Cycle.names, job, Option.map_some, Option.toList_some, List.singleton_append]
          at distinct kept
        have metadata : ∀ dir, (next.disks dir).metadata = (world.disks dir).metadata := by
          intro dir
          rw [disks]
          by_cases here : dir = cycle.snap.geodataDir
          · rw [here, Function.update_self, apply_metadata]
          · rw [Function.update_of_ne here]
        have frame : ∀ dir name validators, (dir = cycle.snap.geodataDir → name ≠ source.name) →
            Synced world dir name validators → Synced next dir name validators := by
          intro dir name validators elsewhere synced
          refine synced.mono (by rw [received]; exact List.Subset.refl _) ?_ (.inl ?_)
          · rw [origin]
            by_cases here : dir = cycle.snap.geodataDir
            · rw [here, Function.update_self, Function.update_of_ne (elsewhere here)]
            · rw [Function.update_of_ne here]
          · rw [disks]
            by_cases here : dir = cycle.snap.geodataDir
            · rw [here, Function.update_self]
              exact Function.update_of_ne (elsewhere here) _ _
            · rw [Function.update_of_ne here]
        have placed : Synced next cycle.snap.geodataDir source.name r.validators := by
          refine ⟨r, by rw [received]; exact arrived, ?_, rfl, .inr ?_⟩
          · rw [origin, Function.update_self, Function.update_self]
            rfl
          · rw [disks, Function.update_self]
            exact (Function.update_self _ _ _).trans written
        refine ⟨?_, ?_⟩
        · intro dir name m remembered
          rw [metadata] at remembered
          by_cases replaced : dir = cycle.snap.geodataDir ∧ name = source.name
          · exact .inr ⟨_, goesOn, by rw [proceed_snap]; exact replaced.1.symm,
              by rw [proceed_installed, replaced.2]; exact List.mem_cons_self⟩
          · rcases settled.saved dir name m remembered with synced | ⟨other, isIt, here, installed⟩
            · exact .inl (frame dir name _ (fun here same => replaced ⟨here, same⟩) synced)
            · rw [running] at isIt
              cases isIt
              exact .inr ⟨_, goesOn, by rw [proceed_snap]; exact here,
                by rw [proceed_installed]; exact List.mem_cons_of_mem _ installed⟩
        · intro other isIt
          rw [goesOn] at isIt
          cases isIt
          refine running_proceed distinct ?_ now.listed (now.job _ job).1 ?_ ?_
          · intro name inside
            rw [metadata]
            exact kept name inside
          · rintro (more | ⟨reason, failed⟩)
            · exact absurd rfl more
            · rw [succeeded] at failed
              cases failed
          · intro final _ final_
            rw [succeeded] at final_
            cases final_
            refine ⟨fun name other => Function.update_of_ne other _ _, ?_⟩
            intro name m remembered
            by_cases here : name = source.name
            · subst here
              rw [stamped, Function.update_self] at remembered
              cases remembered
              exact placed
            · rw [stamped, Function.update_of_ne here] at remembered
              exact frame _ _ _ (fun _ => here) (now.synced name m remembered)

end Op

/-- Without a file replaced meta.json is behind nothing. -/
theorem saved_of_uninstalled (settled : Settled world)
    (uninstalled : ∀ cycle ∈ world.cycle, cycle.installed = []) {m : SourceMeta}
    (remembered : (world.disks dir).metadata name = some m) :
    Synced world dir name m.validators := by
  rcases settled.saved dir name m remembered with synced | ⟨cycle, running, _, installed⟩
  · exact synced
  · rw [uninstalled cycle running] at installed
    cases installed

theorem settled_crash (settled : Settled world) (conforming : Conforming world .crash)
    (stepped : world.step .crash = some next) : Settled next := by
  cases stepped
  exact ⟨fun dir name m remembered => .inl (saved_of_uninstalled settled conforming remembered),
    fun _ missing => (nomatch missing)⟩

theorem step_finish {written : Bool} (stepped : world.step (.finish written) = some next) :
    ∃ cycle, world.cycle = some cycle ∧ next = { world with
      disks := Function.update world.disks cycle.snap.geodataDir
        { world.disks cycle.snap.geodataDir with
          metadata := if written then cycle.metadata
            else (world.disks cycle.snap.geodataDir).metadata }
      cycle := none } := by
  rw [World.step] at stepped
  cases running : world.cycle with
  | none =>
      rw [running] at stepped
      cases stepped
  | some cycle =>
      rw [running] at stepped
      dsimp only at stepped
      split at stepped
      · cases stepped
        exact ⟨cycle, rfl, rfl⟩
      · cases stepped

theorem settled_finish {written : Bool} (settled : Settled world)
    (conforming : Conforming world (.finish written))
    (stepped : world.step (.finish written) = some next) : Settled next := by
  obtain ⟨cycle, running, rfl⟩ := step_finish stepped
  have now := settled.running cycle running
  refine ⟨?_, fun _ missing => (nomatch missing)⟩
  intro dir name m remembered
  refine .inl ?_
  have synced : Synced world dir name m.validators := by
    dsimp only at remembered
    by_cases here : dir = cycle.snap.geodataDir
    · subst here
      rw [Function.update_self] at remembered
      dsimp only at remembered
      split at remembered
      · exact now.synced name m remembered
      · next unwritten =>
        exact saved_of_uninstalled settled (conforming.resolve_left unwritten) remembered
    · rw [Function.update_of_ne here] at remembered
      rcases settled.saved dir name m remembered with synced | ⟨other, isIt, there, _⟩
      · exact synced
      · rw [running] at isIt
        cases isIt
        exact absurd there.symm here
  refine synced.mono (List.Subset.refl _) rfl (.inl ?_)
  dsimp only
  by_cases here : dir = cycle.snap.geodataDir
  · rw [here, Function.update_self]
  · rw [Function.update_of_ne here]

theorem settled_removed (settled : Settled world)
    (stepped : world.step (.removed dir name) = some next) : Settled next := by
  cases stepped
  have frame : ∀ there source validators, Synced world there source validators → Synced
      { world with
        disks := Function.update world.disks dir
          { world.disks dir with dat := Function.update (world.disks dir).dat name none } }
      there source validators := by
    intro there source validators synced
    refine synced.mono (List.Subset.refl _) rfl ?_
    dsimp only
    by_cases here : there = dir
    · subst here
      rw [Function.update_self]
      by_cases same : source = name
      · exact .inr (by rw [same]; exact Function.update_self _ _ _)
      · exact .inl (Function.update_of_ne same _ _)
    · rw [Function.update_of_ne here]
      exact .inl rfl
  have others : ∀ there, (Function.update world.disks dir
      { world.disks dir with dat := Function.update (world.disks dir).dat name none } there).metadata =
        (world.disks there).metadata ∧ (Function.update world.disks dir
      { world.disks dir with dat := Function.update (world.disks dir).dat name none } there).tmp =
        (world.disks there).tmp := by
    intro there
    by_cases here : there = dir
    · subst here
      rw [Function.update_self]
      exact ⟨rfl, rfl⟩
    · rw [Function.update_of_ne here]
      exact ⟨rfl, rfl⟩
  refine ⟨?_, ?_⟩
  · intro there source m remembered
    dsimp only at remembered
    rw [(others there).1] at remembered
    exact (settled.saved there source m remembered).imp_left (frame _ _ _)
  · intro cycle running
    have now := settled.running cycle running
    refine ⟨now.distinct, ?_, fun name m remembered => frame _ _ _ (now.synced name m remembered),
      now.listed, ?_⟩
    · intro name inside
      exact (now.kept name inside).trans (congrFun (others _).1 name).symm
    · intro job isJob
      exact ⟨(now.job job isJob).1, (now.job job isJob).2.mono (List.Subset.refl _) (others _).2⟩

theorem settled_step {event : Event} (settled : Settled world) (conforming : Conforming world event)
    (stepped : world.step event = some next) : Settled next := by
  cases event with
  | start => exact settled_start settled conforming stepped
  | ask => exact settled_ask settled conforming stepped
  | op => exact settled_op settled stepped
  | finish => exact settled_finish settled conforming stepped
  | crash => exact settled_crash settled conforming stepped
  | removed => exact settled_removed settled stepped

theorem settled_initial (initial : world.Initial) : Settled world := by
  obtain ⟨idle, _, _, empty⟩ := initial
  refine ⟨?_, ?_⟩
  · intro dir name m remembered
    rw [empty] at remembered
    cases remembered
  · intro cycle running
    rw [idle] at running
    cases running

/-- Only file operations, the end of a cycle and deletions change a directory. -/
theorem disks_of_step {event : Event} (stepped : world.step event = some next) :
    match event with
    | .start _ _ | .ask _ | .crash => next.disks = world.disks
    | _ => True := by
  cases event with
  | start snap metaRead =>
      rw [World.step] at stepped
      dsimp only
      split at stepped
      · cases stepped
      · split at stepped <;> cases stepped <;> rfl
  | ask env =>
      rw [World.step] at stepped
      dsimp only
      split at stepped
      · cases stepped
      · split at stepped
        · cases stepped
          rfl
        · cases stepped
  | crash =>
      cases stepped
      rfl
  | op => trivial
  | finish => trivial
  | removed => trivial

/-- A file operation leaves every .dat file alone or puts the job's body in place,
which is not one of an update that fails. -/
theorem dat_op (settled : Settled world) (stepped : world.step .op = some next) :
    ∃ cycle job, world.cycle = some cycle ∧ cycle.job = some job ∧
      ((∀ dir, (next.disks dir).dat = (world.disks dir).dat) ∨
        (∀ reason, job.result ≠ .error reason) ∧ ∀ dir name, FileTrusted world next dir name) := by
  obtain ⟨cycle, source, first, rest, result, body, running, job, received, disks, _, _⟩ :=
    step_op stepped
  have now := settled.running cycle running
  refine ⟨cycle, _, running, job, ?_⟩
  have unchanged : first.installs = false → ∀ dir, (next.disks dir).dat = (world.disks dir).dat := by
    intro quiet dir
    rw [disks]
    by_cases here : dir = cycle.snap.geodataDir
    · rw [here, Function.update_self, apply_dat quiet]
    · rw [Function.update_of_ne here]
  obtain ⟨member, ok⟩ := now.job _ job
  cases ok with
  | failing reason failed quiet => exact .inl (unchanged (quiet first List.mem_cons_self))
  | installing r arrived isBody mirror valid data env succeeded ops =>
      dsimp only at isBody succeeded mirror valid data ops member
      rcases ops with ops | ⟨ops, written⟩
      · obtain ⟨rfl, rfl⟩ := List.cons.inj ops
        exact .inl (unchanged rfl)
      · obtain ⟨rfl, rfl⟩ := List.cons.inj ops
        refine .inr ⟨?_, ?_⟩
        · intro reason failed
          rw [succeeded] at failed
          cases failed
        intro dir name
        by_cases replaced : dir = cycle.snap.geodataDir ∧ name = source.name
        · obtain ⟨rfl, rfl⟩ := replaced
          refine .inr ⟨cycle, running, rfl, source, member, rfl, r, by rw [received]; exact arrived,
            mirror, ?_, valid, data⟩
          rw [disks, Function.update_self]
          exact (Function.update_self _ _ _).trans written
        · left
          rw [disks]
          by_cases here : dir = cycle.snap.geodataDir
          · rw [here, Function.update_self]
            exact Function.update_of_ne (fun same => replaced ⟨here, same⟩) _ _
          · rw [Function.update_of_ne here]

theorem files_trusted {event : Event} (settled : Settled world)
    (stepped : world.step event = some next) (dir name : String) :
    event = .removed dir name ∨ FileTrusted world next dir name := by
  have same := disks_of_step stepped
  cases event with
  | start => exact .inr (.inl (by rw [same]))
  | ask => exact .inr (.inl (by rw [same]))
  | crash => exact .inr (.inl (by rw [same]))
  | op =>
      obtain ⟨_, _, _, _, unchanged | ⟨_, trusted⟩⟩ := dat_op settled stepped
      · exact .inr (.inl (by rw [unchanged]))
      · exact .inr (trusted dir name)
  | finish written =>
      obtain ⟨cycle, _, rfl⟩ := step_finish stepped
      refine .inr (.inl ?_)
      dsimp only
      by_cases here : dir = cycle.snap.geodataDir
      · rw [here, Function.update_self]
      · rw [Function.update_of_ne here]
  | removed there other =>
      cases stepped
      by_cases here : dir = there
      · subst here
        by_cases same : name = other
        · exact .inl (by rw [same])
        · refine .inr (.inl ?_)
          dsimp only
          rw [Function.update_self]
          exact Function.update_of_ne same _ _
      · refine .inr (.inl ?_)
        dsimp only
        rw [Function.update_of_ne here]

theorem metadata_trusted {event : Event} (settled : Settled world)
    (stepped : world.step event = some next) (dir name : String) :
    (next.disks dir).metadata name = (world.disks dir).metadata name ∨
      ∃ cycle ∈ world.cycle, event = .finish true ∧ cycle.snap.geodataDir = dir ∧
        name ∉ cycle.failed := by
  have same := disks_of_step stepped
  cases event with
  | start => exact .inl (by rw [same])
  | ask => exact .inl (by rw [same])
  | crash => exact .inl (by rw [same])
  | op =>
      obtain ⟨cycle, _, _, _, _, _, _, _, _, disks, _⟩ := step_op stepped
      left
      rw [disks]
      by_cases here : dir = cycle.snap.geodataDir
      · rw [here, Function.update_self, apply_metadata]
      · rw [Function.update_of_ne here]
  | finish written =>
      obtain ⟨cycle, running, rfl⟩ := step_finish stepped
      dsimp only
      by_cases here : dir = cycle.snap.geodataDir
      · subst here
        rw [Function.update_self]
        cases written with
        | false => exact .inl rfl
        | true =>
            by_cases failed : name ∈ cycle.failed
            · exact .inl ((settled.running cycle running).kept name (List.mem_append_left _ failed))
            · exact .inr ⟨cycle, running, rfl, rfl, failed⟩
      · rw [Function.update_of_ne here]
        exact .inl rfl
  | removed there other =>
      cases stepped
      left
      dsimp only
      by_cases here : dir = there
      · subst here
        rw [Function.update_self]
      · rw [Function.update_of_ne here]

theorem asked_cases {source : GeoSource} (asked : world.asked = some (cycle, source)) :
    ∃ rest, world.cycle = some cycle ∧ cycle.job = none ∧ cycle.remaining = source :: rest := by
  obtain ⟨other, running, asked⟩ := Option.bind_eq_some_iff.mp asked
  split at asked
  · next source rest idle remaining =>
    cases asked
    exact ⟨rest, running, idle, remaining⟩
  · cases asked

end Invariant

/-- From empty metadata on, through any cycles, configurations, crashes and
deletions: with mirrors that conform and metadata that is saved, files are only
replaced by whole bodies of the source's kind, a 304 is only believed of the file it
is about, and updates that fail change nothing. -/
theorem geo_trusted {start : World} {events : List Event} (initial : start.Initial)
    (conforming : Throughout World.step Conforming start events) :
    Throughout World.step (fun world event => ∀ next, world.step event = some next →
      Trusted world event next) start events := by
  refine throughout_of_invariant Settled settled_step ?_ (settled_initial initial) conforming
  intro world event settled conforming next stepped
  refine ⟨files_trusted settled stepped, ?_, ?_, metadata_trusted settled stepped⟩
  · rintro env cycle source cond url rfl asked requested
    obtain ⟨rest, running, idle, remaining⟩ := asked_cases asked
    have sent : cond = condition source (world.disks cycle.snap.geodataDir) cycle.metadata ∧
        fetchWithFallback source env.net cond = .ok (url, .notModified) := by
      rw [request] at requested
      split at requested
      · cases requested
      · obtain ⟨rfl, fetched⟩ := Prod.mk.inj (Option.some.inj requested)
        exact ⟨rfl, fetched⟩
    obtain ⟨_, _, r, arrived, from_, isCond, _, standing⟩ := notModified_trusted
      (settled.running cycle running) running idle remaining conforming sent.1 sent.2
    exact ⟨r, arrived, from_, isCond, standing⟩
  · rintro cycle job reason rfl running isJob failed dir name
    obtain ⟨_, _, running', isJob', unchanged | ⟨succeeded, _⟩⟩ := dat_op settled stepped
    · rw [unchanged]
    · rw [running] at running'
      cases running'
      rw [isJob] at isJob'
      cases isJob'
      exact absurd failed (succeeded reason)

/-- One category `CN` with one domain, and a field that no reader looks at. -/
@[irreducible] def domainFile : Bytes :=
  [10, 12, 10, 2, 67, 78, 18, 6, 8, 2, 18, 2, 97, 98, 18, 128, 8] ++ List.replicate 1024 0

def downloading : Env where
  net :=
    { client := fun _ _ => .ok ()
      answer := fun _ _ _ => .ok ⟨200, "200 OK", ⟨some "v1", none⟩, .ok domainFile⟩ }
  now := 0
  later := 1
  fileAge := none
  dirMade := true
  written := none
  readable := true
  renamed := true
  removed := true

def secondMirror : Env :=
  { downloading with
    net :=
      { client := fun _ _ => .ok ()
        answer := fun _ i _ =>
          if i = 0 then .ok ⟨503, "503 Service Unavailable", ⟨none, none⟩, .ok []⟩
          else .ok ⟨304, "304 Not Modified", ⟨none, none⟩, .ok []⟩ }
    now := 864001 }

def twoMirrors (kind : GeoKind) : UpdaterState where
  geodataDir := "geo"
  sources := [⟨"rules", kind, ["https://a.example/x.dat", "https://b.example/x.dat"], .direct⟩]
  updateDays := 7

def emptyWorld : World := ⟨fun _ => ⟨fun _ => none, fun _ => none, fun _ => none⟩, none, [],
  fun _ _ => none⟩

theorem emptyWorld_initial : emptyWorld.Initial :=
  ⟨rfl, rfl, fun _ _ => rfl, fun _ _ => rfl⟩

def firstCycle (kind : GeoKind) : List Event :=
  [.start (twoMirrors kind) true, .ask downloading, .op, .op, .finish true]

def unchanged : Env :=
  { downloading with
    net :=
      { client := fun _ _ => .ok ()
        answer := fun _ i cond =>
          if i = 0 ∧ cond.isSome then .ok ⟨304, "304 Not Modified", ⟨none, none⟩, .ok []⟩
          else .ok ⟨503, "503 Service Unavailable", ⟨none, none⟩, .ok []⟩ }
    now := 864001 }

def secondCycle : List Event := [.ask unchanged, .finish true]

/-- The URL that answers the request to come with a 304. -/
def unmodifiedBy (env : Env) (world : World) : Option String :=
  world.asked.bind fun asked =>
    match request asked.1.snap.updateDays asked.2 env (world.disks asked.1.snap.geodataDir)
        asked.1.metadata with
    | some (_, .ok (url, .notModified)) => some url
    | _ => none

theorem downloading_conforming : Throughout World.step Conforming emptyWorld
    (firstCycle .geosite ++ [.start (twoMirrors .geosite) true]) := by
  refine ⟨.inl rfl, ?_⟩
  intro world stepped
  cases stepped
  refine ⟨?_, fun _ _ => ⟨trivial, fun _ _ => ⟨trivial, fun _ _ => ⟨.inl rfl, fun _ _ =>
    ⟨.inl rfl, fun _ _ => trivial⟩⟩⟩⟩⟩
  intro cycle source asked attempt i
  cases asked
  have sent : ∀ cond, doFetch (downloading.net.answer attempt i cond) =
      .ok (.body domainFile ⟨some "v1", none⟩) := by
    intro cond
    have long : ¬ domainFile.length < minValidBytes := by decide +kernel
    exact if_neg long
  refine ⟨?_, ?_, ?_⟩
  · intro cond bytes validators arrived _
    rw [sent] at arrived
    cases arrived
    decide +kernel
  · rw [sent]
    nofun
  · intro url validators _ unmodified
    rw [sent] at unmodified
    cases unmodified

/-- A geosite source is downloaded, and its mirror believed that it has not changed. -/
theorem geo_trusted_download :
    let past := firstCycle .geosite ++ [.start (twoMirrors .geosite) true]
    (follow World.step emptyWorld (past ++ secondCycle)).isSome = true ∧
      ((follow World.step emptyWorld past).bind (unmodifiedBy unchanged)) =
        some "https://a.example/x.dat" ∧
      Throughout World.step (fun world event => ∀ next, world.step event = some next →
        Trusted world event next) emptyWorld (past ++ secondCycle) := by
  intro past
  refine ⟨by decide +kernel, by decide +kernel, geo_trusted emptyWorld_initial ?_⟩
  refine throughout_append downloading_conforming fun world reached => ⟨?_, fun _ _ =>
    ⟨.inl rfl, fun _ _ => trivial⟩⟩
  have stands : ((follow World.step emptyWorld past).bind fun world => world.asked.map fun asked =>
      (asked.2.url.head?, world.origin asked.1.snap.geodataDir asked.2.name)) =
        some (some "https://a.example/x.dat", some "https://a.example/x.dat") := by
    decide +kernel
  have answered : ∀ attempt i cond, doFetch (unchanged.net.answer attempt i cond) =
      if i = 0 ∧ cond.isSome then .ok .notModified else .error "HTTP 503 Service Unavailable" := by
    intro attempt i cond
    change doFetch (if i = 0 ∧ cond.isSome then _ else _) = _
    split
    · rfl
    · rfl
  intro cycle source asked attempt i
  rw [reached, Option.bind_some, asked, Option.map_some, Option.some.injEq, Prod.mk.injEq] at stands
  refine ⟨?_, ?_, ?_⟩
  · intro cond bytes validators arrived _
    rw [answered] at arrived
    split at arrived
    · cases arrived
    · cases arrived
  · rw [answered, if_neg fun both => absurd both.2 (by decide)]
    nofun
  · intro url validators listed unmodified
    rw [answered] at unmodified
    split at unmodified
    · next first =>
      rw [first.1, ← List.head?_eq_getElem?] at listed
      exact stands.2.trans (stands.1.symm.trans listed)
    · cases unmodified

/-- The request to come is answered 304 by a URL that nothing was received from. -/
def believesStranger (env : Env) (world : World) : Bool :=
  match world.asked with
  | none => false
  | some (cycle, source) =>
      match request cycle.snap.updateDays source env (world.disks cycle.snap.geodataDir)
          cycle.metadata with
      | some (_, .ok (url, .notModified)) => world.received.all fun r => !decide (r.url = url)
      | _ => false

/-- Domains are installed as a geoip file, and then believed up to date on the word
of a mirror they did not come from. -/
theorem stranger_believed : ¬ ∀ (start : World) (events : List Event), start.Initial →
    Throughout World.step (fun world event => ∀ next, world.step event = some next →
      Trusted world event next) start events := by
  intro law
  let past := firstCycle .geoip ++ [.start (twoMirrors .geoip) true]
  have all := law emptyWorld (past ++ [.ask secondMirror]) emptyWorld_initial
  have reached : (follow World.step emptyWorld past).any (believesStranger secondMirror) = true := by
    decide +kernel
  obtain ⟨world, followed, stranger⟩ := Option.any_eq_true _ _ |>.mp reached
  have trusted := throughout_reached all followed
  rw [believesStranger] at stranger
  split at stranger
  · cases stranger
  · next cycle source asked =>
    split at stranger
    · next cond url requested =>
      obtain ⟨rest, running, idle, remaining⟩ := asked_cases asked
      have stepped : ∃ next, world.step (.ask secondMirror) = some next := by
        simp only [World.step, running, idle, remaining]
        exact ⟨_, rfl⟩
      obtain ⟨next, stepped⟩ := stepped
      obtain ⟨r, arrived, from_, _⟩ :=
        (trusted next stepped).notModified secondMirror cycle source cond url rfl asked requested
      have other := List.all_eq_true.mp stranger r arrived
      simp [from_] at other
    · cases stranger

end Mirage.Geo
