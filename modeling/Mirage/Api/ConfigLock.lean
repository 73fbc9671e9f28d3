import Mirage.Api.UserOps
import Mirage.Lib.Trace

/-!
The config endpoints for rules, profiles and users. A POST holds the write
lock from its read of the file to its answer; a GET takes no lock. Parsing,
printing, fingerprint and the checks of a whole configuration are parameters.
-/

namespace Mirage.Api.ConfigLock

open Json UserOps Trace

structure Checked where
  diagnostics : List String
  semanticIssues : List String
  userHardErrors : List String

structure Env where
  parse : String → Option Value
  pretty : Value → Option String
  configVersion : String → String
  check : String → Except String Checked

inductive Endpoint where
  | rules
  | profiles
  | users

inductive Post where
  | rules (rules : Value)
  | profiles (profiles deviceProfiles : Value)
  | users (ops : List UserOp)

structure PostReq where
  post : Post
  version : Option String
  dryRun : Bool

inductive Reply where
  | error (status : Nat) (code message : String) (issues : List String)
  | dryRun (issues : List String)
  | saved (written : Bool) (issues : List String) (version : String)
  | read (version : String) (body : List (String × Value))

def Reply.version : Reply → Option String
  | saved _ _ version | read version _ => some version
  | _ => none

def Reply.status : Reply → Nat
  | error status _ _ _ => status
  | _ => 200

def Reply.stale : Reply :=
  .error 409 "stale_version" "配置已被他处修改, 请刷新后重试" []

def Reply.internal (code message : String) : Reply := .error 500 code message []

/-- `v.get_mut("routing")` as an object, and what becomes of it. -/
def patchRouting (change : Fields → Fields) (document : Value) : Except Reply Value :=
  match document.asObject, (document.get "routing").bind Value.asObject with
  | some fields, some routing => .ok (.object (setField "routing" (.object (change routing)) fields))
  | _, _ => .error (.internal "corrupt_config" "当前配置缺少 routing 段")

def patch (document : Value) : Post → Except Reply Value
  | .rules rules => patchRouting (setField "rules" rules) document
  | .profiles profiles devices =>
      patchRouting (fun routing => setField "device_profiles" devices (setField "profiles" profiles routing))
        document
  | .users ops =>
      match document.asObject, document.getArray "inbounds" with
      | some fields, some inbounds =>
          match applyOpsInbounds inbounds ops with
          | .ok next => .ok (.object (setField "inbounds" (.array next) fields))
          | .error (code, message) =>
              .error (.error (if code = "corrupt_config" then 500 else 422) code message [])
      | _, _ => .error (.internal "corrupt_config" "当前配置缺少 inbounds")

def Post.rejected (message : String) : Post → Reply
  | .rules _ => .error 422 "invalid_config" ("规则内容非法, 已拒绝 (未写入): " ++ message) []
  | .profiles _ _ => .error 422 "invalid_config" ("策略内容非法, 已拒绝 (未写入): " ++ message) []
  | .users _ => .error 422 "invalid_config" ("用户列表非法, 已拒绝 (未写入): " ++ message) []

/-- What a POST does once it has read the file: answer, or write and answer. -/
inductive Plan where
  | answer (reply : Reply)
  | write (candidate : String) (reply : Reply)

section Handlers
variable (env : Env)

def settle (req : PostReq) (document patched : Value) (candidate : String) (checked : Checked) : Plan :=
  match req.post with
  | .users _ =>
      if checked.userHardErrors ≠ [] then
        .answer (.error 422 "invalid_users"
          ("凭据校验失败, 已拒绝 (未写入): " ++ String.intercalate "; " checked.userHardErrors)
          checked.userHardErrors)
      else if req.dryRun then .answer (.dryRun checked.diagnostics)
      else if document.same patched then
        .answer (.saved false checked.diagnostics (env.configVersion candidate))
      else .write candidate (.saved true checked.diagnostics (env.configVersion candidate))
  | _ =>
      let issues := checked.diagnostics ++ checked.semanticIssues
      if req.dryRun then .answer (.dryRun issues)
      else .write candidate (.saved true issues (env.configVersion candidate))

def plan (req : PostReq) (content : String) : Plan :=
  if req.version.any fun version => version != env.configVersion content then .answer .stale
  else
    match env.parse content with
    | none => .answer (.internal "corrupt_config" "当前配置文件非合法 JSON")
    | some document =>
        match patch document req.post with
        | .error reply => .answer reply
        | .ok patched =>
            match env.pretty patched with
            | none => .answer (.internal "serialize_error" "候选配置序列化失败")
            | some candidate =>
                match env.check candidate with
                | .error message => .answer (req.post.rejected message)
                | .ok checked => settle env req document patched candidate checked

def outboundTags (document : Value) : Value :=
  .array (((document.getArray "outbounds").getD []).filterMap fun o => (o.getStr "tag").map .string)

def get (endpoint : Endpoint) (content : String) : Reply :=
  match env.parse content with
  | none => .internal "corrupt_config" "配置文件非合法 JSON"
  | some document =>
      let routing := document.get "routing"
      match endpoint with
      | .rules =>
          match routing.bind (Value.get · "rules") with
          | none => .internal "corrupt_config" "配置缺少 routing 段"
          | some rules =>
              .read (env.configVersion content) [("rules", rules), ("outbounds", outboundTags document)]
      | .profiles =>
          .read (env.configVersion content)
            [("profiles", (routing.bind (Value.get · "profiles")).getD (.object [])),
              ("device_profiles", (routing.bind (Value.get · "device_profiles")).getD (.array [])),
              ("outbounds", outboundTags document)]
      | .users => .read (env.configVersion content) []

/-- The file, and the POST that holds the lock with what it has read. -/
structure Server where
  file : String
  holder : Option (PostReq × String)

/-- `readable` and `writable` say how the access to the file ends. -/
inductive Event where
  | get (endpoint : Endpoint) (readable : Bool)
  | begin (req : PostReq) (readable : Bool)
  | finish (writable : Bool)

/-- A POST waits while another holds the lock. -/
def step (server : Server) : Event → Option Reply × Server
  | .get endpoint readable =>
      (some (if readable then get env endpoint server.file
        else .internal "io_error" "无法读取配置文件"), server)
  | .begin req readable =>
      match server.holder with
      | some _ => (none, server)
      | none =>
          if readable then (none, { server with holder := some (req, server.file) })
          else (some (.internal "io_error" "无法读取当前配置文件"), server)
  | .finish writable =>
      match server.holder with
      | none => (none, server)
      | some (req, content) =>
          match plan env req content with
          | .answer reply => (some reply, ⟨server.file, none⟩)
          | .write candidate reply =>
              if writable then (some reply, ⟨candidate, none⟩)
              else (some (.internal "write_error" "写入配置失败 (原文件未改动)"), ⟨server.file, none⟩)

end Handlers

/-- What a POST must leave alone. -/
def outsideField (strip : Value → Value) (key : String) (document : Value) : Value :=
  .object ((document.asObject.getD []).map fun field =>
    if field.1 = key then (field.1, strip field.2) else field)

def withoutKeys (keys : List String) (value : Value) : Value :=
  .object ((value.asObject.getD []).filter fun field => field.1 ∉ keys)

def outside (document : Value) : Post → Value
  | .rules _ => outsideField (withoutKeys ["rules"]) "routing" document
  | .profiles _ _ => outsideField (withoutKeys ["profiles", "device_profiles"]) "routing" document
  | .users _ =>
      outsideField (fun inbounds => .array ((inbounds.asArray.getD []).map outsideUsers)) "inbounds"
        document

theorem outsideField_setField {strip : Value → Value} {key : String} {fields : Fields}
    {value old : Value} (found : fields.lookup key = some old) (same : strip value = strip old) :
    outsideField strip key (.object (setField key value fields)) =
      outsideField strip key (.object fields) := by
  unfold outsideField
  simp only [Value.asObject, Option.getD_some]
  rw [map_setField_of_lookup found]
  simp only [if_true, same]

theorem withoutKeys_setField {keys : List String} {key : String} {value : Value} {fields : Fields}
    (listed : key ∈ keys) :
    withoutKeys keys (.object (setField key value fields)) = withoutKeys keys (.object fields) := by
  unfold withoutKeys
  simp only [Value.asObject, Option.getD_some]
  congr 1
  induction fields with
  | nil => simp [setField, listed]
  | cons field rest ih =>
      unfold setField
      by_cases same : field.1 = key
      · simp [same, listed]
      · rw [if_neg same, List.filter_cons, List.filter_cons, ih]

theorem patchRouting_outside {change : Fields → Fields} {keys : List String}
    {document patched : Value}
    (kept : ∀ routing, withoutKeys keys (.object (change routing)) = withoutKeys keys (.object routing))
    (went : patchRouting change document = .ok patched) :
    outsideField (withoutKeys keys) "routing" patched =
      outsideField (withoutKeys keys) "routing" document := by
  cases document with
  | object fields =>
      simp only [patchRouting, Value.asObject, Value.get, Option.bind_some] at went
      split at went
      · next held routing same found =>
          cases same
          cases went
          obtain ⟨old, found, isObject⟩ := Option.bind_eq_some_iff.mp found
          cases old with
          | object old =>
              cases isObject
              exact outsideField_setField found (kept routing)
          | _ => cases isObject
      · cases went
  | _ => cases went

/-- A POST changes its own section of the parsed document and nothing else. -/
theorem patch_outside {document patched : Value} {post : Post}
    (went : patch document post = .ok patched) : outside patched post = outside document post := by
  cases post with
  | rules rules =>
      apply patchRouting_outside _ went
      intro routing
      exact withoutKeys_setField List.mem_cons_self
  | profiles profiles devices =>
      apply patchRouting_outside _ went
      intro routing
      rw [withoutKeys_setField (List.mem_cons_of_mem _ List.mem_cons_self)]
      exact withoutKeys_setField List.mem_cons_self
  | users ops =>
      cases document with
      | object fields =>
          simp only [patch, Value.asObject, Value.getArray, Value.get, Option.bind_some] at went
          split at went
          · next held inbounds same found =>
              cases same
              obtain ⟨old, found, isArray⟩ := Option.bind_eq_some_iff.mp found
              split at went
              · next next_ applied =>
                  cases went
                  have kept := applyOpsInbounds_outside applied
                  cases old with
                  | array items =>
                      cases isArray
                      unfold outside
                      refine outsideField_setField found ?_
                      simp only [Value.asArray, Option.getD_some, kept]
                  | _ => cases isArray
              · cases went
          · cases went
      | _ => cases went

section Runs
variable {env : Env}

/-- Only the holder of the lock writes, so it knows the file it replaces. -/
def Held (server : Server) : Prop :=
  ∀ req content, server.holder = some (req, content) → content = server.file

theorem held_free (file : String) : Held ⟨file, none⟩ := by
  intro req content same
  cases same

theorem step_held (server : Server) (event : Event) (held : Held server) :
    Held (step env server event).2 := by
  cases event with
  | get endpoint readable => exact held
  | begin req readable =>
      simp only [step]
      split
      · exact held
      · split
        · intro other content same
          cases same
          rfl
        · exact held
  | finish writable =>
      simp only [step]
      split
      · exact held
      · split
        · exact fun _ _ same => nomatch same
        · split <;> exact fun _ _ same => nomatch same

theorem run_held (file : String) (events : List Event) :
    Held (run (step env) ⟨file, none⟩ events) :=
  run_invariant Held step_held (held_free file) events

structure Candidate (env : Env) (req : PostReq) (content : String) (document patched : Value)
    (candidate : String) : Prop where
  current : ∀ version, req.version = some version → version = env.configVersion content
  parsed : env.parse content = some document
  made : patch document req.post = .ok patched
  printed : env.pretty patched = some candidate

structure ChangesNothing (env : Env) (req : PostReq) (content candidate : String) : Prop where
  users : ∃ ops, req.post = .users ops
  wet : req.dryRun = false
  idle : ∃ document patched, Candidate env req content document patched candidate ∧
    document.same patched = true
  checked : ∃ checked, env.check candidate = .ok checked ∧ checked.userHardErrors = []

theorem Candidate.same {req : PostReq} {content candidate other : String}
    {document patched document' patched' : Value}
    (first : Candidate env req content document patched candidate)
    (second : Candidate env req content document' patched' other) :
    document = document' ∧ patched = patched' := by
  cases first.parsed.symm.trans second.parsed
  cases first.made.symm.trans second.made
  exact ⟨rfl, rfl⟩

theorem patchRouting_error {change : Fields → Fields} {document : Value} {reply : Reply}
    (failed : patchRouting change document = .error reply) : reply.version = none := by
  unfold patchRouting at failed
  split at failed
  · cases failed
  · cases failed
    rfl

theorem patch_error {document : Value} {post : Post} {reply : Reply}
    (failed : patch document post = .error reply) : reply.version = none := by
  cases post with
  | rules rules => exact patchRouting_error failed
  | profiles profiles devices => exact patchRouting_error failed
  | users ops =>
      simp only [patch] at failed
      split at failed
      · split at failed
        · cases failed
        · cases failed
          rfl
      · cases failed
        rfl

theorem rejected_version (post : Post) (message : String) : (post.rejected message).version = none := by
  cases post <;> rfl

/-- The end of a handler, for a candidate that passed the checks. -/
theorem settle_cases {req : PostReq} {content candidate : String} {document patched : Value}
    {checked : Checked} (made : Candidate env req content document patched candidate)
    (accepted : env.check candidate = .ok checked)
    (only : ∀ {other}, ChangesNothing env req content other → other = candidate ∧
      document.same patched = true) :
    (∃ reply, settle env req document patched candidate checked = .answer reply ∧
      reply.version = none ∧ ∀ other, ¬ ChangesNothing env req content other) ∨
    (∃ issues candidate', settle env req document patched candidate checked =
        .answer (.saved false issues (env.configVersion candidate')) ∧
      ChangesNothing env req content candidate') ∨
    ∃ issues candidate' document' patched', settle env req document patched candidate checked =
        .write candidate' (.saved true issues (env.configVersion candidate')) ∧
      Candidate env req content document' patched' candidate' ∧
      ∀ other, ¬ ChangesNothing env req content other := by
  cases posted : req.post with
  | users ops =>
      simp only [settle, posted]
      by_cases hard : checked.userHardErrors = []
      · rw [if_neg (not_not.mpr hard)]
        cases dry : req.dryRun with
        | true =>
            refine .inl ⟨_, rfl, rfl, ?_⟩
            intro other changes
            cases dry.symm.trans changes.wet
        | false =>
            cases same : document.same patched with
            | true =>
                refine .inr (.inl ⟨_, candidate, rfl, ?_⟩)
                exact ⟨⟨ops, posted⟩, dry, ⟨document, patched, made, same⟩, checked, accepted, hard⟩
            | false =>
                refine .inr (.inr ⟨_, candidate, document, patched, rfl, made, ?_⟩)
                intro other changes
                cases same.symm.trans (only changes).2
      · rw [if_pos hard]
        refine .inl ⟨_, rfl, rfl, ?_⟩
        intro other changes
        obtain ⟨rfl, _⟩ := only changes
        obtain ⟨again, passed, clean⟩ := changes.checked
        cases accepted.symm.trans passed
        exact hard clean
  | rules rules | profiles profiles devices =>
      have other : ∀ other, ¬ ChangesNothing env req content other := by
        intro other changes
        obtain ⟨ops, users⟩ := changes.users
        cases posted.symm.trans users
      simp only [settle, posted]
      cases req.dryRun with
      | true => exact .inl ⟨_, rfl, rfl, other⟩
      | false => exact .inr (.inr ⟨_, candidate, document, patched, rfl, made, other⟩)

/-- What a POST can come to: an answer without a version, the answer that
nothing changes, or a write. -/
theorem plan_cases (env : Env) (req : PostReq) (content : String) :
    (∃ reply, plan env req content = .answer reply ∧ reply.version = none ∧
      ∀ candidate, ¬ ChangesNothing env req content candidate) ∨
    (∃ issues candidate, plan env req content =
        .answer (.saved false issues (env.configVersion candidate)) ∧
      ChangesNothing env req content candidate) ∨
    ∃ issues candidate document patched, plan env req content =
        .write candidate (.saved true issues (env.configVersion candidate)) ∧
      Candidate env req content document patched candidate ∧
      ∀ other, ¬ ChangesNothing env req content other := by
  -- any of the values it is made of decides whether a request changes nothing
  have idle : ∀ {candidate}, ChangesNothing env req content candidate →
      ∃ document patched, Candidate env req content document patched candidate :=
    fun changes => have ⟨document, patched, made, _⟩ := changes.idle; ⟨document, patched, made⟩
  cases stale : req.version.any fun version => version != env.configVersion content with
  | true =>
      refine .inl ⟨.stale, by simp only [plan, stale, if_true], rfl, ?_⟩
      intro candidate changes
      obtain ⟨_, _, made⟩ := idle changes
      obtain ⟨version, carried, differs⟩ := Option.any_eq_true _ _ |>.mp stale
      exact bne_iff_ne.mp differs (made.current version carried)
  | false =>
      have current : ∀ version, req.version = some version → version = env.configVersion content := by
        intro version carried
        rw [carried] at stale
        simpa using stale
      cases parsed : env.parse content with
      | none =>
          refine .inl ⟨_, by simp only [plan, stale, parsed]; rfl, rfl, ?_⟩
          intro candidate changes
          obtain ⟨_, _, made⟩ := idle changes
          cases parsed.symm.trans made.parsed
      | some document =>
          cases made : patch document req.post with
          | error reply =>
              refine .inl ⟨reply, by simp only [plan, stale, parsed, made]; rfl, patch_error made, ?_⟩
              intro candidate changes
              obtain ⟨_, _, other⟩ := idle changes
              cases parsed.symm.trans other.parsed
              cases made.symm.trans other.made
          | ok patched =>
              cases printed : env.pretty patched with
              | none =>
                  refine .inl ⟨_, by simp only [plan, stale, parsed, made, printed]; rfl, rfl, ?_⟩
                  intro candidate changes
                  obtain ⟨_, _, other⟩ := idle changes
                  cases parsed.symm.trans other.parsed
                  cases made.symm.trans other.made
                  cases printed.symm.trans other.printed
              | some candidate =>
                  have mine : Candidate env req content document patched candidate :=
                    ⟨current, parsed, made, printed⟩
                  -- What changes nothing is made of the same document, so that it is this
                  -- candidate.
                  have only : ∀ {other}, ChangesNothing env req content other → other = candidate ∧
                      document.same patched = true := by
                    intro other changes
                    obtain ⟨document', patched', theirs, same⟩ := changes.idle
                    obtain ⟨rfl, rfl⟩ := mine.same theirs
                    exact ⟨Option.some.inj (theirs.printed.symm.trans printed), same⟩
                  have planned : ∀ {checked}, env.check candidate = .ok checked →
                      plan env req content = settle env req document patched candidate checked := by
                    intro checked accepted
                    simp only [plan, stale, parsed, made, printed, accepted]
                    rfl
                  cases accepted : env.check candidate with
                  | error message =>
                      refine .inl ⟨_, by simp only [plan, stale, parsed, made, printed, accepted]; rfl,
                        rejected_version _ _, ?_⟩
                      intro other changes
                      obtain ⟨rfl, _⟩ := only changes
                      obtain ⟨_, passed, _⟩ := changes.checked
                      cases accepted.symm.trans passed
                  | ok checked =>
                      rw [planned accepted]
                      exact settle_cases mine accepted only

theorem get_version {endpoint : Endpoint} {content version : String}
    (given : (get env endpoint content).version = some version) :
    version = env.configVersion content := by
  unfold get at given
  split at given
  · cases given
  · cases endpoint with
    | rules =>
        dsimp only at given
        split at given
        · cases given
        · cases given
          rfl
    | profiles | users =>
        cases given
        rfl

/-- A request that is not accepted leaves the file as it is; one that is
accepted was computed from the file it replaces, carries its version if any, and
changes its own section only. -/
structure Lawful (env : Env) (server : Server) (event : Event) : Prop where
  kept : (∀ issues version, (step env server event).1 ≠ some (.saved true issues version)) →
    (step env server event).2.file = server.file
  accepted : ∀ issues version, (step env server event).1 = some (.saved true issues version) →
    ∃ req document patched, server.holder = some (req, server.file) ∧
      Candidate env req server.file document patched (step env server event).2.file ∧
      outside patched req.post = outside document req.post

/-- A version that is given out is that of the file. -/
def Versioned (env : Env) (server : Server) (event : Event) : Prop :=
  ∀ reply version, (step env server event).1 = some reply → reply.version = some version →
    version = env.configVersion (step env server event).2.file

/-- A users request that changes nothing meets a file with the fingerprint of
its own print. -/
def Steady (env : Env) (server : Server) (event : Event) : Prop :=
  ∀ writable, event = .finish writable → ∀ req candidate, server.holder = some (req, server.file) →
    ChangesNothing env req server.file candidate →
      env.configVersion candidate = env.configVersion server.file

theorem ChangesNothing.unique {req : PostReq} {content candidate other : String}
    (first : ChangesNothing env req content candidate)
    (second : ChangesNothing env req content other) : candidate = other := by
  obtain ⟨document, patched, made, _⟩ := first.idle
  obtain ⟨document', patched', made', _⟩ := second.idle
  obtain ⟨rfl, rfl⟩ := made.same made'
  exact Option.some.inj (made.printed.symm.trans made'.printed)

theorem get_not_saved {endpoint : Endpoint} {content : String} {written : Bool}
    {issues : List String} {version : String} :
    get env endpoint content ≠ .saved written issues version := by
  unfold get
  intro same
  split at same
  · cases same
  · cases endpoint with
    | rules =>
        dsimp only at same
        split at same <;> cases same
    | profiles | users => cases same

theorem finish_lawful {server : Server} {req : PostReq}
    (taken : server.holder = some (req, server.file)) (writable : Bool) :
    Lawful env server (.finish writable) ∧
      (Versioned env server (.finish writable) ↔ Steady env server (.finish writable)) := by
  have calm : (∀ candidate, ¬ ChangesNothing env req server.file candidate) →
      Steady env server (.finish writable) := by
    intro busy _ _ other candidate same changes
    cases taken.symm.trans same
    exact absurd changes (busy candidate)
  obtain ⟨reply, planned, silent, busy⟩ | ⟨issues, candidate, planned, changes⟩ |
    ⟨issues, candidate, document, patched, planned, made, busy⟩ := plan_cases env req server.file
  · have done : step env server (.finish writable) = (some reply, ⟨server.file, none⟩) := by
      simp only [step, taken, planned]
    refine ⟨⟨fun _ => by rw [done], ?_⟩, fun _ => calm busy, fun _ => ?_⟩
    · intro issues version saved
      rw [done] at saved
      cases saved
      cases silent
    · intro answered version given carried
      rw [done] at given
      cases given
      rw [silent] at carried
      cases carried
  · have done : step env server (.finish writable) =
        (some (.saved false issues (env.configVersion candidate)), ⟨server.file, none⟩) := by
      simp only [step, taken, planned]
    refine ⟨⟨fun _ => by rw [done], ?_⟩, ?_, ?_⟩
    · intro issues' version saved
      rw [done] at saved
      cases saved
    · intro versioned _ _ other candidate' same idle
      cases taken.symm.trans same
      rw [idle.unique changes]
      have shown := versioned _ _ (congrArg Prod.fst done) rfl
      rw [done] at shown
      exact shown
    · intro steady answered version given carried
      rw [done] at given ⊢
      cases given
      cases carried
      exact steady writable rfl req candidate taken changes
  -- A write that fails leaves the file, and its answer has no version.
  · have written : step env server (.finish writable) =
        if writable then (some (.saved true issues (env.configVersion candidate)), ⟨candidate, none⟩)
        else (some (.internal "write_error" "写入配置失败 (原文件未改动)"), ⟨server.file, none⟩) := by
      simp only [step, taken, planned]
    cases writable with
    | true =>
        rw [if_pos rfl] at written
        refine ⟨⟨?_, ?_⟩, fun _ => calm busy, fun _ => ?_⟩
        · intro refused
          exact absurd (congrArg Prod.fst written) (refused _ _)
        · intro issues' version saved
          rw [written]
          exact ⟨req, document, patched, taken, made, patch_outside made.made⟩
        · intro answered version given carried
          rw [written] at given ⊢
          cases given
          cases carried
          rfl
    | false =>
        rw [if_neg Bool.false_ne_true] at written
        refine ⟨⟨fun _ => by rw [written], ?_⟩, fun _ => calm busy, fun _ => ?_⟩
        · intro issues' version saved
          rw [written] at saved
          cases saved
        · intro answered version given carried
          rw [written] at given
          cases given
          cases carried

theorem step_lawful {server : Server} (held : Held server) (event : Event) :
    Lawful env server event ∧ (Versioned env server event ↔ Steady env server event) := by
  cases event with
  | get endpoint readable =>
      have calm : Steady env server (.get endpoint readable) := fun _ same => nomatch same
      refine ⟨⟨fun _ => rfl, ?_⟩, fun _ => calm, fun _ => ?_⟩
      · intro issues version saved
        have reply := Option.some.inj saved
        cases readable with
        | true => exact absurd reply get_not_saved
        | false => cases reply
      · intro reply version answered given
        cases answered
        cases readable with
        | true => exact get_version given
        | false => cases given
  | begin req readable =>
      have calm : Steady env server (.begin req readable) := fun _ same => nomatch same
      -- A request that takes the lock is not answered yet, and one that is refused has no version.
      have quiet : (step env server (.begin req readable)).2.file = server.file ∧
          ∀ reply, (step env server (.begin req readable)).1 = some reply → reply.version = none ∧
            ∀ issues version, reply ≠ .saved true issues version := by
        simp only [step]
        split
        · exact ⟨rfl, fun _ same => nomatch same⟩
        · split
          · exact ⟨rfl, fun _ same => nomatch same⟩
          · refine ⟨rfl, ?_⟩
            intro reply same
            cases same
            exact ⟨rfl, fun _ _ other => nomatch other⟩
      refine ⟨⟨fun _ => quiet.1, ?_⟩, fun _ => calm, fun _ => ?_⟩
      · intro issues version saved
        exact absurd rfl ((quiet.2 _ saved).2 issues version)
      · intro reply version answered given
        rw [(quiet.2 reply answered).1] at given
        cases given
  | finish writable =>
      cases taken : server.holder with
      | none =>
          have idle : step env server (.finish writable) = (none, server) := by
            simp only [step, taken]
          refine ⟨⟨fun _ => by rw [idle], ?_⟩, ?_, ?_⟩
          · intro issues version saved
            rw [idle] at saved
            cases saved
          · intro _ _ _ req candidate other
            cases taken.symm.trans other
          · intro _ reply version answered
            rw [idle] at answered
            cases answered
      | some holder =>
          obtain ⟨req, content⟩ := holder
          have read := held req content taken
          subst read
          exact finish_lawful taken writable

section Client

def lastVersion (env : Env) (server : Server) : List Event → Option String → Option String
  | [], last => last
  | event :: rest, last =>
      let answered := step env server event
      lastVersion env answered.2 rest ((answered.1.bind Reply.version).or last)

theorem lastVersion_snoc {server : Server} {past : List Event} {last : Option String} (event : Event) :
    lastVersion env server (past ++ [event]) last =
      (((answer (step env) server past event).bind Reply.version).or
        (lastVersion env server past last)) := by
  induction past generalizing server last with
  | nil => rfl
  | cons first rest ih => exact ih

/-- Every POST that takes the lock carries the last version that was given out,
or none. -/
def StepByStep (env : Env) (file : String) (events : List Event) : Prop :=
  ∀ past req readable, past ++ [.begin req readable] <+: events →
    ∀ version, req.version = some version →
      lastVersion env ⟨file, none⟩ past none = some version

/-- The last version given out is the file's, and so is that of the request
under the lock. -/
structure Fresh (env : Env) (server : Server) (last : Option String) : Prop where
  last : ∀ version, last = some version → version = env.configVersion server.file
  holder : ∀ req content, server.holder = some (req, content) → content = server.file ∧
    ∀ version, req.version = some version → version = env.configVersion server.file

theorem step_version {server : Server} (held : Held server) {event : Event}
    (steady : Steady env server event) {last : Option String}
    (before : ∀ version, last = some version → version = env.configVersion server.file) :
    ∀ version, (((step env server event).1.bind Reply.version).or last) = some version →
      version = env.configVersion (step env server event).2.file := by
  obtain ⟨lawful, versioned⟩ : Lawful env server event ∧
    (Versioned env server event ↔ Steady env server event) := step_lawful held event
  intro version given
  cases answered : (step env server event).1.bind Reply.version with
  | some shown =>
      rw [answered, Option.some_or] at given
      cases given
      obtain ⟨reply, replied, carried⟩ := Option.bind_eq_some_iff.mp answered
      exact versioned.mpr steady reply version replied carried
  | none =>
      rw [answered, Option.none_or] at given
      have unsaved : ∀ issues version, (step env server event).1 ≠ some (.saved true issues version) := by
        intro issues shown saved
        rw [saved] at answered
        cases answered
      rw [lawful.kept unsaved]
      exact before version given

theorem Fresh.held {server : Server} {last : Option String} (fresh : Fresh env server last) :
    Held server :=
  fun req content taken => (fresh.holder req content taken).1

theorem Fresh.step {server : Server} {last : Option String} {event : Event}
    (fresh : Fresh env server last) (steady : Steady env server event)
    (carried : ∀ req readable, event = .begin req readable →
      ∀ version, req.version = some version → last = some version) :
    Fresh env (step env server event).2
      (((ConfigLock.step env server event).1.bind Reply.version).or last) where
  last := step_version fresh.held steady fresh.last
  holder := by
    cases event with
    | get endpoint readable => exact fresh.holder
    | begin req readable =>
        simp only [ConfigLock.step]
        split
        · exact fresh.holder
        · split
          · intro other content same
            cases same
            refine ⟨rfl, ?_⟩
            intro version given
            exact fresh.last version (carried req readable rfl version given)
          · exact fresh.holder
    | finish writable =>
        have free : ∀ (file : String) (req : PostReq) (content : String),
            (Server.mk file none).holder ≠ some (req, content) := fun _ _ _ same => nomatch same
        simp only [ConfigLock.step]
        split
        · exact fresh.holder
        · split
          · exact fun req content same => absurd same (free _ req content)
          · split <;> exact fun req content same => absurd same (free _ req content)

theorem patchRouting_ne_stale {change : Fields → Fields} {document : Value} :
    patchRouting change document ≠ .error .stale := by
  unfold patchRouting
  split <;> exact fun same => nomatch same

theorem patch_ne_stale {document : Value} {post : Post} : patch document post ≠ .error .stale := by
  cases post with
  | rules rules => exact patchRouting_ne_stale
  | profiles profiles devices => exact patchRouting_ne_stale
  | users ops =>
      intro same
      simp only [patch] at same
      split at same
      · split at same
        · cases same
        · have status := congrArg Reply.status (Except.error.inj same)
          dsimp only [Reply.stale, Reply.status] at status
          split at status <;> omega
      · cases same

theorem settle_ne_stale {req : PostReq} {document patched : Value} {candidate : String}
    {checked : Checked} : settle env req document patched candidate checked ≠ .answer .stale := by
  unfold settle
  split
  · split
    · exact fun same => nomatch same
    · split
      · exact fun same => nomatch same
      · split <;> exact fun same => nomatch same
  · dsimp only
    split <;> exact fun same => nomatch same

theorem plan_ne_stale {req : PostReq} {content : String}
    (current : ∀ version, req.version = some version → version = env.configVersion content) :
    plan env req content ≠ .answer .stale := by
  have fresh : ¬ (req.version.any fun version => version != env.configVersion content) = true := by
    intro stale
    obtain ⟨version, carried, differs⟩ := (Option.any_eq_true _ _).mp stale
    exact bne_iff_ne.mp differs (current version carried)
  unfold plan
  rw [if_neg fresh]
  split
  · exact fun same => nomatch same
  · split
    · next reply failed =>
        intro same
        cases same
        exact patch_ne_stale failed
    · split
      · exact fun same => nomatch same
      · split
        · cases req.post <;> exact fun same => nomatch same
        · exact settle_ne_stale

theorem get_ne_stale {endpoint : Endpoint} {content : String} :
    get env endpoint content ≠ .stale := by
  unfold get
  split
  · exact fun same => nomatch same
  · cases endpoint with
    | rules =>
        dsimp only
        split <;> exact fun same => nomatch same
    | profiles | users => exact fun same => nomatch same

theorem Fresh.not_stale {server : Server} {last : Option String} (fresh : Fresh env server last)
    (event : Event) : (ConfigLock.step env server event).1 ≠ some .stale := by
  cases event with
  | get endpoint readable =>
      intro same
      have reply := Option.some.inj same
      cases readable with
      | true => exact get_ne_stale reply
      | false => cases reply
  | begin req readable =>
      simp only [ConfigLock.step]
      split
      · exact fun same => nomatch same
      · split <;> exact fun same => nomatch same
  | finish writable =>
      intro same
      simp only [ConfigLock.step] at same
      split at same
      · cases same
      · next req content taken =>
          obtain ⟨rfl, current⟩ := fresh.holder req content taken
          obtain ⟨reply, planned, _⟩ | ⟨_, _, planned, _⟩ | ⟨_, _, _, _, planned, _⟩ :=
            plan_cases env req server.file
          · rw [planned] at same
            cases Option.some.inj same
            exact plan_ne_stale current planned
          · rw [planned] at same
            cases Option.some.inj same
          · rw [planned] at same
            cases writable <;> cases Option.some.inj same

theorem run_fresh {file : String} {events : List Event}
    (steady : ∀ past event, past ++ [event] <+: events →
      Steady env (run (ConfigLock.step env) ⟨file, none⟩ past) event)
    (carried : StepByStep env file events) :
    Fresh env (run (ConfigLock.step env) ⟨file, none⟩ events)
      (lastVersion env ⟨file, none⟩ events none) := by
  induction events using List.reverseRecOn with
  | nil => exact ⟨(fun _ same => nomatch same), (fun _ _ same => nomatch same)⟩
  | append_singleton past event ih =>
      have before := ih
        (fun earlier other inside => steady earlier other (inside.trans (List.prefix_append _ _)))
        (fun earlier req readable inside =>
          carried earlier req readable (inside.trans (List.prefix_append _ _)))
      rw [run_append, lastVersion_snoc]
      apply before.step (steady past event (List.prefix_refl _))
      rintro req readable rfl
      exact carried past req readable (List.prefix_refl _)

end Client

/-- The optimistic lock over every interleaving: what is accepted and what is
kept, when the versions given out are those of the file, and that a client that
goes step by step is then never told that its version is stale. -/
theorem optimistic_lock (env : Env) (file : String) (events : List Event) :
    (∀ past event, past ++ [event] <+: events →
      Lawful env (run (step env) ⟨file, none⟩ past) event ∧
        (Versioned env (run (step env) ⟨file, none⟩ past) event ↔
          Steady env (run (step env) ⟨file, none⟩ past) event)) ∧
    ((∀ past event, past ++ [event] <+: events →
        Steady env (run (step env) ⟨file, none⟩ past) event) →
      StepByStep env file events →
        ∀ past event, past ++ [event] <+: events →
          (step env (run (step env) ⟨file, none⟩ past) event).1 ≠ some .stale) := by
  refine ⟨fun past event _ => step_lawful (run_held file past) event, ?_⟩
  intro steady carried past event inside
  have shorter : past <+: events := (List.prefix_append past [event]).trans inside
  have settled : ∀ earlier other, earlier ++ [other] <+: past →
      Steady env (run (step env) ⟨file, none⟩ earlier) other :=
    fun earlier other within => steady earlier other (within.trans shorter)
  have fresh := run_fresh settled
    (fun earlier req readable within => carried earlier req readable (within.trans shorter))
  exact fresh.not_stale event

end Runs

section Compact

/-- A file without line breaks, and what the printer makes of it. -/
def compact : String := "\x7b\"inbounds\":[\x7b\"type\":\"mirage_server\",\"tag\":\"in\"\x7d]\x7d"

def printed : String :=
  "\x7b\n  \"inbounds\": [\n    \x7b\n      \"type\": \"mirage_server\",\n      \"tag\": \"in\"\n    \x7d\n  ]\n\x7d"

def oneServer : Value :=
  .object [("inbounds", .array [.object [("type", .string "mirage_server"), ("tag", .string "in")]])]

def compactEnv : Env where
  parse text := if text = compact ∨ text = printed then some oneServer else none
  pretty _ := some printed
  configVersion text := if text = compact then "cfg-1" else "cfg-2"
  check _ := .ok ⟨[], [], []⟩

/-- Removing a user who is not there, and the same again with the version that
was given for an answer. -/
def removeGhost (version : Option String) : PostReq :=
  ⟨.users [⟨"remove", "ghost", none, none, none, none, none⟩], version, false⟩

def ghostTwice : List Event :=
  [.begin (removeGhost none) true, .finish true, .begin (removeGhost (some "cfg-2")) true, .finish true]

theorem ghostTwice_stepByStep : StepByStep compactEnv compact ghostTwice := by
  intro past req readable inside version carried
  rcases past with _ | ⟨first, _ | ⟨second, _ | ⟨third, past⟩⟩⟩
  · simp only [ghostTwice, List.nil_append, List.cons_prefix_cons] at inside
    cases inside.1
    cases carried
  · simp only [ghostTwice, List.cons_append, List.nil_append, List.cons_prefix_cons] at inside
    cases inside.2.1
  · simp only [ghostTwice, List.cons_append, List.nil_append, List.cons_prefix_cons] at inside
    obtain ⟨rfl, rfl, same, _⟩ := inside
    cases same
    cases carried
    rfl
  · simp only [ghostTwice, List.cons_append, List.cons_prefix_cons] at inside
    obtain ⟨_, _, _, last⟩ := inside
    cases past with
    | nil => cases last.eq_of_length rfl
    | cons other rest =>
        have long := last.length_le
        simp at long

/-- A file that is not written as the printer writes it turns the version of an
unchanged answer into a conflict. -/
theorem unchanged_answer_stale : ¬ ∀ env file events, StepByStep env file events →
    ∀ past event, past ++ [event] <+: events →
      (step env (run (step env) ⟨file, none⟩ past) event).1 ≠ some .stale := by
  intro all
  apply all compactEnv compact ghostTwice ghostTwice_stepByStep (ghostTwice.take 3) (.finish true)
    (List.prefix_refl _)
  rfl

end Compact

end Mirage.Api.ConfigLock
