import Mathlib.Data.Finset.Max
import Mathlib.Data.List.Rotate
import Mathlib.Data.String.Basic
import Mirage.Lib.DepthFirst
import Mirage.Outbound.Contract

/-!
What `semantic_issues` of config.rs finds in the references between outbounds:
tags defined twice, members and underlying outbounds that are not there, ciphers
nobody knows, and cycles. Its checks of keys, addresses, ports and strategies are
left out. From a list it finds nothing in the outbound manager can be built.
-/

namespace Mirage.Outbound
open Dependency DepthFirst Function Relation

section Check
variable (tools : Tools) (all : List OutboundConfig)

def duplicateIssues : List String → List OutboundConfig → List String
  | _, [] => []
  | tags, ob :: rest =>
      (if ob.tag ∈ tags then
        [s!"outbound tag `{ob.tag}` 重复定义 (后者覆盖前者, 行为不确定)"] else []) ++
        duplicateIssues (tags ++ [ob.tag]) rest

def tagsOf : List String := all.map OutboundConfig.tag

def groupIssues (config : GroupConfig) : List String :=
  let kind := config.kind.name
  let tag := config.tag
  match config.groupMembers tools all with
  | .error err => [err]
  | .ok children =>
      (if children = [] then
        if config.filter.isSome then
          [s!"{kind} `{tag}` 的 outbounds 为空 (该组不可用) (filter 未匹配到任何节点)"]
        else [s!"{kind} `{tag}` 的 outbounds 为空 (该组不可用)"]
      else []) ++
        (children.filter (· ∉ tagsOf all)).map
          (fun child => s!"{kind} `{tag}` 引用了不存在的成员 `{child}`") ++
        if tag ∈ children then [s!"{kind} `{tag}` 把自己列为成员 (自引用)"] else []

def underlyingIssues (kind tag : String) : Option String → List String
  | none => []
  | some u =>
      if u = tag then [s!"{kind} 出站 `{tag}` 的 underlying 自引用 (会形成环)"]
      else if u ∉ tagsOf all then
        [s!"{kind} 出站 `{tag}` 的 underlying `{u}` 不存在于 outbounds"]
      else []

def methodIssues (config : ShadowsocksConfig) : List String :=
  match Method.parse config.method with
  | .error (.cipher e) => [s!"shadowsocks 出站 `{config.tag}` 的 method 非法: {e}"]
  | _ => []

def leafIssues : OutboundConfig → List String
  | .mirage config => underlyingIssues all "mirage" config.tag config.underlying
  | .shadowsocks config =>
      methodIssues config ++ underlyingIssues all "shadowsocks" config.tag config.underlying
  | _ => []

def memberIssues : OutboundConfig → List String
  | .group config => groupIssues tools all config
  | _ => []

namespace OutboundConfig

/-- What an outbound points to, if it can be told. -/
def links : OutboundConfig → List String
  | mirage config => config.underlying.toList
  | shadowsocks config => config.underlying.toList
  | group config =>
      match config.groupMembers tools all with
      | .ok members => members
      | .error _ => []
  | wireguard _ | direct _ | block _ => []

end OutboundConfig

def addEdge (tag : String) (adj : String → List String) (m : String) : String → List String :=
  -- An outbound that names itself is reported with the members, not as a cycle.
  if m ∈ tagsOf all ∧ m ≠ tag ∧ m ∉ adj tag then update adj tag (adj tag ++ [m]) else adj

def adjacency : String → List String :=
  all.foldl (fun adj ob => (ob.links tools all).foldl (addEdge all ob.tag) adj) fun _ => []

/-- `filter_edges` -/
def fromFilter (src dst : String) : Bool :=
  all.any fun ob =>
    match ob with
    | .group config =>
        config.tag = src && config.filter.isSome && dst ∈ ob.links tools all &&
          dst ∈ tagsOf all && dst ≠ src && dst ∉ config.outbounds
    | _ => false

/-- The first of the least names. -/
def minIdx (names : List String) : Nat :=
  names.findIdx fun name => names.all fun other => !decide (other < name)

def norm (cycle : List String) : List String := cycle.rotate (minIdx cycle)

def cycleMessage (cycle : List String) : String :=
  let fullPath := cycle ++ cycle.take 1
  let pathStr := " → ".intercalate fullPath
  let filterNotes := (fullPath.zip fullPath.tail).filterMap fun w =>
    if fromFilter tools all w.1 w.2 then some s!"{w.1} 的 filter 匹配到 {w.2}" else none
  if filterNotes = [] then s!"出站存在循环引用: {pathStr}"
  else
    let notes := ", ".intercalate filterNotes
    s!"出站存在循环引用: {pathStr} ({notes})"

/-- The cycles reported so far, each turned to its least name, and the issues. -/
def noteCycle (state : List (List String) × List String) (cycle : List String) :
    List (List String) × List String :=
  if norm cycle ∈ state.1 then state
  else (state.1 ++ [norm cycle], state.2 ++ [cycleMessage tools all cycle])

def cycleIssues : List String :=
  (searchAll (adjacency tools all) (noteCycle tools all) (tagsOf all) ([], [])).report.2

/-- What `semantic_issues` says of the references. -/
def referenceIssues : List String :=
  duplicateIssues [] all ++ all.flatMap (memberIssues tools all) ++ all.flatMap (leafIssues all) ++
    cycleIssues tools all

end Check

section Edges
variable {tools : Tools} {all : List OutboundConfig} {adj : String → List String}
  {tag u v : String}

/-- One outbound points to another one that is defined. -/
def Linked (tools : Tools) (all : List OutboundConfig) (u v : String) : Prop :=
  ∃ ob ∈ all, ob.tag = u ∧ v ∈ ob.links tools all ∧ v ∈ tagsOf all ∧ v ≠ u

theorem mem_addEdge (m : String) : v ∈ addEdge all tag adj m u ↔
    v ∈ adj u ∨ u = tag ∧ v = m ∧ v ∈ tagsOf all ∧ v ≠ u := by
  unfold addEdge
  split
  · rename_i added
    by_cases same : u = tag
    · subst same
      rw [update_self, List.mem_append, List.mem_singleton]
      refine or_congr_right ⟨?_, fun new => new.2.1⟩
      rintro rfl
      exact ⟨rfl, rfl, added.1, added.2.1⟩
    · rw [update_of_ne same]
      exact ⟨Or.inl, fun either => either.resolve_right fun new => same new.1⟩
  · rename_i kept
    refine ⟨Or.inl, ?_⟩
    rintro (old | ⟨rfl, rfl, known, apart⟩)
    · exact old
    · by_contra missing
      exact kept ⟨known, apart, missing⟩

theorem mem_addEdges (ms : List String) : v ∈ ms.foldl (addEdge all tag) adj u ↔
    v ∈ adj u ∨ u = tag ∧ v ∈ ms ∧ v ∈ tagsOf all ∧ v ≠ u := by
  induction ms generalizing adj with
  | nil =>
      refine ⟨Or.inl, fun either => either.resolve_right ?_⟩
      rintro ⟨-, member, -⟩
      cases member
  | cons m ms ih =>
      rw [List.foldl_cons, ih, mem_addEdge, List.mem_cons]
      tauto

theorem mem_adjacency : v ∈ adjacency tools all u ↔ Linked tools all u v := by
  have folded : ∀ (obs : List OutboundConfig) (adj : String → List String),
      v ∈ obs.foldl (fun adj ob => (ob.links tools all).foldl (addEdge all ob.tag) adj) adj u ↔
        v ∈ adj u ∨ ∃ ob ∈ obs, ob.tag = u ∧ v ∈ ob.links tools all ∧ v ∈ tagsOf all ∧ v ≠ u := by
    intro obs
    induction obs with
    | nil => simp
    | cons ob obs ih =>
        intro adj
        rw [List.foldl_cons, ih, mem_addEdges]
        simp only [List.mem_cons, exists_eq_or_imp]
        tauto
  rw [adjacency, folded]
  exact ⟨fun either => either.resolve_left List.not_mem_nil, Or.inr⟩

end Edges

section Turned
variable {cycle other : List String}

/-- A cycle and its turns are reported under one name. -/
theorem norm_isRotated (cycle : List String) : cycle ~r norm cycle := ⟨minIdx cycle, rfl⟩

theorem norm_head (some_ : cycle ≠ []) : ∃ least ∈ cycle, (∀ name ∈ cycle, least ≤ name) ∧
    (norm cycle).head? = some least := by
  have found : ∃ name ∈ cycle, (cycle.all fun other => !decide (other < name)) = true := by
    obtain ⟨first, start⟩ := List.exists_mem_of_ne_nil cycle some_
    obtain ⟨least, member, below⟩ := cycle.toFinset.exists_min_image id
      ⟨first, List.mem_toFinset.mpr start⟩
    refine ⟨least, List.mem_toFinset.mp member, List.all_eq_true.mpr fun name inside => ?_⟩
    have order : least ≤ name := below name (List.mem_toFinset.mpr inside)
    rw [decide_eq_false (not_lt_of_ge order)]
    rfl
  have inside : minIdx cycle < cycle.length := List.findIdx_lt_length.mpr found
  refine ⟨cycle[minIdx cycle], List.getElem_mem inside, ?_, ?_⟩
  · intro name member
    have holds : (cycle.all fun other => !decide (other < cycle[minIdx cycle])) = true :=
      List.findIdx_getElem (w := inside)
    have least := List.all_eq_true.mp holds name member
    rw [Bool.not_eq_true', decide_eq_false_iff_not] at least
    exact le_of_not_gt least
  · rw [norm, List.rotate_eq_drop_append_take inside.le, List.drop_eq_getElem_cons inside]
    rfl

/-- A turn of a list without repetition is known by where it starts. -/
theorem eq_of_turned (nodup : cycle.Nodup) (turned : cycle ~r other)
    (same : cycle.head? = other.head?) : cycle = other := by
  obtain ⟨n, rfl⟩ := turned
  rw [← List.rotate_mod] at same ⊢
  cases cycle with
  | nil => rfl
  | cons name rest =>
      have inside : n % (name :: rest).length < (name :: rest).length :=
        Nat.mod_lt _ (Nat.succ_pos _)
      rw [List.head?_rotate inside, List.head?_cons] at same
      have first : (name :: rest)[0]? = (name :: rest)[n % (name :: rest).length]? := same
      have zero := (List.getElem?_inj (Nat.succ_pos _) nodup).mp first
      rw [← zero, List.rotate_zero]

theorem norm_eq (nodup : cycle.Nodup) (turned : cycle ~r other) : norm cycle = norm other := by
  by_cases empty : cycle = []
  · subst empty
    rw [List.isRotated_nil_iff'.mp turned]
  have some_ : other ≠ [] := fun none_ => empty (List.isRotated_nil_iff.mp (none_ ▸ turned))
  obtain ⟨least, member, below, start⟩ := norm_head empty
  obtain ⟨least', member', below', start'⟩ := norm_head some_
  have equal : least = least' := by
    apply le_antisymm
    · exact below least' (turned.mem_iff.mpr member')
    · exact below' least (turned.mem_iff.mp member)
  have around : norm cycle ~r norm other :=
    (norm_isRotated cycle).symm.trans (turned.trans (norm_isRotated other))
  apply eq_of_turned ((norm_isRotated cycle).nodup_iff.mp nodup) around
  rw [start, start', equal]

end Turned

section Reports
variable {tools : Tools} {all : List OutboundConfig}

/-- Outbounds that point to each other in turn, each once. -/
def LinkCycle (tools : Tools) (all : List OutboundConfig) (cycle : List String) : Prop :=
  DepthFirst.Cycle (Linked tools all) cycle

/-- What is left of the cycles once those seen before are skipped. -/
theorem noteCycle_run (found : List (List String)) (simple : ∀ cycle ∈ found, cycle.Nodup) :
    ∃ cycles, cycles.Sublist found ∧ (found ≠ [] → cycles ≠ []) ∧
      cycles.Pairwise (fun cycle other => ¬ cycle ~r other) ∧
        found.foldl (noteCycle tools all) ([], []) =
          (cycles.map norm, cycles.map (cycleMessage tools all)) := by
  induction found using List.reverseRecOn with
  | nil => exact ⟨[], .slnil, fun some_ => absurd rfl some_, .nil, rfl⟩
  | append_singleton found cycle ih =>
      obtain ⟨cycles, inside, some_, apart, noted⟩ := ih fun other member =>
        simple other (List.mem_append_left _ member)
      rw [List.foldl_append, noted, List.foldl_cons, List.foldl_nil, noteCycle]
      dsimp only
      split
      · rename_i known
        refine ⟨cycles, inside.trans (List.sublist_append_left _ _), ?_, apart, rfl⟩
        rintro - rfl
        cases known
      · rename_i fresh
        refine ⟨cycles ++ [cycle], inside.append_right [cycle], by simp, ?_, ?_⟩
        · -- A turn of a cycle noted before has the same least name in front.
          apply List.pairwise_append.mpr
          refine ⟨apart, List.pairwise_singleton _ cycle, ?_⟩
          intro other member last atEnd turned
          cases List.mem_singleton.mp atEnd
          have nodup := simple other (List.mem_append_left _ (inside.subset member))
          exact fresh (List.mem_map.mpr ⟨other, member, norm_eq nodup turned⟩)
        · rw [List.map_append, List.map_append]
          rfl

/-- What the issues are to be: one for each cycle found, all of them cycles of
the references, no two the same, and some if there is a cycle. -/
def CyclesReported (tools : Tools) (all : List OutboundConfig) : Prop :=
  ∃ cycles, cycleIssues tools all = cycles.map (cycleMessage tools all) ∧
    (∀ cycle ∈ cycles, LinkCycle tools all cycle) ∧
      cycles.Pairwise (fun cycle other => ¬ cycle ~r other) ∧
        (cycles = [] ↔ Acyclic (Linked tools all))

theorem cyclesReported (tools : Tools) (all : List OutboundConfig) : CyclesReported tools all := by
  have same : ∀ u v, Edge (adjacency tools all) u v ↔ Linked tools all u v := fun u v =>
    mem_adjacency
  have defined : ∀ {u v}, Linked tools all u v → u ∈ tagsOf all ∧ v ∈ tagsOf all := by
    rintro u v ⟨ob, member, rfl, -, known, -⟩
    exact ⟨List.mem_map_of_mem member, known⟩
  -- Edges run between tags only, so a search from every tag sees all of them.
  obtain ⟨genuine, none_⟩ := @searchAll_cycles _ _ (adjacency tools all) (tagsOf all)
    (fun u _ v edge => (defined ((same u v).mp edge)).2)
    (fun u unknown => List.eq_nil_iff_forall_not_mem.mpr fun v edge =>
      unknown (defined ((same u v).mp edge)).1)
  have linked : Edge (adjacency tools all) = Linked tools all :=
    funext fun u => funext fun v => propext (same u v)
  rw [linked] at genuine none_
  obtain ⟨cycles, inside, some_, apart, noted⟩ := @noteCycle_run tools all _
    fun cycle member => (genuine cycle member).nodup
  refine ⟨cycles, ?_, fun cycle member => genuine cycle (inside.subset member), apart, ?_⟩
  · rw [cycleIssues, report_eq, noted]
  · rw [← none_]
    constructor
    · intro empty
      by_contra reported
      exact some_ reported empty
    · intro empty
      rw [empty] at inside
      exact List.sublist_nil.mp inside

/-- The issues name different cycles of the references, and all references run
free of cycles if and only if there is no such issue. -/
theorem circular_references (tools : Tools) (all : List OutboundConfig) :
    ∃ cycles, cycleIssues tools all = cycles.map (cycleMessage tools all) ∧
      (∀ cycle ∈ cycles, LinkCycle tools all cycle) ∧
        cycles.Pairwise (fun cycle other => ¬ cycle ~r other) ∧
          (cycles = [] ↔ Acyclic (Linked tools all)) :=
  cyclesReported tools all

def circular : List OutboundConfig :=
  [.group ⟨.fallback, "auto", ["pick"], none⟩, .group ⟨.selector, "pick", ["auto"], none⟩]

example : cycleIssues bareTools circular = ["出站存在循环引用: auto → pick → auto"] := by decide

end Reports

section Builds
variable {tools : Tools} {all : List OutboundConfig}

theorem distinct_of_quiet {obs : List OutboundConfig} {tags : List String}
    (quiet : duplicateIssues tags obs = []) :
    (obs.map OutboundConfig.tag).Nodup ∧ ∀ ob ∈ obs, ob.tag ∉ tags := by
  induction obs generalizing tags with
  | nil => exact ⟨List.nodup_nil, fun _ member => absurd member List.not_mem_nil⟩
  | cons ob obs ih =>
      rw [duplicateIssues] at quiet
      obtain ⟨first, later⟩ := List.append_eq_nil_iff.mp quiet
      obtain ⟨distinct, apart⟩ := ih later
      have fresh : ob.tag ∉ tags := by
        intro known
        rw [if_pos known] at first
        exact List.cons_ne_nil _ _ first
      refine ⟨List.nodup_cons.mpr ⟨?_, distinct⟩, ?_⟩
      · intro again
        obtain ⟨other, member, same⟩ := List.mem_map.mp again
        exact apart other member (same ▸ List.mem_append_right _ List.mem_cons_self)
      · intro other member
        rcases List.mem_cons.mp member with rfl | old
        · exact fresh
        · exact fun known => apart other old (List.mem_append_left _ known)

theorem underlying_quiet {kind tag u : String} {underlying : Option String}
    (quiet : underlyingIssues all kind tag underlying = []) (points : u ∈ underlying.toList) :
    u ∈ tagsOf all ∧ u ≠ tag := by
  cases underlying with
  | none => cases points
  | some v =>
      cases List.mem_singleton.mp points
      simp only [underlyingIssues] at quiet
      split at quiet
      · cases quiet
      · rename_i apart
        split at quiet
        · cases quiet
        · rename_i known
          exact ⟨not_not.mp known, apart⟩

theorem group_quiet {config : GroupConfig} (quiet : groupIssues tools all config = []) :
    config.childTags tools all = (OutboundConfig.group config).links tools all ∧
      ∀ u ∈ config.childTags tools all, u ∈ tagsOf all ∧ u ≠ config.tag := by
  unfold groupIssues at quiet
  simp only [GroupConfig.childTags, OutboundConfig.links]
  cases members : config.groupMembers tools all with
  | error err =>
      rw [members] at quiet
      cases quiet
  | ok children =>
      rw [members] at quiet
      obtain ⟨front, own⟩ := List.append_eq_nil_iff.mp quiet
      obtain ⟨-, unknown⟩ := List.append_eq_nil_iff.mp front
      refine ⟨rfl, fun u member => ⟨?_, ?_⟩⟩
      · by_contra missing
        have reported : u ∈ children.filter (· ∉ tagsOf all) :=
          List.mem_filter.mpr ⟨member, decide_eq_true missing⟩
        rw [List.map_eq_nil_iff.mp unknown] at reported
        cases reported
      · rintro rfl
        rw [if_pos member] at own
        cases own

theorem refs_quiet {ob : OutboundConfig} (members : memberIssues tools all ob = [])
    (leaf : leafIssues all ob = []) {u : String} (refers : u ∈ ob.refs tools all) :
    u ∈ ob.links tools all ∧ u ∈ tagsOf all ∧ u ≠ ob.tag := by
  cases ob with
  | mirage config => exact ⟨refers, underlying_quiet leaf refers⟩
  | shadowsocks config =>
      exact ⟨refers, underlying_quiet (List.append_eq_nil_iff.mp leaf).2 refers⟩
  | group config =>
      obtain ⟨same, known⟩ := group_quiet members
      exact ⟨same ▸ refers, known u refers⟩
  | wireguard config | direct tag | block tag => cases refers

theorem method_quiet {ob : OutboundConfig} (leaf : leafIssues all ob = []) : ob.methodParses := by
  cases ob with
  | shadowsocks config =>
      have quiet := (List.append_eq_nil_iff.mp leaf).1
      unfold methodIssues at quiet
      cases parsed : Method.parse config.method with
      | ok method => exact ⟨method, parsed⟩
      | error e =>
          obtain ⟨message, rfl⟩ := parse_error parsed
          rw [parsed] at quiet
          cases quiet
  | mirage config | wireguard config | direct tag | block tag | group config => trivial

theorem distinct_of_reference_quiet (quiet : referenceIssues tools all = []) :
    (all.map OutboundConfig.tag).Nodup := by
  obtain ⟨front, -⟩ := List.append_eq_nil_iff.mp quiet
  obtain ⟨front, -⟩ := List.append_eq_nil_iff.mp front
  exact (distinct_of_quiet (List.append_eq_nil_iff.mp front).1).1

theorem constructible_of_quiet (quiet : referenceIssues tools all = []) :
    Constructible tools all := by
  obtain ⟨front, cycles⟩ := List.append_eq_nil_iff.mp quiet
  obtain ⟨front, leaves⟩ := List.append_eq_nil_iff.mp front
  have members := (List.append_eq_nil_iff.mp front).2
  have refers : ∀ ob ∈ all, ∀ u ∈ ob.refs tools all,
      u ∈ ob.links tools all ∧ u ∈ tagsOf all ∧ u ≠ ob.tag := fun ob member u =>
    refs_quiet (List.flatMap_eq_nil_iff.mp members ob member)
      (List.flatMap_eq_nil_iff.mp leaves ob member)
  -- Nothing names itself here, so the references are the links of the search.
  have acyclic : Acyclic (RefersTo tools all) := by
    obtain ⟨found, issues, -, -, exact_⟩ := cyclesReported tools all
    rw [cycles] at issues
    refine (exact_.mp (List.map_eq_nil_iff.mp issues.symm)).mono ?_
    rintro u v ⟨ob, member, rfl, points⟩
    exact ⟨ob, member, rfl, refers ob member v points⟩
  refine ⟨?_, acyclic.mono And.left, ?_⟩
  · intro ob member u points
    obtain ⟨other, there, rfl⟩ := List.mem_map.mp (refers ob member u points).2.1
    exact Or.inr ⟨other, there, rfl⟩
  · exact fun ob member => method_quiet (List.flatMap_eq_nil_iff.mp leaves ob member)

theorem new_of_quiet {order : List OutboundConfig} (quiet : referenceIssues tools all = [])
    (same : order.Perm all) : ∃ built, OutboundManager.new tools order = .ok built := by
  have tags := (same.map OutboundConfig.tag).nodup_iff.mpr (distinct_of_reference_quiet quiet)
  exact (new_ok_iff tags).mpr ((constructible_of_quiet quiet).perm same.symm tags)

/-- A list of outbounds that the check has nothing to say about can be built,
in whatever order it is written. -/
theorem checked_builds (tools : Tools) (all : List OutboundConfig)
    (quiet : referenceIssues tools all = []) (order : List OutboundConfig) (same : order.Perm all) :
    ∃ built, OutboundManager.new tools order = .ok built :=
  new_of_quiet quiet same

/-- A fallback over a selector, both written before what they refer to. -/
def nested : List OutboundConfig :=
  [.group ⟨.fallback, "auto", ["pick"], none⟩, .group ⟨.selector, "pick", ["node"], none⟩,
    .block "node"]

theorem nested_builds : ∃ built, OutboundManager.new bareTools nested.reverse = .ok built :=
  checked_builds bareTools nested (by decide) nested.reverse nested.reverse_perm

end Builds

end Mirage.Outbound
