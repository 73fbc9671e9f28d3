import Mathlib.Data.List.Find
import Mathlib.Data.List.Forall2
import Mirage.Lib.Dependency
import Mirage.Outbound.Manager

/-!
What outbounds refer to, and what the construction does with one of them. The
references of a definition are tags; those of the node made from it are the
nodes that the table held under these tags when it was made.
-/

namespace Mirage.Outbound
open Rounds Dependency Function Programs

namespace OutboundConfig
variable (tools : Tools) (all : List OutboundConfig)

def refs : OutboundConfig → List String
  | mirage config => config.underlying.toList
  | shadowsocks config => config.underlying.toList
  | group config => config.childTags tools all
  | wireguard _ | direct _ | block _ => []

/-- Left for pass 2. -/
def deferred : OutboundConfig → Bool
  | mirage config => config.underlying.isSome
  | shadowsocks config => config.underlying.isSome
  | group _ => true
  | wireguard _ | direct _ | block _ => false

def methodParses : OutboundConfig → Prop
  | shadowsocks config => ∃ method, Method.parse config.method = .ok method
  | _ => True

end OutboundConfig

/-- The tags that are there without a definition. -/
def Reserved (tag : String) : Prop := tag = "direct" ∨ tag = "block"

def Known (all : List OutboundConfig) (tag : String) : Prop :=
  Reserved tag ∨ ∃ oc ∈ all, oc.tag = tag

section References
variable (tools : Tools) (all : List OutboundConfig)

def RefersTo (tag target : String) : Prop :=
  ∃ oc ∈ all, oc.tag = tag ∧ target ∈ oc.refs tools all

/-- References but those to the tags that are always there. -/
def Waits (tag target : String) : Prop := RefersTo tools all tag target ∧ ¬ Reserved target

structure WellFormed : Prop where
  known : ∀ oc ∈ all, ∀ tag ∈ oc.refs tools all, Known all tag
  acyclic : Acyclic (RefersTo tools all)
  methods : ∀ oc ∈ all, oc.methodParses

/-- The same without the references to direct and block. -/
structure Constructible : Prop where
  known : ∀ oc ∈ all, ∀ tag ∈ oc.refs tools all, Known all tag
  acyclic : Acyclic (Waits tools all)
  methods : ∀ oc ∈ all, oc.methodParses

/-- No definition refers to direct or block where that tag is a group's or a
chained outbound's. -/
def Settled : Prop :=
  ∀ oc ∈ all, ∀ tag ∈ oc.refs tools all, Reserved tag →
    ∀ other ∈ all, other.tag = tag → other.deferred = false

variable {tools all}

theorem WellFormed.constructible (wellFormed : WellFormed tools all) : Constructible tools all where
  known := wellFormed.known
  acyclic := wellFormed.acyclic.mono And.left
  methods := wellFormed.methods

theorem refs_of_not_deferred {oc : OutboundConfig} (leaf : oc.deferred = false) :
    oc.refs tools all = [] := by
  cases oc with
  | mirage config | shadowsocks config =>
      exact Option.toList_eq_nil_iff.mpr (Option.not_isSome_iff_eq_none.mp (Bool.eq_false_iff.mp leaf))
  | group config => cases leaf
  | wireguard config | direct tag | block tag => rfl

end References

section Order
variable {tools : Tools} {all order : List OutboundConfig}

def joins (config : GroupConfig) (isMatch : String → Bool) (result : List String)
    (cand : OutboundConfig) : Bool :=
  cand.tag ≠ config.tag && (cand.isLeafProxy && isMatch cand.tag && !result.any (· = cand.tag))

theorem addCandidate_eq (config : GroupConfig) (isMatch : String → Bool) (result : List String)
    (cand : OutboundConfig) : addCandidate config isMatch result cand =
      if joins config isMatch result cand then result ++ [cand.tag] else result := by
  unfold addCandidate joins
  by_cases own : cand.tag = config.tag
  · rw [if_pos own, decide_eq_false (not_not_intro own), Bool.false_and, if_neg Bool.false_ne_true]
  · rw [if_neg own, decide_eq_true own, Bool.true_and]

/-- A filter appends the leaf proxies it matches, in the order of the list. -/
theorem foldl_addCandidate (config : GroupConfig) (isMatch : String → Bool) (result : List String)
    (distinct : (all.map OutboundConfig.tag).Nodup) :
    all.foldl (addCandidate config isMatch) result =
      result ++ (all.filter (joins config isMatch result)).map OutboundConfig.tag := by
  induction all generalizing result with
  | nil => exact (List.append_nil _).symm
  | cons cand rest ih =>
      obtain ⟨fresh, distinct⟩ := List.nodup_cons.mp distinct
      rw [List.foldl_cons, ih _ distinct, addCandidate_eq]
      by_cases added : joins config isMatch result cand = true
      · rw [if_pos added, List.filter_cons_of_pos added, List.append_assoc, List.map_cons,
          List.singleton_append]
        -- The tag just added is no later candidate's.
        congr 3
        apply List.filter_congr
        intro other member
        have differs : cand.tag ≠ other.tag := by
          intro same
          exact fresh (same ▸ List.mem_map_of_mem member)
        unfold joins
        rw [List.any_append, List.any_cons, List.any_nil, decide_eq_false differs, Bool.or_false,
          Bool.or_false]
      · rw [if_neg added, List.filter_cons_of_neg added]

theorem refs_perm (same : order.Perm all) (distinct : (all.map OutboundConfig.tag).Nodup)
    (oc : OutboundConfig) : (oc.refs tools order).Perm (oc.refs tools all) := by
  cases oc with
  | group config =>
      simp only [OutboundConfig.refs, GroupConfig.childTags, GroupConfig.groupMembers]
      cases config.filter with
      | none => exact .refl _
      | some pattern =>
          dsimp only
          cases tools.regex pattern with
          | error e => exact .refl _
          | ok isMatch =>
              dsimp only
              rw [foldl_addCandidate config isMatch _ ((same.map _).nodup_iff.mpr distinct),
                foldl_addCandidate config isMatch _ distinct]
              exact ((same.filter _).map _).append_left _
  | mirage config | shadowsocks config | wireguard config | direct tag | block tag => exact .refl _

end Order

/-! ### The node of a definition -/

def nodeOf (tools : Tools) (choices : String → Option String) (built : Built)
    (oc : OutboundConfig) (ids : List Nat) : Option OutboundNode :=
  match oc with
  | .mirage config => some (buildMirage config ids.head?)
  | .shadowsocks config => (buildSs config ids.head?).toOption
  | .wireguard config => some (buildWireguard tools config)
  | .direct tag => some (.direct tag)
  | .block tag => some (.block tag)
  | .group config => some (built.groupNode choices config ids)

def implicitNode (tag : String) : OutboundNode :=
  if tag = "direct" then .direct "direct" else .block "block"

section Pairs
variable {α β : Type} {R : α → β → Prop} {xs : List α} {ys : List β}

theorem forall₂_mem_left (paired : List.Forall₂ R xs ys) {x : α} (member : x ∈ xs) :
    ∃ y ∈ ys, R x y := by
  induction paired with
  | nil => cases member
  | cons related _ ih =>
      rcases List.mem_cons.mp member with rfl | later
      · exact ⟨_, List.mem_cons_self, related⟩
      · obtain ⟨y, inside, related⟩ := ih later
        exact ⟨y, List.mem_cons_of_mem _ inside, related⟩

theorem forall₂_mem_right (paired : List.Forall₂ R xs ys) {y : β} (member : y ∈ ys) :
    ∃ x ∈ xs, R x y :=
  forall₂_mem_left paired.flip member

end Pairs

section Nodes
variable {tools : Tools} {all : List OutboundConfig} {choices : String → Option String}
  {built next : Built} {oc : OutboundConfig} {ids : List Nat} {node : OutboundNode}

theorem buildSs_tag {config : ShadowsocksConfig} {underlying : Option Nat}
    (ok : buildSs config underlying = .ok node) :
    node.tag = config.tag ∧ node.references = underlying.toList := by
  unfold buildSs at ok
  split at ok
  case h_1 => cases ok
  case h_2 =>
    cases ok
    exact ⟨rfl, rfl⟩

theorem groupNode_tag (config : GroupConfig) :
    (built.groupNode choices config ids).tag = config.tag := by
  unfold Built.groupNode
  cases config.kind <;> rfl

theorem buildWireguard_tag (config : WireguardConfig) :
    (buildWireguard tools config).tag = config.tag := by
  unfold buildWireguard
  split <;> rfl

theorem buildWireguard_references (config : WireguardConfig) :
    (buildWireguard tools config).references = [] := by
  unfold buildWireguard
  split <;> rfl

theorem nodeOf_tag (made : nodeOf tools choices built oc ids = some node) : node.tag = oc.tag := by
  cases oc with
  | mirage config | direct tag | block tag =>
      cases made
      rfl
  | wireguard config =>
      cases made
      exact buildWireguard_tag config
  | group config =>
      cases made
      exact groupNode_tag config
  | shadowsocks config =>
      unfold nodeOf at made
      dsimp only at made
      cases ok : buildSs config ids.head? with
      | error e =>
          rw [ok] at made
          cases made
      | ok found =>
          rw [ok] at made
          cases made
          exact (buildSs_tag ok).1

theorem selected_mem {choice : Option String} {child : Nat}
    (selected : built.selected choice ids = some child) : child ∈ ids := by
  unfold Built.selected at selected
  split at selected
  case h_1 => exact List.mem_of_head? selected
  case h_2 target =>
    split at selected
    case h_1 found =>
      cases selected
      exact List.mem_of_find?_eq_some found
    case h_2 => exact List.mem_of_head? selected

theorem mem_groupNode_references {config : GroupConfig} {id : Nat} :
    id ∈ (built.groupNode choices config ids).references ↔ id ∈ ids := by
  unfold Built.groupNode
  cases config.kind with
  | selector =>
      refine List.mem_append.trans ⟨?_, .inl⟩
      rintro (child | current)
      · exact child
      · exact selected_mem (Option.mem_toList.mp current)
  | urltest tolerance testType | fallback | loadBalance => exact Iff.rfl

theorem toList_head? {refs : List String} {tag : Option String} (single : refs = tag.toList)
    (size : ids.length = refs.length) : ids.head?.toList = ids := by
  subst single
  cases tag with
  | none => rw [List.length_eq_zero_iff.mp size]; rfl
  | some t =>
      obtain ⟨id, rfl⟩ := List.length_eq_one_iff.mp size
      rfl

theorem mem_references (made : nodeOf tools choices built oc ids = some node)
    (size : ids.length = (oc.refs tools all).length) {id : Nat} :
    id ∈ node.references ↔ id ∈ ids := by
  cases oc with
  | mirage config =>
      cases made
      exact iff_of_eq (congrArg (id ∈ ·) (toList_head? rfl size))
  | shadowsocks config =>
      unfold nodeOf at made
      dsimp only at made
      cases ok : buildSs config ids.head? with
      | error e =>
          rw [ok] at made
          cases made
      | ok found =>
          rw [ok] at made
          cases made
          rw [(buildSs_tag ok).2]
          exact iff_of_eq (congrArg (id ∈ ·) (toList_head? rfl size))
  | group config =>
      cases made
      exact mem_groupNode_references
  | wireguard config =>
      cases made
      rw [buildWireguard_references, List.length_eq_zero_iff.mp size]
  | direct tag | block tag =>
      cases made
      rw [List.length_eq_zero_iff.mp size]
      exact Iff.rfl

theorem nodeOf_append {more : List OutboundNode} (same : next.nodes = built.nodes ++ more)
    (inside : ∀ id ∈ ids, id < built.nodes.length) :
    nodeOf tools choices next oc ids = nodeOf tools choices built oc ids := by
  cases oc with
  | group config =>
      have tags : ∀ id ∈ ids, next.tagOf id = built.tagOf id := by
        intro id member
        unfold Built.tagOf
        rw [same, List.getElem?_append_left (inside id member)]
      have finds : ∀ target, (ids.find? fun id => next.tagOf id = some target) =
          ids.find? fun id => built.tagOf id = some target := by
        intro target
        apply List.find?_congr
        intro id member
        rw [tags id member]
      have selects : ∀ choice, next.selected choice ids = built.selected choice ids := by
        intro choice
        unfold Built.selected
        cases choice with
        | none => rfl
        | some target =>
            dsimp only
            rw [finds]
      have kept : next.groupNode choices config ids = built.groupNode choices config ids := by
        unfold Built.groupNode
        cases config.kind with
        | selector => exact congrArg (OutboundNode.selector config.tag ids) (selects _)
        | urltest tolerance testType | fallback | loadBalance => rfl
      exact congrArg some kept
  | mirage config | shadowsocks config | wireguard config | direct tag | block tag => rfl

theorem mapM_eq_some {table : String → Option Nat} {tags : List String}
    (found : tags.mapM table = some ids) :
    List.Forall₂ (fun tag id => table tag = some id) tags ids := by
  induction tags generalizing ids with
  | nil =>
      cases found
      exact .nil
  | cons tag rest ih =>
      rw [List.mapM_cons, Option.bind_eq_bind, Option.bind_eq_some_iff] at found
      obtain ⟨id, one, found⟩ := found
      rw [Option.bind_eq_bind, Option.bind_eq_some_iff] at found
      obtain ⟨others, more, same⟩ := found
      cases same
      exact .cons one (ih more)

theorem mapM_eq_none {table : String → Option Nat} {tags : List String}
    (missing : tags.mapM table = none) : ∃ tag ∈ tags, table tag = none := by
  induction tags with
  | nil => cases missing
  | cons tag rest ih =>
      cases one : table tag with
      | none => exact ⟨tag, List.mem_cons_self, one⟩
      | some id =>
          rw [List.mapM_cons, one] at missing
          cases more : rest.mapM table with
          | none =>
              obtain ⟨other, member, absent⟩ := ih more
              exact ⟨other, List.mem_cons_of_mem _ member, absent⟩
          | some others =>
              rw [more] at missing
              cases missing

theorem attempt_some (taken : attempt tools all choices built oc = .ok (some next)) :
    ∃ ids node stale, List.Forall₂ (fun tag id => built.table tag = some id) (oc.refs tools all) ids ∧
      nodeOf tools choices built oc ids = some node ∧ oc.deferred = true ∧
      next = { built.insert node with stale } := by
  cases oc with
  | mirage config =>
      simp only [attempt] at taken
      split at taken
      case h_1 => cases taken
      case h_2 utag chained =>
        split at taken
        case h_2 => cases taken
        case h_1 u found =>
          cases taken
          refine ⟨[u], _, _, ?_, rfl, ?_, rfl⟩
          · rw [OutboundConfig.refs, chained]
            exact .cons found .nil
          · rw [OutboundConfig.deferred, chained]
            rfl
  | shadowsocks config =>
      simp only [attempt] at taken
      split at taken
      case h_1 => cases taken
      case h_2 utag chained =>
        split at taken
        case h_2 => cases taken
        case h_1 u found =>
          split at taken
          case h_1 => cases taken
          case h_2 node ok =>
            cases taken
            refine ⟨[u], node, _, ?_, ?_, ?_, rfl⟩
            · rw [OutboundConfig.refs, chained]
              exact .cons found .nil
            · simp only [nodeOf, List.head?_cons, ok]
              rfl
            · rw [OutboundConfig.deferred, chained]
              rfl
  | group config =>
      simp only [attempt] at taken
      split at taken
      case h_2 => cases taken
      case h_1 children found =>
        cases taken
        exact ⟨children, _, _, mapM_eq_some found, rfl, rfl, rfl⟩
  | wireguard config | direct tag | block tag => cases taken

theorem attempt_none (waits : attempt tools all choices built oc = .ok none) :
    ∃ tag ∈ oc.refs tools all, built.table tag = none := by
  cases oc with
  | mirage config | shadowsocks config =>
      simp only [attempt] at waits
      split at waits
      case h_1 => cases waits
      case h_2 utag chained =>
        split at waits
        case h_2 missing =>
          refine ⟨utag, ?_, missing⟩
          rw [OutboundConfig.refs, chained]
          exact List.mem_singleton_self utag
        case h_1 =>
          first
          | cases waits
          | split at waits <;> cases waits
  | group config =>
      simp only [attempt] at waits
      split at waits
      case h_1 => cases waits
      case h_2 missing => exact mapM_eq_none missing
  | wireguard config | direct tag | block tag => cases waits

theorem buildSs_error {config : ShadowsocksConfig} {underlying : Option Nat} {e : BuildError}
    (failed : buildSs config underlying = .error e) :
    Method.parse config.method = .error e := by
  unfold buildSs at failed
  split at failed
  case h_1 parsed =>
    cases failed
    exact parsed
  case h_2 => cases failed

theorem parse_error {s : String} {e : BuildError} (failed : Method.parse s = .error e) :
    ∃ message, e = .cipher message := by
  unfold Method.parse at failed
  split at failed
  case h_8 =>
    cases failed
    exact ⟨_, rfl⟩
  all_goals cases failed

theorem buildSs_refuses {config : ShadowsocksConfig} {underlying : Option Nat} {e : BuildError}
    (failed : buildSs config underlying = .error e) :
    ¬ (OutboundConfig.shadowsocks config).methodParses ∧ e ≠ .unreachable := by
  have parsed := buildSs_error failed
  obtain ⟨message, rfl⟩ := parse_error parsed
  refine ⟨?_, fun same => nomatch same⟩
  rintro ⟨method, ok⟩
  cases ok.symm.trans parsed

theorem attempt_error {e : BuildError} (deferred : oc.deferred = true)
    (failed : attempt tools all choices built oc = .error e) :
    ¬ oc.methodParses ∧ e ≠ .unreachable := by
  cases oc with
  | mirage config =>
      simp only [attempt] at failed
      split at failed
      case h_1 direct =>
        rw [OutboundConfig.deferred, direct] at deferred
        cases deferred
      case h_2 => split at failed <;> cases failed
  | shadowsocks config =>
      simp only [attempt] at failed
      split at failed
      case h_1 direct =>
        rw [OutboundConfig.deferred, direct] at deferred
        cases deferred
      case h_2 =>
        split at failed
        case h_2 => cases failed
        case h_1 =>
          split at failed
          case h_2 => cases failed
          case h_1 reason refused =>
            cases failed
            exact buildSs_refuses refused
  | group config =>
      simp only [attempt] at failed
      split at failed <;> cases failed
  | wireguard config | direct tag | block tag => cases deferred

theorem attempt_ready (deferred : oc.deferred = true) (parses : oc.methodParses)
    (ready : ∀ tag ∈ oc.refs tools all, built.table tag ≠ none) :
    ∃ next, attempt tools all choices built oc = .ok (some next) := by
  cases tried : attempt tools all choices built oc with
  | error e => exact absurd parses (attempt_error deferred tried).1
  | ok result =>
      cases result with
      | some next => exact ⟨next, rfl⟩
      | none =>
          obtain ⟨tag, member, missing⟩ := attempt_none tried
          exact absurd missing (ready tag member)

end Nodes

end Mirage.Outbound
