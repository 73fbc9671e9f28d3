import Mathlib.Data.List.MinMax
import Mathlib.Logic.Relation
import Mirage.Lib.Programs
import Mirage.Outbound.Manager

/-!
How a connection gets its leaf: `is_healthy`, `is_penalized`, the latencies and
`resolve_leaf` over a tree of outbound nodes. A group sees a child only through
these, so a child is given to it as a `View`.
-/

namespace Mirage.Outbound.Selection
open Function Programs

inductive Leaf where
  | mirage (tag : String)
  | wireguard (tag : String)
  | direct (tag : String)
  | block (tag : String)
  | shadowsocks (tag : String)
  deriving DecidableEq

/-- A node with the nodes it shares out connections to. The tag of a group is its
identity: what it remembers is kept under it and its children. -/
inductive Node where
  | leaf (leaf : Leaf)
  | group (tag : String) (kind : GroupKind) (children : List Node)

namespace Node

mutual

def decEq : (node other : Node) → Decidable (node = other)
  | leaf first, leaf second => decidable_of_iff (first = second) (by rw [leaf.injEq])
  | leaf _, group _ _ _ | group _ _ _, leaf _ => isFalse nofun
  | group tag kind children, group tag' kind' children' =>
      match decEqs children children' with
      | isTrue same => decidable_of_iff (tag = tag' ∧ kind = kind') (by simp [same])
      | isFalse differ => isFalse fun same => differ (by injection same)

def decEqs : (nodes others : List Node) → Decidable (nodes = others)
  | [], [] => isTrue rfl
  | [], _ :: _ | _ :: _, [] => isFalse nofun
  | node :: rest, other :: others =>
      match decEq node other with
      | isFalse differ => isFalse fun same => differ (List.cons.inj same).1
      | isTrue here =>
          match decEqs rest others with
          | isFalse differ => isFalse fun same => differ (List.cons.inj same).2
          | isTrue behind => isTrue (by rw [here, behind])

end

instance : DecidableEq Node := decEq

@[elab_as_elim]
theorem tree_induction {P : Node → Prop} (leaf : ∀ l, P (leaf l))
    (group : ∀ tag kind children, (∀ child ∈ children, P child) → P (group tag kind children))
    (node : Node) : P node :=
  @Node.rec P (fun children => ∀ child ∈ children, P child) leaf
    (fun tag kind children holds => group tag kind children holds)
    (fun _ absent => absurd absent List.not_mem_nil)
    (fun _ _ here behind => List.forall_mem_cons.mpr ⟨here, behind⟩) node

def children : Node → List Node
  | leaf _ => []
  | group _ _ children => children

end Node

structure Stats where
  isHealthy : Bool
  isPenalized : Bool
  rttMs : Nat
  slowFloorMs : Option Nat
  latencyMs : Option Nat

/-- What is set from outside: the statistics by tag, and the choice of each
selector. -/
structure World where
  stats : String → Stats
  chosen : Node → Option Node

def u64Max : Nat := 2 ^ 64 - 1

namespace Leaf
variable (world : World)

def isHealthy : Leaf → Bool
  | mirage tag => (world.stats tag).isHealthy
  | wireguard _ | direct _ | block _ | shadowsocks _ => true

def isPenalized : Leaf → Bool
  | mirage tag => (world.stats tag).isPenalized
  | wireguard _ | direct _ | block _ | shadowsocks _ => false

def latencyRttMs : Leaf → Option Nat
  | mirage tag =>
      let stats := world.stats tag
      if 0 < stats.rttMs ∧ stats.rttMs ≠ u64Max then
        some (stats.slowFloorMs.elim stats.rttMs (max stats.rttMs))
      else none
  | wireguard _ | direct _ | block _ | shadowsocks _ => none

def latencyHttpMs : Leaf → Option Nat
  | mirage tag => (world.stats tag).latencyMs
  | wireguard _ | direct _ | block _ | shadowsocks _ => none

end Leaf

/-- What a group remembers: the current child of an urltest, the cursor of a
load_balance. -/
structure Cell where
  current : Option Node
  next : Nat

abbrev Memory := Node → Cell

abbrev Select := StateM Memory

def Memory.cell (self : Node) : Select Cell := (· self) <$> get

def Memory.setCurrent (self child : Node) : Select PUnit :=
  modify fun memory => update memory self { memory self with current := some child }

def Memory.advance (self : Node) : Select PUnit :=
  modify fun memory => update memory self
    { memory self with next := ((memory self).next + 1) % 2 ^ 64 }

/-- What `resolve_leaf` gives: the leaf, or none where a group comes back; and for
the statements below the children taken on the way. -/
structure Outcome where
  leaf : Option Leaf
  way : List (Node × Node)

def Outcome.stuck : Outcome := ⟨none, []⟩

def Outcome.through (self child : Node) (outcome : Outcome) : Outcome :=
  { outcome with way := (self, child) :: outcome.way }

structure View where
  node : Node
  isHealthy : Bool
  isPenalized : Bool
  latencyRttMs : Select (Option Nat)
  latencyHttpMs : Select (Option Nat)
  resolveLeaf : Select Outcome

namespace View

def latencyMs (view : View) (testType : String) : Select (Option Nat) :=
  if testType = "rtt" then do
    match ← view.latencyRttMs with
    | some lat => return some lat
    | none => view.latencyHttpMs
  else view.latencyHttpMs

end View

section Options
variable (isHealthy isPenalized : α → Bool) (chosen : Option α)

/-- The healthy ones without a penalty, or all the healthy ones. -/
def candidates (children : List α) : List α :=
  let healthy := children.filter isHealthy
  let unpenalized := healthy.filter fun child => !isPenalized child
  if unpenalized.isEmpty then healthy else unpenalized

def options : GroupKind → List α → List α
  | .urltest _ _, children => candidates isHealthy isPenalized children
  | .fallback, children => ((children.find? isHealthy).or children.head?).toList
  | .selector, children => (chosen.or children.head?).toList
  | .loadBalance, children =>
      let healthy := children.filter isHealthy
      if healthy.isEmpty then children.head?.toList else healthy

end Options

/-- `with_lat`. -/
def askAll (testType : String) : List View → Select (List (Node × Nat))
  | [] => return []
  | child :: rest => do
      let lat ← child.latencyMs testType
      let found ← askAll testType rest
      return (lat.map (child.node, ·)).toList ++ found

def look (views : List View) (node : Node) : Option View := views.find? fun view => view.node = node

/-- The child an urltest takes, and whether it switches to it, by the candidate with
the least latency and the current child where that may be kept. -/
def urltestWeigh (toleranceMs : Nat) (testType : String) (first : View)
    (best : Option (Node × Nat)) (kept : Option View) : Select (Node × Bool) :=
  match best, kept with
  | none, some curr => return (curr.node, false)
  | none, none => return (first.node, true)
  | some best, some curr => do
      match ← curr.latencyMs testType with
      | some currLat =>
          if currLat ≤ (best.2 + toleranceMs) % 2 ^ 64 then return (curr.node, false)
          else return (best.1, true)
      | none => return (best.1, true)
  | some best, none => return (best.1, true)

/-- A current child that is healthy, and not penalized unless all are, is one of the
candidates. -/
def urltestChoice (self : Node) (toleranceMs : Nat) (testType : String) :
    List View → Select (Option (Node × Bool))
  | [] => return none
  | first :: rest => do
      let withLat ← askAll testType (first :: rest)
      let cell ← Memory.cell self
      some <$> urltestWeigh toleranceMs testType first (withLat.argmin Prod.snd)
        (cell.current.bind (look (first :: rest)))

/-- The child that `resolve_leaf` goes on with. -/
def pick (self : Node) : GroupKind → List View → Select (Option Node)
  | .urltest toleranceMs testType, options => do
      match ← urltestChoice self toleranceMs testType options with
      | some (child, true) =>
          Memory.setCurrent self child
          return some child
      | some (child, false) => return some child
      | none => return none
  | .fallback, options | .selector, options => return options.head?.map View.node
  | .loadBalance, options =>
      if options.any View.isHealthy then do
        let cell ← Memory.cell self
        Memory.advance self
        return (options[cell.next % options.length]?).map View.node
      else return options.head?.map View.node

def resolveGroup (self : Node) (kind : GroupKind) (options : List View) : Select Outcome := do
  match ← pick self kind options with
  | some child =>
      match look options child with
      | some view => Outcome.through self child <$> view.resolveLeaf
      | none => return .stuck
  | none => return .stuck

def leafView (world : World) (leaf : Leaf) : View where
  node := .leaf leaf
  isHealthy := leaf.isHealthy world
  isPenalized := leaf.isPenalized world
  latencyRttMs := return leaf.latencyRttMs world
  latencyHttpMs := return leaf.latencyHttpMs world
  resolveLeaf := return ⟨some leaf, []⟩

/-- A group asks the leaf it resolves to; one that comes back has no latency. -/
def groupView (world : World) (self : Node) (kind : GroupKind) (children : List View) : View :=
  let resolve := resolveGroup self kind
    (options View.isHealthy View.isPenalized ((world.chosen self).bind (look children)) kind
      children)
  { node := self
    isHealthy := children.any View.isHealthy
    isPenalized := false
    latencyRttMs := do return (← resolve).leaf.bind (Leaf.latencyRttMs world)
    latencyHttpMs := do return (← resolve).leaf.bind (Leaf.latencyHttpMs world)
    resolveLeaf := resolve }

mutual

def Node.view (world : World) : Node → View
  | .leaf leaf => leafView world leaf
  | .group tag kind children =>
      groupView world (.group tag kind children) kind (views world children)

def views (world : World) : List Node → List View
  | [] => []
  | child :: rest => child.view world :: views world rest

end

theorem views_eq (world : World) (children : List Node) :
    views world children = children.map (Node.view world) := by
  induction children with
  | nil => rfl
  | cons child rest ih => rw [views, ih, List.map_cons]

@[simp]
theorem Node.view_node (world : World) (node : Node) : (node.view world).node = node := by
  cases node <;> rfl

namespace Node
variable (world : World)

def isHealthy (node : Node) : Bool := (node.view world).isHealthy

def isPenalized (node : Node) : Bool := (node.view world).isPenalized

/-- The children that a node may take: as the world stands, which of them it takes
is up to the latencies and to what the groups remember. -/
def options : Node → List Node
  | leaf _ => []
  | group tag kind children =>
      Selection.options (isHealthy world) (isPenalized world)
        ((world.chosen (group tag kind children)).filter (· ∈ children)) kind children

end Node

/-- Views of nodes that say the same of their health as the nodes themselves. -/
structure Shows (world : World) (show_ : Node → View) : Prop where
  node : ∀ child, (show_ child).node = child
  healthy : ∀ child, (show_ child).isHealthy = child.isHealthy world
  penalized : ∀ child, (show_ child).isPenalized = child.isPenalized world

theorem view_shows (world : World) : Shows world (Node.view world) :=
  ⟨Node.view_node world, fun _ => rfl, fun _ => rfl⟩

section Shown
variable {world : World} {show_ : Node → View} (shows : Shows world show_)
variable {tag : String} {kind : GroupKind} {children : List Node}

include shows

theorem look_shown (children : List Node) (child : Node) :
    look (children.map show_) child = if child ∈ children then some (show_ child) else none := by
  induction children with
  | nil => rfl
  | cons first rest ih =>
      rw [List.map_cons, look, List.find?_cons]
      by_cases here : first = child
      · simp [here, shows.node]
      · simp only [shows.node, here, decide_false, List.mem_cons, Ne.symm here, false_or]
        exact ih

theorem healthy_shown : View.isHealthy ∘ show_ = Node.isHealthy world := funext shows.healthy

theorem candidates_shown (children : List Node) :
    candidates View.isHealthy View.isPenalized (children.map show_) =
      (candidates (Node.isHealthy world) (Node.isPenalized world) children).map show_ := by
  have free : (fun view : View => !view.isPenalized) ∘ show_ =
      fun child => !child.isPenalized world := funext fun child => by
    rw [comp_apply, shows.penalized]
  simp only [candidates, List.filter_map, List.isEmpty_map, healthy_shown shows, free,
    apply_ite (List.map show_)]

theorem options_shown (chosen : Option Node) :
    options View.isHealthy View.isPenalized (chosen.map show_) kind (children.map show_) =
      (options (Node.isHealthy world) (Node.isPenalized world) chosen kind children).map
        show_ := by
  cases kind with
  | urltest toleranceMs testType => exact candidates_shown shows children
  | fallback =>
      simp only [options, List.find?_map, List.head?_map, ← Option.map_or, Option.toList_map,
        healthy_shown shows]
  | selector => simp only [options, List.head?_map, ← Option.map_or, Option.toList_map]
  | loadBalance =>
      simp only [options, List.filter_map, List.isEmpty_map, List.head?_map, Option.toList_map,
        healthy_shown shows, apply_ite (List.map show_)]

theorem chosen_shown (chosen : Option Node) :
    chosen.bind (look (children.map show_)) = (chosen.filter (· ∈ children)).map show_ := by
  cases chosen with
  | none => rfl
  | some child =>
      rw [Option.bind_some, look_shown shows]
      by_cases here : child ∈ children <;> simp [here]

theorem groupView_shown : groupView world (.group tag kind children) kind (children.map show_) =
    let self := Node.group tag kind children
    let resolve := resolveGroup self kind ((self.options world).map show_)
    { node := self
      isHealthy := children.any (Node.isHealthy world)
      isPenalized := false
      latencyRttMs := do return (← resolve).leaf.bind (Leaf.latencyRttMs world)
      latencyHttpMs := do return (← resolve).leaf.bind (Leaf.latencyHttpMs world)
      resolveLeaf := resolve } := by
  rw [groupView, chosen_shown shows, options_shown shows, List.any_map, healthy_shown shows]
  rfl

end Shown

section Views
variable {world : World} {tag : String} {kind : GroupKind} {children : List Node}

theorem view_group : (Node.group tag kind children).view world =
    let self := Node.group tag kind children
    let resolve := resolveGroup self kind ((self.options world).map (Node.view world))
    { node := self
      isHealthy := children.any (Node.isHealthy world)
      isPenalized := false
      latencyRttMs := do return (← resolve).leaf.bind (Leaf.latencyRttMs world)
      latencyHttpMs := do return (← resolve).leaf.bind (Leaf.latencyHttpMs world)
      resolveLeaf := resolve } := by
  rw [Node.view, views_eq, groupView_shown (view_shows world)]

theorem isHealthy_group :
    (Node.group tag kind children).isHealthy world = children.any (Node.isHealthy world) := by
  rw [Node.isHealthy, view_group]

theorem resolveLeaf_group : ((Node.group tag kind children).view world).resolveLeaf =
    resolveGroup (.group tag kind children) kind
      (((Node.group tag kind children).options world).map (Node.view world)) := by
  rw [view_group]

theorem candidates_subset {isHealthy isPenalized : Node → Bool} {child : Node}
    (here : child ∈ candidates isHealthy isPenalized children) :
    child ∈ children ∧ isHealthy child = true ∧
      (isPenalized child = true → ∀ other ∈ children, isHealthy other → isPenalized other) := by
  unfold candidates at here
  dsimp only at here
  split at here
  · rename_i none_
    rw [List.mem_filter] at here
    refine ⟨here.1, here.2, fun _ other member healthy => ?_⟩
    by_contra unpenalized
    rw [List.isEmpty_iff, List.filter_eq_nil_iff] at none_
    exact none_ other (List.mem_filter.mpr ⟨member, healthy⟩) (by simpa using unpenalized)
  · rw [List.mem_filter, List.mem_filter] at here
    exact ⟨here.1.1, here.1.2, fun penalized => absurd here.2 (by simp [penalized])⟩

theorem options_subset {node child : Node} (here : child ∈ node.options world) :
    child ∈ node.children := by
  cases node with
  | leaf leaf => exact absurd here List.not_mem_nil
  | group tag kind children =>
      change child ∈ children
      cases kind with
      | urltest toleranceMs testType => exact (candidates_subset here).1
      | fallback =>
          rw [Node.options, options, Option.mem_toList, Option.or_eq_some_iff] at here
          obtain found | ⟨_, first⟩ := here
          · exact List.mem_of_find?_eq_some found
          · exact List.mem_of_head? first
      | selector =>
          rw [Node.options, options, Option.mem_toList, Option.or_eq_some_iff] at here
          obtain chosen | ⟨_, first⟩ := here
          · exact of_decide_eq_true (Option.filter_eq_some_iff.mp chosen).2
          · exact List.mem_of_head? first
      | loadBalance =>
          rw [Node.options, options] at here
          split at here
          · exact List.mem_of_head? (Option.mem_toList.mp here)
          · exact (List.mem_filter.mp here).1

end Views

structure View.Like (R : Memory → Memory → Prop) (view other : View) : Prop where
  node : view.node = other.node
  healthy : view.isHealthy = other.isHealthy
  rtt : Related R view.latencyRttMs other.latencyRttMs
  http : Related R view.latencyHttpMs other.latencyHttpMs
  resolve : Related R view.resolveLeaf other.resolveLeaf

section Runs
variable {R : Memory → Memory → Prop} {views others : List View} {self : Node}

theorem View.Like.latencyMs {view other : View} (like : view.Like R other) (testType : String) :
    Related R (view.latencyMs testType) (other.latencyMs testType) := by
  unfold View.latencyMs
  split
  · refine like.rtt.bind fun lat => ?_
    cases lat with
    | none => exact like.http
    | some lat => exact .pure _
  · exact like.http

theorem askAll_related (like : List.Forall₂ (View.Like R) views others) (testType : String) :
    Related R (askAll testType views) (askAll testType others) := by
  induction like with
  | nil => exact .pure _
  | @cons view other rest rest' here _ ih =>
      rw [askAll, askAll, here.node]
      exact (here.latencyMs testType).bind fun lat => ih.bind fun found => .pure _

theorem look_related (like : List.Forall₂ (View.Like R) views others) (node : Node) :
    Option.Rel (View.Like R) (look views node) (look others node) := by
  induction like with
  | nil => exact .none
  | @cons view other rest rest' here _ ih =>
      rw [look, look, List.find?_cons, List.find?_cons, ← here.node]
      by_cases found : view.node = node
      · rw [decide_eq_true found]
        exact .some here
      · rw [decide_eq_false found]
        exact ih

theorem cell_related (cells : ∀ s t, R s t → s self = t self) :
    Related R (Memory.cell self) (Memory.cell self) :=
  Related.gets cells

theorem urltestWeigh_related {first first' : View} {kept kept' : Option View}
    (here : first.node = first'.node) (like : Option.Rel (View.Like R) kept kept')
    (toleranceMs : Nat) (testType : String) (best : Option (Node × Nat)) :
    Related R (urltestWeigh toleranceMs testType first best kept)
      (urltestWeigh toleranceMs testType first' best kept') := by
  cases best with
  | none =>
      cases like with
      | none =>
          rw [urltestWeigh, urltestWeigh, here]
          exact .pure _
      | some like =>
          rw [urltestWeigh, urltestWeigh, like.node]
          exact .pure _
  | some best =>
      cases like with
      | none => exact .pure _
      | some like =>
          rw [urltestWeigh, urltestWeigh, like.node]
          refine (like.latencyMs testType).bind fun lat => ?_
          cases lat with
          | none => exact .pure _
          | some lat =>
              dsimp only
              split <;> exact .pure _

theorem urltestChoice_related (like : List.Forall₂ (View.Like R) views others)
    (cells : ∀ s t, R s t → s self = t self) (toleranceMs : Nat) (testType : String) :
    Related R (urltestChoice self toleranceMs testType views)
      (urltestChoice self toleranceMs testType others) := by
  cases like with
  | nil => exact .pure _
  | @cons first first' rest rest' here behind =>
      have all : List.Forall₂ (View.Like R) (first :: rest) (first' :: rest') := .cons here behind
      rw [urltestChoice, urltestChoice]
      refine (askAll_related all testType).bind fun withLat => ?_
      refine (cell_related cells).bind fun cell => ?_
      refine (urltestWeigh_related here.node ?_ toleranceMs testType _).map some
      cases cell.current with
      | none => exact .none
      | some node => exact look_related all node

theorem nodes_related (like : List.Forall₂ (View.Like R) views others) :
    views.map View.node = others.map View.node := by
  induction like with
  | nil => rfl
  | cons here _ ih => rw [List.map_cons, List.map_cons, here.node, ih]

theorem healthy_related (like : List.Forall₂ (View.Like R) views others) :
    views.any View.isHealthy = others.any View.isHealthy := by
  induction like with
  | nil => rfl
  | cons here _ ih => rw [List.any_cons, List.any_cons, here.healthy, ih]

theorem pick_related (like : List.Forall₂ (View.Like R) views others)
    (cells : ∀ s t, R s t → s self = t self)
    (writes : ∀ s t cell, R s t → R (update s self cell) (update t self cell)) (kind : GroupKind) :
    Related R (pick self kind views) (pick self kind others) := by
  have names := nodes_related like
  cases kind with
  | urltest toleranceMs testType =>
      refine (urltestChoice_related like cells toleranceMs testType).bind fun choice => ?_
      match choice with
      | none => exact .pure _
      | some (child, false) => exact .pure _
      | some (child, true) =>
          refine (Related.modify fun s t related => ?_).bind fun _ => .pure _
          rw [cells s t related]
          exact writes s t _ related
  | fallback | selector =>
      rw [pick, pick, ← List.head?_map, ← List.head?_map, names]
      exact .pure _
  | loadBalance =>
      rw [pick, pick, healthy_related like, ← List.head?_map, ← List.head?_map, names]
      split
      · refine (cell_related cells).bind fun cell => ?_
        refine (Related.modify fun s t related => ?_).bind fun _ => ?_
        · rw [cells s t related]
          exact writes s t _ related
        · rw [← List.getElem?_map, ← List.getElem?_map, names, like.length_eq]
          exact .pure _
      · exact .pure _

theorem resolveGroup_related (like : List.Forall₂ (View.Like R) views others)
    (cells : ∀ s t, R s t → s self = t self)
    (writes : ∀ s t cell, R s t → R (update s self cell) (update t self cell)) (kind : GroupKind) :
    Related R (resolveGroup self kind views) (resolveGroup self kind others) := by
  refine (pick_related like cells writes kind).bind fun choice => ?_
  cases choice with
  | none => exact .pure _
  | some child =>
      have found := look_related like child
      dsimp only
      generalize look views child = view at found ⊢
      generalize look others child = other at found ⊢
      cases found with
      | none => exact .pure _
      | some like => exact like.resolve.map _

theorem look_some {node : Node} {view : View} (found : look views node = some view) :
    view ∈ views ∧ view.node = node := by
  unfold look at found
  exact ⟨List.mem_of_find?_eq_some found, by simpa using List.find?_some found⟩

theorem askAll_mem {testType : String} {memory : Memory} {answer : Node × Nat}
    (here : answer ∈ (askAll testType views memory).1) :
    ∃ view ∈ views, view.node = answer.1 ∧
      ∃ memory, (view.latencyMs testType memory).1 = some answer.2 := by
  induction views generalizing memory with
  | nil => exact absurd here List.not_mem_nil
  | cons view rest ih =>
      change answer ∈ ((view.latencyMs testType memory).1.map (view.node, ·)).toList ++
        (askAll testType rest (view.latencyMs testType memory).2).1 at here
      obtain first | behind := List.mem_append.mp here
      · rw [Option.mem_toList, Option.map_eq_some_iff] at first
        obtain ⟨lat, said, rfl⟩ := first
        exact ⟨view, List.mem_cons_self, rfl, memory, said⟩
      · obtain ⟨found, member, rest⟩ := ih behind
        exact ⟨found, List.mem_cons_of_mem _ member, rest⟩

/-- Why an urltest takes a child: it is kept; or nobody has a latency and it is the
first; or it is the best, and the current one is not to be kept, has no latency or
is too slow. -/
inductive Reason (toleranceMs : Nat) (testType : String) (first : View)
    (best : Option (Node × Nat)) (kept : Option View) (after : Memory) : Node × Bool → Prop
  | kept (curr : View) : kept = some curr →
      Reason toleranceMs testType first best kept after (curr.node, false)
  | first : best = none → kept = none →
      Reason toleranceMs testType first best kept after (first.node, true)
  | best (answer : Node × Nat) : best = some answer →
      (∀ curr lat, kept = some curr → (curr.latencyMs testType after).1 = some lat →
        (answer.2 + toleranceMs) % 2 ^ 64 < lat) →
      Reason toleranceMs testType first best kept after (answer.1, true)

theorem urltestWeigh_reason (toleranceMs : Nat) (testType : String) (first : View)
    (best : Option (Node × Nat)) (kept : Option View) (after : Memory) :
    Reason toleranceMs testType first best kept after
      (urltestWeigh toleranceMs testType first best kept after).1 := by
  cases best with
  | none =>
      cases kept with
      | none => exact .first rfl rfl
      | some curr => exact .kept curr rfl
  | some best =>
      cases kept with
      | none => exact .best best rfl fun _ _ absent => nomatch absent
      | some curr =>
          change Reason _ _ _ _ _ _
            ((match (curr.latencyMs testType after).1 with
            | some currLat =>
                if currLat ≤ (best.2 + toleranceMs) % 2 ^ 64 then return (curr.node, false)
                else return (best.1, true)
            | none => return (best.1, true) : Select (Node × Bool))
              (curr.latencyMs testType after).2).1
          cases said : (curr.latencyMs testType after).1 with
          | none =>
              refine .best best rfl fun _ lat same heard => ?_
              cases same
              rw [said] at heard
              cases heard
          | some currLat =>
              dsimp only
              by_cases near : currLat ≤ (best.2 + toleranceMs) % 2 ^ 64
              · rw [if_pos near]
                exact .kept curr rfl
              · rw [if_neg near]
                refine .best best rfl fun _ lat same heard => ?_
                cases same
                rw [said] at heard
                cases heard
                exact Nat.lt_of_not_le near

theorem Reason.mem {toleranceMs : Nat} {testType : String} {first : View} {rest : List View}
    {memory after : Memory} {current : Option Node} {choice : Node × Bool}
    (reason : Reason toleranceMs testType first
      ((askAll testType (first :: rest) memory).1.argmin Prod.snd)
      (current.bind (look (first :: rest))) after choice) :
    choice.1 ∈ (first :: rest).map View.node := by
  cases reason with
  | kept curr found =>
      obtain ⟨node, _, looked⟩ := Option.bind_eq_some_iff.mp found
      exact List.mem_map_of_mem (look_some looked).1
  | first => exact List.mem_cons_self
  | best answer least =>
      obtain ⟨view, member, named, _⟩ := askAll_mem (List.argmin_mem least)
      exact named ▸ List.mem_map_of_mem member

/-- The asking of an urltest, and its choice by what it heard. -/
def weighed (self : Node) (toleranceMs : Nat) (testType : String) (first : View) (rest : List View)
    (memory : Memory) : (Node × Bool) × Memory :=
  let asked := askAll testType (first :: rest) memory
  urltestWeigh toleranceMs testType first (asked.1.argmin Prod.snd)
    ((asked.2 self).current.bind (look (first :: rest))) asked.2

theorem urltestChoice_cons (toleranceMs : Nat) (testType : String) (first : View)
    (rest : List View) (memory : Memory) :
    urltestChoice self toleranceMs testType (first :: rest) memory =
      (some (weighed self toleranceMs testType first rest memory).1,
        (weighed self toleranceMs testType first rest memory).2) := rfl

theorem pick_urltest (toleranceMs : Nat) (testType : String) (first : View) (rest : List View)
    (memory : Memory) :
    pick self (.urltest toleranceMs testType) (first :: rest) memory =
      match weighed self toleranceMs testType first rest memory with
      | ((child, true), after) =>
          (some child, update after self { after self with current := some child })
      | ((child, false), after) => (some child, after) := by
  change (match (urltestChoice self toleranceMs testType (first :: rest) memory).1 with
    | some (child, true) => do
        Memory.setCurrent self child
        return some child
    | some (child, false) => return some child
    | none => return none : Select (Option Node))
      (urltestChoice self toleranceMs testType (first :: rest) memory).2 = _
  rw [urltestChoice_cons]
  obtain ⟨⟨child, switch⟩, after⟩ := weighed self toleranceMs testType first rest memory
  cases switch <;> rfl

theorem pick_urltest_fst (toleranceMs : Nat) (testType : String) (first : View)
    (rest : List View) (memory : Memory) :
    (pick self (.urltest toleranceMs testType) (first :: rest) memory).1 =
      some (weighed self toleranceMs testType first rest memory).1.1 := by
  rw [pick_urltest]
  obtain ⟨⟨child, switch⟩, after⟩ := weighed self toleranceMs testType first rest memory
  cases switch <;> rfl

theorem weighed_reason (toleranceMs : Nat) (testType : String) (first : View) (rest : List View)
    (memory : Memory) :
    let asked := askAll testType (first :: rest) memory
    Reason toleranceMs testType first (asked.1.argmin Prod.snd)
      ((asked.2 self).current.bind (look (first :: rest))) asked.2
      (weighed self toleranceMs testType first rest memory).1 :=
  urltestWeigh_reason toleranceMs testType first _ _ _

theorem pick_cases (self : Node) (kind : GroupKind) (views : List View) (memory : Memory) :
    (views = [] ∧ pick self kind views memory = (none, memory)) ∨
      ∃ child ∈ views.map View.node, (pick self kind views memory).1 = some child := by
  cases views with
  | nil => cases kind <;> exact .inl ⟨rfl, rfl⟩
  | cons first rest =>
      right
      cases kind with
      | urltest toleranceMs testType =>
          have reason := @weighed_reason self toleranceMs testType first rest memory
          exact ⟨_, reason.mem, pick_urltest_fst toleranceMs testType first rest memory⟩
      | fallback | selector => exact ⟨first.node, List.mem_cons_self, rfl⟩
      | loadBalance =>
          by_cases healthy : (first :: rest).any View.isHealthy
          · have here : (memory self).next % (first :: rest).length < (first :: rest).length :=
              Nat.mod_lt _ (Nat.succ_pos _)
            refine ⟨_, List.mem_map_of_mem (List.getElem_mem here), ?_⟩
            rw [pick, if_pos healthy]
            exact congrArg (Option.map View.node) (List.getElem?_eq_getElem here)
          · refine ⟨first.node, List.mem_cons_self, ?_⟩
            rw [pick, if_neg healthy]
            rfl

end Runs

end Mirage.Outbound.Selection
