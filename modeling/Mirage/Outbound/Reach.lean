import Mirage.Outbound.Selection

/-!
The nodes that the selection can get to from a node, what it leaves alone, and
which leaves the groups settle on.
-/

namespace Mirage.Outbound.Selection
open Function Programs

section Reaches
variable {world : World} {tag : String} {kind : GroupKind} {children : List Node}
variable {R : Memory → Memory → Prop} {node key : Node} {memory : Memory}

/-- From child to child that a group may take. -/
abbrev Reaches (world : World) : Node → Node → Prop :=
  Relation.ReflTransGen fun node child => child ∈ node.options world

theorem sizeOf_child {child : Node} (here : child ∈ node.options world) :
    sizeOf child < sizeOf node := by
  have member := options_subset here
  cases node with
  | leaf leaf => exact absurd member List.not_mem_nil
  | group tag kind children =>
      have size := List.sizeOf_lt_of_mem member
      rw [Node.group.sizeOf_spec]
      change sizeOf child < sizeOf children at size
      omega

theorem Reaches.sizeOf_le (reaches : Reaches world node key) : sizeOf key ≤ sizeOf node := by
  induction reaches with
  | refl => exact le_rfl
  | tail _ here ih => exact (sizeOf_child here).le.trans ih

/-- The nodes form a tree, so no child leads back. -/
theorem not_reaches_back {child : Node} (here : child ∈ node.options world) :
    ¬ Reaches world child node := fun back =>
  absurd (sizeOf_child here) (Nat.not_lt.mpr back.sizeOf_le)

theorem group_like (like : ∀ child ∈ (Node.group tag kind children).options world,
      (child.view world).Like R (child.view world))
    (cells : ∀ s t, R s t → s (.group tag kind children) = t (.group tag kind children))
    (writes : ∀ s t cell, R s t →
      R (update s (.group tag kind children) cell) (update t (.group tag kind children) cell)) :
    ((Node.group tag kind children).view world).Like R
      ((Node.group tag kind children).view world) := by
  have options : List.Forall₂ (View.Like R)
      (((Node.group tag kind children).options world).map (Node.view world))
      (((Node.group tag kind children).options world).map (Node.view world)) := by
    rw [List.forall₂_map_left_iff, List.forall₂_map_right_iff, List.forall₂_same]
    exact like
  have resolve := resolveGroup_related options cells writes kind
  rw [view_group]
  exact ⟨rfl, rfl, resolve.bind fun _ => .pure _, resolve.bind fun _ => .pure _, resolve⟩

theorem leaf_like (leaf : Leaf) :
    ((Node.leaf leaf).view world).Like R ((Node.leaf leaf).view world) :=
  ⟨rfl, rfl, .pure _, .pure _, .pure _⟩

/-- What is under a node that is not reached is neither read nor written. -/
theorem view_apart (away : ¬ Reaches world node key) (cell : Cell) :
    (node.view world).Like (fun s t => t = update s key cell) (node.view world) := by
  induction node using Node.tree_induction with
  | leaf leaf => exact leaf_like leaf
  | group tag kind children ih =>
      have differs : Node.group tag kind children ≠ key := fun same => away (same ▸ .refl)
      refine group_like (fun child here => ih child (options_subset here)
        fun reaches => away (.head here reaches)) ?_ ?_
      · rintro s t rfl
        rw [update_of_ne differs]
      · rintro s t written rfl
        rw [update_comm differs.symm]

/-- So a run leaves it as it is. -/
theorem frame_of_apart {f : Select α}
    (apart : ∀ cell, Related (fun s t => t = update s key cell) f f) (memory : Memory) :
    (f memory).2 key = memory key := by
  have kept := (apart (memory key) memory memory (update_eq_self key memory).symm).2
  rw [kept, update_self]

theorem resolveLeaf_frame (away : ¬ Reaches world node key) (memory : Memory) :
    ((node.view world).resolveLeaf memory).2 key = memory key :=
  frame_of_apart (fun cell => (view_apart away cell).resolve) memory

theorem latencyMs_frame (away : ¬ Reaches world node key) (testType : String) (memory : Memory) :
    ((node.view world).latencyMs testType memory).2 key = memory key :=
  frame_of_apart (fun cell => (view_apart away cell).latencyMs testType) memory

theorem askAll_frame {nodes : List Node} (away : ∀ child ∈ nodes, ¬ Reaches world child key)
    (testType : String) (memory : Memory) :
    (askAll testType (nodes.map (Node.view world)) memory).2 key = memory key := by
  refine frame_of_apart (fun cell => askAll_related ?_ testType) memory
  rw [List.forall₂_map_left_iff, List.forall₂_map_right_iff, List.forall₂_same]
  exact fun child here => view_apart (away child here) cell

end Reaches

section Leaves
variable {world : World} {tag : String} {kind : GroupKind} {children : List Node}
variable {node : Node} {leaf : Leaf} {memory : Memory}

theorem resolveGroup_run (self : Node) (kind : GroupKind) (options : List View)
    (memory : Memory) : resolveGroup self kind options memory =
      (match (pick self kind options memory).1 with
      | some child =>
          (match look options child with
          | some view => Outcome.through self child <$> view.resolveLeaf
          | none => return .stuck)
      | none => return .stuck : Select Outcome) (pick self kind options memory).2 := rfl

/-- A group goes on with a child that it may take, or it comes back. -/
theorem resolveLeaf_cases (world : World) (tag : String) (kind : GroupKind)
    (children : List Node) (memory : Memory) :
    let self := Node.group tag kind children
    (self.options world = [] ∧ (self.view world).resolveLeaf memory = (.stuck, memory)) ∨
      ∃ child ∈ self.options world, ∃ after,
        pick self kind ((self.options world).map (Node.view world)) memory = (some child, after) ∧
          (self.view world).resolveLeaf memory =
            (((child.view world).resolveLeaf after).1.through self child,
              ((child.view world).resolveLeaf after).2) := by
  intro self
  rw [resolveLeaf_group]
  obtain ⟨none_, stays⟩ | ⟨child, here, taken⟩ :=
    pick_cases self kind ((self.options world).map (Node.view world)) memory
  · refine .inl ⟨List.map_eq_nil_iff.mp none_, ?_⟩
    rw [none_]
    cases kind <;> rfl
  · have member : child ∈ self.options world := by
      obtain ⟨view, viewed, rfl⟩ := List.mem_map.mp here
      obtain ⟨node, found, rfl⟩ := List.mem_map.mp viewed
      rwa [Node.view_node]
    refine .inr ⟨child, member, (pick self kind _ memory).2, Prod.ext taken rfl, ?_⟩
    have seen := look_shown (view_shows world) (self.options world) child
    rw [if_pos member] at seen
    rw [resolveGroup_run, taken]
    dsimp only
    rw [seen]
    rfl

theorem resolveLeaf_reaches
    (found : ((node.view world).resolveLeaf memory).1.leaf = some leaf) :
    Reaches world node (.leaf leaf) := by
  induction node using Node.tree_induction generalizing memory with
  | leaf own =>
      cases found
      exact .refl
  | group tag kind children ih =>
      obtain ⟨_, stuck⟩ | ⟨child, here, after, _, run⟩ :=
        resolveLeaf_cases world tag kind children memory
      · rw [stuck] at found
        cases found
      · rw [run] at found
        exact .head here (ih child (options_subset here) found)

theorem healthy_of_reaches (reaches : Reaches world node (.leaf leaf))
    (healthy : leaf.isHealthy world = true) : node.isHealthy world = true := by
  induction reaches using Relation.ReflTransGen.head_induction_on with
  | refl => exact healthy
  | @head node child here _ ih =>
      have member := options_subset here
      cases node with
      | leaf leaf => exact absurd member List.not_mem_nil
      | group tag kind children =>
          rw [isHealthy_group, List.any_eq_true]
          exact ⟨child, member, ih⟩

/-- Every selector on the ways of a node that counts as healthy is set to a child that
does. -/
def Honest (world : World) (node : Node) : Prop :=
  ∀ tag children, Reaches world node (.group tag .selector children) →
    (Node.group tag .selector children).isHealthy world = true →
    ∀ child ∈ (Node.group tag .selector children).options world, child.isHealthy world = true

theorem options_healthy (healthy : (Node.group tag kind children).isHealthy world = true)
    (shares : kind ≠ .selector) {child : Node}
    (here : child ∈ (Node.group tag kind children).options world) :
    child.isHealthy world = true := by
  rw [isHealthy_group] at healthy
  cases kind with
  | urltest toleranceMs testType => exact (candidates_subset here).2.1
  | fallback =>
      rw [Node.options, options, Option.mem_toList] at here
      obtain ⟨other, member, up⟩ := List.any_eq_true.mp healthy
      cases first : children.find? (Node.isHealthy world) with
      | none => exact absurd up (List.find?_eq_none.mp first other member)
      | some found =>
          rw [first, Option.some_or, Option.some.injEq] at here
          exact here ▸ List.find?_some first
  | selector => exact absurd rfl shares
  | loadBalance =>
      rw [Node.options, options] at here
      obtain ⟨other, member, up⟩ := List.any_eq_true.mp healthy
      split at here
      · rename_i none_
        rw [List.isEmpty_iff, List.filter_eq_nil_iff] at none_
        exact absurd up (none_ other member)
      · exact (List.mem_filter.mp here).2

theorem options_ne_nil (healthy : (Node.group tag kind children).isHealthy world = true) :
    (Node.group tag kind children).options world ≠ [] := by
  intro none_
  rw [isHealthy_group] at healthy
  obtain ⟨other, member, up⟩ := List.any_eq_true.mp healthy
  have filled : children.head? ≠ none := fun empty =>
    List.ne_nil_of_mem member (List.head?_eq_none_iff.mp empty)
  have able : children.filter (Node.isHealthy world) ≠ [] :=
    List.ne_nil_of_mem (List.mem_filter.mpr ⟨member, up⟩)
  cases kind with
  | urltest toleranceMs testType =>
      rw [Node.options, options, candidates] at none_
      split at none_
      · exact able none_
      · rename_i some_
        exact some_ (List.isEmpty_iff.mpr none_)
  | fallback | selector =>
      rw [Node.options, options, Option.toList_eq_nil_iff, Option.or_eq_none_iff] at none_
      exact filled none_.2
  | loadBalance =>
      rw [Node.options, options, List.isEmpty_eq_false_iff.mpr able] at none_
      exact able none_

theorem resolveLeaf_healthy (healthy : node.isHealthy world = true) (honest : Honest world node)
    (memory : Memory) :
    ∃ leaf, ((node.view world).resolveLeaf memory).1.leaf = some leaf ∧
      leaf.isHealthy world = true := by
  induction node using Node.tree_induction generalizing memory with
  | leaf own => exact ⟨own, rfl, healthy⟩
  | group tag kind children ih =>
      obtain ⟨none_, _⟩ | ⟨child, here, after, _, run⟩ :=
        resolveLeaf_cases world tag kind children memory
      · exact absurd none_ (options_ne_nil healthy)
      · have up : child.isHealthy world = true := by
          by_cases selects : kind = .selector
          · subst selects
            exact honest tag children .refl healthy child here
          · exact options_healthy healthy selects here
        rw [run]
        exact ih child (options_subset here) up
          (fun tag children reaches => honest tag children (.head here reaches)) after

/-- It resolves to a healthy leaf. -/
def Served (world : World) (memory : Memory) (node : Node) : Prop :=
  ∃ leaf, ((node.view world).resolveLeaf memory).1.leaf = some leaf ∧
    leaf.isHealthy world = true

theorem Served.healthy (served : Served world memory node) : node.isHealthy world = true := by
  obtain ⟨leaf, found, up⟩ := served
  exact healthy_of_reaches (resolveLeaf_reaches found) up

theorem served_of_child (honest : Honest world (.group tag kind children))
    {child : Node} (member : child ∈ children) (served : Served world memory child) :
    Served world memory (.group tag kind children) := by
  refine resolveLeaf_healthy ?_ honest memory
  rw [isHealthy_group, List.any_eq_true]
  exact ⟨child, member, served.healthy⟩

/-- The groups among the children of an urltest hide no penalty. -/
def Open (world : World) (node : Node) : Prop :=
  ∀ tag kind children, .group tag kind children ∈ node.options world →
    ∀ leaf, Reaches world (.group tag kind children) (.leaf leaf) →
      leaf.isPenalized world = false

theorem unpenalized_of_child {toleranceMs : Nat} {testType : String}
    (open_ : Open world (.group tag (.urltest toleranceMs testType) children))
    (found : (((Node.group tag (.urltest toleranceMs testType) children).view world).resolveLeaf
      memory).1.leaf = some leaf) (penalized : leaf.isPenalized world = true)
    {child : Node} (member : child ∈ children) {other : Leaf}
    (leads : ((child.view world).resolveLeaf memory).1.leaf = some other)
    (healthy : other.isHealthy world = true) : other.isPenalized world = true := by
  obtain ⟨_, stuck⟩ | ⟨taken, here, after, _, run⟩ :=
    resolveLeaf_cases world tag (.urltest toleranceMs testType) children memory
  · rw [stuck] at found
    cases found
  · rw [run] at found
    cases taken with
    | group tag kind grandchildren =>
        have hidden := open_ tag kind grandchildren here leaf (resolveLeaf_reaches found)
        rw [penalized] at hidden
        cases hidden
    | leaf own =>
        cases found
        -- a penalized leaf is taken only where every healthy child is penalized
        have all := (candidates_subset here).2.2 penalized child member
          (healthy_of_reaches (resolveLeaf_reaches leads) healthy)
        cases child with
        | group => cases all
        | leaf own =>
            cases leads
            exact all

theorem latencyRttMs_eq (world : World) (node : Node) (memory : Memory) :
    (node.view world).latencyRttMs memory =
      let run := (node.view world).resolveLeaf memory
      (run.1.leaf.bind (Leaf.latencyRttMs world), run.2) := by
  cases node <;> rfl

theorem latencyHttpMs_eq (world : World) (node : Node) (memory : Memory) :
    (node.view world).latencyHttpMs memory =
      let run := (node.view world).resolveLeaf memory
      (run.1.leaf.bind (Leaf.latencyHttpMs world), run.2) := by
  cases node <;> rfl

theorem latencyMs_rtt (view : View) (memory : Memory) : view.latencyMs "rtt" memory =
    (match (view.latencyRttMs memory).1 with
    | some lat => return some lat
    | none => view.latencyHttpMs : Select (Option Nat)) (view.latencyRttMs memory).2 := rfl

/-- Asked for "rtt", a node whose leaf has none is resolved once more. -/
theorem latencyMs_eq (world : World) (node : Node) (testType : String) (memory : Memory) :
    (node.view world).latencyMs testType memory =
      if testType = "rtt" then
        match (node.view world).latencyRttMs memory with
        | (some lat, after) => (some lat, after)
        | (none, after) => (node.view world).latencyHttpMs after
      else (node.view world).latencyHttpMs memory := by
  split
  · rename_i rtt
    rw [rtt, latencyMs_rtt]
    obtain ⟨lat, after⟩ := (node.view world).latencyRttMs memory
    cases lat <;> rfl
  · rename_i other
    rw [View.latencyMs, if_neg other]

theorem latencyMs_reaches {testType : String} {lat : Nat}
    (said : ((node.view world).latencyMs testType memory).1 = some lat) :
    ∃ leaf, Reaches world node (.leaf leaf) ∧
      (leaf.latencyRttMs world = some lat ∨ leaf.latencyHttpMs world = some lat) := by
  have http : ∀ {memory}, ((node.view world).latencyHttpMs memory).1 = some lat →
      ∃ leaf, Reaches world node (.leaf leaf) ∧ leaf.latencyHttpMs world = some lat := by
    intro memory said
    rw [latencyHttpMs_eq] at said
    obtain ⟨leaf, found, same⟩ := Option.bind_eq_some_iff.mp said
    exact ⟨leaf, resolveLeaf_reaches found, same⟩
  rw [latencyMs_eq] at said
  split at said
  · cases heard : (node.view world).latencyRttMs memory with
    | mk answer after =>
    rw [heard] at said
    cases answer with
    | some answer =>
        cases said
        rw [latencyRttMs_eq] at heard
        obtain ⟨leaf, found, same⟩ := Option.bind_eq_some_iff.mp (congrArg Prod.fst heard)
        exact ⟨leaf, resolveLeaf_reaches found, .inl same⟩
    | none =>
        obtain ⟨leaf, reaches, same⟩ := http said
        exact ⟨leaf, reaches, .inr same⟩
  · obtain ⟨leaf, reaches, same⟩ := http said
    exact ⟨leaf, reaches, .inr same⟩

/-- No latency passes the range with the tolerance added. -/
def Fits (world : World) (toleranceMs : Nat) (node : Node) : Prop :=
  ∀ leaf lat, Reaches world node (.leaf leaf) →
    leaf.latencyRttMs world = some lat ∨ leaf.latencyHttpMs world = some lat →
    lat + toleranceMs < 2 ^ 64

/-- Why an urltest may leave its current child. -/
inductive Left (world : World) (toleranceMs : Nat) (testType : String) (children : List Node)
    (memory : Memory) (curr : Node) : Prop
  | unhealthy : curr.isHealthy world = false → Left world toleranceMs testType children memory curr
  | penalized (other : Node) : curr.isPenalized world = true → other ∈ children →
      other.isHealthy world = true → other.isPenalized world = false →
      Left world toleranceMs testType children memory curr
  | silent (answers : List (Node × Nat)) (after : Memory) :
      askAll testType ((candidates (Node.isHealthy world) (Node.isPenalized world) children).map
        (Node.view world)) memory = (answers, after) →
      ((curr.view world).latencyMs testType after).1 = none →
      Left world toleranceMs testType children memory curr
  | slower (answers : List (Node × Nat)) (after : Memory) (best : Node × Nat) (lat : Nat) :
      askAll testType ((candidates (Node.isHealthy world) (Node.isPenalized world) children).map
        (Node.view world)) memory = (answers, after) →
      best ∈ answers → (∀ other ∈ answers, best.2 ≤ other.2) →
      ((curr.view world).latencyMs testType after).1 = some lat → best.2 + toleranceMs < lat →
      Left world toleranceMs testType children memory curr

theorem mem_candidates {curr : Node} (member : curr ∈ children)
    (healthy : curr.isHealthy world = true)
    (even : curr.isPenalized world = true → ∀ other ∈ children,
      other.isHealthy world = true → other.isPenalized world = true) :
    curr ∈ candidates (Node.isHealthy world) (Node.isPenalized world) children := by
  have up : curr ∈ children.filter (Node.isHealthy world) := List.mem_filter.mpr ⟨member, healthy⟩
  unfold candidates
  dsimp only
  split
  · exact up
  · rename_i some_
    refine List.mem_filter.mpr ⟨up, ?_⟩
    by_contra penalized
    rw [Bool.not_eq_true, Bool.not_eq_false'] at penalized
    refine some_ (List.isEmpty_iff.mpr (List.filter_eq_nil_iff.mpr fun other here => ?_))
    obtain ⟨member, healthy⟩ := List.mem_filter.mp here
    simp [even penalized other member healthy]

theorem weighed_frame {key : Node} {cands : List Node} {first : View} {rest : List View}
    (same : cands.map (Node.view world) = first :: rest)
    (away : ∀ child ∈ cands, ¬ Reaches world child key) (self : Node) (toleranceMs : Nat)
    (testType : String) (memory : Memory) :
    (weighed self toleranceMs testType first rest memory).2 key = memory key := by
  have asked := askAll_frame away testType memory
  rw [same] at asked
  refine (frame_of_apart (fun cell => urltestWeigh_related rfl ?_ toleranceMs testType _) _).trans
    asked
  cases kept : ((askAll testType (first :: rest) memory).2 self).current.bind
      (look (first :: rest)) with
  | none => exact .none
  | some view =>
      obtain ⟨node, _, looked⟩ := Option.bind_eq_some_iff.mp kept
      obtain ⟨viewed, _⟩ := look_some looked
      rw [← same] at viewed
      obtain ⟨child, here, rfl⟩ := List.mem_map.mp viewed
      exact .some (view_apart (away child here) cell)

theorem urltest_leaves {toleranceMs : Nat} {testType : String}
    (fits : Fits world toleranceMs (.group tag (.urltest toleranceMs testType) children))
    {curr : Node} (member : curr ∈ children)
    (current : (memory (.group tag (.urltest toleranceMs testType) children)).current = some curr)
    (left : ((((Node.group tag (.urltest toleranceMs testType) children).view world).resolveLeaf
      memory).2 (.group tag (.urltest toleranceMs testType) children)).current ≠ some curr) :
    Left world toleranceMs testType children memory curr := by
  by_cases healthy : curr.isHealthy world = true
  case neg => exact .unhealthy (Bool.eq_false_iff.mpr healthy)
  by_cases even : curr.isPenalized world = true → ∀ other ∈ children,
      other.isHealthy world = true → other.isPenalized world = true
  case neg =>
    push Not at even
    obtain ⟨penalized, other, here, up, free⟩ := even
    exact .penalized other penalized here up (Bool.eq_false_iff.mpr free)
  let self := Node.group tag (.urltest toleranceMs testType) children
  let cands := candidates (Node.isHealthy world) (Node.isPenalized world) children
  have candidate : curr ∈ cands := mem_candidates member healthy even
  have away : ∀ child ∈ cands, ¬ Reaches world child self := fun child here =>
    @not_reaches_back world self child here
  cases same : cands.map (Node.view world) with
  | nil => exact absurd (List.map_eq_nil_iff.mp same) (List.ne_nil_of_mem candidate)
  | cons first rest =>
      cases asked : askAll testType (first :: rest) memory with
      | mk answers after =>
      have stays := askAll_frame away testType memory
      have kept := look_shown (view_shows world) cands curr
      rw [same, asked] at stays
      rw [if_pos candidate, same] at kept
      have reason := @weighed_reason self toleranceMs testType first rest memory
      dsimp only at reason
      rw [asked, stays, current, Option.bind_some, kept] at reason
      have unmoved := weighed_frame same away self toleranceMs testType memory
      have picked := @pick_urltest self toleranceMs testType first rest memory
      generalize weighed self toleranceMs testType first rest memory = choice
        at reason unmoved picked
      obtain ⟨⟨taken, switch⟩, later⟩ := choice
      obtain ⟨none_, _⟩ | ⟨child, here, further, chosen, run⟩ :=
        resolveLeaf_cases world tag (.urltest toleranceMs testType) children memory
      · exact absurd none_ (List.ne_nil_of_mem candidate)
      · have back := resolveLeaf_frame (away child here) further
        rw [run] at left
        change (((child.view world).resolveLeaf further).2 self).current ≠ some curr at left
        change pick self _ (cands.map (Node.view world)) memory = _ at chosen
        rw [same, picked] at chosen
        rw [back] at left
        cases reason with
        | kept =>
            cases chosen
            exact absurd (congrArg Cell.current unmoved |>.trans current) left
        | first _ absent => cases absent
        -- It was left for a faster one: what both have answered says so.
        | best best least slow =>
            rw [← same] at asked
            cases said : ((curr.view world).latencyMs testType after).1 with
            | none => exact .silent answers after asked said
            | some lat =>
                have among : best ∈ (askAll testType (cands.map (Node.view world)) memory).1 := by
                  rw [asked]
                  exact List.argmin_mem least
                obtain ⟨view, viewed, _, before, heard⟩ := askAll_mem among
                obtain ⟨child, here, rfl⟩ := List.mem_map.mp viewed
                obtain ⟨leaf, reaches, answer⟩ := latencyMs_reaches heard
                have small := fits leaf best.2 (.head here reaches) answer
                have late := slow _ lat rfl said
                rw [Nat.mod_eq_of_lt small] at late
                exact .slower answers after best lat asked (List.argmin_mem least)
                  (fun other here => List.le_of_mem_argmin here least) said late

end Leaves

end Mirage.Outbound.Selection
