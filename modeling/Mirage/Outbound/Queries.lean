import Mirage.Outbound.Turns

/-!
What a query for a latency does to later selections. As long as no load_balance
group has to share out, it only settles the urltest groups on the children that
they would take anyway.
-/

namespace Mirage.Outbound.Selection
open Function Programs

/-- A load_balance group with several children to share out between. -/
def Balances (world : World) : Node → Prop
  | .group _ .loadBalance children => 2 ≤ (children.filter (Node.isHealthy world)).length
  | _ => False

def Quiet (world : World) (node : Node) : Prop :=
  ∀ key, Reaches world node key → ¬ Balances world key

/-- A node that gives one answer and remembers nothing. -/
def stillView (world : World) (node : Node) (outcome : Outcome) : View where
  node := node
  isHealthy := node.isHealthy world
  isPenalized := node.isPenalized world
  latencyRttMs := return outcome.leaf.bind (Leaf.latencyRttMs world)
  latencyHttpMs := return outcome.leaf.bind (Leaf.latencyHttpMs world)
  resolveLeaf := return outcome

mutual

/-- What a node resolves to by what the groups remember, were nothing of it changed on
the way. -/
def Node.answer (world : World) (memory : Memory) : Node → Outcome
  | .leaf leaf => ⟨some leaf, []⟩
  | .group tag kind children =>
      ((groupView world (.group tag kind children) kind (stills world memory children)).resolveLeaf
        memory).1

def stills (world : World) (memory : Memory) : List Node → List View
  | [] => []
  | child :: rest =>
      stillView world child (child.answer world memory) :: stills world memory rest

end

def Node.still (world : World) (memory : Memory) (node : Node) : View :=
  stillView world node (node.answer world memory)

section Answers
variable {world : World} {tag : String} {kind : GroupKind} {children : List Node}
variable {memory other : Memory} {node key : Node} {R : Memory → Memory → Prop}

theorem stills_eq (world : World) (memory : Memory) (children : List Node) :
    stills world memory children = children.map (Node.still world memory) := by
  induction children with
  | nil => rfl
  | cons child rest ih =>
      rw [stills, ih, List.map_cons]
      rfl

theorem still_shows (world : World) (memory : Memory) : Shows world (Node.still world memory) :=
  ⟨fun _ => rfl, fun _ => rfl, fun _ => rfl⟩

theorem answer_group : (Node.group tag kind children).answer world memory =
    (resolveGroup (.group tag kind children) kind
      (((Node.group tag kind children).options world).map (Node.still world memory))
      memory).1 := by
  rw [Node.answer, stills_eq, groupView_shown (still_shows world memory)]

theorem still_like (node : Node) :
    (node.still world memory).Like R (node.still world memory) :=
  ⟨rfl, rfl, .pure _, .pure _, .pure _⟩

theorem stills_like (nodes : List Node) :
    List.Forall₂ (View.Like R) (nodes.map (Node.still world memory))
      (nodes.map (Node.still world memory)) := by
  rw [List.forall₂_map_left_iff, List.forall₂_map_right_iff, List.forall₂_same]
  exact fun node _ => still_like node

/-- Only the group's own cell counts, where the children answer the same. -/
theorem answer_congr (cell : memory (.group tag kind children) = other (.group tag kind children))
    (same : ∀ child ∈ (Node.group tag kind children).options world,
      child.answer world memory = child.answer world other) :
    (Node.group tag kind children).answer world memory =
      (Node.group tag kind children).answer world other := by
  have views : ((Node.group tag kind children).options world).map (Node.still world memory) =
      ((Node.group tag kind children).options world).map (Node.still world other) :=
    List.map_congr_left fun child here => by rw [Node.still, Node.still, same child here]
  rw [answer_group, answer_group, views]
  refine (@resolveGroup_related (fun s t => s (.group tag kind children) =
    t (.group tag kind children)) _ _ _ (stills_like _) (fun _ _ here => here) ?_ kind _ _ cell).1
  intro s t cell _
  rw [update_self, update_self]

theorem answer_apart (away : ¬ Reaches world node key) (cell : Cell) :
    node.answer world (update memory key cell) = node.answer world memory := by
  induction node using Node.tree_induction with
  | leaf leaf => rfl
  | group tag kind children ih =>
      have differs : Node.group tag kind children ≠ key := fun same => away (same ▸ .refl)
      exact answer_congr (update_of_ne differs _ _) fun child here =>
        ih child (options_subset here) fun reaches => away (.head here reaches)

theorem answer_update (cell : Cell)
    (own : (∀ child ∈ key.options world,
        child.answer world (update memory key cell) = child.answer world memory) →
      key.answer world (update memory key cell) = key.answer world memory) (node : Node) :
    node.answer world (update memory key cell) = node.answer world memory := by
  induction node using Node.tree_induction with
  | leaf leaf => rfl
  | group tag kind children ih =>
      by_cases here : Node.group tag kind children = key
      · subst here
        exact own fun child member => ih child (options_subset member)
      · exact answer_congr (update_of_ne here _ _) fun child member =>
          ih child (options_subset member)

end Answers

section Settle
variable {world : World} {tag testType : String} {children nodes : List Node} {toleranceMs : Nat}
variable {memory before after : Memory} {self : Node} {first : View} {rest : List View}

theorem askAll_still (world : World) (memory : Memory) (nodes : List Node) (testType : String)
    (before after : Memory) :
    askAll testType (nodes.map (Node.still world memory)) before =
      ((askAll testType (nodes.map (Node.still world memory)) after).1, before) := by
  have answers := askAll_related (@stills_like world memory (fun _ _ => True) nodes) testType
    before after trivial
  have stays := askAll_related (@stills_like world memory (fun s _ => s = before) nodes) testType
    before after rfl
  exact Prod.ext answers.1 stays.2

theorem weighed_still (same : nodes.map (Node.still world memory) = first :: rest)
    (before : Memory) : weighed self toleranceMs testType first rest before =
      urltestWeigh toleranceMs testType first
        ((askAll testType (first :: rest) before).1.argmin Prod.snd)
        ((before self).current.bind (look (first :: rest))) before := by
  have asked := askAll_still world memory nodes testType before before
  rw [same] at asked
  rw [weighed, asked]

theorem weighed_again (same : nodes.map (Node.still world memory) = first :: rest)
    {child : Node} {switch : Bool}
    (chosen : (weighed self toleranceMs testType first rest before).1 = (child, switch)) :
    (weighed self toleranceMs testType first rest
      (update before self { before self with current := some child })).1.1 = child := by
  have looked := look_shown (still_shows world memory) nodes
  have asked := askAll_still world memory nodes testType
    (update before self { before self with current := some child }) before
  have named : ∀ view ∈ first :: rest, view.node ∈ nodes := fun view here => by
    rw [← same] at here
    obtain ⟨node, member, rfl⟩ := List.mem_map.mp here
    exact member
  have reason := urltestWeigh_reason toleranceMs testType first
    ((askAll testType (first :: rest) before).1.argmin Prod.snd)
    ((before self).current.bind (look (first :: rest))) before
  rw [← weighed_still same, chosen] at reason
  rw [same] at looked asked
  rw [weighed_still same, asked, update_self]
  dsimp only
  rw [Option.bind_some, looked]
  cases reason with
  | kept curr found =>
      obtain ⟨node, _, seen⟩ := Option.bind_eq_some_iff.mp found
      have here := named curr (look_some seen).1
      have itself : node.still world memory = curr := by
        rw [looked] at seen
        exact Option.some.inj (Option.ite_none_right_eq_some.mp seen).2
      have alike : curr.Like (fun _ _ => True) curr := itself ▸ still_like node
      have again := (@urltestWeigh_related (fun _ _ => True) first first _ _ rfl (.some alike)
        toleranceMs testType ((askAll testType (first :: rest) before).1.argmin Prod.snd)
        before (update before self { before self with current := some curr.node }) trivial).1
      rw [weighed_still same, found] at chosen
      rw [if_pos here, ← itself]
      rw [← itself] at again chosen
      exact (congrArg Prod.fst again).symm.trans (congrArg Prod.fst chosen)
  | first none_ absent =>
      rw [if_pos (named first List.mem_cons_self), none_]
      rfl
  | best answer least =>
      obtain ⟨view, viewed, called, _⟩ := askAll_mem (List.argmin_mem least)
      rw [if_pos (called ▸ named view viewed), least]
      -- both the best and the current one are the child
      have both := urltestWeigh_reason toleranceMs testType first (some answer)
        (some (answer.1.still world memory))
        (update before self { before self with current := some answer.1 })
      generalize urltestWeigh toleranceMs testType first (some answer)
        (some (answer.1.still world memory))
        (update before self { before self with current := some answer.1 }) = again at both ⊢
      obtain ⟨choice, _⟩ := again
      cases both with
      | kept curr found => exact congrArg View.node (Option.some.inj found).symm
      | first none_ _ => cases none_
      | best other found => rw [Option.some.inj found]

/-- What a group of such views resolves to is what the child it picks answers. -/
theorem resolveGroup_still (world : World) (memory : Memory) (self : Node) (kind : GroupKind)
    (nodes : List Node) (before : Memory) :
    (resolveGroup self kind (nodes.map (Node.still world memory)) before).1 =
      match (pick self kind (nodes.map (Node.still world memory)) before).1 with
      | some child =>
          if child ∈ nodes then (child.answer world memory).through self child else .stuck
      | none => .stuck := by
  rw [resolveGroup_run]
  cases (pick self kind (nodes.map (Node.still world memory)) before).1 with
  | none => rfl
  | some child =>
      dsimp only
      rw [look_shown (still_shows world memory)]
      by_cases here : child ∈ nodes
      · rw [if_pos here, if_pos here]
        rfl
      · rw [if_neg here, if_neg here]
        rfl

end Settle

/-- Memories that make no difference: the quiet nodes answer the same, and nothing
else differs. -/
structure Alike (world : World) (memory other : Memory) : Prop where
  answers : ∀ node, Quiet world node → node.answer world memory = node.answer world other
  cells : ∀ node, ¬ Quiet world node → memory node = other node

namespace Alike
variable {world : World} {memory other third : Memory}

theorem refl (memory : Memory) : Alike world memory memory := ⟨fun _ _ => rfl, fun _ _ => rfl⟩

theorem symm (alike : Alike world memory other) : Alike world other memory :=
  ⟨fun node quiet => (alike.answers node quiet).symm,
    fun node loud => (alike.cells node loud).symm⟩

theorem trans (first : Alike world memory other) (second : Alike world other third) :
    Alike world memory third :=
  ⟨fun node quiet => (first.answers node quiet).trans (second.answers node quiet),
    fun node loud => (first.cells node loud).trans (second.cells node loud)⟩

end Alike

section Quietly
variable {world : World} {tag testType : String} {kind : GroupKind} {children : List Node}
variable {toleranceMs : Nat} {memory : Memory} {node child : Node}

theorem Quiet.head (quiet : Quiet world node) (here : child ∈ node.options world) :
    Quiet world child := fun key reaches => quiet key (.head here reaches)

/-- A change of a quiet group's cell makes no difference if the group picks the same
child by it. -/
theorem alike_update {cell : Cell} (quiet : Quiet world (.group tag kind children))
    (picks : (pick (.group tag kind children) kind
        (((Node.group tag kind children).options world).map (Node.still world memory))
        (update memory (.group tag kind children) cell)).1 =
      (pick (.group tag kind children) kind
        (((Node.group tag kind children).options world).map (Node.still world memory))
        memory).1) :
    Alike world memory (update memory (.group tag kind children) cell) := by
  refine ⟨fun node _ => (answer_update cell (fun same => ?_) node).symm,
    fun key loud => (update_of_ne (fun same : key = .group tag kind children =>
      loud (same ▸ quiet)) _ _).symm⟩
  have views : ((Node.group tag kind children).options world).map
      (Node.still world (update memory (.group tag kind children) cell)) =
      ((Node.group tag kind children).options world).map (Node.still world memory) :=
    List.map_congr_left fun child here => by rw [Node.still, Node.still, same child here]
  rw [answer_group, answer_group, views, resolveGroup_still, resolveGroup_still, picks]

/-- An urltest that is set to the child it would take. -/
theorem alike_settle (quiet : Quiet world (.group tag (.urltest toleranceMs testType) children))
    {first : View} {rest : List View} {switch : Bool}
    (same : ((Node.group tag (.urltest toleranceMs testType) children).options world).map
      (Node.still world memory) = first :: rest)
    (chosen : (weighed (.group tag (.urltest toleranceMs testType) children) toleranceMs testType
      first rest memory).1 = (child, switch)) :
    Alike world memory (update memory (.group tag (.urltest toleranceMs testType) children)
      { memory (.group tag (.urltest toleranceMs testType) children) with
        current := some child }) := by
  refine alike_update quiet ?_
  rw [same, pick_urltest_fst, pick_urltest_fst, weighed_again same chosen, chosen]

/-- A load_balance group that has nothing to share out. -/
theorem alike_advance (quiet : Quiet world (.group tag .loadBalance children)) (cell : Cell) :
    Alike world memory (update memory (.group tag .loadBalance children) cell) := by
  have few : ((Node.group tag .loadBalance children).options world).length ≤ 1 := by
    have up := quiet _ .refl
    rw [Node.options, options]
    split
    · cases children <;> simp
    · exact Nat.le_of_lt_succ (Nat.lt_of_not_le up)
  refine alike_update quiet ?_
  generalize (Node.group tag .loadBalance children).options world = nodes at few
  cases nodes with
  | nil => rfl
  | cons only rest =>
      cases List.length_eq_zero_iff.mp (Nat.le_zero.mp (Nat.le_of_succ_le_succ few))
      rw [pick, List.map_cons, List.map_nil]
      split
      · have single : ∀ next : Nat, next % [only.still world memory].length = 0 :=
          fun next => Nat.mod_one next
        change Option.map View.node [only.still world memory][_ % _]? =
          Option.map View.node [only.still world memory][_ % _]?
        rw [single, single]
      · rfl

/-- The run of a node goes as its answer says, and makes no difference. -/
def Answers (world : World) (node : Node) : Prop :=
  ∀ memory, ((node.view world).resolveLeaf memory).1 = node.answer world memory ∧
    Alike world memory ((node.view world).resolveLeaf memory).2

/-- While an urltest asks, its own cell stays, and the children answer as they stand. -/
def Asking (world : World) (self : Node) (start : Memory) (memory other : Memory) : Prop :=
  Alike world start memory ∧ memory self = start self ∧ other = start

theorem view_still_like {self : Node} {start : Memory} (quiet : Quiet world child)
    (answers : Answers world child) (away : ¬ Reaches world child self) :
    (child.view world).Like (Asking world self start) (child.still world start) := by
  have run : Related (Asking world self start) (child.view world).resolveLeaf
      (child.still world start).resolveLeaf := by
    rintro memory _ ⟨alike, own, rfl⟩
    obtain ⟨said, further⟩ := answers memory
    refine ⟨said.trans (alike.answers child quiet).symm, alike.trans further, ?_, rfl⟩
    rw [resolveLeaf_frame away, own]
  refine ⟨Node.view_node world child, rfl, fun s t related => ?_, fun s t related => ?_, run⟩
  · obtain ⟨said, further⟩ := run s t related
    rw [latencyRttMs_eq]
    exact ⟨congrArg (Option.bind · (Leaf.latencyRttMs world)) (congrArg Outcome.leaf said), further⟩
  · obtain ⟨said, further⟩ := run s t related
    rw [latencyHttpMs_eq]
    exact ⟨congrArg (Option.bind · (Leaf.latencyHttpMs world)) (congrArg Outcome.leaf said),
      further⟩

theorem names_shown {show_ : Node → View} (shows : Shows world show_) (nodes : List Node) :
    (nodes.map show_).map View.node = nodes := by
  rw [List.map_map, show View.node ∘ show_ = id from funext shows.node, List.map_id]

/-- The urltest would choose the same at a memory that makes no difference. -/
theorem still_later {other : Memory} {self first : Node} {rest : List Node}
    (quiet : ∀ child ∈ first :: rest, Quiet world child) (alike : Alike world memory other)
    (own : other self = memory self) :
    (first :: rest).map (Node.still world other) = (first :: rest).map (Node.still world memory) ∧
      (weighed self toleranceMs testType (first.still world memory)
        (rest.map (Node.still world memory)) other).1 =
      (weighed self toleranceMs testType (first.still world memory)
        (rest.map (Node.still world memory)) memory).1 := by
  refine ⟨List.map_congr_left fun child here => ?_, Option.some.inj ?_⟩
  · rw [Node.still, Node.still, alike.answers child (quiet child here)]
  · exact (urltestChoice_related
      (@stills_like world memory (fun s t => s self = t self) (first :: rest))
      (fun _ _ here => here) toleranceMs testType other memory own).1

theorem pick_quiet (quiet : Quiet world (.group tag kind children))
    (answers : ∀ child ∈ (Node.group tag kind children).options world, Answers world child)
    (memory : Memory) :
    let self := Node.group tag kind children
    (pick self kind ((self.options world).map (Node.view world)) memory).1 =
        (pick self kind ((self.options world).map (Node.still world memory)) memory).1 ∧
      Alike world memory
        (pick self kind ((self.options world).map (Node.view world)) memory).2 := by
  intro self
  have names := (names_shown (view_shows world) (self.options world)).trans
    (names_shown (still_shows world memory) (self.options world)).symm
  cases kind with
  | urltest toleranceMs testType =>
      have like : List.Forall₂ (View.Like (Asking world self memory))
          ((self.options world).map (Node.view world))
          ((self.options world).map (Node.still world memory)) := by
        rw [List.forall₂_map_left_iff, List.forall₂_map_right_iff, List.forall₂_same]
        exact fun child here =>
          view_still_like (quiet.head here) (answers child here) (not_reaches_back here)
      have cells : ∀ s t, Asking world self memory s t → s self = t self :=
        fun s t asking => asking.2.1.trans (congrFun asking.2.2 self).symm
      obtain ⟨same, alike, own, _⟩ := urltestChoice_related like cells toleranceMs testType
        memory memory ⟨.refl memory, rfl, rfl⟩
      cases nodes : self.options world with
      | nil => exact ⟨rfl, .refl memory⟩
      | cons first rest =>
          simp only [nodes, List.map_cons, urltestChoice_cons, Option.some.injEq] at same alike own
          have within : ∀ child ∈ first :: rest, Quiet world child := fun child here =>
            quiet.head (nodes ▸ here)
          obtain ⟨stills, chosen⟩ :=
            @still_later world testType toleranceMs memory _ self first rest within alike own
          rw [List.map_cons, List.map_cons, pick_urltest_fst, pick_urltest_fst, same, pick_urltest]
          refine ⟨rfl, ?_⟩
          rw [← same] at chosen
          generalize weighed self toleranceMs testType (first.view world)
            (rest.map (Node.view world)) memory = choice at alike own chosen stills ⊢
          obtain ⟨⟨child, switch⟩, after⟩ := choice
          cases switch with
          | false => exact alike
          -- The answers are the same again, so that the choice is what would be chosen next.
          | true =>
              have now : (self.options world).map (Node.still world after) =
                  first.still world memory :: rest.map (Node.still world memory) := by
                rw [nodes]
                exact stills
              exact alike.trans (alike_settle quiet now chosen)
  | fallback | selector =>
      rw [pick, pick, ← List.head?_map, ← List.head?_map, names]
      exact ⟨rfl, .refl memory⟩
  | loadBalance =>
      have healthy : ((self.options world).map (Node.view world)).any View.isHealthy =
          ((self.options world).map (Node.still world memory)).any View.isHealthy := by
        rw [List.any_map, List.any_map, healthy_shown (view_shows world),
          healthy_shown (still_shows world memory)]
      rw [pick, pick, healthy]
      split
      · refine ⟨?_, alike_advance quiet _⟩
        change Option.map View.node (((self.options world).map (Node.view world))[_ % _]?) =
          Option.map View.node (((self.options world).map (Node.still world memory))[_ % _]?)
        rw [← List.getElem?_map, ← List.getElem?_map, names, List.length_map, List.length_map]
      · rw [← List.head?_map, ← List.head?_map, names]
        exact ⟨rfl, .refl memory⟩

theorem Quiet.answers (quiet : Quiet world node) : Answers world node := by
  induction node using Node.tree_induction with
  | leaf leaf => exact fun memory => ⟨rfl, .refl memory⟩
  | group tag kind children ih =>
      intro memory
      have below : ∀ child ∈ (Node.group tag kind children).options world, Answers world child :=
        fun child here => ih child (options_subset here) (quiet.head here)
      obtain ⟨same, alike⟩ := pick_quiet quiet below memory
      rw [answer_group, resolveGroup_still, ← same]
      obtain ⟨none_, stuck⟩ | ⟨child, here, after, picked, run⟩ :=
        resolveLeaf_cases world tag kind children memory
      · rw [stuck, none_]
        refine ⟨?_, .refl memory⟩
        cases kind <;> rfl
      · obtain ⟨said, further⟩ := below child here after
        rw [picked] at alike ⊢
        rw [run, said, ← alike.answers child (quiet.head here)]
        dsimp only
        rw [if_pos here]
        exact ⟨rfl, alike.trans further⟩

theorem Quiet.latency (quiet : Quiet world node) (testType : String) (memory : Memory) :
    Alike world memory ((node.view world).latencyMs testType memory).2 := by
  have http : ∀ memory, Alike world memory ((node.view world).latencyHttpMs memory).2 := by
    intro memory
    rw [latencyHttpMs_eq]
    exact (quiet.answers memory).2
  rw [latencyMs_eq]
  split
  · have rtt := (quiet.answers memory).2
    rw [latencyRttMs_eq]
    dsimp only
    cases ((node.view world).resolveLeaf memory).1.leaf.bind (Leaf.latencyRttMs world) with
    | some lat => exact rtt
    | none => exact rtt.trans (http _)
  · exact http memory

theorem view_alike (node : Node) :
    (node.view world).Like (Alike world) (node.view world) := by
  induction node using Node.tree_induction with
  | leaf leaf => exact leaf_like leaf
  | group tag kind children ih =>
      by_cases quiet : Quiet world (.group tag kind children)
      · have run : Related (Alike world) ((Node.group tag kind children).view world).resolveLeaf
            ((Node.group tag kind children).view world).resolveLeaf := by
          intro s t alike
          obtain ⟨said, further⟩ := quiet.answers s
          obtain ⟨said', further'⟩ := quiet.answers t
          exact ⟨said.trans ((alike.answers _ quiet).trans said'.symm),
            further.symm.trans (alike.trans further')⟩
        exact ⟨rfl, rfl, run.bind fun _ => .pure _, run.bind fun _ => .pure _, run⟩
      · refine group_like (fun child here => ih child (options_subset here))
          (fun s t alike => alike.cells _ quiet) ?_
        intro s t cell alike
        refine ⟨fun node calm => ?_, fun key loud => ?_⟩
        · have apart : ¬ Reaches world node (.group tag kind children) := fun reaches =>
            quiet fun key further => calm key (reaches.trans further)
          rw [answer_apart apart, answer_apart apart, alike.answers node calm]
        · by_cases here : key = .group tag kind children
          · rw [here, update_self, update_self]
          · rw [update_of_ne here, update_of_ne here, alike.cells key loud]

theorem runs_alike {steps : List Step} {other : Memory}
    (constant : ∀ step ∈ steps, step.world = world) (alike : Alike world memory other) :
    (runs steps memory).1 = (runs steps other).1 := by
  induction steps generalizing memory other with
  | nil => rfl
  | cons step rest ih =>
      rw [List.forall_mem_cons] at constant
      obtain ⟨at_, query⟩ := step
      obtain rfl := constant.1
      have here : (Step.run ⟨at_, query⟩ memory).1 = (Step.run ⟨at_, query⟩ other).1 ∧
          Alike at_ (Step.run ⟨at_, query⟩ memory).2 (Step.run ⟨at_, query⟩ other).2 := by
        cases query with
        | resolveLeaf node =>
            obtain ⟨same, further⟩ := (view_alike node).resolve memory other alike
            exact ⟨congrArg (fun outcome => [outcome]) same, further⟩
        | isHealthy node => exact ⟨rfl, alike⟩
        | latencyMs node testType =>
            exact ⟨rfl, ((view_alike node).latencyMs testType memory other alike).2⟩
      rw [runs, runs]
      dsimp only
      rw [here.1, ih constant.2 here.2]

/-- A node on whose ways nothing is remembered. -/
def Fixed (world : World) (node : Node) : Prop :=
  ∀ tag kind children, Reaches world node (.group tag kind children) →
    (Node.group tag kind children).isHealthy world = true → kind = .fallback ∨ kind = .selector

theorem Fixed.resolveLeaf (fixed : Fixed world node) (memory : Memory) :
    ((node.view world).resolveLeaf memory).2 = memory := by
  induction node using Node.tree_induction generalizing memory with
  | leaf leaf => rfl
  | group tag kind children ih =>
      obtain ⟨_, stuck⟩ | ⟨child, here, after, picked, run⟩ :=
        resolveLeaf_cases world tag kind children memory
      · rw [stuck]
      · have kept : after = memory := by
          have last := congrArg Prod.snd picked
          by_cases healthy : (Node.group tag kind children).isHealthy world = true
          · obtain rfl | rfl := fixed tag kind children .refl healthy <;> exact last.symm
          · have none_ : ∀ child ∈ children, ¬ child.isHealthy world = true :=
              fun child member up => healthy (isHealthy_group.trans
                (List.any_eq_true.mpr ⟨child, member, up⟩))
            cases kind with
            | urltest toleranceMs testType =>
                have candidate := candidates_subset here
                exact absurd candidate.2.1 (none_ child candidate.1)
            | fallback | selector => exact last.symm
            | loadBalance =>
                have idle : (((Node.group tag .loadBalance children).options world).map
                    (Node.view world)).any View.isHealthy = false := by
                  rw [List.any_eq_false]
                  rintro view viewed
                  obtain ⟨other, member, rfl⟩ := List.mem_map.mp viewed
                  exact none_ other (options_subset member)
                rw [pick, idle] at last
                exact last.symm
        rw [run, kept]
        exact ih child (options_subset here)
          (fun tag kind children reaches => fixed tag kind children (.head here reaches)) memory

theorem Fixed.latencyMs (fixed : Fixed world node) (testType : String) (memory : Memory) :
    ((node.view world).latencyMs testType memory).2 = memory := by
  have http := latencyHttpMs_eq world node memory
  dsimp only at http
  rw [fixed.resolveLeaf] at http
  rw [latencyMs_eq]
  split
  · rw [latencyRttMs_eq]
    dsimp only
    rw [fixed.resolveLeaf]
    cases ((node.view world).resolveLeaf memory).1.leaf.bind (Leaf.latencyRttMs world) with
    | some lat => rfl
    | none => exact congrArg Prod.snd http
  · exact congrArg Prod.snd http

end Quietly

section Nested

def mirage (tag : String) : Node := .leaf (.mirage tag)

/-- Three nodes that are up, and one that is down; one of the three is penalized. -/
def fourNodes : World where
  stats tag :=
    if tag = "down" then ⟨false, false, 0, none, some 80⟩
    else ⟨true, tag = "penalized", 0, none, some 80⟩
  chosen _ := some (mirage "down")

def atStart : Memory := fun _ => ⟨none, 0⟩

def byHand : Node := .group "by-hand" .selector [mirage "up", mirage "down"]

def inTurn : Node :=
  .group "in-turn" .loadBalance [mirage "up", mirage "other", mirage "penalized"]

def auto (member : Node) : Node := .group "auto" (.urltest 50 "http") [member, mirage "up"]

def balanced : Node := .group "auto" (.urltest 50 "http") [inTurn]

def select (node : Node) : Step := ⟨fourNodes, .resolveLeaf node⟩

/-- A fallback goes to the node that is down because of a selector that counts as
healthy; an urltest to the penalized one because of a group around it; under an
urltest one child of a load_balance group gets all the connections; and asking such
a group for its latency changes whom the next connection gets. -/
theorem nested_groups :
    (mirage "up").isHealthy fourNodes = true ∧ (mirage "up").isPenalized fourNodes = false ∧
      (mirage "down").isHealthy fourNodes = false ∧
      (mirage "penalized").isPenalized fourNodes = true ∧
      (runs [select (.group "main" .fallback [byHand, mirage "up"])] atStart).1.map
        Outcome.leaf = [some (.mirage "down")] ∧
      (runs [select (auto (.group "inner" .fallback [mirage "penalized"]))] atStart).1.map
        Outcome.leaf = [some (.mirage "penalized")] ∧
      (runs [select balanced, select balanced, select balanced] atStart).1.map Outcome.leaf =
        [some (.mirage "other"), some (.mirage "other"), some (.mirage "other")] ∧
      (runs [select inTurn] atStart).1.map Outcome.leaf = [some (.mirage "up")] ∧
      (runs [⟨fourNodes, .latencyMs inTurn "http"⟩, select inTurn] atStart).1.map Outcome.leaf =
        [some (.mirage "other")] := by
  decide

end Nested

/-- In every run: a group that shares out finds a healthy leaf if one of its children
does, where no selector counts as healthy for a child that it is not set to; an
urltest avoids penalties that its children do not hide, and keeps its child without
cause; a load_balance group that nobody asks for its latency gives each healthy
child its turn; and a query for health changes no selection, one for a latency none
that comes before the world changes if there is nothing to share out on its ways,
and none at all if there is nothing to remember. -/
theorem selection_sound (earlier : List Step) (start : Memory) :
    let memory := (runs earlier start).2
    (∀ world tag kind children, Honest world (.group tag kind children) →
      ¬ Served world memory (.group tag kind children) →
        ∀ child ∈ children, ¬ Served world memory child) ∧
    (∀ world tag toleranceMs testType children,
      let self := Node.group tag (.urltest toleranceMs testType) children
      let run := (self.view world).resolveLeaf memory
      (Open world self → ∀ leaf, run.1.leaf = some leaf → leaf.isPenalized world = true →
        ∀ child ∈ children, ∀ other, ((child.view world).resolveLeaf memory).1.leaf = some other →
          other.isHealthy world = true → other.isPenalized world = true) ∧
      (Fits world toleranceMs self → ∀ curr ∈ children, (memory self).current = some curr →
        (run.2 self).current ≠ some curr → Left world toleranceMs testType children memory curr)) ∧
    (∀ tag children up window,
      let self := Node.group tag .loadBalance children
      let taken := picks self (runs window memory).1
      (∀ step ∈ window, children.filter (Node.isHealthy step.world) = up) →
      (2 ≤ up.length → ∀ step ∈ window, ¬ step.Asks self) →
      ((memory self).next + up.length ≤ 2 ^ 64 ∨ up.length ∣ 2 ^ 64) →
      taken.length = up.length → taken.Perm up) ∧
    ∀ world node testType later,
      (runs (⟨world, .isHealthy node⟩ :: later) memory).1 = (runs later memory).1 ∧
      (Quiet world node → (∀ step ∈ later, step.world = world) →
        (runs (⟨world, .latencyMs node testType⟩ :: later) memory).1 = (runs later memory).1) ∧
      (Fixed world node →
        (runs (⟨world, .latencyMs node testType⟩ :: later) memory).1 = (runs later memory).1) := by
  intro memory
  refine ⟨?_, ?_, ?_, ?_⟩
  · intro world tag kind children honest stuck child member served
    exact stuck (served_of_child honest member served)
  · intro world tag toleranceMs testType children
    refine ⟨?_, ?_⟩
    · intro open_ leaf found penalized child member other leads healthy
      exact unpenalized_of_child open_ found penalized member leads healthy
    · intro fits curr member current left
      exact urltest_leaves fits member current left
  · intro tag children up window self taken constant unasked fits round
    exact picks_perm constant unasked fits round
  · intro world node testType later
    refine ⟨rfl, ?_, ?_⟩
    · intro quiet constant
      exact (runs_alike constant (quiet.latency testType memory)).symm
    · intro fixed
      change (runs later ((node.view world).latencyMs testType memory).2).1 = _
      rw [fixed.latencyMs]

end Mirage.Outbound.Selection
