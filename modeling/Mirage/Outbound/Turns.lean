import Mirage.Lib.Turns
import Mirage.Outbound.Reach

/-!
The queries one after the other, and the turns that a load_balance group gives its
healthy children in them.
-/

namespace Mirage.Outbound.Selection
open Function Programs Turns

inductive Query where
  | resolveLeaf (node : Node)
  | isHealthy (node : Node)
  | latencyMs (node : Node) (testType : String)

/-- A query, and the world as it is made. -/
structure Step where
  world : World
  query : Query

def Step.run (step : Step) (memory : Memory) : List Outcome × Memory :=
  match step.query with
  | .resolveLeaf node =>
      let run := (node.view step.world).resolveLeaf memory
      ([run.1], run.2)
  | .isHealthy _ => ([], memory)
  | .latencyMs node testType => ([], ((node.view step.world).latencyMs testType memory).2)

def runs : List Step → Memory → List Outcome × Memory
  | [], memory => ([], memory)
  | step :: rest, memory =>
      let first := step.run memory
      let behind := runs rest first.2
      (first.1 ++ behind.1, behind.2)

def takenOf (self : Node) (way : List (Node × Node)) : List Node :=
  way.filterMap fun taken => if taken.1 = self then some taken.2 else none

def picks (self : Node) (selections : List Outcome) : List Node :=
  selections.flatMap fun outcome => takenOf self outcome.way

def Asks (world : World) (node key : Node) : Prop :=
  ∃ tag toleranceMs testType children,
    Reaches world node (.group tag (.urltest toleranceMs testType) children) ∧
      ∃ child ∈ (Node.group tag (.urltest toleranceMs testType) children).options world,
        Reaches world child key

def Step.Asks (step : Step) (key : Node) : Prop :=
  match step.query with
  | .resolveLeaf node => Selection.Asks step.world node key
  | .isHealthy _ => False
  | .latencyMs node _ => Reaches step.world node key

section Turn
variable {world : World} {tag lbTag : String} {kind : GroupKind} {children members : List Node}
variable {node key : Node} {memory : Memory}

theorem way_reaches {taken : Node × Node}
    (here : taken ∈ ((node.view world).resolveLeaf memory).1.way) :
    Reaches world node taken.1 ∧ taken.2 ∈ taken.1.options world := by
  induction node using Node.tree_induction generalizing memory with
  | leaf leaf => exact absurd here List.not_mem_nil
  | group tag kind children ih =>
      obtain ⟨_, stuck⟩ | ⟨child, member, after, _, run⟩ :=
        resolveLeaf_cases world tag kind children memory
      · rw [stuck] at here
        exact absurd here List.not_mem_nil
      · rw [run] at here
        obtain rfl | behind := List.mem_cons.mp here
        · exact ⟨.refl, member⟩
        · obtain ⟨reaches, may⟩ := ih child (options_subset member) behind
          exact ⟨.head member reaches, may⟩

theorem takenOf_apart (away : ¬ Reaches world node key) (memory : Memory) :
    takenOf key ((node.view world).resolveLeaf memory).1.way = [] := by
  refine List.filterMap_eq_nil_iff.mpr fun taken here => if_neg ?_
  rintro rfl
  exact away (way_reaches here).1

theorem pick_frame (self : Node) (differs : self ≠ key) {nodes : List Node}
    (away : ∀ toleranceMs testType, kind = .urltest toleranceMs testType →
      ∀ child ∈ nodes, ¬ Reaches world child key) (memory : Memory) :
    (pick self kind (nodes.map (Node.view world)) memory).2 key = memory key := by
  cases kind with
  | urltest toleranceMs testType =>
      cases same : nodes.map (Node.view world) with
      | nil => rfl
      | cons first rest =>
          have kept := weighed_frame same (away toleranceMs testType rfl) self toleranceMs testType
            memory
          rw [pick_urltest]
          generalize weighed self toleranceMs testType first rest memory = choice at kept ⊢
          obtain ⟨⟨child, switch⟩, after⟩ := choice
          cases switch with
          | false => exact kept
          | true => exact (update_of_ne differs.symm _ _).trans kept
  | fallback | selector => rfl
  | loadBalance =>
      rw [pick]
      split
      · exact update_of_ne differs.symm _ _
      · rfl

theorem pick_loadBalance (self : Node) {up : List Node}
    (healthy : (up.map (Node.view world)).any View.isHealthy = true) (memory : Memory) :
    pick self .loadBalance (up.map (Node.view world)) memory =
      (up[(memory self).next % up.length]?,
        update memory self { memory self with next := ((memory self).next + 1) % 2 ^ 64 }) := by
  rw [pick, if_pos healthy]
  refine Prod.ext ?_ rfl
  change ((up.map (Node.view world))[(memory self).next %
    (up.map (Node.view world)).length]?).map View.node = _
  rw [List.getElem?_map, Option.map_map, List.length_map]
  cases up[(memory self).next % up.length]? with
  | none => rfl
  | some child => exact congrArg some (Node.view_node world child)

/-- A selection takes at most one child of the group, the one at the cursor. -/
theorem resolveLeaf_turn {up : List Node} (some_ : up ≠ [])
    (healthy : members.filter (Node.isHealthy world) = up)
    (unasked : ¬ Asks world node (.group lbTag .loadBalance members)) (memory : Memory) :
    let self := Node.group lbTag .loadBalance members
    let run := (node.view world).resolveLeaf memory
    (takenOf self run.1.way = [] ∧ (run.2 self).next = (memory self).next) ∨
      (takenOf self run.1.way = (up[(memory self).next % up.length]?).toList ∧
        (run.2 self).next = ((memory self).next + 1) % 2 ^ 64) := by
  intro self
  induction node using Node.tree_induction generalizing memory with
  | leaf leaf => exact .inl ⟨rfl, rfl⟩
  | group tag kind children ih =>
      obtain ⟨_, stuck⟩ | ⟨child, here, after, picked, run⟩ :=
        resolveLeaf_cases world tag kind children memory
      · rw [stuck]
        exact .inl ⟨rfl, rfl⟩
      · rw [run]
        by_cases own : Node.group tag kind children = self
        · obtain ⟨rfl, rfl, rfl⟩ := Node.group.inj own
          have able : (Node.group tag .loadBalance children).options world = up := by
            rw [Node.options, options, healthy, List.isEmpty_eq_false_iff.mpr some_]
            rfl
          have any : (up.map (Node.view world)).any View.isHealthy = true := by
            obtain ⟨first, rest, rfl⟩ := List.exists_cons_of_ne_nil some_
            have up_ : first ∈ children.filter (Node.isHealthy world) :=
              healthy ▸ List.mem_cons_self
            exact List.any_eq_true.mpr ⟨_, List.mem_map_of_mem List.mem_cons_self,
              (List.mem_filter.mp up_).2⟩
          -- Below its own child the group does not occur, and its cursor stays.
          have away := not_reaches_back here
          rw [able, pick_loadBalance _ any] at picked
          obtain ⟨taken, rfl⟩ := Prod.ext_iff.mp picked
          right
          dsimp only at taken ⊢
          rw [resolveLeaf_frame away, update_self, taken]
          refine ⟨?_, rfl⟩
          change takenOf self ((self, child) :: _) = _
          rw [takenOf, List.filterMap_cons, if_pos rfl]
          exact congrArg (child :: ·) (takenOf_apart away _)
        · have apart : ∀ toleranceMs testType, kind = .urltest toleranceMs testType →
              ∀ child ∈ (Node.group tag kind children).options world,
                ¬ Reaches world child self := by
            rintro toleranceMs testType rfl child member reaches
            exact unasked ⟨tag, toleranceMs, testType, children, .refl, child, member, reaches⟩
          have unread : after self = memory self := by
            have kept := pick_frame (Node.group tag kind children) own apart memory
            rw [picked] at kept
            exact kept
          have further := ih child (options_subset here) (fun asks => by
            obtain ⟨urlTag, toleranceMs, testType, asked, reaches, other⟩ := asks
            exact unasked ⟨urlTag, toleranceMs, testType, asked, .head here reaches, other⟩) after
          rw [unread] at further
          have skipped : takenOf self (((Node.view world child).resolveLeaf after).1.through
              (.group tag kind children) child).way =
              takenOf self ((Node.view world child).resolveLeaf after).1.way := by
            change takenOf self ((_, child) :: _) = _
            rw [takenOf, List.filterMap_cons, if_neg own]
            rfl
          dsimp only
          rw [skipped]
          exact further

theorem options_loadBalance {up : List Node} (some_ : up ≠ [])
    (healthy : members.filter (Node.isHealthy world) = up) :
    (Node.group lbTag .loadBalance members).options world = up := by
  rw [Node.options, options, healthy, List.isEmpty_eq_false_iff.mpr some_]
  rfl

end Turn

section Window
variable {tag : String} {members up : List Node} {steps : List Step} {memory : Memory}

/-- So does a query that does not ask the group for its latency. -/
theorem Step.turn {step : Step} (some_ : up ≠ [])
    (healthy : members.filter (Node.isHealthy step.world) = up)
    (unasked : ¬ step.Asks (.group tag .loadBalance members)) (memory : Memory) :
    let self := Node.group tag .loadBalance members
    let run := step.run memory
    (picks self run.1 = [] ∧ (run.2 self).next = (memory self).next) ∨
      (picks self run.1 = (up[(memory self).next % up.length]?).toList ∧
        (run.2 self).next = ((memory self).next + 1) % 2 ^ 64) := by
  obtain ⟨world, query⟩ := step
  cases query with
  | resolveLeaf node =>
      have turn := resolveLeaf_turn some_ healthy unasked memory
      have single : ∀ (self : Node) (outcome : Outcome),
          picks self [outcome] = takenOf self outcome.way := fun _ _ => List.append_nil _
      dsimp only [Step.run]
      rw [single]
      exact turn
  | isHealthy node => exact .inl ⟨rfl, rfl⟩
  | latencyMs node testType =>
      exact .inl ⟨rfl, congrArg Cell.next (latencyMs_frame unasked testType memory)⟩

theorem runs_turns (some_ : up ≠ [])
    (constant : ∀ step ∈ steps, members.filter (Node.isHealthy step.world) = up)
    (unasked : ∀ step ∈ steps, ¬ step.Asks (.group tag .loadBalance members)) :
    ∃ count, picks (.group tag .loadBalance members) (runs steps memory).1 =
      turns up (2 ^ 64) count (memory (.group tag .loadBalance members)).next := by
  induction steps generalizing memory with
  | nil => exact ⟨0, rfl⟩
  | cons step rest ih =>
      rw [List.forall_mem_cons] at constant unasked
      obtain ⟨count, behind⟩ := @ih (step.run memory).2 constant.2 unasked.2
      have split : picks (.group tag .loadBalance members) (runs (step :: rest) memory).1 =
          picks (.group tag .loadBalance members) (step.run memory).1 ++
            picks (.group tag .loadBalance members) (runs rest (step.run memory).2).1 :=
        List.flatMap_append
      rw [split, behind]
      obtain ⟨taken, next⟩ | ⟨taken, next⟩ := Step.turn some_ constant.1 unasked.1 memory
      · exact ⟨count, by rw [taken, next, List.nil_append]⟩
      · exact ⟨count + 1, by rw [taken, next, turns]⟩

theorem picks_mem (some_ : up ≠ [])
    (constant : ∀ step ∈ steps, members.filter (Node.isHealthy step.world) = up) {child : Node}
    (here : child ∈ picks (.group tag .loadBalance members) (runs steps memory).1) :
    child ∈ up := by
  induction steps generalizing memory with
  | nil => exact absurd here List.not_mem_nil
  | cons step rest ih =>
      rw [List.forall_mem_cons] at constant
      obtain ⟨outcome, selected, taken⟩ := List.mem_flatMap.mp here
      obtain first | behind := List.mem_append.mp selected
      · obtain ⟨world, query⟩ := step
        cases query with
        | resolveLeaf node =>
            cases List.mem_singleton.mp first
            obtain ⟨pair, way, same⟩ := List.mem_filterMap.mp taken
            obtain ⟨of_, named⟩ := Option.ite_none_right_eq_some.mp same
            have may := (way_reaches way).2
            rw [of_, options_loadBalance some_ constant.1, Option.some.inj named] at may
            exact may
        | isHealthy | latencyMs => exact absurd first List.not_mem_nil
      · exact ih constant.2 (List.mem_flatMap.mpr ⟨outcome, behind, taken⟩)

/-- As many selections through the group as it has healthy children use each of them
once. -/
theorem picks_perm (constant : ∀ step ∈ steps, members.filter (Node.isHealthy step.world) = up)
    (unasked : 2 ≤ up.length → ∀ step ∈ steps, ¬ step.Asks (.group tag .loadBalance members))
    (fits : (memory (.group tag .loadBalance members)).next + up.length ≤ 2 ^ 64 ∨
      up.length ∣ 2 ^ 64)
    (round : (picks (.group tag .loadBalance members) (runs steps memory).1).length = up.length) :
    (picks (.group tag .loadBalance members) (runs steps memory).1).Perm up := by
  by_cases some_ : up = []
  · rw [some_] at round ⊢
    rw [List.eq_nil_of_length_eq_zero round]
  · by_cases several : 2 ≤ up.length
    · obtain ⟨count, taken⟩ :=
        @runs_turns tag members up steps memory some_ constant (unasked several)
      rw [taken, length_turns some_] at round
      rw [taken, round]
      exact turns_perm fits
    · have one : up.length = 1 := by
        have pos := List.length_pos_iff.mpr some_
        omega
      obtain ⟨only, rfl⟩ := List.length_eq_one_iff.mp one
      obtain ⟨taken, same⟩ := List.length_eq_one_iff.mp (round.trans one)
      have mem := @picks_mem tag members [only] steps memory some_ constant taken
        (same ▸ List.mem_singleton_self taken)
      rw [same, List.mem_singleton.mp mem]

end Window

end Mirage.Outbound.Selection
