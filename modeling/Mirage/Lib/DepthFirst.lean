import Mathlib.Algebra.Order.BigOperators.Group.List
import Mathlib.Algebra.Order.Group.Nat
import Mathlib.Data.List.Chain
import Mathlib.Data.List.Nodup
import Mathlib.Data.List.Perm.Subperm
import Mirage.Lib.Dependency

/-!
Depth-first search with three colours. An edge back to a node on the path closes
a cycle, and an observer is told its nodes; what it makes of them has no part in
the search. The search tells of a cycle if and only if there is one.
-/

namespace Mirage.DepthFirst
open Dependency Function Relation

inductive Color where
  | white
  | gray
  | black
  deriving DecidableEq

structure Search (α ρ : Type) where
  colors : α → Color
  path : List α
  report : ρ

variable {α ρ : Type} [DecidableEq α]

namespace Search

def enter (search : Search α ρ) (u : α) : Search α ρ :=
  { search with
    colors := update search.colors u .gray
    path := search.path ++ [u] }

def leave (search : Search α ρ) (u : α) : Search α ρ :=
  { search with
    colors := update search.colors u .black
    path := search.path.dropLast }

theorem colors_enter (search : Search α ρ) (u : α) :
    (search.enter u).colors = update search.colors u .gray := rfl

theorem path_enter (search : Search α ρ) (u : α) :
    (search.enter u).path = search.path ++ [u] := rfl

theorem colors_leave (search : Search α ρ) (u : α) :
    (search.leave u).colors = update search.colors u .black := rfl

theorem path_leave (search : Search α ρ) (u : α) :
    (search.leave u).path = search.path.dropLast := rfl

/-- The cycle closed by an edge to `v`. -/
def tell (note : ρ → List α → ρ) (search : Search α ρ) (v : α) : Search α ρ :=
  if v ∈ search.path then
    { search with report := note search.report (search.path.dropWhile (· ≠ v)) }
  else search

def look (note : ρ → List α → ρ) (deeper : Search α ρ → α → Search α ρ) (search : Search α ρ)
    (v : α) : Search α ρ :=
  match search.colors v with
  | .gray => search.tell note v
  | .white => deeper search v
  | .black => search

end Search

section Search_
variable (adj : α → List α) (note : ρ → List α → ρ)

def dfs : Nat → Search α ρ → α → Search α ρ
  | 0, search, _ => search
  | fuel + 1, search, u =>
      ((adj u).foldl (Search.look note (dfs fuel)) (search.enter u)).leave u

def searchRoot (fuel : Nat) (search : Search α ρ) (u : α) : Search α ρ :=
  if search.colors u = .white then dfs adj note fuel search u else search

/-- One search from each node that is still white. -/
def searchAll (roots : List α) (start : ρ) : Search α ρ :=
  roots.foldl (searchRoot adj note roots.length) ⟨fun _ => .white, [], start⟩

theorem dfs_succ (fuel : Nat) (search : Search α ρ) (u : α) :
    dfs adj note (fuel + 1) search u =
      ((adj u).foldl (Search.look note (dfs adj note fuel)) (search.enter u)).leave u := rfl

end Search_

section Observer
variable {adj : α → List α} {note : ρ → List α → ρ} {start : ρ}

/-- Two searches that differ in what their observers made of the same cycles. -/
structure Agree (note : ρ → List α → ρ) (start : ρ) (search : Search α ρ)
    (plain : Search α (List (List α))) : Prop where
  colors : search.colors = plain.colors
  path : search.path = plain.path
  report : search.report = plain.report.foldl note start

/-- The observer that keeps the cycles. -/
def keep (found : List (List α)) (cycle : List α) : List (List α) := found ++ [cycle]

variable {search : Search α ρ} {plain : Search α (List (List α))}

theorem Agree.tell (agree : Agree note start search plain) (v : α) :
    Agree note start (search.tell note v) (plain.tell keep v) := by
  unfold Search.tell
  rw [agree.path]
  split
  · refine ⟨agree.colors, rfl, ?_⟩
    rw [keep, List.foldl_append, ← agree.report]
    rfl
  · exact agree

theorem Agree.dfs (fuel : Nat) (agree : Agree note start search plain) (u : α) :
    Agree note start (dfs adj note fuel search u) (dfs adj keep fuel plain u) := by
  induction fuel generalizing search plain u with
  | zero => exact agree
  | succ fuel ih =>
      have looks : ∀ (vs : List α) {search : Search α ρ} {plain : Search α (List (List α))},
          Agree note start search plain →
            Agree note start (vs.foldl (Search.look note (DepthFirst.dfs adj note fuel)) search)
              (vs.foldl (Search.look keep (DepthFirst.dfs adj keep fuel)) plain) := by
        intro vs
        induction vs with
        | nil => exact fun agree => agree
        | cons v vs more =>
            intro search plain agree
            apply more
            unfold Search.look
            rw [agree.colors]
            split
            · exact agree.tell v
            · exact ih agree v
            · exact agree
      have entered : Agree note start (search.enter u) (plain.enter u) :=
        ⟨congrArg (update · u _) agree.colors, congrArg (· ++ [u]) agree.path, agree.report⟩
      have done := looks (adj u) entered
      rw [dfs_succ, dfs_succ]
      exact ⟨congrArg (update · u _) done.colors, congrArg List.dropLast done.path, done.report⟩

/-- The observer folds over the cycles that are found. -/
theorem report_eq (adj : α → List α) (note : ρ → List α → ρ) (roots : List α) (start : ρ) :
    (searchAll adj note roots start).report =
      (searchAll adj keep roots []).report.foldl note start := by
  have searches : ∀ (rest : List α) {search : Search α ρ} {plain : Search α (List (List α))},
      Agree note start search plain →
        Agree note start (rest.foldl (searchRoot adj note roots.length) search)
          (rest.foldl (searchRoot adj keep roots.length) plain) := by
    intro rest
    induction rest with
    | nil => exact fun agree => agree
    | cons u rest ih =>
        intro search plain agree
        apply ih
        unfold searchRoot
        rw [agree.colors]
        split
        · exact agree.dfs _ u
        · exact agree
  exact (searches roots ⟨rfl, rfl, rfl⟩).report

end Observer

section Cycles
variable {adj : α → List α} {nodes : List α}

abbrev Edge (adj : α → List α) (a b : α) : Prop := b ∈ adj a

/-- Nodes that follow each other in turn, the first again after the last. -/
structure Cycle (r : α → α → Prop) (cycle : List α) : Prop where
  nodup : cycle.Nodup
  closed : ∃ v rest, cycle = v :: rest ∧ (v :: rest ++ [v]).IsChain r

omit [DecidableEq α] in
theorem transGen_of_chain {r : α → α → Prop} {v w : α} {rest : List α}
    (chain : (v :: rest ++ [w]).IsChain r) : TransGen r v w := by
  induction rest generalizing v with
  | nil => exact .single (List.isChain_pair.mp chain)
  | cons u rest ih =>
      obtain ⟨edge, tail⟩ := List.isChain_cons_cons.mp chain
      exact .head edge (ih tail)

omit [DecidableEq α] in
theorem Cycle.transGen {r : α → α → Prop} {cycle : List α} (closed : Cycle r cycle) :
    ∃ v ∈ cycle, TransGen r v v := by
  obtain ⟨v, rest, rfl, chain⟩ := closed.closed
  exact ⟨v, List.mem_cons_self, transGen_of_chain chain⟩

/-- A node in the middle of a path stands before what `dropWhile` leaves. -/
theorem dropWhile_mem {path : List α} {v : α} (member : v ∈ path) :
    ∃ before rest, path = before ++ v :: rest ∧ path.dropWhile (· ≠ v) = v :: rest := by
  induction path with
  | nil => cases member
  | cons u path ih =>
      by_cases same : u = v
      · subst same
        refine ⟨[], path, rfl, ?_⟩
        rw [List.dropWhile_cons_of_neg (by simp)]
      · have later := (List.mem_cons.mp member).resolve_left (Ne.symm same)
        obtain ⟨before, rest, stood, left⟩ := ih later
        refine ⟨u :: before, rest, congrArg (u :: ·) stood, ?_⟩
        rw [List.dropWhile_cons_of_pos (by simpa using same)]
        exact left

abbrev Plain (α : Type) := Search α (List (List α))

/-- What the search keeps. While it has found no cycle, what is black leads to
black nodes only, and downward. -/
structure Sound (adj : α → List α) (nodes : List α) (search : Plain α) : Prop where
  gray : ∀ v, search.colors v = .gray ↔ v ∈ search.path
  nodup : search.path.Nodup
  chain : search.path.IsChain (Edge adj)
  inside : ∀ v ∈ search.path, v ∈ nodes
  genuine : ∀ cycle ∈ search.report, Cycle (Edge adj) cycle
  ranked : search.report = [] → ∃ rank : α → Nat, ∀ b, search.colors b = .black →
    ∀ v ∈ adj b, search.colors v = .black ∧ rank v < rank b

/-- What a part of the search leaves as it was. -/
structure Follows (search next : Plain α) : Prop where
  path : next.path = search.path
  kept : ∀ v, search.colors v ≠ .white → next.colors v = search.colors v
  report : search.report <+: next.report

omit [DecidableEq α] in
theorem Follows.refl (search : Plain α) : Follows search search :=
  ⟨rfl, fun _ _ => rfl, List.prefix_refl _⟩

omit [DecidableEq α] in
theorem Follows.trans {search next last : Plain α} (first : Follows search next)
    (second : Follows next last) : Follows search last := by
  refine ⟨second.path.trans first.path, ?_, first.report.trans second.report⟩
  intro v colored
  have same := first.kept v colored
  rw [← same] at colored ⊢
  exact second.kept v colored

variable {search : Plain α} {u v : α}

/-- An edge from the end of the path back into it closes a cycle. -/
theorem Sound.tell (sound : Sound adj nodes search) (gray : search.colors v = .gray)
    (edge : ∀ last ∈ search.path.getLast?, v ∈ adj last) :
    Sound adj nodes (search.tell keep v) ∧ Follows search (search.tell keep v) ∧
      (search.tell keep v).report ≠ [] := by
  have member := (sound.gray v).mp gray
  obtain ⟨before, rest, stood, left⟩ := dropWhile_mem member
  have told : search.tell keep v = { search with report := search.report ++ [v :: rest] } := by
    rw [Search.tell, if_pos member, left]
    rfl
  -- From `v` on the path is a walk, and the edge leads back to its start.
  have cycle : Cycle (Edge adj) (v :: rest) := by
    have suffix : (v :: rest) <:+ search.path := ⟨before, stood.symm⟩
    refine ⟨suffix.sublist.nodup sound.nodup, v, rest, rfl, ?_⟩
    apply List.IsChain.append (sound.chain.suffix suffix) (List.isChain_singleton v)
    intro last atEnd first atStart
    cases atStart
    refine edge last ?_
    rw [stood, List.getLast?_append_of_ne_nil before (List.cons_ne_nil v rest)]
    exact atEnd
  rw [told]
  refine ⟨⟨sound.gray, sound.nodup, sound.chain, sound.inside, ?_, ?_⟩,
    ⟨rfl, fun _ _ => rfl, List.prefix_append _ _⟩, ?_⟩
  · intro other reported
    rcases List.mem_append.mp reported with old | new
    · exact sound.genuine other old
    · cases List.mem_singleton.mp new
      exact cycle
  · intro none_
    exact absurd none_ (by simp)
  · simp

theorem Sound.enter (sound : Sound adj nodes search) (white : search.colors u = .white)
    (known : u ∈ nodes) (edge : ∀ last ∈ search.path.getLast?, u ∈ adj last) :
    Sound adj nodes (search.enter u) := by
  have fresh : u ∉ search.path := by
    intro member
    rw [(sound.gray u).mpr member] at white
    cases white
  refine ⟨?_, ?_, ?_, ?_, sound.genuine, ?_⟩
  · intro v
    by_cases same : v = u
    · subst same
      simp [Search.colors_enter, Search.path_enter]
    · simp [Search.colors_enter, Search.path_enter, same, sound.gray v]
  · exact List.nodup_append'.mpr ⟨sound.nodup, List.nodup_singleton u, by simpa using fresh⟩
  · apply List.IsChain.append sound.chain (List.isChain_singleton u)
    intro last atEnd first atStart
    cases atStart
    exact edge last atEnd
  · intro v member
    rcases List.mem_append.mp member with old | new
    · exact sound.inside v old
    · cases List.mem_singleton.mp new
      exact known
  · intro none_
    obtain ⟨rank, down⟩ := sound.ranked none_
    refine ⟨rank, ?_⟩
    intro b black v out
    have other : b ≠ u := by
      rintro rfl
      rw [Search.colors_enter, update_self] at black
      cases black
    have before : search.colors b = .black := by
      rwa [Search.colors_enter, update_of_ne other] at black
    obtain ⟨leads, less⟩ := down b before v out
    have apart : v ≠ u := by
      rintro rfl
      rw [leads] at white
      cases white
    refine ⟨?_, less⟩
    rw [Search.colors_enter, update_of_ne apart]
    exact leads

theorem Sound.leave {path : List α} (sound : Sound adj nodes search)
    (stood : search.path = path ++ [u])
    (seen : search.report = [] → ∀ v ∈ adj u, search.colors v = .black) :
    Sound adj nodes (search.leave u) := by
  have nodup := sound.nodup
  rw [stood] at nodup
  have left : (search.leave u).path = path := by
    rw [Search.path_leave, stood, List.dropLast_concat]
  have inside : path <+: search.path := ⟨[u], stood.symm⟩
  refine ⟨?_, ?_, ?_, ?_, sound.genuine, ?_⟩
  · intro v
    rw [left]
    by_cases same : v = u
    · subst same
      have gone : v ∉ path := fun member =>
        (List.nodup_append'.mp nodup).2.2 member (List.mem_singleton_self v)
      simp [Search.colors_leave, gone]
    · have old := sound.gray v
      rw [stood] at old
      simpa [Search.colors_leave, same] using old
  · rw [left]
    exact inside.sublist.nodup sound.nodup
  · rw [left]
    exact sound.chain.prefix inside
  · rw [left]
    exact fun v member => sound.inside v (inside.subset member)
  · intro none_
    have black := seen none_
    obtain ⟨rank, down⟩ := sound.ranked none_
    -- The node left goes above all its neighbours.
    refine ⟨update rank u (((adj u).map rank).sum + 1), ?_⟩
    have gray : search.colors u = .gray := by
      apply (sound.gray u).mpr
      rw [stood]
      exact List.mem_append_right path (List.mem_singleton_self u)
    have apart : ∀ v, search.colors v = .black → v ≠ u := by
      rintro v colored rfl
      rw [gray] at colored
      cases colored
    intro b now v out
    by_cases same : b = u
    · subst same
      have differs := apart v (black v out)
      rw [Search.colors_leave, update_of_ne differs, update_of_ne differs, update_self]
      refine ⟨black v out, Nat.lt_succ_of_le ?_⟩
      exact List.single_le_sum (fun _ _ => Nat.zero_le _) _ (List.mem_map_of_mem out)
    · rw [Search.colors_leave, update_of_ne same] at now
      obtain ⟨leads, less⟩ := down b now v out
      have differs := apart v leads
      rw [Search.colors_leave, update_of_ne differs, update_of_ne differs, update_of_ne same]
      exact ⟨leads, less⟩

/-- What looking at one neighbour after the other has come to. -/
structure Looked (adj : α → List α) (nodes : List α) (search : Plain α) (vs : List α)
    (next : Plain α) : Prop where
  sound : Sound adj nodes next
  follows : Follows search next
  seen : next.report = [] → ∀ v ∈ vs, next.colors v = .black

/-- One search leaves the path, and its node black. -/
structure Done (adj : α → List α) (nodes : List α) (search : Plain α) (u : α) (next : Plain α) :
    Prop where
  sound : Sound adj nodes next
  follows : Follows search next
  black : next.colors u = .black

theorem looked_all {deeper : Plain α → α → Plain α} {vs : List α}
    (sound : Sound adj nodes search)
    (edges : ∀ v ∈ vs, ∀ last ∈ search.path.getLast?, v ∈ adj last)
    (deep : ∀ (before : Plain α), Sound adj nodes before → before.path = search.path →
      ∀ v ∈ vs, before.colors v = .white → Done adj nodes before v (deeper before v)) :
    Looked adj nodes search vs (vs.foldl (Search.look keep deeper) search) := by
  induction vs generalizing search with
  | nil => exact ⟨sound, .refl search, nofun⟩
  | cons v vs ih =>
      have here := edges v List.mem_cons_self
      have one : Sound adj nodes (search.look keep deeper v) ∧
          Follows search (search.look keep deeper v) ∧
            ((search.look keep deeper v).report = [] →
              (search.look keep deeper v).colors v = .black) := by
        unfold Search.look
        split
        · rename_i gray
          obtain ⟨kept, follows, told⟩ := sound.tell gray here
          exact ⟨kept, follows, fun none_ => absurd none_ told⟩
        · rename_i white
          have done := deep search sound rfl v List.mem_cons_self white
          exact ⟨done.sound, done.follows, fun _ => done.black⟩
        · rename_i black
          exact ⟨sound, .refl search, fun _ => black⟩
      obtain ⟨kept, follows, black⟩ := one
      have rest := ih kept
        (fun w member => by rw [follows.path]; exact edges w (List.mem_cons_of_mem v member))
        (fun before held path w member => deep before held (path.trans follows.path) w
          (List.mem_cons_of_mem v member))
      refine ⟨rest.sound, follows.trans rest.follows, ?_⟩
      intro none_ w member
      rcases List.mem_cons.mp member with rfl | later
      · have before : (search.look keep deeper w).report = [] :=
          List.prefix_nil.mp (none_ ▸ rest.follows.report)
        rw [List.foldl_cons, rest.follows.kept w (by rw [black before]; nofun)]
        exact black before
      · exact rest.seen none_ w later

/-- A search with as much fuel as there are nodes off the path never runs out. -/
theorem dfs_done (closed : ∀ u ∈ nodes, ∀ v ∈ adj u, v ∈ nodes) (fuel : Nat)
    (sound : Sound adj nodes search) (white : search.colors u = .white) (known : u ∈ nodes)
    (edge : ∀ last ∈ search.path.getLast?, u ∈ adj last)
    (enough : nodes.length ≤ fuel + search.path.length) :
    Done adj nodes search u (dfs adj keep fuel search u) := by
  induction fuel generalizing search u with
  | zero =>
      -- With the node the path would hold more different nodes than there are.
      have entered := sound.enter white known edge
      have few := (entered.nodup.subperm entered.inside).length_le
      rw [Search.path_enter, List.length_append, List.length_singleton] at few
      omega
  | succ fuel ih =>
      have entered := sound.enter white known edge
      have top : ∀ last ∈ (search.enter u).path.getLast?, last = u := by
        intro last atEnd
        rw [Search.path_enter, List.getLast?_concat] at atEnd
        exact (Option.some.inj atEnd).symm
      -- A neighbour is searched with the path one longer, so the fuel still suffices.
      have looked := @looked_all _ _ adj nodes (search.enter u) (dfs adj keep fuel) (adj u) entered
        (fun v out last atEnd => (top last atEnd) ▸ out)
        (fun before held path v out colored => by
          apply ih held colored (closed u known v out)
          · intro last atEnd
            rw [path] at atEnd
            exact (top last atEnd) ▸ out
          · rw [path, Search.path_enter, List.length_append, List.length_singleton]
            omega)
      rw [dfs_succ]
      generalize (adj u).foldl (Search.look keep (dfs adj keep fuel)) (search.enter u) = next
        at looked
      refine ⟨looked.sound.leave looked.follows.path looked.seen, ⟨?_, ?_, ?_⟩, update_self _ _ _⟩
      · rw [Search.path_leave, looked.follows.path, Search.path_enter, List.dropLast_concat]
      · intro v colored
        have apart : v ≠ u := by
          rintro rfl
          exact colored white
        have same : (search.enter u).colors v = search.colors v := update_of_ne apart _ _
        rw [Search.colors_leave, update_of_ne apart, looked.follows.kept v (same ▸ colored), same]
      · exact looked.follows.report

omit [DecidableEq α] in
theorem sound_start : Sound adj nodes (⟨fun _ => .white, [], []⟩ : Plain α) :=
  ⟨fun _ => ⟨nofun, nofun⟩, List.nodup_nil, List.isChain_nil, nofun, nofun,
    fun _ => ⟨fun _ => 0, nofun⟩⟩

/-- Every cycle told of is one, and one is told of if there is any. -/
theorem searchAll_cycles (closed : ∀ u ∈ nodes, ∀ v ∈ adj u, v ∈ nodes)
    (outside : ∀ u ∉ nodes, adj u = []) :
    (∀ cycle ∈ (searchAll adj keep nodes []).report, Cycle (Edge adj) cycle) ∧
      ((searchAll adj keep nodes []).report = [] ↔ Acyclic (Edge adj)) := by
  have searches : ∀ (rest : List α) (search : Plain α), (∀ u ∈ rest, u ∈ nodes) →
      search.path = [] → Sound adj nodes search →
        Looked adj nodes search rest (rest.foldl (searchRoot adj keep nodes.length) search) := by
    intro rest
    induction rest with
    | nil => exact fun search _ _ sound => ⟨sound, .refl search, nofun⟩
    | cons u rest ih =>
        intro search inside empty sound
        have one : Done adj nodes search u (searchRoot adj keep nodes.length search u) := by
          unfold searchRoot
          split
          · rename_i white
            refine dfs_done closed _ sound white (inside u List.mem_cons_self) ?_
              (Nat.le_add_right _ _)
            rw [empty]
            exact nofun
          · rename_i colored
            refine ⟨sound, .refl search, ?_⟩
            cases color : search.colors u with
            | white => exact absurd color colored
            | black => rfl
            | gray =>
                -- Between two searches nothing is on the path.
                have member := (sound.gray u).mp color
                rw [empty] at member
                cases member
        have more := ih _ (fun w member => inside w (List.mem_cons_of_mem u member))
          (one.follows.path.trans empty) one.sound
        refine ⟨more.sound, one.follows.trans more.follows, ?_⟩
        intro none_ w member
        rcases List.mem_cons.mp member with rfl | later
        · rw [List.foldl_cons, more.follows.kept w (by rw [one.black]; nofun)]
          exact one.black
        · exact more.seen none_ w later
  have all := searches nodes _ (fun _ member => member) rfl sound_start
  refine ⟨all.sound.genuine, ?_, ?_⟩
  · intro none_
    obtain ⟨rank, down⟩ := all.sound.ranked none_
    apply acyclic_of_rank rank
    intro a b edge
    by_cases known : a ∈ nodes
    · exact (down a (all.seen none_ a known) b edge).2
    · rw [Edge, outside a known] at edge
      cases edge
  · intro acyclic
    apply List.eq_nil_iff_forall_not_mem.mpr
    intro cycle reported
    obtain ⟨v, -, around⟩ := (all.sound.genuine cycle reported).transGen
    exact acyclic v around

end Cycles

end Mirage.DepthFirst
