import Mirage.Outbound.Construction

/-!
What a user may expect of a list of outbounds, whatever the order of its
definitions, and exactly when the construction keeps to it.
-/

namespace Mirage.Outbound
open Rounds Dependency

/-- The expectation: in every order, the list is accepted exactly when it is well
formed, and then each definition's node is in the table under its tag, and what
the node points to is what the table holds under the tags referred to. -/
structure Contract (tools : Tools) (all : List OutboundConfig) : Prop where
  succeeds : ∀ {order : List OutboundConfig}, order.Perm all →
    ((∃ built, OutboundManager.new tools order = .ok built) ↔ WellFormed tools all)
  returns : ∀ {order : List OutboundConfig} {e : BuildError}, order.Perm all → OutboundManager.new tools order = .error e →
    e ≠ .unreachable
  bound : ∀ {order : List OutboundConfig} {built : Built}, order.Perm all →
    OutboundManager.new tools order = .ok built →
    ∀ oc ∈ all, ∃ place ids node, built.table oc.tag = some place ∧
      built.nodes[place]? = some node ∧
      nodeOf tools (persistedChoices tools order) built oc ids = some node ∧
      List.Forall₂ (fun tag id => built.table tag = some id) (oc.refs tools order) ids
  closed : ∀ {order : List OutboundConfig} {built : Built}, order.Perm all →
    OutboundManager.new tools order = .ok built →
    ∀ node ∈ built.nodes, ∀ id ∈ node.references,
      ∃ child, built.nodes[id]? = some child ∧ built.table child.tag = some id
  tags : ∀ {order : List OutboundConfig} {built : Built}, order.Perm all →
    OutboundManager.new tools order = .ok built →
    ∀ tag, built.table tag ≠ none ↔ Known all tag
  implicit : ∀ {order : List OutboundConfig} {built : Built}, order.Perm all →
    OutboundManager.new tools order = .ok built →
    ∀ tag, Reserved tag → (∀ oc ∈ all, oc.tag ≠ tag) →
      ∃ id, built.table tag = some id ∧ built.nodes[id]? = some (implicitNode tag)
  /-- The order of the list decides no more than the order of a filter's matches. -/
  members : ∀ {order : List OutboundConfig}, order.Perm all → ∀ oc : OutboundConfig,
    (oc.refs tools order).Perm (oc.refs tools all)

/-- The node of each definition is in the table under its tag, and points to what
the table holds under the tags that the definition refers to. -/
def Bound (tools : Tools) (order : List OutboundConfig) (built : Built) : Prop :=
  ∀ oc ∈ order, ∃ place ids node, built.table oc.tag = some place ∧
    built.nodes[place]? = some node ∧
    nodeOf tools (persistedChoices tools order) built oc ids = some node ∧
    List.Forall₂ (fun tag id => built.table tag = some id) (oc.refs tools order) ids

section Orders
variable {tools : Tools} {all order : List OutboundConfig}

theorem refersTo_perm (same : order.Perm all) (distinct : (all.map OutboundConfig.tag).Nodup)
    {tag target : String} : RefersTo tools order tag target ↔ RefersTo tools all tag target := by
  constructor
  · rintro ⟨oc, member, keyed, refs⟩
    exact ⟨oc, same.subset member, keyed, (refs_perm same distinct oc).subset refs⟩
  · rintro ⟨oc, member, keyed, refs⟩
    exact ⟨oc, same.symm.subset member, keyed, (refs_perm same distinct oc).symm.subset refs⟩

theorem Known.perm {tag : String} (same : order.Perm all) (known : Known order tag) :
    Known all tag :=
  known.imp_right fun ⟨oc, member, keyed⟩ => ⟨oc, same.subset member, keyed⟩

theorem Constructible.perm (same : order.Perm all) (distinct : (all.map OutboundConfig.tag).Nodup)
    (constructible : Constructible tools order) : Constructible tools all where
  known := by
    intro oc member tag refs
    have before := (refs_perm same distinct oc).symm.subset refs
    exact (constructible.known oc (same.symm.subset member) tag before).perm same
  acyclic := constructible.acyclic.mono (And.imp_left (refersTo_perm same distinct).mpr)
  methods := fun oc member => constructible.methods oc (same.symm.subset member)

theorem Settled.perm (same : order.Perm all) (distinct : (all.map OutboundConfig.tag).Nodup)
    (settled : Settled tools all) : Settled tools order := by
  intro oc member tag refs reserved other inside keyed
  exact settled oc (same.subset member) tag ((refs_perm same distinct oc).subset refs) reserved
    other (same.subset inside) keyed

end Orders

section Kept
variable {tools : Tools} {all done : List OutboundConfig} {choices : String → Option String}
  {built : Built}

/-- In a settled list no implicit node that is referred to is replaced. -/
theorem Sound.settles (sound : Sound tools all choices Reserved done built) (same : done.Perm all)
    (settled : Settled tools all) {oc : OutboundConfig} (member : oc ∈ all) :
    ∃ place ids node, built.table oc.tag = some place ∧ built.nodes[place]? = some node ∧
      nodeOf tools choices built oc ids = some node ∧
      List.Forall₂ (fun tag id => id < place ∧ built.table tag = some id) (oc.refs tools all) ids := by
  obtain ⟨place, ids, node, tabled, here, is_node, refers⟩ :=
    sound.made oc (same.symm.subset member)
  refine ⟨place, ids, node, tabled, here, is_node, ?_⟩
  refine ((List.forall₂_and_left _ _).mpr ⟨fun tag refs => refs, refers⟩).imp ?_
  rintro tag id ⟨refs, earlier, target | ⟨reserved, other, inside, deferred, keyed⟩⟩
  · exact ⟨earlier, target⟩
  · have leaf := settled oc member tag refs reserved other (same.subset inside) keyed
    rw [leaf] at deferred
    cases deferred

theorem Sound.wellFormed (sound : Sound tools all choices Reserved done built)
    (same : done.Perm all) (settled : Settled tools all) : WellFormed tools all where
  known := (sound.constructible same).known
  acyclic := by
    apply acyclic_of_rank fun tag => (built.table tag).getD 0
    rintro source target ⟨oc, member, rfl, refs⟩
    obtain ⟨place, ids, node, tabled, _, _, refers⟩ := sound.settles same settled member
    obtain ⟨id, _, earlier, found⟩ := forall₂_mem_left refers refs
    rw [tabled, found]
    exact earlier
  methods := (sound.constructible same).methods

/-- A list in an order in which each definition waits for earlier ones only is
taken in that order. -/
theorem takes_of_sorted {items : List OutboundConfig} (constructible : Constructible tools all)
    (distinct : (all.map OutboundConfig.tag).Nodup)
    (sound : Sound tools all choices Reserved done built) (every : (done ++ items).Perm all)
    (deferred : ∀ oc ∈ items, oc.deferred = true)
    (sorted : items.Pairwise fun a b => ¬ Waits tools all a.tag b.tag) :
    ∃ final, Takes (attempt tools all choices) built items final := by
  induction items generalizing done built with
  | nil => exact ⟨built, .nil built⟩
  | cons oc rest ih =>
      obtain ⟨before, sorted⟩ := List.pairwise_cons.mp sorted
      have of_all : oc ∈ all := every.subset (List.mem_append_right _ List.mem_cons_self)
      have ready : ∀ tag ∈ oc.refs tools all, built.table tag ≠ none := by
        intro tag refs missing
        have free : ¬ Reserved tag := fun reserved => sound.present reserved missing
        obtain ⟨other, known, keyed⟩ := (constructible.known oc of_all tag refs).resolve_left free
        have waits : Waits tools all oc.tag other.tag :=
          ⟨⟨oc, of_all, rfl, keyed.symm ▸ refs⟩, keyed.symm ▸ free⟩
        rcases List.mem_append.mp (every.symm.subset known) with made | here
        · obtain ⟨place, _, _, tabled, _⟩ := sound.made other made
          rw [keyed, missing] at tabled
          cases tabled
        · rcases List.mem_cons.mp here with rfl | later
          · exact constructible.acyclic _ (.single waits)
          · exact before other later waits
      obtain ⟨next, one⟩ := attempt_ready (deferred oc List.mem_cons_self)
        (constructible.methods oc of_all) ready
      have tags := (every.map OutboundConfig.tag).nodup_iff.mpr distinct
      rw [List.append_cons] at tags every
      rw [List.map_append] at tags
      have kept := sound.takes (tags.sublist (List.sublist_append_left _ _)) (.cons one (.nil next))
      obtain ⟨final, later⟩ := ih kept every
        (fun other member => deferred other (List.mem_cons_of_mem _ member)) sorted
      exact ⟨final, .cons one later⟩

end Kept

section Exact
variable {tools : Tools} {all : List OutboundConfig}

theorem contract_of_settled (distinct : (all.map OutboundConfig.tag).Nodup)
    (settles : Constructible tools all → Settled tools all) : Contract tools all := by
  -- Every run that succeeds, in any order, has a sound result over a settled list.
  have reached : ∀ {order : List OutboundConfig} {built : Built}, order.Perm all →
      OutboundManager.new tools order = .ok built → Settled tools order ∧ ∃ done,
        done.Perm order ∧ Sound tools order (persistedChoices tools order) Reserved done built := by
    intro order built same ended
    have tags := (same.map OutboundConfig.tag).nodup_iff.mpr distinct
    obtain ⟨done, every, sound⟩ := new_ok tags ended
    have constructible := (sound.constructible every).perm same distinct
    exact ⟨(settles constructible).perm same distinct, done, every, sound⟩
  constructor
  case succeeds =>
    intro order same
    have tags := (same.map OutboundConfig.tag).nodup_iff.mpr distinct
    constructor
    · rintro ⟨built, ended⟩
      obtain ⟨settled, done, every, sound⟩ := reached same ended
      have wellFormed := sound.wellFormed every settled
      have constructible := wellFormed.constructible.perm same distinct
      exact ⟨constructible.known,
        wellFormed.acyclic.mono (refersTo_perm same distinct).mpr, constructible.methods⟩
    · intro wellFormed
      have constructible := wellFormed.constructible.perm same.symm tags
      exact (new_ok_iff tags).mpr constructible
  case returns =>
    intro order e same
    exact new_returns ((same.map OutboundConfig.tag).nodup_iff.mpr distinct)
  case bound =>
    intro order built same ended oc member
    obtain ⟨settled, done, every, sound⟩ := reached same ended
    obtain ⟨place, ids, node, tabled, here, is_node, refers⟩ :=
      sound.settles every settled (same.symm.subset member)
    exact ⟨place, ids, node, tabled, here, is_node, refers.imp fun _ _ => And.right⟩
  case closed =>
    intro order built same ended node member id reference
    obtain ⟨settled, done, every, sound⟩ := reached same ended
    obtain ⟨place, here⟩ := List.getElem?_of_mem member
    rcases sound.origin here with leaf | ⟨oc, inside, tabled⟩
    · rw [leaf] at reference
      cases reference
    · obtain ⟨its, ids, found, at_its, at_place, is_node, refers⟩ :=
        sound.settles every settled (every.subset inside)
      cases tabled.symm.trans at_its
      cases here.symm.trans at_place
      have referred := (mem_references is_node refers.length_eq.symm).mp reference
      obtain ⟨tag, _, _, target⟩ := forall₂_mem_right refers referred
      obtain ⟨child, at_child, rfl⟩ := sound.bound target
      exact ⟨child, at_child, target⟩
  case tags =>
    intro order built same ended tag
    obtain ⟨settled, done, every, sound⟩ := reached same ended
    constructor
    · intro there
      obtain ⟨id, tabled⟩ := Option.ne_none_iff_exists'.mp there
      rcases sound.own tabled with ⟨oc, member, keyed⟩ | ⟨reserved, _⟩
      · exact .inr ⟨oc, same.subset (every.subset member), keyed⟩
      · exact .inl reserved
    · rintro (reserved | ⟨oc, member, rfl⟩)
      · exact sound.present reserved
      · obtain ⟨place, _, _, tabled, _⟩ :=
          sound.made oc (every.symm.subset (same.symm.subset member))
        rw [tabled]
        exact Option.some_ne_none _
  case implicit =>
    intro order built same ended tag reserved undefined
    obtain ⟨settled, done, every, sound⟩ := reached same ended
    obtain ⟨id, tabled⟩ := Option.ne_none_iff_exists'.mp (sound.present reserved)
    rcases sound.own tabled with ⟨oc, member, keyed⟩ | ⟨_, here⟩
    · exact absurd keyed (undefined oc (same.subset (every.subset member)))
    · exact ⟨id, tabled, here⟩
  case members => exact fun same => refs_perm same distinct

/-- A constructible list has an order in which a given deferred definition of
direct or block is the last node to be made. -/
theorem exists_order_last (distinct : (all.map OutboundConfig.tag).Nodup)
    (constructible : Constructible tools all) {other : OutboundConfig} (member : other ∈ all)
    (deferred : other.deferred = true) (reserved : Reserved other.tag) :
    ∃ order built final done, order.Perm all ∧ OutboundManager.new tools order = .ok final ∧
      done.Perm order ∧ Sound tools order (persistedChoices tools order) Reserved done final ∧
      attempt tools order (persistedChoices tools order) built other = .ok (some final) := by
  obtain ⟨front, back, split⟩ :=
    List.append_of_mem (List.mem_filter.mpr ⟨member, deferred⟩)
  obtain ⟨topo, rest, sorted⟩ :=
    (constructible.acyclic.comap OutboundConfig.tag).exists_order (front ++ back)
  have items : (topo ++ [other]).Perm (all.filter OutboundConfig.deferred) := by
    rw [split]
    exact (List.perm_append_comm.trans (rest.cons other)).trans List.perm_middle.symm
  -- First what needs no other outbound, then the rest in an order without waiting, and this one
  -- last.
  let order := (all.filter fun oc => !oc.deferred) ++ (topo ++ [other])
  have same : order.Perm all := (items.append_left _).trans leaves_deferred_perm
  have all_deferred : ∀ oc ∈ topo ++ [other], oc.deferred = true := fun oc inside =>
    (List.mem_filter.mp (items.subset inside)).2
  have leaves : (order.filter fun oc => !oc.deferred) = all.filter fun oc => !oc.deferred := by
    have none : ((topo ++ [other]).filter fun oc => !oc.deferred) = [] := by
      rw [List.filter_eq_nil_iff]
      intro oc inside
      rw [all_deferred oc inside]
      exact Bool.false_ne_true
    rw [List.filter_append, List.filter_filter, none, List.append_nil]
    simp only [Bool.and_self]
  have waiting : order.filter OutboundConfig.deferred = topo ++ [other] := by
    have none : (all.filter fun oc => !oc.deferred).filter OutboundConfig.deferred = [] := by
      rw [List.filter_filter, List.filter_eq_nil_iff]
      intro oc _
      rw [Bool.and_not_self]
      exact Bool.false_ne_true
    rw [List.filter_append, none, List.nil_append, List.filter_eq_self.mpr all_deferred]
  have tags := (same.map OutboundConfig.tag).nodup_iff.mpr distinct
  have fits := constructible.perm same.symm tags
  rcases new_cases tags with ⟨e, _, ⟨oc, inside, refused⟩, _⟩ | ⟨start, started, resolves⟩
  · exact absurd (fits.methods oc inside) refused
  · rw [waiting] at resolves
    have started : Sound tools order (persistedChoices tools order) Reserved
        (all.filter fun oc => !oc.deferred) start := leaves ▸ started
    have in_order : (topo ++ [other]).Pairwise fun a b => ¬ Waits tools order a.tag b.tag := by
      refine List.pairwise_append.mpr ⟨sorted.imp ?_, List.pairwise_singleton _ _, ?_⟩
      · intro a b none waits
        exact none ⟨(refersTo_perm same distinct).mp waits.1, waits.2⟩
      · rintro a _ b last waits
        rw [List.mem_singleton.mp last] at waits
        exact waits.2 reserved
    obtain ⟨final, taken⟩ :=
      takes_of_sorted fits tags started (.refl _) all_deferred in_order
    obtain ⟨middle, last⟩ := taken.last
    exact ⟨order, middle, final, _, same, resolves.trans (resolve_of_takes taken), .refl _,
      started.takes tags taken, last⟩

/-- In that order a reference to its tag goes to the implicit node. -/
theorem settled_of_bound (distinct : (all.map OutboundConfig.tag).Nodup)
    (bound : ∀ {order : List OutboundConfig} {built : Built}, order.Perm all →
      OutboundManager.new tools order = .ok built → Bound tools order built)
    (constructible : Constructible tools all) : Settled tools all := by
  intro oc member tag refs reserved other inside keyed
  rw [← Bool.not_eq_true]
  intro deferred
  subst keyed
  obtain ⟨order, built, final, done, same, ended, every, sound, last⟩ :=
    exists_order_last distinct constructible inside deferred reserved
  obtain ⟨_, own, stale, _, is_own, _, rfl⟩ := attempt_some last
  have replaced : (built.insert own).table other.tag = some built.nodes.length := by
    rw [← nodeOf_tag is_own]
    exact Function.update_self _ _ _
  obtain ⟨place, ids, node, tabled, here, is_node, targets⟩ :=
    bound same ended oc (same.symm.subset member)
  have refs_in_order := (refs_perm same distinct oc).symm.subset refs
  obtain ⟨child, referred, target⟩ := forall₂_mem_left targets refs_in_order
  have is_last : child = built.nodes.length := Option.some.inj (target.symm.trans replaced)
  -- The node was made before the one that its reference should go to.
  obtain ⟨its, others, found, at_its, at_place, is_found, refers⟩ :=
    sound.made oc (every.symm.subset (same.symm.subset member))
  cases tabled.symm.trans at_its
  cases here.symm.trans at_place
  have reference := (mem_references is_node targets.length_eq.symm).mpr referred
  have its_own := (mem_references is_found refers.length_eq.symm).mp reference
  obtain ⟨_, _, earlier, _⟩ := forall₂_mem_right refers its_own
  have inside := (List.getElem?_eq_some_iff.mp here).1
  have size : (built.insert own).nodes.length = built.nodes.length + 1 := List.length_append
  have inside : place < (built.insert own).nodes.length := inside
  omega

theorem contract_iff_settled (distinct : (all.map OutboundConfig.tag).Nodup) :
    Contract tools all ↔ (Constructible tools all → Settled tools all) :=
  ⟨fun contract => settled_of_bound distinct fun same ended oc member =>
      contract.bound same ended oc (same.subset member),
    contract_of_settled distinct⟩

end Exact

section Samples

def bareTools : Tools where
  regex := fun _ => .error ""
  base64 := fun _ => none
  parseIp := fun _ => none
  persisted := fun _ => none

def grouped : List OutboundConfig :=
  [.block "node", .group ⟨.selector, "auto", ["node", "direct"], none⟩]

theorem contract_grouped : Contract bareTools grouped := by
  refine (contract_iff_settled (by decide)).mpr fun _ => ?_
  intro oc _ tag _ reserved other inside keyed
  subst keyed
  have free : ∀ oc ∈ grouped, ¬ (oc.tag = "direct" ∨ oc.tag = "block") := by decide
  exact absurd reserved (free other inside)

/-- A fallback over a selector that is called direct. -/
def directGroup : List OutboundConfig :=
  [.block "node", .group ⟨.fallback, "auto", ["direct"], none⟩,
    .group ⟨.selector, "direct", ["node"], none⟩]

theorem wellFormed_directGroup : WellFormed bareTools directGroup where
  known := by
    intro oc member tag refs
    rcases List.mem_cons.mp member with rfl | member
    · cases refs
    · rcases List.mem_cons.mp member with rfl | member
      · exact .inl (.inl (List.mem_singleton.mp refs))
      · obtain rfl := List.mem_singleton.mp member
        exact .inr ⟨.block "node", List.mem_cons_self, (List.mem_singleton.mp refs).symm⟩
  acyclic := by
    apply acyclic_of_rank fun tag => if tag = "auto" then 2 else if tag = "direct" then 1 else 0
    rintro source target ⟨oc, member, rfl, refs⟩
    rcases List.mem_cons.mp member with rfl | member
    · cases refs
    · rcases List.mem_cons.mp member with rfl | member
      · obtain rfl := List.mem_singleton.mp refs
        decide
      · obtain rfl := List.mem_singleton.mp member
        obtain rfl := List.mem_singleton.mp refs
        decide
  methods := by
    intro oc member
    rcases List.mem_cons.mp member with rfl | member
    · trivial
    · rcases List.mem_cons.mp member with rfl | member
      · trivial
      · obtain rfl := List.mem_singleton.mp member
        trivial

/-- What comes of it: the implicit nodes, then the two groups. -/
def directGroupBuilt : Built :=
  let choices := persistedChoices bareTools directGroup
  let start := ((Built.empty.insert (.block "node")).insertMissing (.direct "direct")).insertMissing
    (.block "block")
  (start.insertGroup choices ⟨.fallback, "auto", ["direct"], none⟩ [1]).insertGroup choices
    ⟨.selector, "direct", ["node"], none⟩ [0]

theorem directGroup_new : OutboundManager.new bareTools directGroup = .ok directGroupBuilt := by
  let choices := persistedChoices bareTools directGroup
  let start := ((Built.empty.insert (.block "node")).insertMissing (.direct "direct")).insertMissing
    (.block "block")
  have taken : Takes (attempt bareTools directGroup choices) start
      (directGroup.filter OutboundConfig.deferred) directGroupBuilt :=
    .cons rfl (.cons rfl (.nil directGroupBuilt))
  exact resolve_of_takes taken

/-- The fallback goes to the implicit direct, not to the selector. -/
theorem directGroup_replaced :
    (directGroup.map OutboundConfig.tag).Nodup ∧ WellFormed bareTools directGroup ∧
      ∃ built, OutboundManager.new bareTools directGroup = .ok built ∧
        ∃ node ∈ built.nodes, ∃ id ∈ node.references, ∃ child, built.nodes[id]? = some child ∧
          built.table child.tag ≠ some id := by
  refine ⟨by decide, wellFormed_directGroup, directGroupBuilt, directGroup_new, ?_⟩
  exact ⟨.fallback "auto" [1], List.mem_of_getElem? (rfl : directGroupBuilt.nodes[3]? = _), 1,
    List.mem_singleton_self 1, .direct "direct", rfl, by decide⟩

end Samples

end Mirage.Outbound
