import Mirage.Lib.Notify
import Mirage.Outbound.Graph

/-!
What the construction keeps from one insertion to the next, and what it comes
to: it succeeds exactly when the references that are not to direct or block have
no cycle, and what it made of a definition points to the final table unless the
table's direct or block was replaced on the way.
-/

namespace Mirage.Outbound
open Rounds Dependency Function Programs

section Invariant
variable (tools : Tools) (all : List OutboundConfig) (choices : String → Option String)

/-- A reference made by the node at `place`. It goes to the table's node, or to
an implicit one that a definition replaced. -/
def Refers (built : Built) (done : List OutboundConfig) (place : Nat) (tag : String) (id : Nat) :
    Prop :=
  id < place ∧ (built.table tag = some id ∨
    Reserved tag ∧ ∃ other ∈ done, other.deferred = true ∧ other.tag = tag)

def Made (built : Built) (done : List OutboundConfig) (oc : OutboundConfig) : Prop :=
  ∃ place ids node, built.table oc.tag = some place ∧ built.nodes[place]? = some node ∧
    nodeOf tools choices built oc ids = some node ∧
    List.Forall₂ (Refers built done place) (oc.refs tools all) ids

/-- The definitions in `done` have their nodes, and `implicit` are the tags that
are there anyway. -/
structure Sound (implicit : String → Prop) (done : List OutboundConfig) (built : Built) : Prop where
  bound : ∀ {tag : String} {id : Nat}, built.table tag = some id →
    ∃ node, built.nodes[id]? = some node ∧ node.tag = tag
  own : ∀ {tag : String} {id : Nat}, built.table tag = some id → (∃ oc ∈ done, oc.tag = tag) ∨
    implicit tag ∧ built.nodes[id]? = some (implicitNode tag)
  made : ∀ oc ∈ done, Made tools all choices built done oc
  present : ∀ {tag : String}, implicit tag → built.table tag ≠ none
  origin : ∀ {id : Nat} {node : OutboundNode}, built.nodes[id]? = some node →
    node.references = [] ∨ ∃ oc ∈ done, built.table oc.tag = some id

end Invariant

section Steps
variable {tools : Tools} {all : List OutboundConfig} {choices : String → Option String}
  {implicit wider : String → Prop} {built next : Built} {done later : List OutboundConfig}
  {oc : OutboundConfig} {node : OutboundNode} {ids : List Nat} {stale : List String}

theorem nodes_insert_of_some {id : Nat} {found : OutboundNode}
    (here : built.nodes[id]? = some found) :
    (built.insert node).nodes[id]? = some found :=
  (List.getElem?_append_left (List.getElem?_eq_some_iff.mp here).1).trans here

/-- A node made before stays as it is. A reference to the tag that is inserted
was one to an implicit node. -/
theorem Made.insert (made : Made tools all choices built done oc)
    (inside : ∀ other ∈ done, other ∈ later) (differs : oc.tag ≠ node.tag)
    (replaces : built.table node.tag = none ∨
      Reserved node.tag ∧ ∃ other ∈ later, other.deferred = true ∧ other.tag = node.tag) :
    Made tools all choices { built.insert node with stale } later oc := by
  obtain ⟨place, ids, found, tabled, here, is_node, refers⟩ := made
  have length := (List.getElem?_eq_some_iff.mp here).1
  refine ⟨place, ids, found, ?_, nodes_insert_of_some here, ?_, ?_⟩
  · exact (update_of_ne differs _ _).trans tabled
  · have below : ∀ id ∈ ids, id < built.nodes.length := by
      intro id member
      obtain ⟨tag, _, refer⟩ := forall₂_mem_right refers member
      exact Nat.lt_trans refer.1 length
    exact (nodeOf_append rfl below).trans is_node
  · refine refers.imp ?_
    rintro tag id ⟨earlier, target⟩
    refine ⟨earlier, ?_⟩
    by_cases same : tag = node.tag
    · subst same
      right
      rcases replaces with missing | replaced
      · rcases target with tabled | ⟨reserved, other, member, rest⟩
        · cases missing.symm.trans tabled
        · exact ⟨reserved, other, inside other member, rest⟩
      · exact replaced
    · rcases target with tabled | ⟨reserved, other, member, rest⟩
      · left
        exact (update_of_ne same _ _).trans tabled
      · exact .inr ⟨reserved, other, inside other member, rest⟩

theorem Sound.insert (sound : Sound tools all choices implicit done built)
    (inside : ∀ other ∈ done, other ∈ later) (fresh : ∀ other ∈ done, other.tag ≠ node.tag)
    (replaces : built.table node.tag = none ∨
      Reserved node.tag ∧ ∃ other ∈ later, other.deferred = true ∧ other.tag = node.tag)
    (news : ∀ other ∈ later, other ∈ done ∨
      Made tools all choices { built.insert node with stale } later other)
    (weaker : ∀ tag, implicit tag → wider tag) (only : ∀ tag, wider tag → implicit tag ∨ tag = node.tag)
    (claimed : (∃ other ∈ later, other.tag = node.tag) ∨
      wider node.tag ∧ node = implicitNode node.tag ∧ node.references = []) :
    Sound tools all choices wider later { built.insert node with stale } where
  bound := by
    intro tag id tabled
    dsimp only [Built.insert] at tabled
    by_cases same : tag = node.tag
    · subst same
      rw [update_self] at tabled
      cases tabled
      exact ⟨node, List.getElem?_concat_length, rfl⟩
    · rw [update_of_ne same] at tabled
      obtain ⟨found, here, keyed⟩ := sound.bound tabled
      exact ⟨found, nodes_insert_of_some here, keyed⟩
  own := by
    intro tag id tabled
    dsimp only [Built.insert] at tabled
    by_cases same : tag = node.tag
    · subst same
      rw [update_self] at tabled
      cases tabled
      rcases claimed with defined | ⟨wide, is_implicit, _⟩
      · exact .inl defined
      · refine .inr ⟨wide, ?_⟩
        rw [← is_implicit]
        exact List.getElem?_concat_length
    · rw [update_of_ne same] at tabled
      rcases sound.own tabled with ⟨other, member, keyed⟩ | ⟨reserved, here⟩
      · exact .inl ⟨other, inside other member, keyed⟩
      · exact .inr ⟨weaker tag reserved, nodes_insert_of_some here⟩
  made := by
    intro other member
    rcases news other member with before | made
    · exact (sound.made other before).insert inside (fresh other before) replaces
    · exact made
  present := by
    intro tag wide
    dsimp only [Built.insert]
    by_cases same : tag = node.tag
    · rw [same, update_self]
      exact Option.some_ne_none _
    · rw [update_of_ne same]
      exact sound.present ((only tag wide).resolve_right same)
  origin := by
    intro id found here
    obtain ⟨rfl, rfl⟩ | before := Notify.getElem?_append_one_cases here
    · rcases claimed with ⟨other, member, keyed⟩ | ⟨_, _, leaf⟩
      · right
        refine ⟨other, member, ?_⟩
        rw [keyed]
        exact update_self _ _ _
      · exact .inl leaf
    · rcases sound.origin before with leaf | ⟨other, member, tabled⟩
      · exact .inl leaf
      · exact .inr ⟨other, inside other member, (update_of_ne (fresh other member) _ _).trans tabled⟩

theorem sound_empty : Sound tools all choices (fun _ => False) [] Built.empty where
  bound := fun none => nomatch none
  own := fun none => nomatch none
  made := fun _ none => nomatch none
  present := False.elim
  origin := fun none => nomatch none

/-- A definition is taken whose references are in the table. -/
theorem Sound.take (sound : Sound tools all choices implicit done built)
    (fresh : ∀ other ∈ done, other.tag ≠ oc.tag)
    (targets : List.Forall₂ (fun tag id => built.table tag = some id) (oc.refs tools all) ids)
    (is_node : nodeOf tools choices built oc ids = some node)
    (replaces : built.table oc.tag = none ∨ Reserved oc.tag ∧ oc.deferred = true) :
    Sound tools all choices implicit (done ++ [oc]) { built.insert node with stale } := by
  have keyed := nodeOf_tag is_node
  have last : oc ∈ done ++ [oc] := List.mem_append_right _ (List.mem_singleton_self oc)
  have replaced : built.table node.tag = none ∨ Reserved node.tag ∧
      ∃ other ∈ done ++ [oc], other.deferred = true ∧ other.tag = node.tag := by
    rw [keyed]
    exact replaces.imp_right fun both => ⟨both.1, oc, last, both.2, rfl⟩
  have inside : ∀ other ∈ done, other ∈ done ++ [oc] := fun _ => List.mem_append_left _
  refine sound.insert inside ?_ replaced ?_ (fun _ => id) (fun _ => .inl) (.inl ⟨oc, last, keyed.symm⟩)
  · rw [keyed]
    exact fresh
  · intro other member
    rcases List.mem_append.mp member with before | this
    · exact .inl before
    · rw [List.mem_singleton.mp this]
      have below : ∀ id ∈ ids, id < built.nodes.length := by
        intro id member
        obtain ⟨tag, _, tabled⟩ := forall₂_mem_right targets member
        obtain ⟨found, here, _⟩ := sound.bound tabled
        exact (List.getElem?_eq_some_iff.mp here).1
      refine .inr ⟨built.nodes.length, ids, node, ?_, List.getElem?_concat_length, ?_, ?_⟩
      · rw [← keyed]
        exact update_self _ _ _
      · exact (nodeOf_append rfl below).trans is_node
      · refine targets.imp ?_
        intro tag id tabled
        obtain ⟨found, here, _⟩ := sound.bound tabled
        refine ⟨(List.getElem?_eq_some_iff.mp here).1, ?_⟩
        by_cases same : tag = node.tag
        · -- The definition refers to its own tag, which is direct's or block's.
          subst same
          rcases replaced with missing | replaced
          · cases missing.symm.trans tabled
          · exact .inr replaced
        · left
          exact (update_of_ne same _ _).trans tabled

theorem implicitNode_tag {tag : String} (reserved : Reserved tag) :
    (implicitNode tag).tag = tag ∧ (implicitNode tag).references = [] := by
  rcases reserved with rfl | rfl <;> exact ⟨rfl, rfl⟩

theorem Sound.insertMissing (sound : Sound tools all choices implicit done built) {tag : String}
    (reserved : Reserved tag) :
    Sound tools all choices (fun other => implicit other ∨ other = tag) done
      (built.insertMissing (implicitNode tag)) := by
  obtain ⟨keyed, leaf⟩ := implicitNode_tag reserved
  unfold Built.insertMissing
  rw [keyed]
  split
  case isTrue missing =>
    rw [Option.isNone_iff_eq_none] at missing
    refine sound.insert (fun _ => id) ?_ (.inl (keyed.symm ▸ missing)) (fun _ => .inl)
      (fun _ => .inl) ?_ (.inr ⟨.inr keyed, ?_, leaf⟩)
    · rw [keyed]
      rintro other member rfl
      obtain ⟨place, _, _, tabled, _⟩ := sound.made other member
      cases missing.symm.trans tabled
    · rw [keyed]
      exact fun _ => id
    · rw [keyed]
  case isFalse there =>
    refine ⟨sound.bound, ?_, sound.made, ?_, sound.origin⟩
    · intro other id tabled
      exact (sound.own tabled).imp_right fun both => ⟨.inl both.1, both.2⟩
    · rintro other (before | rfl)
      · exact sound.present before
      · intro missing
        exact there (Option.isNone_iff_eq_none.mpr missing)

theorem fresh_of_nodup {rest : List OutboundConfig}
    (distinct : ((done ++ oc :: rest).map OutboundConfig.tag).Nodup) :
    ∀ other ∈ done, other.tag ≠ oc.tag := by
  rw [List.map_append, List.nodup_append] at distinct
  exact fun other member => distinct.2.2 _ (List.mem_map_of_mem member) _ List.mem_cons_self

theorem passOne_cases {waiting left : List OutboundConfig}
    (one : passOne tools (built, waiting) oc = .ok (next, left)) :
    oc.deferred = true ∧ next = built ∧ left = waiting ++ [oc] ∨
      oc.deferred = false ∧ left = waiting ∧
        ∃ node, nodeOf tools choices built oc [] = some node ∧ next = built.insert node := by
  cases oc with
  | mirage config =>
      simp only [passOne] at one
      split at one
      case isTrue chained =>
        cases one
        exact .inl ⟨chained, rfl, rfl⟩
      case isFalse direct =>
        cases one
        exact .inr ⟨Bool.eq_false_iff.mpr direct, rfl, _, rfl, rfl⟩
  | shadowsocks config =>
      simp only [passOne] at one
      split at one
      case isTrue chained =>
        cases one
        exact .inl ⟨chained, rfl, rfl⟩
      case isFalse direct =>
        split at one
        case h_1 => cases one
        case h_2 node ok =>
          cases one
          refine .inr ⟨Bool.eq_false_iff.mpr direct, rfl, node, ?_, rfl⟩
          simp only [nodeOf, List.head?_nil, ok]
          rfl
  | group config =>
      cases one
      exact .inl ⟨rfl, rfl, rfl⟩
  | wireguard config | direct tag | block tag =>
      cases one
      exact .inr ⟨rfl, rfl, _, rfl, rfl⟩

theorem passOne_refuses {pass : Built × List OutboundConfig} {e : BuildError}
    (failed : passOne tools pass oc = .error e) : ¬ oc.methodParses ∧ e ≠ .unreachable := by
  cases oc with
  | mirage config =>
      simp only [passOne] at failed
      split at failed <;> cases failed
  | shadowsocks config =>
      simp only [passOne] at failed
      split at failed
      case isTrue => cases failed
      case isFalse =>
        split at failed
        case h_2 => cases failed
        case h_1 reason refused =>
          cases failed
          exact buildSs_refuses refused
  | group config | wireguard config | direct tag | block tag => cases failed

theorem Sound.takes {items : List OutboundConfig}
    (sound : Sound tools all choices Reserved done built)
    (distinct : ((done ++ items).map OutboundConfig.tag).Nodup)
    (taken : Takes (attempt tools all choices) built items next) :
    Sound tools all choices Reserved (done ++ items) next := by
  induction taken generalizing done with
  | nil =>
      rw [List.append_nil]
      exact sound
  | @cons built middle final oc rest one _ ih =>
      obtain ⟨ids, node, stale, targets, is_node, deferred, rfl⟩ := attempt_some one
      have fresh := fresh_of_nodup distinct
      have replaces : built.table oc.tag = none ∨ Reserved oc.tag ∧ oc.deferred = true := by
        cases tabled : built.table oc.tag with
        | none => exact .inl rfl
        | some id =>
            rcases sound.own tabled with ⟨other, member, same⟩ | ⟨reserved, _⟩
            · exact absurd same (fresh other member)
            · exact .inr ⟨reserved, deferred⟩
      rw [List.append_cons] at distinct ⊢
      exact ih (sound.take fresh targets is_node replaces) distinct

theorem passOne_ok {items waiting left : List OutboundConfig}
    (sound : Sound tools all choices (fun _ => False) done built)
    (distinct : ((done ++ items).map OutboundConfig.tag).Nodup)
    (ran : items.foldlM (passOne tools) (built, waiting) = .ok (next, left)) :
    Sound tools all choices (fun _ => False) (done ++ items.filter fun oc => !oc.deferred) next ∧
      left = waiting ++ items.filter OutboundConfig.deferred := by
  induction items generalizing built waiting done with
  | nil =>
      cases ran
      rw [List.filter_nil, List.filter_nil, List.append_nil, List.append_nil]
      exact ⟨sound, rfl⟩
  | cons oc rest ih =>
      rw [List.foldlM_cons] at ran
      obtain ⟨⟨middle, waits⟩, one, ran⟩ := bind_eq_ok.mp ran
      rcases passOne_cases one with ⟨deferred, rfl, rfl⟩ | ⟨leaf, rfl, node, is_node, rfl⟩
      · have shorter : ((done ++ rest).map OutboundConfig.tag).Nodup :=
          distinct.sublist ((List.Sublist.append_left (List.sublist_cons_self oc rest) done).map _)
        obtain ⟨kept, rfl⟩ := ih sound shorter ran
        rw [List.filter_cons_of_neg (by rw [deferred]; decide), List.filter_cons_of_pos deferred]
        exact ⟨kept, (List.append_cons _ _ _).symm⟩
      · have fresh := fresh_of_nodup distinct
        have missing : built.table oc.tag = none := by
          cases tabled : built.table oc.tag with
          | none => rfl
          | some id =>
              rcases sound.own tabled with ⟨other, member, same⟩ | ⟨none, _⟩
              · exact absurd same (fresh other member)
              · exact none.elim
        have targets : List.Forall₂ (fun tag id => built.table tag = some id)
            (oc.refs tools all) [] := by
          rw [refs_of_not_deferred leaf]
          exact .nil
        rw [List.append_cons] at distinct
        obtain ⟨kept, rfl⟩ := ih (sound.take fresh targets is_node (.inl missing)) distinct ran
        rw [List.filter_cons_of_pos (by rw [leaf]; rfl),
          List.filter_cons_of_neg (Bool.eq_false_iff.mp leaf), List.append_cons]
        exact ⟨kept, rfl⟩

theorem passOne_error {items waiting : List OutboundConfig} {e : BuildError}
    (failed : items.foldlM (passOne tools) (built, waiting) = .error e) :
    (∃ oc ∈ items, ¬ oc.methodParses) ∧ e ≠ .unreachable := by
  induction items generalizing built waiting with
  | nil => cases failed
  | cons oc rest ih =>
      rw [List.foldlM_cons] at failed
      cases one : passOne tools (built, waiting) oc with
      | error reason =>
          rw [one] at failed
          cases failed
          obtain ⟨refused, reached⟩ := passOne_refuses one
          exact ⟨⟨oc, List.mem_cons_self, refused⟩, reached⟩
      | ok pass =>
          rw [one] at failed
          obtain ⟨⟨other, member, refused⟩, reached⟩ := @ih pass.1 pass.2 failed
          exact ⟨⟨other, List.mem_cons_of_mem _ member, refused⟩, reached⟩

end Steps

section Result
variable {tools : Tools} {all : List OutboundConfig} {built : Built}

theorem leaves_deferred_perm : (all.filter (fun oc => !oc.deferred) ++
    all.filter OutboundConfig.deferred).Perm all :=
  List.perm_append_comm.trans (List.filter_append_perm OutboundConfig.deferred all)

def Started (tools : Tools) (all : List OutboundConfig) (built : Built) : Prop :=
  Sound tools all (persistedChoices tools all) Reserved (all.filter fun oc => !oc.deferred) built

theorem new_cases (distinct : (all.map OutboundConfig.tag).Nodup) :
    (∃ e, OutboundManager.new tools all = .error e ∧ (∃ oc ∈ all, ¬ oc.methodParses) ∧
      e ≠ .unreachable) ∨
    ∃ built, Started tools all built ∧ OutboundManager.new tools all =
      resolve (attempt tools all (persistedChoices tools all)) .unresolved
        (all.filter OutboundConfig.deferred) built := by
  unfold OutboundManager.new
  cases ran : all.foldlM (passOne tools) (Built.empty, []) with
  | error e => exact .inl ⟨e, rfl, passOne_error ran⟩
  | ok pass =>
      obtain ⟨made, waiting⟩ := pass
      have nothing : Sound tools all (persistedChoices tools all) (fun _ => False) [] Built.empty :=
        sound_empty
      obtain ⟨sound, left⟩ := passOne_ok nothing distinct ran
      right
      have direct := sound.insertMissing (.inl rfl)
      have block := direct.insertMissing (.inr rfl)
      have implicit : (fun tag => (False ∨ tag = "direct") ∨ tag = "block") = Reserved := by
        funext tag
        exact propext (or_congr_left (iff_of_eq (false_or _)))
      rw [implicit] at block
      subst left
      exact ⟨_, block, rfl⟩

theorem new_ok (distinct : (all.map OutboundConfig.tag).Nodup)
    (ended : OutboundManager.new tools all = .ok built) :
    ∃ done, done.Perm all ∧ Sound tools all (persistedChoices tools all) Reserved done built := by
  rcases new_cases distinct with ⟨e, failed, _⟩ | ⟨start, started, resolves⟩
  · cases failed.symm.trans ended
  · obtain ⟨order, same, taken⟩ := resolve_ok (resolves.symm.trans ended)
    have every := (same.append_left _).trans leaves_deferred_perm
    exact ⟨_, every, started.takes ((every.map _).nodup_iff.mpr distinct) taken⟩

theorem methodParses_of_nodeOf {choices : String → Option String} {oc : OutboundConfig}
    {ids : List Nat} {node : OutboundNode}
    (is_node : nodeOf tools choices built oc ids = some node) : oc.methodParses := by
  cases oc with
  | shadowsocks config =>
      cases parsed : Method.parse config.method with
      | ok method => exact ⟨method, parsed⟩
      | error e =>
          simp only [nodeOf, buildSs, parsed] at is_node
          cases is_node
  | mirage config | wireguard config | direct tag | block tag | group config => trivial

theorem Sound.constructible {choices : String → Option String} {done : List OutboundConfig}
    (sound : Sound tools all choices Reserved done built) (same : done.Perm all) :
    Constructible tools all where
  known := by
    intro oc member tag target
    obtain ⟨place, ids, node, _, _, _, refers⟩ := sound.made oc (same.symm.subset member)
    obtain ⟨id, _, _, tabled | ⟨reserved, _⟩⟩ := forall₂_mem_left refers target
    · rcases sound.own tabled with ⟨other, inside, keyed⟩ | ⟨reserved, _⟩
      · exact .inr ⟨other, same.subset inside, keyed⟩
      · exact .inl reserved
    · exact .inl reserved
  acyclic := by
    -- A node is made after those it points to.
    apply acyclic_of_rank fun tag => (built.table tag).getD 0
    rintro source target ⟨⟨oc, member, rfl, refs⟩, free⟩
    obtain ⟨place, ids, node, tabled, _, _, refers⟩ := sound.made oc (same.symm.subset member)
    obtain ⟨id, _, earlier, found | ⟨reserved, _⟩⟩ := forall₂_mem_left refers refs
    · rw [tabled, found]
      exact earlier
    · exact absurd reserved free
  methods := by
    intro oc member
    obtain ⟨_, _, _, _, _, is_node, _⟩ := sound.made oc (same.symm.subset member)
    exact methodParses_of_nodeOf is_node

/-- What waits for ever waits in a circle. -/
theorem not_stuck {choices : String → Option String} {done left : List OutboundConfig}
    (constructible : Constructible tools all)
    (sound : Sound tools all choices Reserved done built) (same : (done ++ left).Perm all)
    (some_left : left ≠ [])
    (waits : ∀ oc ∈ left, attempt tools all choices built oc = .ok none) : False := by
  have some_tag : left.map OutboundConfig.tag ≠ [] := fun empty =>
    some_left (List.map_eq_nil_iff.mp empty)
  obtain ⟨tag, member, last⟩ := constructible.acyclic.exists_last some_tag
  obtain ⟨oc, inside, rfl⟩ := List.mem_map.mp member
  have of_all : oc ∈ all := same.subset (List.mem_append_right _ inside)
  obtain ⟨target, refs, missing⟩ := attempt_none (waits oc inside)
  have free : ¬ Reserved target := fun reserved => sound.present reserved missing
  obtain ⟨other, known, keyed⟩ := (constructible.known oc of_all target refs).resolve_left free
  rcases List.mem_append.mp (same.symm.subset known) with made | also_waits
  · obtain ⟨place, _, _, tabled, _⟩ := sound.made other made
    rw [keyed, missing] at tabled
    cases tabled
  · apply last target (keyed ▸ List.mem_map_of_mem also_waits)
    exact .single ⟨⟨oc, of_all, rfl, refs⟩, free⟩

theorem new_ok_iff (distinct : (all.map OutboundConfig.tag).Nodup) :
    (∃ built, OutboundManager.new tools all = .ok built) ↔ Constructible tools all := by
  constructor
  · rintro ⟨built, ended⟩
    obtain ⟨done, same, sound⟩ := new_ok distinct ended
    exact sound.constructible same
  · intro constructible
    rcases new_cases distinct with ⟨e, _, ⟨oc, member, refused⟩, _⟩ | ⟨start, started, resolves⟩
    · exact absurd (constructible.methods oc member) refused
    · rw [resolves]
      cases ended : resolve (attempt tools all (persistedChoices tools all)) .unresolved
          (all.filter OutboundConfig.deferred) start with
      | ok built => exact ⟨built, rfl⟩
      | error e =>
          rcases resolve_error ended with
            ⟨oc, member, middle, failed⟩ | ⟨taken, left, middle, some_left, same, took, _, waits⟩
          · obtain ⟨of_all, deferred⟩ := List.mem_filter.mp member
            exact absurd (constructible.methods oc of_all) (attempt_error deferred failed).1
          · have every := (same.append_left _).trans leaves_deferred_perm
            rw [← List.append_assoc] at every
            have tags := (every.map OutboundConfig.tag).nodup_iff.mpr distinct
            rw [List.map_append] at tags
            have sound := started.takes (tags.sublist (List.sublist_append_left _ _)) took
            exact (not_stuck constructible sound every some_left waits).elim

theorem new_returns (distinct : (all.map OutboundConfig.tag).Nodup) {e : BuildError}
    (ended : OutboundManager.new tools all = .error e) : e ≠ .unreachable := by
  rcases new_cases distinct with ⟨reason, failed, _, reached⟩ | ⟨start, _, resolves⟩
  · cases failed.symm.trans ended
    exact reached
  · rw [resolves] at ended
    rcases resolve_error ended with
      ⟨oc, member, middle, failed⟩ | ⟨taken, left, middle, _, _, _, rfl, _⟩
    · exact (attempt_error (List.mem_filter.mp member).2 failed).2
    · exact fun same => nomatch same

end Result

end Mirage.Outbound
