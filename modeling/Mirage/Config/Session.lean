import Mirage.Config.Refusals

/-!
An editing session: one operation after the other on the same document, whether it was
refused or not.
-/

namespace Mirage.Config
open Json Assoc Node Edits

section Unique
variable {key missing : String} {value : Value} {fields : Fields} {items : List Value}

theorem mem_setField {field : String × Value} (member : field ∈ setField key value fields) :
    field = (key, value) ∨ field ∈ fields := by
  induction fields with
  | nil => exact .inl (List.mem_singleton.mp member)
  | cons entry rest ih =>
      unfold setField at member
      split at member
      · rcases List.mem_cons.mp member with rfl | later
        · exact .inl rfl
        · exact .inr (List.mem_cons_of_mem _ later)
      · rcases List.mem_cons.mp member with rfl | later
        · exact .inr List.mem_cons_self
        · exact (ih later).imp_right (List.mem_cons_of_mem _)

theorem unique_object (unique : (Value.object fields).Unique) :
    UniqueKeys fields ∧ ∀ field ∈ fields, field.2.Unique := by
  cases unique with
  | object keys each => exact ⟨keys, each⟩

theorem unique_setField (unique : (Value.object fields).Unique) (fine : value.Unique) :
    (Value.object (setField key value fields)).Unique := by
  obtain ⟨keys, each⟩ := unique_object unique
  refine .object (setField_unique keys) fun field member => ?_
  rcases mem_setField member with rfl | inside
  · exact fine
  · exact each field inside

theorem unique_removeField (unique : (Value.object fields).Unique) :
    (Value.object (removeField key fields)).Unique := by
  obtain ⟨keys, each⟩ := unique_object unique
  refine .object (removeField_unique keys) fun field member => each field ?_
  exact (List.mem_filter.mp ((removeField_perm key keys).mem_iff.mp member)).1

theorem unique_items_of_lookup (unique : (Value.object fields).Unique)
    (found : fields.lookup key = some (.array items)) : ∀ item ∈ items, item.Unique := by
  have inside := (unique_object unique).2 _ (mem_of_lookup found)
  cases inside with
  | array each => exact each

def AllUnique (items : List Value) : Prop := ∀ item ∈ items, item.Unique

def UniqueFields (fields : Fields) : Prop := (Value.object fields).Unique

theorem keeps_inArray {edit : Edit (List Value) Unit} (keeps : Keeps AllUnique edit) :
    Keeps Value.Unique (inArray key missing edit) := by
  intro value unique
  cases place : value.getArray key with
  | none =>
      rw [stateAfter, inArray_missing place]
      exact unique
  | some items =>
      obtain ⟨fields, rfl, found⟩ := object_of_getArray place
      rw [stateAfter_mapState (inArray_found found)]
      exact unique_setField unique (.array (keeps items (unique_items_of_lookup unique found)))

theorem keeps_inFirst {wanted : Value → Bool} {edit : Edit Value Unit}
    (keeps : Keeps Value.Unique edit) : Keeps AllUnique (inFirst wanted missing edit) := by
  intro items
  induction items with
  | nil => exact fun fine => fine
  | cons item rest ih =>
      intro fine
      obtain ⟨head, tail⟩ := List.forall_mem_cons.mp fine
      by_cases hit : wanted item = true
      · have ran : inFirst wanted missing edit (item :: rest) = mapState (· :: rest) (edit item) := if_pos hit
        rw [stateAfter_mapState ran]
        exact List.forall_mem_cons.mpr ⟨keeps item head, tail⟩
      · have ran : inFirst wanted missing edit (item :: rest) =
            mapState (item :: ·) (inFirst wanted missing edit rest) := if_neg hit
        rw [stateAfter_mapState ran]
        exact List.forall_mem_cons.mpr ⟨head, ih tail⟩

theorem keeps_inObject {edit : Edit Fields Unit} (keeps : Keeps UniqueFields edit) :
    Keeps Value.Unique (inObject missing edit) := by
  intro value unique
  cases value with
  | object fields =>
      have ran : inObject missing edit (.object fields) = mapState .object (edit fields) := rfl
      rw [stateAfter_mapState ran]
      exact keeps fields unique
  | _ => exact unique

theorem keeps_createArray : Keeps Value.Unique (createArray key) := by
  intro value unique
  have empty : (Value.array []).Unique := .array fun item member => nomatch member
  cases value with
  | null =>
      have nothing : (Value.object []).Unique :=
        .object List.nodup_nil fun field member => nomatch member
      exact unique_setField nothing empty
  | object fields =>
      change (Value.object (if _ then _ else _)).Unique
      split
      · exact unique_setField unique empty
      · exact unique
  | _ => exact unique

end Unique

section Asked
variable {asked : List Asked}

theorem unique_apply {change : Change} {fields : Fields} (unique : UniqueFields fields)
    (fine : ∀ value ∈ change.value, value.Unique) : UniqueFields (change.apply fields) := by
  cases change with
  | put key value => exact unique_setField unique (fine value rfl)
  | drop key => exact unique_removeField unique

theorem unique_applied {changes : List Change} {fields : Fields} (unique : UniqueFields fields)
    (fine : ∀ change ∈ changes, ∀ value ∈ change.value, value.Unique) :
    UniqueFields (applied changes fields) := by
  induction changes generalizing fields with
  | nil => exact unique
  | cons change rest ih =>
      obtain ⟨head, tail⟩ := List.forall_mem_cons.mp fine
      exact ih (unique_apply unique head) tail

theorem keeps_ask {key : String} {given : Asked} (asks : Asks key given) : Keeps UniqueFields (ask given) := by
  match given with
  | none => exact keeps_pure
  | some (.error message) => exact keeps_throw _
  | some (.ok change) => exact keeps_modify fun fields unique => unique_apply unique (asks change rfl).plain

theorem keeps_askAll {keys : List String} (each : AskEach keys asked) :
    Keeps UniqueFields (askAll asked) := by
  induction each with
  | nil => exact keeps_pure
  | cons asks each ih => exact keeps_bind (keeps_ask asks) ih

end Asked

section Kept
variable {tools : EditTools}

theorem keeps_settlePin {transport : String} : Keeps UniqueFields (settlePin tools transport) := by
  unfold settlePin
  apply keeps_ite
  · exact keeps_get fun fields => keeps_ite (keeps_throw _) keeps_pure
  · exact keeps_modify fun fields unique => unique_removeField unique

theorem keeps_reviseOutbound {args : OutboundArgs} : Keeps UniqueFields (reviseOutbound tools args) := by
  have settled : Keeps UniqueFields (settleTransport tools args) := by
    refine keeps_get fun fields => ?_
    exact keeps_bind (keeps_ask asks_transport) (keeps_bind (keeps_ask asks_pin) keeps_settlePin)
  exact keeps_bind (keeps_askAll (addressed_asks args))
    (keeps_bind settled (keeps_askAll (sized_asks args)))

theorem keeps_append {value : Value} (fine : value.Unique) :
    Keeps AllUnique (modify (· ++ [value]) : Edit (List Value) Unit) := by
  refine keeps_modify fun items all => ?_
  intro item member
  rcases List.mem_append.mp member with inside | last
  · exact all item inside
  · rw [List.mem_singleton.mp last]
    exact fine

theorem keeps_addTagToGroup {groupTag targetTag : String} :
    Keeps Value.Unique (addTagToGroup groupTag targetTag) := by
  refine keeps_inArray (keeps_inFirst (keeps_get fun item => ?_))
  refine keeps_ite (keeps_bind (keeps_throw _) ?_) ?_
  all_goals
    refine keeps_bind keeps_createArray (keeps_inArray fun members all => ?_)
    change AllUnique (if _ then members else _)
    split
    · exact all
    · exact keeps_append (.string targetTag) members all

theorem mirageNode_unique {tag : String} {node : NodeUri} : (mirageNode tag node).Unique := by
  refine .object (by unfold UniqueKeys; simp) ?_
  simp only [List.forall_mem_cons, List.not_mem_nil, false_imp_iff, implies_true, and_true]
  exact ⟨.string _, .string _, .string _, .number _, .string _, .string _⟩

theorem keeps_writeNode {tag : String} {node : NodeUri} {group : Option String} :
    Keeps Value.Unique (writeNode node tag group) := by
  refine keeps_bind (keeps_bind keeps_createArray (keeps_inArray (keeps_append mirageNode_unique))) ?_
  cases group with
  | none => exact keeps_pure
  | some grp => exact keeps_addTagToGroup

theorem keeps_add {uri tag : String} {group : Option String} :
    Keeps Value.Unique (addMirageOutboundFromUri uri tag group) := by
  refine keeps_ite (keeps_bind (keeps_throw _) ?_) ?_
  all_goals
    refine keeps_get fun root => keeps_ite (keeps_bind (keeps_throw _) ?_) ?_
    all_goals
      cases NodeUri.parse uri with
      | error e => exact keeps_throw _
      | ok node => exact keeps_writeNode

theorem unique_mapArray {key : String} {change : List Value → List Value} {value : Value}
    (fine : ∀ items, AllUnique items → AllUnique (change items)) (unique : value.Unique) :
    (mapArray key change value).Unique := by
  cases value with
  | object fields =>
      unfold mapArray
      dsimp only
      split
      · rename_i items found
        exact unique_setField unique (.array (fine items (unique_items_of_lookup unique found)))
      · exact unique
  | _ => exact unique

theorem allUnique_filter {items : List Value} (keep : Value → Bool) (all : AllUnique items) :
    AllUnique (items.filter keep) := fun item member => all item (List.mem_filter.mp member).1

theorem keeps_deleteOutbound {tag : String} {autoRemoveFromGroups : Bool} :
    Keeps Value.Unique (deleteOutbound tools tag autoRemoveFromGroups) := by
  have left : ∀ item : Value, item.Unique → (withoutMember tag item).Unique := by
    intro item unique
    unfold withoutMember
    split
    · exact unique_mapArray (fun members => allUnique_filter _) unique
    · exact unique
  have members : ∀ items, AllUnique items → AllUnique (items.map (withoutMember tag)) := by
    intro items all item member
    obtain ⟨old, inside, rfl⟩ := List.mem_map.mp member
    exact left old (all old inside)
  have removed : Keeps Value.Unique (do
      modify (mapArray "outbounds" (·.map (withoutMember tag)))
      modify (mapArray "outbounds" (·.filter (!tagIs tag ·))) : Edit Value Unit) :=
    keeps_bind (keeps_modify fun root => unique_mapArray members)
      (keeps_modify fun root => unique_mapArray fun items => allUnique_filter _)
  exact keeps_get fun root => keeps_ite (keeps_bind (keeps_throw _) removed) removed

theorem plain_changes {keys : List String} {asked : List Asked} (each : AskEach keys asked) :
    ∀ change ∈ changesOf asked, ∀ value ∈ change.value, value.Unique := by
  induction each with
  | nil => exact fun change member => nomatch member
  | @cons key given keys rest asks each ih =>
      match given with
      | none | some (.error message) => exact ih
      | some (.ok change) => exact List.forall_mem_cons.mpr ⟨(asks change rfl).plain, ih⟩

theorem keeps_appendUser {name : String} {user : Value} (unique : user.Unique) :
    Keeps AllUnique (appendUser name user) :=
  keeps_get fun _ => keeps_ite (keeps_bind (keeps_throw _) (keeps_append unique)) (keeps_append unique)

theorem keeps_addInboundUser {inboundTag : String} {args : UserArgs} :
    Keeps Value.Unique (addInboundUser inboundTag args) := by
  have limits : AskEach ["rate_limit_kbps", "quota_gb", "quota_reset_day"] args.limits :=
    .cons (asks_limit positive_unique) <| .cons (asks_limit quota_unique) <|
      .cons (asks_limit day_unique) .nil
  have plain : UniqueFields [("name", .string (trimmed args.name)),
      ("password", .string (trimmed args.password))] := by
    refine .object (by unfold UniqueKeys; simp) ?_
    simp only [List.forall_mem_cons, List.not_mem_nil, false_imp_iff, implies_true, and_true]
    exact ⟨.string _, .string _⟩
  have user := unique_applied plain (plain_changes limits)
  refine keeps_ite (keeps_bind (keeps_throw _) ?_) ?_
  all_goals
    refine keeps_ite (keeps_bind (keeps_throw _) ?_) ?_
    all_goals
      cases refusal args.limits with
      | some message => exact keeps_throw _
      | none =>
          refine keeps_inArray (keeps_inFirst (keeps_bind keeps_createArray ?_))
          exact keeps_inArray (keeps_appendUser user)

end Kept

section Session
variable (tools : EditTools)

theorem keeps_operation (operation : Operation) : Keeps Value.Unique (operation.edit tools) := by
  cases operation with
  | addMirageOutboundFromUri uri tag group => exact keeps_add
  | modifyMirageOutbound tag args =>
      exact keeps_inArray (keeps_inFirst (keeps_inObject keeps_reviseOutbound))
  | addTagToGroup groupTag targetTag => exact keeps_addTagToGroup
  | deleteOutbound tag autoRemoveFromGroups => exact keeps_deleteOutbound
  | modifyMirageServerInbound tag args =>
      exact keeps_inArray (keeps_inFirst (keeps_inObject (keeps_askAll args.asks)))
  | addInboundUser inboundTag args => exact keeps_addInboundUser
  | modifyInboundUser inboundTag username args =>
      exact keeps_inArray (keeps_inFirst (keeps_inArray (keeps_inFirst
        (keeps_inObject (keeps_askAll args.asks)))))

/-- The menu goes on with the document as the operation left it, whatever it returned. -/
def session : List Operation → Value → Value := goOn (Operation.edit tools)

def OrderlyAlong : List Operation → Value → Prop :=
  Along (Operation.edit tools) fun operation root => operation.Orderly tools root

/-- A refused edit leaves the document as it was just where what is written in front of
the refusal was there before; a session of such edits saves only what was accepted. -/
theorem edits_atomic_iff (document : Document) :
    (∀ operation : Operation,
      Atomic (operation.edit tools) document.1 ↔ operation.Orderly tools document.1) ∧
    ∀ operations : List Operation, OrderlyAlong tools operations document.1 →
      session tools operations document.1 =
        acceptedOnly (Operation.edit tools) operations document.1 := by
  constructor
  · exact fun operation => edit_atomic_iff tools operation document
  · intro operations orderly
    have atomic : ∀ operation root, Value.Unique root → Operation.Orderly tools root operation →
        Atomic (operation.edit tools) root := fun operation root unique =>
      (edit_atomic_iff tools operation ⟨root, unique⟩).mpr
    exact goOn_eq_acceptedOnly (keeps_operation tools) atomic document.2 orderly

end Session

/-- The server is new by the time that the port is refused. -/
theorem refused_server_written :
    let node (server : String) : Value := .object [("type", .string "mirage"),
      ("tag", .string "proxy"), ("server", .string server), ("server_port", .number (.posInt 443))]
    let document (server : String) : Value := .object [("outbounds", .array [node server])]
    let args : OutboundArgs :=
      ⟨some "203.0.113.2", some 0, none, none, none, none, none, none, none⟩
    document "203.0.113.2" ≠ document "203.0.113.1" ∧
      ∀ tools, modifyMirageOutbound tools "proxy" args (document "203.0.113.1") =
        .error (.said "server_port 必须在 1-65535 范围内") (document "203.0.113.2") := by
  intro node document args
  constructor
  · intro same
    simp [document, node] at same
  · intro tools
    rfl

end Mirage.Config
