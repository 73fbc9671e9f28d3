import Mirage.Config.Editing
import Mirage.Config.Soundness

/-!
What a refused edit leaves of the document. Where the parameters are looked at one
by one, those in front of the one that is refused have been written by then.
-/

namespace Mirage.Config
open Json Assoc Node Edits

section Places
variable {key missing : String} {fields : Fields} {value : Value} {items : List Value}

theorem getArray_object : (Value.object fields).getArray key = some items ↔
    fields.lookup key = some (.array items) := by
  change (fields.lookup key).bind Value.asArray = some items ↔ _
  constructor
  · intro found
    obtain ⟨field, there, array⟩ := Option.bind_eq_some_iff.mp found
    cases field with
    | array others =>
        cases array
        exact there
    | _ => cases array
  · intro found
    rw [found]
    rfl

theorem inArray_missing {edit : Edit (List Value) Unit} (none : value.getArray key = none) :
    inArray key missing edit value = .error (.said missing) value := by
  cases value with
  | object fields =>
      unfold inArray
      dsimp only
      split
      · rename_i items found
        cases none.symm.trans (getArray_object.mpr found)
      · rfl
  | _ => rfl

theorem inArray_found {edit : Edit (List Value) Unit} (found : fields.lookup key = some (.array items)) :
    inArray key missing edit (.object fields) =
      mapState (fun items => .object (setField key (.array items) fields)) (edit items) := by
  unfold inArray
  dsimp only
  rw [found]

/-- The object that an array was found in. -/
theorem object_of_getArray (found : value.getArray key = some items) :
    ∃ fields, value = .object fields ∧ fields.lookup key = some (.array items) := by
  cases value with
  | object fields => exact ⟨fields, rfl, getArray_object.mp found⟩
  | _ => cases found

theorem atomic_inArray {edit : Edit (List Value) Unit} :
    Atomic (inArray key missing edit) value ↔
      ∀ items, value.getArray key = some items → Atomic edit items := by
  cases place : value.getArray key with
  | none =>
      exact iff_of_true (atomic_of_same _ (inArray_missing place)) fun items found => nomatch found
  | some items =>
      obtain ⟨fields, rfl, found⟩ := object_of_getArray place
      have exact : ∀ other, Value.object (setField key (.array other) fields) = .object fields ↔
          other = items := by
        intro other
        rw [Value.object.injEq, setField_eq_self_iff, found, Option.some.injEq, Value.array.injEq,
          eq_comm]
      rw [Atomic, inArray_found found, mapState_leaves exact edit]
      constructor
      · intro atomic other same
        cases same
        exact atomic
      · exact fun atomic => atomic items rfl

theorem succeeds_inArray {edit : Edit (List Value) Unit} :
    Succeeds (inArray key missing edit) value ↔
      ∃ items, value.getArray key = some items ∧ Succeeds edit items := by
  cases place : value.getArray key with
  | none =>
      apply iff_of_false
      · rintro ⟨left, ran⟩
        cases (inArray_missing place).symm.trans ran
      · rintro ⟨items, found, _⟩
        cases found
  | some items =>
      obtain ⟨fields, rfl, found⟩ := object_of_getArray place
      rw [Succeeds, inArray_found found, mapState_succeeds edit]
      constructor
      · exact fun succeeds => ⟨items, rfl, succeeds⟩
      · rintro ⟨_, same, succeeds⟩
        cases same
        exact succeeds

section First
variable {wanted : Value → Bool} {edit : Edit Value Unit}

theorem atomic_inFirst : Atomic (inFirst wanted missing edit) items ↔
    ∀ item, items.find? wanted = some item → Atomic edit item := by
  induction items with
  | nil => exact iff_of_true (atomic_of_same _ rfl) fun item found => nomatch found
  | cons item rest ih =>
      rw [Atomic]
      unfold inFirst
      cases hit : wanted item with
      | true =>
          rw [List.find?_cons_of_pos hit, if_pos rfl,
            mapState_leaves (fun other => List.cons_eq_cons.trans (and_iff_left rfl)) edit]
          exact ⟨fun atomic other same => Option.some.inj same ▸ atomic, fun all => all item rfl⟩
      | false =>
          rw [List.find?_cons_of_neg (by rw [hit]; exact Bool.false_ne_true),
            if_neg Bool.false_ne_true,
            mapState_leaves (fun other => List.cons_eq_cons.trans (and_iff_right rfl)) _, ih]

theorem succeeds_inFirst : Succeeds (inFirst wanted missing edit) items ↔
    ∃ item, items.find? wanted = some item ∧ Succeeds edit item := by
  induction items with
  | nil =>
      apply iff_of_false
      · rintro ⟨left, ran⟩
        cases ran
      · rintro ⟨item, found, _⟩
        cases found
  | cons item rest ih =>
      rw [Succeeds]
      unfold inFirst
      cases hit : wanted item with
      | true =>
          rw [List.find?_cons_of_pos hit, if_pos rfl, mapState_succeeds edit]
          constructor
          · exact fun succeeds => ⟨item, rfl, succeeds⟩
          · rintro ⟨_, same, succeeds⟩
            cases same
            exact succeeds
      | false =>
          rw [List.find?_cons_of_neg (by rw [hit]; exact Bool.false_ne_true),
            if_neg Bool.false_ne_true, mapState_succeeds _, ih]

end First

theorem atomic_inObject {edit : Edit Fields Unit} :
    Atomic (inObject missing edit) value ↔
      ∀ fields, value = .object fields → Atomic edit fields := by
  cases value with
  | object fields =>
      rw [Atomic]
      unfold inObject
      rw [mapState_leaves (fun other => Value.object.injEq other fields ▸ Iff.rfl) edit]
      constructor
      · intro atomic other same
        cases same
        exact atomic
      · exact fun atomic => atomic fields rfl
  | _ => exact iff_of_true (atomic_of_same _ rfl) fun fields same => nomatch same

end Places

section Parameters
variable {asked front back : List Asked} {fields : Fields} {message : String}

/-- No parameter is refused. -/
def Accepted (asked : List Asked) : Prop := ∀ message, some (.error message) ∉ asked

/-- In front of the first parameter that is refused, none asks for more than is there. -/
def Timid (asked : List Asked) (fields : Fields) : Prop :=
  ∀ front message back, asked = front ++ some (.error message) :: back → Accepted front →
    ∀ change ∈ changesOf front, change.Idle fields

theorem accepted_or_refused (asked : List Asked) :
    Accepted asked ∨
      ∃ front message back, asked = front ++ some (.error message) :: back ∧ Accepted front := by
  induction asked with
  | nil => exact .inl fun message member => nomatch member
  | cons given rest ih =>
      match given with
      | some (.error message) =>
          exact .inr ⟨[], message, rest, rfl, fun message member => nomatch member⟩
      | none | some (.ok change) =>
          rcases ih with accepted | ⟨front, message, back, rfl, accepted⟩
          · refine .inl fun message member => ?_
            cases member with
            | tail _ later => exact accepted message later
          · refine .inr ⟨_ :: front, message, back, rfl, fun message member => ?_⟩
            cases member with
            | tail _ later => exact accepted message later

theorem askAll_refused (accepted : Accepted front) :
    askAll (front ++ some (.error message) :: back) fields =
      .error (.said message) (applied (changesOf front) fields) := by
  induction front generalizing fields with
  | nil => rfl
  | cons given rest ih =>
      have later : Accepted rest := fun message member =>
        accepted message (List.mem_cons_of_mem _ member)
      match given with
      | some (.error message) => exact absurd List.mem_cons_self (accepted message)
      | none => exact ih later
      | some (.ok change) => exact @ih (change.apply fields) later

theorem askAll_accepted (fields : Fields) (accepted : Accepted asked) :
    askAll asked fields = .ok () (applied (changesOf asked) fields) := by
  induction asked generalizing fields with
  | nil => rfl
  | cons given rest ih =>
      have later : Accepted rest := fun message member =>
        accepted message (List.mem_cons_of_mem _ member)
      match given with
      | some (.error message) => exact absurd List.mem_cons_self (accepted message)
      | none => exact ih fields later
      | some (.ok change) => exact ih (change.apply fields) later

theorem askAll_append : askAll (front ++ back) = (do askAll front; askAll back) :=
  List.forM_append

def askedKeys (asked : List Asked) : List String := (changesOf asked).map Change.key

theorem askedKeys_append : askedKeys (front ++ back) = askedKeys front ++ askedKeys back := by
  rw [askedKeys, changesOf, List.filterMap_append, List.map_append]
  rfl

/-- What is written in front of a refusal leaves no trace just where it was there before. -/
theorem applied_front_iff (distinct : (askedKeys (front ++ back)).Nodup) (unique : UniqueKeys fields) :
    applied (changesOf front) fields = fields ↔
      ∀ change ∈ changesOf front, change.Idle fields := by
  rw [askedKeys_append] at distinct
  exact applied_eq_self_iff unique (List.nodup_append.mp distinct).1

/-- A change of the field of this name, to a value in which no object has a key twice. -/
structure Sets (key : String) (change : Change) : Prop where
  named : change.key = key
  plain : ∀ value ∈ change.value, value.Unique

def Asks (key : String) (given : Asked) : Prop := ∀ change, given = some (.ok change) → Sets key change

/-- Each parameter asks for a field of its own. -/
abbrev AskEach (keys : List String) (asked : List Asked) : Prop := List.Forall₂ Asks keys asked

theorem AskEach.keys_sublist {keys : List String} (each : AskEach keys asked) :
    (askedKeys asked).Sublist keys := by
  induction each with
  | nil => exact .slnil
  | @cons key given keys rest asks each ih =>
      match given with
      | none | some (.error message) => exact ih.cons key
      | some (.ok change) =>
          change (change.key :: askedKeys rest).Sublist (key :: keys)
          rw [(asks change rfl).named]
          exact ih.cons_cons key

section Asks
variable {key message : String}

theorem sets_put {value : Value} (plain : value.Unique) : Sets key (.put key value) where
  named := rfl
  plain := by
    rintro _ ⟨⟩
    exact plain

theorem sets_drop : Sets key (.drop key) where
  named := rfl
  plain := by rintro _ ⟨⟩

theorem asks_map {Given : Type} {convert : Given → Except String Change} {given : Option Given}
    (each : ∀ taken change, convert taken = .ok change → Sets key change) :
    Asks key (given.map convert) := by
  intro change asked
  obtain ⟨taken, _, same⟩ := Option.map_eq_some_iff.mp asked
  exact each taken change same

theorem asks_text {given : Option String} : Asks key (askText key message given) := by
  refine asks_map fun text change same => ?_
  split at same
  · cases same
  · cases same
    exact sets_put (.string _)

theorem asks_port {given : Option UInt16} : Asks key (askPort key message given) := by
  refine asks_map fun port change same => ?_
  split at same
  · cases same
  · cases same
    exact sets_put (.number _)

theorem asks_flag {given : Option Bool} : Asks key (askFlag key given) := by
  refine asks_map fun flag change same => ?_
  cases same
  exact sets_put (.bool _)

theorem asks_limit {Limit : Type} {accept : Limit → Option Value} {given : Option (Option Limit)}
    (plain : ∀ limit value, accept limit = some value → value.Unique) :
    Asks key (askLimit key message accept given) := by
  refine asks_map fun limit change same => ?_
  split at same
  · cases same
    exact sets_drop
  · split at same
    · cases same
    · rename_i accepted
      cases same
      exact sets_put (plain _ _ accepted)

theorem positive_unique (n : UInt64) (value : Value) (accepted : positive n = some value) :
    value.Unique := by
  unfold positive at accepted
  split at accepted
  · cases accepted
  · cases accepted
    exact .number _

theorem quota_unique (quota : F64) (value : Value) (accepted : validQuota quota = some value) :
    value.Unique := by
  unfold validQuota at accepted
  split at accepted
  · cases accepted
    exact .number _
  · cases accepted

theorem day_unique (day : UInt8) (value : Value) (accepted : dayOfMonth day = some value) :
    value.Unique := by
  unfold dayOfMonth at accepted
  split at accepted
  · cases accepted
    exact .number _
  · cases accepted

end Asks

theorem AskEach.atomic_iff {keys : List String} (each : AskEach keys asked) (distinct : keys.Nodup)
    (unique : UniqueKeys fields) : Atomic (askAll asked) fields ↔ Timid asked fields := by
  have distinct := distinct.sublist each.keys_sublist
  constructor
  · rintro atomic front message back rfl accepted
    exact (applied_front_iff distinct unique).mp (atomic _ _ (askAll_refused accepted))
  · intro timid
    rcases accepted_or_refused asked with accepted | ⟨front, message, back, rfl, accepted⟩
    · exact Succeeds.atomic ⟨_, askAll_accepted fields accepted⟩
    · intro reason left failed
      cases (askAll_refused accepted).symm.trans failed
      exact (applied_front_iff distinct unique).mpr (timid front message back rfl accepted)

theorem InboundArgs.asks (args : InboundArgs) : AskEach ["port", "password", "camouflage_host",
    "brutal_rate_mbps", "pfs", "allow_local_targets"] args.asked :=
  .cons asks_port <| .cons asks_text <| .cons asks_text <| .cons (asks_limit positive_unique) <|
    .cons asks_flag <| .cons asks_flag .nil

theorem UserChanges.asks (args : UserChanges) :
    AskEach ["password", "rate_limit_kbps", "quota_gb", "quota_reset_day"] args.asked :=
  .cons asks_text <| .cons (asks_limit positive_unique) <| .cons (asks_limit quota_unique) <|
    .cons (asks_limit day_unique) .nil

end Parameters

section Outbounds
variable (tools : EditTools) (args : OutboundArgs) (fields : Fields)

def OutboundArgs.finalTransport : String :=
  (args.transport.map (normalTransport tools)).getD
    (((fields.lookup "transport").bind Value.asStr).getD "tcp")

/-- With no QUIC the pin goes, whatever is given for it. -/
def OutboundArgs.askedPin : Asked :=
  if args.finalTransport tools fields = "quic" then askPin tools args.quicPin
  else
    match askPin tools args.quicPin with
    | some (.error message) => some (.error message)
    | _ => some (.ok (.drop "quic_pin"))

def OutboundArgs.finalPin : String :=
  (args.quicPin.map trimmed).getD (((fields.lookup "quic_pin").bind Value.asStr).getD "")

def pinMessage : String := "transport 为 quic 时必须提供合法的 43 位 base64url quic_pin"

/-- QUIC is refused without a pin. -/
def OutboundArgs.missingPin : Asked :=
  if args.finalTransport tools fields = "quic" ∧ !isValidQuicPin tools (args.finalPin fields) then
    some (.error pinMessage)
  else none

/-- What `modify_mirage_outbound` is asked for, one after the other. -/
def OutboundArgs.asked : List Asked :=
  args.addressed ++ [askTransport tools args.transport, args.askedPin tools fields,
    args.missingPin tools fields] ++ args.sized

variable {tools args fields}

theorem asks_transport {given : Option String} : Asks "transport" (askTransport tools given) := by
  refine asks_map fun transport change same => ?_
  dsimp only at same
  split at same
  · cases same
  · cases same
    exact sets_put (.string _)

theorem asks_pin {given : Option String} : Asks "quic_pin" (askPin tools given) := by
  refine asks_map fun pin change same => ?_
  dsimp only at same
  split at same
  · cases same
    exact sets_drop
  · split at same
    · cases same
    · cases same
      exact sets_put (.string _)

theorem asks_askedPin : Asks "quic_pin" (args.askedPin tools fields) := by
  intro change asked
  unfold OutboundArgs.askedPin at asked
  split at asked
  · exact asks_pin change asked
  · split at asked
    · cases asked
    · cases asked
      exact sets_drop

theorem asks_missingPin : Asks "" (args.missingPin tools fields) := by
  intro change asked
  unfold OutboundArgs.missingPin at asked
  split at asked
  · cases asked
  · cases asked

theorem addressed_asks (args : OutboundArgs) : AskEach ["server", "server_port", "password",
    "camouflage_host", "pfs"] args.addressed :=
  .cons asks_text <| .cons asks_port <| .cons asks_text <| .cons asks_text <| .cons asks_flag .nil

theorem sized_asks (args : OutboundArgs) : AskEach ["pool_size", "brutal_rate_mbps"] args.sized :=
  .cons (asks_limit positive_unique) <| .cons (asks_limit positive_unique) .nil

/-- What only refuses may stand for any field. -/
theorem OutboundArgs.asks : AskEach (["server", "server_port", "password", "camouflage_host",
    "pfs"] ++ ["transport", "quic_pin", ""] ++ ["pool_size", "brutal_rate_mbps"])
    (args.asked tools fields) := by
  have settled : AskEach ["transport", "quic_pin", ""] [askTransport tools args.transport,
      args.askedPin tools fields, args.missingPin tools fields] :=
    .cons asks_transport <| .cons asks_askedPin <| .cons asks_missingPin .nil
  exact List.rel_append (List.rel_append (addressed_asks args) settled) (sized_asks args)

section Pin
variable {written : Fields}

/-- The pin that `settlePin` finds once the given one is written. -/
theorem pin_written {change : Change} (unique : UniqueKeys written)
    (asked : askPin tools args.quicPin = some (.ok change)) :
    (((change.apply written).lookup "quic_pin").bind Value.asStr).getD "" = args.finalPin fields := by
  obtain ⟨pin, given, same⟩ := Option.map_eq_some_iff.mp asked
  rw [Change.lookup_apply unique, (asks_pin change asked).named,
    if_pos rfl, OutboundArgs.finalPin, given]
  dsimp only at same
  split at same
  · rename_i empty
    cases same
    exact empty.symm
  · split at same
    · cases same
    · cases same
      rfl

theorem pin_removed {change : Change} (unique : UniqueKeys written) (named : change.key = "quic_pin") :
    removeField "quic_pin" (change.apply written) = removeField "quic_pin" written := by
  cases change with
  | put key value =>
      cases named
      exact removeField_setField
  | drop key =>
      cases named
      exact removeField_of_missing ((lookup_removeField unique).trans (if_pos rfl))

theorem settlePin_quic {state : Fields} (quic : args.finalTransport tools fields = "quic")
    (pin : ((state.lookup "quic_pin").bind Value.asStr).getD "" = args.finalPin fields) :
    settlePin tools (args.finalTransport tools fields) state =
      ask (args.missingPin tools fields) state := by
  unfold settlePin OutboundArgs.missingPin
  rw [if_pos quic, ← pin]
  change (if _ then _ else _ : Edit Fields Unit) state = _
  cases valid : isValidQuicPin tools (((state.lookup "quic_pin").bind Value.asStr).getD "") with
  | true =>
      rw [if_neg (by decide), if_neg (by simp)]
      rfl
  | false =>
      rw [if_pos (by decide), if_pos ⟨quic, rfl⟩]
      rfl

theorem askAll_pair (first second : Asked) :
    askAll [first, second] = (do ask first; ask second) := by
  change (do ask first; ask second; pure ()) = _
  rw [bind_pure_unit]

/-- Both looks at the pin, as two parameters. -/
theorem pin_step (unique : UniqueKeys written)
    (stored : written.lookup "quic_pin" = fields.lookup "quic_pin") :
    (do ask (askPin tools args.quicPin); settlePin tools (args.finalTransport tools fields)) written =
      askAll [args.askedPin tools fields, args.missingPin tools fields] written := by
  rw [askAll_pair]
  have given : args.quicPin = none ∨ ∃ asked, askPin tools args.quicPin = some asked := by
    cases args.quicPin with
    | none => exact .inl rfl
    | some pin => exact .inr ⟨_, rfl⟩
  by_cases quic : args.finalTransport tools fields = "quic"
  · have pins : args.askedPin tools fields = askPin tools args.quicPin := if_pos quic
    rw [pins]
    rcases given with none | ⟨⟨message⟩ | ⟨change⟩, asked⟩
    · have kept : ((written.lookup "quic_pin").bind Value.asStr).getD "" = args.finalPin fields := by
        rw [stored, OutboundArgs.finalPin, none]
        rfl
      rw [none]
      change settlePin tools _ written = _
      exact settlePin_quic quic kept
    · rw [asked]
      rfl
    · rw [asked]
      exact settlePin_quic quic (pin_written unique asked)
  · have missing : args.missingPin tools fields = none := if_neg fun both => quic both.1
    have removes : settlePin tools (args.finalTransport tools fields) =
        modify (removeField "quic_pin") := if_neg quic
    rw [missing, removes, OutboundArgs.askedPin, if_neg quic]
    rcases given with none | ⟨⟨message⟩ | ⟨change⟩, asked⟩
    · rw [none]
      rfl
    · rw [asked]
      rfl
    · rw [asked]
      exact congrArg (EStateM.Result.ok ()) (pin_removed unique (asks_pin change asked).named)

end Pin

/-- The transport and the pin are those of the document as it was. -/
theorem settleTransport_eq {written : Fields} (unique : UniqueKeys written)
    (stored : ∀ key ∈ ["transport", "quic_pin"], written.lookup key = fields.lookup key) :
    settleTransport tools args written = askAll [askTransport tools args.transport,
      args.askedPin tools fields, args.missingPin tools fields] written := by
  have final : (args.transport.map (normalTransport tools)).getD
      (((written.lookup "transport").bind Value.asStr).getD "tcp") =
      args.finalTransport tools fields := by
    rw [stored "transport" (by simp), OutboundArgs.finalTransport]
  change (do
    ask (askTransport tools args.transport)
    ask (askPin tools args.quicPin)
    settlePin tools ((args.transport.map (normalTransport tools)).getD
      (((written.lookup "transport").bind Value.asStr).getD "tcp")) : Edit Fields Unit) written = (do
    ask (askTransport tools args.transport)
    askAll [args.askedPin tools fields, args.missingPin tools fields]) written
  rw [final]
  match asked : askTransport tools args.transport with
  | none => exact pin_step unique (stored _ (by simp))
  | some (.error message) => rfl
  | some (.ok change) =>
      apply pin_step (change.apply_unique unique)
      rw [Change.lookup_apply unique, (asks_transport change asked).named, if_neg (by decide)]
      exact stored _ (by simp)

/-- The operation looks at its parameters one by one. -/
theorem revise_eq (unique : UniqueKeys fields) :
    reviseOutbound tools args fields = askAll (args.asked tools fields) fields := by
  rw [OutboundArgs.asked, List.append_assoc, askAll_append, askAll_append]
  rcases accepted_or_refused args.addressed with accepted | ⟨front, message, back, split, accepted⟩
  · have ran := askAll_accepted fields accepted
    rw [reviseOutbound, bind_ok ran, bind_ok ran]
    apply bind_congr_run
    apply settleTransport_eq (applied_unique _ unique)
    intro key other
    apply lookup_applied_of_missing unique
    intro member
    have inside := (addressed_asks args).keys_sublist.subset member
    revert other inside
    simp only [List.mem_cons, List.not_mem_nil, or_false]
    rintro (rfl | rfl) <;> decide
  · have failed : askAll args.addressed fields = _ := split ▸ askAll_refused accepted
    rw [reviseOutbound, bind_error failed, bind_error failed]

end Outbounds

section Arrays
variable {key missing : String} {value : Value} {edit : Edit (List Value) Unit}

/-- An array, or room for one. -/
def Extensible (key : String) : Value → Prop
  | .null => True
  | .object fields => ∀ value, fields.lookup key = some value → ∃ items, value = .array items
  | _ => False

def itemsAt (key : String) (value : Value) : List Value := (value.getArray key).getD []

theorem getArray_setField (fields : Fields) {items : List Value} :
    (Value.object (setField key (.array items) fields)).getArray key = some items :=
  getArray_object.mpr lookup_setField_self

theorem createArray_missing {fields : Fields} (missing : fields.lookup key = none) :
    createArray key (.object fields) = .ok () (.object (setField key (.array []) fields)) := by
  unfold createArray
  dsimp only
  rw [if_pos missing]

theorem createArray_kept {fields : Fields} {field : Value} (found : fields.lookup key = some field) :
    createArray key (.object fields) = .ok () (.object fields) := by
  unfold createArray
  dsimp only
  rw [if_neg (by rw [found]; exact Option.some_ne_none _)]

theorem created (extensible : Extensible key value) :
    ∃ whole, createArray key value = .ok () whole ∧ whole.getArray key = some (itemsAt key value) ∧
      (value.getArray key ≠ none → whole = value) := by
  cases value with
  | null => exact ⟨_, rfl, getArray_setField [], fun there => absurd rfl there⟩
  | object fields =>
      cases found : fields.lookup key with
      | none =>
          have nothing : (Value.object fields).getArray key = none := by
            change (fields.lookup key).bind Value.asArray = none
            rw [found]
            rfl
          refine ⟨_, createArray_missing found, ?_, fun there => absurd nothing there⟩
          rw [itemsAt, nothing]
          exact getArray_setField _
      | some field =>
          obtain ⟨items, rfl⟩ := extensible field found
          have there := getArray_object.mpr found
          refine ⟨_, createArray_kept found, ?_, fun _ => rfl⟩
          rw [itemsAt, there]
          rfl
  | _ => exact extensible.elim

theorem inArray_refused (missing : String) (edit : Edit (List Value) Unit)
    (rigid : ¬ Extensible key value) :
    ∃ error, (do createArray key; inArray key missing edit) value = .error error value := by
  cases value with
  | null => exact absurd trivial rigid
  | object fields =>
      obtain ⟨field, found, other⟩ : ∃ field, fields.lookup key = some field ∧
          ∀ items, field ≠ .array items := by
        unfold Extensible at rigid
        push Not at rigid
        exact rigid
      refine ⟨.said missing, (bind_ok (createArray_kept found)).trans (inArray_missing ?_)⟩
      change (fields.lookup key).bind Value.asArray = none
      rw [found]
      cases field with
      | array items => exact absurd rfl (other items)
      | _ => rfl
  | _ => exact ⟨.panicked, rfl⟩

theorem succeeds_created :
    Succeeds (do createArray key; inArray key missing edit) value ↔
      Extensible key value ∧ Succeeds edit (itemsAt key value) := by
  by_cases extensible : Extensible key value
  · obtain ⟨whole, ran, items, _⟩ := created extensible
    rw [Succeeds, bind_ok ran, and_iff_right extensible]
    refine succeeds_inArray.trans ?_
    rw [items]
    constructor
    · rintro ⟨_, same, succeeds⟩
      cases same
      exact succeeds
    · exact fun succeeds => ⟨_, rfl, succeeds⟩
  · obtain ⟨error, refused⟩ := inArray_refused missing edit extensible
    apply iff_of_false
    · rintro ⟨left, ran⟩
      cases refused.symm.trans ran
    · exact fun both => extensible both.1

/-- The new array is empty, so that what cannot fail there leaves no trace of it. -/
theorem atomic_created (empty : Succeeds edit []) (each : ∀ items, Atomic edit items) :
    Atomic (do createArray key; inArray key missing edit) value := by
  by_cases extensible : Extensible key value
  · cases place : value.getArray key with
    | none =>
        apply Succeeds.atomic
        apply succeeds_created.mpr
        rw [itemsAt, place]
        exact ⟨extensible, empty⟩
    | some items =>
        obtain ⟨whole, ran, _, kept⟩ := created extensible
        cases kept (by rw [place]; exact Option.some_ne_none _)
        rw [Atomic, bind_ok ran]
        exact atomic_inArray.mpr fun items _ => each items
  · obtain ⟨error, refused⟩ := inArray_refused missing edit extensible
    exact atomic_of_same error refused

end Arrays

section Groups
variable {root : Value} {tag groupTag targetTag : String}

/-- The group is there, is a group and can take another member. -/
def Joins (groupTag : String) (items : List Value) : Prop :=
  ∃ item, items.find? (tagIs groupTag) = some item ∧ isGroupType (typeOf item) = true ∧
    Extensible "outbounds" item

theorem joinGroup_refused (groupTag targetTag : String) {item : Value}
    (other : isGroupType (typeOf item) = false) :
    ∃ error, joinGroup groupTag targetTag item = .error error item := by
  refine ⟨.said s!"出站 `{groupTag}` 类型为 `{typeOf item}`, 不是出站组", ?_⟩
  change (if _ then _ else _ : Edit Value Unit) item = _
  rw [if_pos (by rw [other]; rfl)]
  rfl

theorem joinGroup_eq {item : Value} (group : isGroupType (typeOf item) = true) :
    joinGroup groupTag targetTag item = (do
      createArray "outbounds"
      inArray "outbounds" "组成员 outbounds 必须为数组" <| modify fun members =>
        if members.any fun m => m.asStr == some targetTag then members
        else members ++ [.string targetTag] : Edit Value Unit) item := by
  change (if _ then _ else _ : Edit Value Unit) item = _
  rw [if_neg (by rw [group]; decide)]

theorem addTagToGroup_atomic : Atomic (addTagToGroup groupTag targetTag) root := by
  unfold addTagToGroup
  refine atomic_inArray.mpr fun items _ => atomic_inFirst.mpr fun item _ => ?_
  cases group : isGroupType (typeOf item) with
  | false =>
      obtain ⟨error, refused⟩ := joinGroup_refused groupTag targetTag group
      exact atomic_of_same error refused
  | true =>
      rw [Atomic, joinGroup_eq group]
      exact atomic_created (succeeds_modify _ _) fun items => (succeeds_modify _ items).atomic

theorem addTagToGroup_succeeds {items : List Value} (found : root.getArray "outbounds" = some items) :
    Succeeds (addTagToGroup groupTag targetTag) root ↔ Joins groupTag items := by
  rw [addTagToGroup, succeeds_inArray, found]
  simp only [Option.some.injEq, exists_eq_left', succeeds_inFirst, Joins]
  refine exists_congr fun item => and_congr_right fun _ => ?_
  cases group : isGroupType (typeOf item) with
  | false =>
      obtain ⟨error, refused⟩ := joinGroup_refused groupTag targetTag group
      apply iff_of_false
      · rintro ⟨left, ran⟩
        cases refused.symm.trans ran
      · exact fun both => Bool.false_ne_true both.1
  | true =>
      rw [Succeeds, joinGroup_eq group, and_iff_right rfl]
      exact succeeds_created.trans (and_iff_left (succeeds_modify _ _))

/-- The node can be written down. -/
structure Writable (uri tag : String) (root : Value) : Prop where
  named : trimmed tag ≠ ""
  fresh : (tags (outboundsOf root)).contains (trimmed tag) = false
  parsed : ∃ node, NodeUri.parse uri = .ok node
  room : Extensible "outbounds" root

theorem mirageNode_not_joined {node : NodeUri} {items : List Value} :
    Joins groupTag (items ++ [mirageNode tag node]) ↔ Joins groupTag items := by
  constructor
  · rintro ⟨item, found, group, room⟩
    refine ⟨item, ?_, group, room⟩
    rw [List.find?_append] at found
    cases inside : items.find? (tagIs groupTag) with
    | some first =>
        rw [inside] at found
        exact found
    | none =>
        rw [inside, Option.none_or] at found
        have last := List.mem_of_find?_eq_some found
        rw [List.mem_singleton.mp last] at group
        exact absurd group Bool.false_ne_true
  · rintro ⟨item, found, both⟩
    refine ⟨item, ?_, both⟩
    rw [List.find?_append, found, Option.some_or]

theorem add_eq {uri : String} {group : Option String} :
    addMirageOutboundFromUri uri tag group root =
      if trimmed tag = "" then .error (.said "出站 tag 不能为空") root
      else if (tags (outboundsOf root)).contains (trimmed tag) then
        .error (.said s!"出站 tag `{trimmed tag}` 已存在于配置中") root
      else
        match NodeUri.parse uri with
        | .error e => .error (.uri e) root
        | .ok node => writeNode node (trimmed tag) group root := by
  change (if _ then _ else _ : Edit Value Unit) root = _
  split
  · rfl
  · change (if _ then _ else _ : Edit Value Unit) root = _
    split
    · rfl
    · cases NodeUri.parse uri with
      | error e => rfl
      | ok node => rfl

theorem pushNode_refused {node : Value} (rigid : ¬ Extensible "outbounds" root) :
    ∃ error, pushNode node root = .error error root :=
  inArray_refused _ _ rigid

theorem pushNode_done (node : Value) (room : Extensible "outbounds" root) :
    ∃ whole, pushNode node root = .ok () whole ∧
      whole.getArray "outbounds" = some (outboundsOf root ++ [node]) := by
  obtain ⟨created, ran, items, _⟩ := created room
  obtain ⟨fields, rfl, found⟩ := object_of_getArray items
  refine ⟨_, (bind_ok ran).trans (inArray_found found), ?_⟩
  exact getArray_setField _

theorem add_refused {uri : String} {group : Option String} (other : ¬ Writable uri tag root) :
    Atomic (addMirageOutboundFromUri uri tag group) root := by
  rw [Atomic, add_eq]
  split
  · rintro reason left ⟨⟩
    rfl
  · rename_i named
    split
    · rintro reason left ⟨⟩
      rfl
    · rename_i fresh
      cases parsed : NodeUri.parse uri with
      | error e =>
          rintro reason left ⟨⟩
          rfl
      | ok node =>
          have rigid : ¬ Extensible "outbounds" root := fun room =>
            other ⟨named, Bool.eq_false_iff.mpr fresh, ⟨node, parsed⟩, room⟩
          obtain ⟨error, refused⟩ := pushNode_refused rigid
          exact atomic_of_same error (bind_error refused)

theorem add_done {uri : String} (group : Option String) (writable : Writable uri tag root) :
    ∃ node whole, addMirageOutboundFromUri uri tag group root =
        (match group with
          | some grp => addTagToGroup grp (trimmed tag)
          | none => pure () : Edit Value Unit) whole ∧
      whole.getArray "outbounds" = some (outboundsOf root ++ [mirageNode (trimmed tag) node]) := by
  obtain ⟨node, parsed⟩ := writable.parsed
  obtain ⟨whole, ran, items⟩ := pushNode_done (mirageNode (trimmed tag) node) writable.room
  refine ⟨node, whole, ?_, items⟩
  rw [add_eq, if_neg writable.named, if_neg (by rw [writable.fresh]; decide), parsed]
  exact bind_ok ran

/-- The node is written before the group is looked for. -/
theorem atomic_add {uri : String} {group : Option String} :
    Atomic (addMirageOutboundFromUri uri tag group) root ↔
      (Writable uri tag root → ∀ grp ∈ group, Joins grp (outboundsOf root)) := by
  by_cases writable : Writable uri tag root
  · rw [forall_prop_of_true writable]
    obtain ⟨node, whole, ran, items⟩ := add_done group writable
    have moved : whole ≠ root := by
      rintro rfl
      have longer : outboundsOf whole = outboundsOf whole ++ [mirageNode (trimmed tag) node] :=
        congrArg (·.getD []) items
      exact absurd (congrArg List.length longer) (by rw [List.length_append]; simp)
    rw [Atomic, ran]
    cases group with
    | none =>
        refine iff_of_true ?_ fun grp member => nomatch member
        rintro reason left ⟨⟩
    | some grp =>
        have joins : Succeeds (addTagToGroup grp (trimmed tag)) whole ↔
            Joins grp (outboundsOf root) :=
          (addTagToGroup_succeeds items).trans mirageNode_not_joined
        simp only [Option.mem_some_iff, forall_eq', ← joins]
        constructor
        · intro leaves
          cases outcome : addTagToGroup grp (trimmed tag) whole with
          | ok _ left => exact ⟨left, outcome⟩
          | error reason left =>
              have kept := addTagToGroup_atomic reason left outcome
              exact absurd (kept.symm.trans (leaves reason left outcome)) moved
        · rintro ⟨_, done⟩ reason left failed
          cases done.symm.trans failed
  · exact iff_of_true (add_refused writable) fun able => absurd able writable

end Groups

section Others
variable {tools : EditTools} {root : Value} {tag : String}

theorem deleteOutbound_atomic {autoRemoveFromGroups : Bool} :
    Atomic (deleteOutbound tools tag autoRemoveFromGroups) root := by
  intro reason left failed
  change (if _ then _ else _ : Edit Value Unit) root = _ at failed
  split at failed
  · cases failed
    rfl
  · cases failed

theorem appendUser_atomic {name : String} {user : Value} {users : List Value} :
    Atomic (appendUser name user) users := by
  intro reason left failed
  change (if _ then _ else _ : Edit (List Value) Unit) users = _ at failed
  split at failed
  · cases failed
    rfl
  · cases failed

theorem addInboundUser_atomic {args : UserArgs} : Atomic (addInboundUser tag args) root := by
  intro reason left failed
  change (if _ then _ else _ : Edit Value Unit) root = _ at failed
  split at failed
  · cases failed
    rfl
  · change (if _ then _ else _ : Edit Value Unit) root = _ at failed
    split at failed
    · cases failed
      rfl
    · change (match refusal args.limits with | some message => _ | none => _ : Edit Value Unit) root = _
        at failed
      cases refused : refusal args.limits with
      | some message =>
          rw [refused] at failed
          cases failed
          rfl
      | none =>
          rw [refused] at failed
          refine atomic_inArray.mpr (fun items _ => ?_) reason left failed
          refine atomic_inFirst.mpr fun item _ => ?_
          exact atomic_created ⟨_, rfl⟩ fun users => appendUser_atomic

end Others

section Operations
variable {tools : EditTools} {root : Value}

/-- What an operation may ask for to be atomic. A modification shows no value that the
object does not have in front of a parameter that is refused. -/
def Operation.Orderly (tools : EditTools) (root : Value) : Operation → Prop
  | .addMirageOutboundFromUri uri tag group =>
      Writable uri tag root → ∀ groupTag ∈ group, Joins groupTag (outboundsOf root)
  | .modifyMirageOutbound tag args =>
      ∀ outbounds fields, root.getArray "outbounds" = some outbounds →
        outbounds.find? (fun o => typeIs "mirage" o && tagIs tag o) = some (.object fields) →
        Timid (args.asked tools fields) fields
  | .modifyMirageServerInbound tag args =>
      ∀ inbounds fields, root.getArray "inbounds" = some inbounds →
        inbounds.find? (fun i => typeIs "mirage_server" i && tagIs tag i) = some (.object fields) →
        Timid args.asked fields
  | .modifyInboundUser inboundTag username args =>
      ∀ inbounds inbound users fields, root.getArray "inbounds" = some inbounds →
        inbounds.find? (tagIs inboundTag) = some inbound →
        inbound.getArray "users" = some users →
        users.find? (nameIs username) = some (.object fields) → Timid args.asked fields
  | .addTagToGroup .. | .deleteOutbound .. | .addInboundUser .. => True

theorem keys_of_found (document : Document) {key : String} {items : List Value} {wanted : Value → Bool}
    {fields : Fields} (there : document.1.getArray key = some items)
    (found : items.find? wanted = some (.object fields)) : UniqueKeys fields := by
  have unique := unique_items there _ (List.mem_of_find?_eq_some found)
  cases unique with
  | object keys each => exact keys

def memberDocument {document : Document} {key : String} {items : List Value} {wanted : Value → Bool}
    {item : Value} (there : document.1.getArray key = some items)
    (found : items.find? wanted = some item) : Document :=
  ⟨item, unique_items there _ (List.mem_of_find?_eq_some found)⟩

/-- A refused edit leaves the document as it was just where what is written in front of
the refusal was there before. -/
theorem edit_atomic_iff (tools : EditTools) (operation : Operation) (document : Document) :
    Atomic (operation.edit tools) document.1 ↔ operation.Orderly tools document.1 := by
  cases operation with
  | addMirageOutboundFromUri uri tag group => exact atomic_add
  | addTagToGroup groupTag targetTag => exact iff_of_true addTagToGroup_atomic trivial
  | deleteOutbound tag autoRemoveFromGroups => exact iff_of_true deleteOutbound_atomic trivial
  | addInboundUser inboundTag args => exact iff_of_true addInboundUser_atomic trivial
  | modifyMirageOutbound tag args =>
      change Atomic (modifyMirageOutbound tools tag args) document.1 ↔ _
      unfold modifyMirageOutbound
      simp only [atomic_inArray, atomic_inFirst, atomic_inObject]
      constructor
      · rintro atomic outbounds fields there found
        have unique := keys_of_found document there found
        have asks := atomic outbounds there _ found fields rfl
        rw [Atomic, revise_eq unique] at asks
        exact (OutboundArgs.asks.atomic_iff (by decide) unique).mp asks
      · rintro orderly outbounds there _ found fields rfl
        have unique := keys_of_found document there found
        rw [Atomic, revise_eq unique]
        exact (OutboundArgs.asks.atomic_iff (by decide) unique).mpr (orderly outbounds fields there found)
  | modifyMirageServerInbound tag args =>
      change Atomic (modifyMirageServerInbound tag args) document.1 ↔ _
      unfold modifyMirageServerInbound
      simp only [atomic_inArray, atomic_inFirst, atomic_inObject]
      constructor
      · rintro atomic inbounds fields there found
        exact (args.asks.atomic_iff (by decide) (keys_of_found document there found)).mp
          (atomic inbounds there _ found fields rfl)
      · rintro orderly inbounds there _ found fields rfl
        exact (args.asks.atomic_iff (by decide) (keys_of_found document there found)).mpr
          (orderly inbounds fields there found)
  | modifyInboundUser inboundTag username args =>
      change Atomic (modifyInboundUser inboundTag username args) document.1 ↔ _
      unfold modifyInboundUser
      simp only [atomic_inArray, atomic_inFirst, atomic_inObject]
      constructor
      · rintro atomic inbounds inbound users fields there reached inside found
        have unique := keys_of_found (memberDocument there reached) inside found
        exact (args.asks.atomic_iff (by decide) unique).mp
          (atomic inbounds there inbound reached users inside _ found fields rfl)
      · rintro orderly inbounds there inbound reached users inside _ found fields rfl
        have unique := keys_of_found (memberDocument there reached) inside found
        exact (args.asks.atomic_iff (by decide) unique).mpr
          (orderly inbounds inbound users fields there reached inside found)

end Operations

end Mirage.Config
