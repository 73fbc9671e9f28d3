import Mathlib.Data.Finset.Basic
import Mirage.Lib.Trace
import Mirage.Router.Rule

/-!
The kernel's map of direct prefixes and the set user space believes it to
hold. A sync inserts what is new and then removes what is stale, one kernel
call at a time; every one of them may fail. A failed insert ends the sync and
leaves what it inserted out of `loaded`; a failed remove is passed over.
-/

namespace Mirage.Kernel.DirectCidr

open Router Trace

structure LpmKey where
  net : BitVec 32
  prefixLen : Nat
  deriving DecidableEq

/-- The bytes of a word in network order, read back on a little-endian host. -/
def toBe (word : BitVec 32) : BitVec 32 :=
  word.extractLsb' 0 8 ++ word.extractLsb' 8 8 ++ word.extractLsb' 16 8 ++ word.extractLsb' 24 8

def keyOf (cidr : Ipv4Net) : LpmKey := ⟨toBe cidr.network, cidr.prefixLen⟩

structure TcDivertEngine where
  map : Finset LpmKey
  loaded : List LpmKey
  deriving DecidableEq

def TcDivertEngine.init : TcDivertEngine := ⟨∅, []⟩

/-- One call: the list, its set in the order the hash set is walked, and what
the kernel answers to each key. No key is tried twice in a call. -/
structure Call where
  cidrs : List Ipv4Net
  want : List LpmKey
  collected : ∀ key, key ∈ want ↔ key ∈ cidrs.map keyOf
  distinct : want.Nodup
  mapPresent : Bool
  insertOk : LpmKey → Bool
  removeOk : LpmKey → Bool

/-- What the kernel holds after each of its calls, and whether all went through. -/
structure Progress where
  moments : List (Finset LpmKey)
  map : Finset LpmKey
  ok : Bool

def Progress.after (first : Finset LpmKey) (rest : Progress) : Progress :=
  { rest with moments := first :: rest.moments }

def insertNew (call : Call) (loaded : List LpmKey) : List LpmKey → Finset LpmKey → Progress
  | [], map => ⟨[], map, true⟩
  | key :: rest, map =>
      if key ∈ loaded then insertNew call loaded rest map
      else if call.insertOk key then
        (insertNew call loaded rest (insert key map)).after (insert key map)
      else ⟨[], map, false⟩

def removeOne (call : Call) (key : LpmKey) (map : Finset LpmKey) : Finset LpmKey :=
  if call.removeOk key then map.erase key else map

def removeStale (call : Call) : List LpmKey → Finset LpmKey → Progress
  | [], map => ⟨[], map, true⟩
  | key :: rest, map =>
      if key ∈ call.want then removeStale call rest map
      else (removeStale call rest (removeOne call key map)).after (removeOne call key map)

structure Synced where
  ok : Bool
  moments : List (Finset LpmKey)

def syncDirectCidrs (engine : TcDivertEngine) (call : Call) : Synced × TcDivertEngine :=
  if call.mapPresent then
    let added := insertNew call engine.loaded call.want engine.map
    if added.ok then
      let cleaned := removeStale call engine.loaded added.map
      (⟨true, engine.map :: (added.moments ++ cleaned.moments)⟩, ⟨cleaned.map, call.want⟩)
    else (⟨false, engine.map :: added.moments⟩, { engine with map := added.map })
  else (⟨false, [engine.map]⟩, engine)

section Inserting
variable {call : Call} {loaded keys : List LpmKey} {map moment : Finset LpmKey} {key : LpmKey}

theorem insertNew_ok_iff :
    (insertNew call loaded keys map).ok = true ↔
      ∀ key ∈ keys, key ∉ loaded → call.insertOk key = true := by
  induction keys generalizing map with
  | nil => simp [insertNew]
  | cons first rest ih =>
      simp only [insertNew, List.forall_mem_cons]
      by_cases known : first ∈ loaded
      · simp [known, ih]
      · cases accepted : call.insertOk first with
        | true => simp [known, Progress.after, ih]
        | false => simp [known]

theorem mem_insertNew (went : (insertNew call loaded keys map).ok = true) :
    key ∈ (insertNew call loaded keys map).map ↔ key ∈ map ∨ key ∈ keys ∧ key ∉ loaded := by
  induction keys generalizing map with
  | nil => simp [insertNew]
  | cons first rest ih =>
      simp only [insertNew] at went ⊢
      by_cases known : first ∈ loaded
      · rw [if_pos known] at went ⊢
        rw [ih went, List.mem_cons]
        constructor
        · rintro (held | ⟨listed, fresh⟩)
          · exact .inl held
          · exact .inr ⟨.inr listed, fresh⟩
        · rintro (held | ⟨rfl | listed, fresh⟩)
          · exact .inl held
          · exact absurd known fresh
          · exact .inr ⟨listed, fresh⟩
      · rw [if_neg known] at went ⊢
        cases accepted : call.insertOk first with
        | false => simp [accepted] at went
        | true =>
            simp only [accepted, if_true] at went ⊢
            change key ∈ (insertNew call loaded rest (insert first map)).map ↔ _
            rw [ih went, Finset.mem_insert, List.mem_cons]
            constructor
            · rintro ((rfl | held) | ⟨listed, fresh⟩)
              · exact .inr ⟨.inl rfl, known⟩
              · exact .inl held
              · exact .inr ⟨.inr listed, fresh⟩
            · rintro (held | ⟨rfl | listed, fresh⟩)
              · exact .inl (.inr held)
              · exact .inl (.inl rfl)
              · exact .inr ⟨listed, fresh⟩

theorem subset_insertNew :
    map ⊆ (insertNew call loaded keys map).map ∧
      ∀ moment ∈ (insertNew call loaded keys map).moments, map ⊆ moment := by
  induction keys generalizing map with
  | nil => simp [insertNew]
  | cons first rest ih =>
      simp only [insertNew]
      by_cases known : first ∈ loaded
      · rw [if_pos known]
        exact ih
      · rw [if_neg known]
        cases accepted : call.insertOk first with
        | false => simp
        | true =>
            have grown : map ⊆ insert first map := Finset.subset_insert first map
            simp only [if_true, Progress.after, List.forall_mem_cons]
            refine ⟨grown.trans ih.1, grown, ?_⟩
            intro moment member
            exact grown.trans (ih.2 moment member)

end Inserting

section Removing
variable {call : Call} {keys : List LpmKey} {map moment : Finset LpmKey} {key : LpmKey}

theorem mem_removeOne {other : LpmKey} :
    key ∈ removeOne call other map ↔ key ∈ map ∧ ¬ (key = other ∧ call.removeOk other = true) := by
  unfold removeOne
  cases accepted : call.removeOk other with
  | false => simp
  | true => simp [and_comm]

theorem mem_removeStale :
    key ∈ (removeStale call keys map).map ↔
      key ∈ map ∧ ¬ (key ∈ keys ∧ key ∉ call.want ∧ call.removeOk key = true) := by
  induction keys generalizing map with
  | nil => simp [removeStale]
  | cons first rest ih =>
      simp only [removeStale, List.mem_cons]
      by_cases wanted : first ∈ call.want
      · rw [if_pos wanted, ih]
        refine and_congr_right fun _ => not_congr ?_
        constructor
        · rintro ⟨listed, dropped, accepted⟩
          exact ⟨.inr listed, dropped, accepted⟩
        · rintro ⟨rfl | listed, dropped, accepted⟩
          · exact absurd wanted dropped
          · exact ⟨listed, dropped, accepted⟩
      · rw [if_neg wanted]
        change key ∈ (removeStale call rest (removeOne call first map)).map ↔ _
        rw [ih, mem_removeOne, and_assoc]
        refine and_congr_right fun _ => ?_
        constructor
        · rintro ⟨stays, later⟩ ⟨rfl | listed, dropped, accepted⟩
          · exact stays ⟨rfl, accepted⟩
          · exact later ⟨listed, dropped, accepted⟩
        · intro kept
          refine ⟨?_, ?_⟩
          · rintro ⟨rfl, accepted⟩
            exact kept ⟨.inl rfl, wanted, accepted⟩
          · rintro ⟨listed, dropped, accepted⟩
            exact kept ⟨.inr listed, dropped, accepted⟩

theorem removeStale_keeps (held : key ∈ map) (wanted : key ∈ call.want)
    (member : moment ∈ (removeStale call keys map).moments) : key ∈ moment := by
  induction keys generalizing map with
  | nil => cases member
  | cons first rest ih =>
      simp only [removeStale] at member
      by_cases same : first ∈ call.want
      · rw [if_pos same] at member
        exact ih held member
      · rw [if_neg same] at member
        have stays : key ∈ removeOne call first map := by
          rw [mem_removeOne]
          refine ⟨held, ?_⟩
          rintro ⟨rfl, _⟩
          exact same wanted
        rcases List.mem_cons.mp member with rfl | later
        · exact stays
        · exact ih stays later

end Removing

def Call.GoesThrough (call : Call) (engine : TcDivertEngine) : Prop :=
  call.mapPresent = true ∧ ∀ key ∈ call.want, key ∉ engine.loaded → call.insertOk key = true

theorem sync_refused {engine : TcDivertEngine} {call : Call}
    (refused : ¬ call.GoesThrough engine) :
    (syncDirectCidrs engine call).1.ok = false ∧
      (syncDirectCidrs engine call).2.loaded = engine.loaded ∧
      engine.map ⊆ (syncDirectCidrs engine call).2.map ∧
      ∀ moment ∈ (syncDirectCidrs engine call).1.moments, engine.map ⊆ moment := by
  unfold syncDirectCidrs
  by_cases present : call.mapPresent = true
  · have failed : ¬ (insertNew call engine.loaded call.want engine.map).ok = true :=
      fun went => refused ⟨present, insertNew_ok_iff.mp went⟩
    rw [if_pos present]
    simp only [if_neg failed, List.forall_mem_cons]
    exact ⟨trivial, trivial, subset_insertNew.1, Finset.Subset.refl _, subset_insertNew.2⟩
  · rw [if_neg present]
    simp

theorem sync_through {engine : TcDivertEngine} {call : Call} (through : call.GoesThrough engine) :
    (insertNew call engine.loaded call.want engine.map).ok = true ∧
    syncDirectCidrs engine call =
      (⟨true, engine.map :: ((insertNew call engine.loaded call.want engine.map).moments ++
        (removeStale call engine.loaded (insertNew call engine.loaded call.want engine.map).map).moments)⟩,
      ⟨(removeStale call engine.loaded (insertNew call engine.loaded call.want engine.map).map).map,
        call.want⟩) := by
  have went : (insertNew call engine.loaded call.want engine.map).ok = true :=
    insertNew_ok_iff.mpr through.2
  refine ⟨went, ?_⟩
  unfold syncDirectCidrs
  simp only [through.1, went, if_true]

theorem ok_iff (engine : TcDivertEngine) (call : Call) :
    (syncDirectCidrs engine call).1.ok = true ↔ call.GoesThrough engine := by
  by_cases through : call.GoesThrough engine
  · simp [(sync_through through).2, through]
  · simp [(sync_refused through).1, through]

/-- What user space believes to be loaded is. -/
def Shadowed (engine : TcDivertEngine) : Prop := ∀ key ∈ engine.loaded, key ∈ engine.map

theorem sync_shadowed (engine : TcDivertEngine) (call : Call) (shadowed : Shadowed engine) :
    Shadowed (syncDirectCidrs engine call).2 := by
  by_cases through : call.GoesThrough engine
  · obtain ⟨went, same⟩ := sync_through through
    rw [same]
    intro key wanted
    rw [mem_removeStale, mem_insertNew went]
    refine ⟨?_, fun stale => stale.2.1 wanted⟩
    by_cases known : key ∈ engine.loaded
    · exact .inl (shadowed key known)
    · exact .inr ⟨wanted, known⟩
  · obtain ⟨_, sameLoaded, grown, _⟩ := sync_refused through
    intro key known
    rw [sameLoaded] at known
    exact grown (shadowed key known)

theorem run_shadowed (calls : List Call) : Shadowed (run syncDirectCidrs .init calls) :=
  run_invariant Shadowed sync_shadowed (fun _ known => absurd known List.not_mem_nil) calls

/-- The list of the last call that returned `Ok`. -/
def lastSynced (engine : TcDivertEngine) : List Call → List Ipv4Net → List Ipv4Net
  | [], last => last
  | call :: rest, last =>
      let (answer, next) := syncDirectCidrs engine call
      lastSynced next rest (if answer.ok then call.cidrs else last)

def Mirrors (engine : TcDivertEngine) (last : List Ipv4Net) : Prop :=
  ∀ key, key ∈ engine.loaded ↔ key ∈ last.map keyOf

theorem sync_mirrors {engine : TcDivertEngine} {last : List Ipv4Net}
    (mirrors : Mirrors engine last) (call : Call) :
    Mirrors (syncDirectCidrs engine call).2
      (if (syncDirectCidrs engine call).1.ok then call.cidrs else last) := by
  by_cases through : call.GoesThrough engine
  · rw [(sync_through through).2]
    exact call.collected
  · obtain ⟨failed, sameLoaded, _⟩ := sync_refused through
    rw [failed]
    intro key
    rw [sameLoaded]
    exact mirrors key

theorem run_mirrors {engine : TcDivertEngine} {last : List Ipv4Net}
    (mirrors : Mirrors engine last) (calls : List Call) :
    Mirrors (run syncDirectCidrs engine calls) (lastSynced engine calls last) := by
  induction calls generalizing engine last with
  | nil => exact mirrors
  | cons call rest ih => exact ih (sync_mirrors mirrors call)

/-- After a call that returned `Ok` the kernel holds its list and nothing else,
and at every moment of the call what both lists name. -/
def Tracks (past : List Call) (call : Call) : Prop :=
  let engine := run syncDirectCidrs .init past
  let after := syncDirectCidrs engine call
  (after.1.ok = true → ∀ key, key ∈ after.2.map ↔ key ∈ call.cidrs.map keyOf) ∧
    ∀ moment ∈ after.1.moments, ∀ cidr ∈ lastSynced .init past [],
      keyOf cidr ∈ call.cidrs.map keyOf → keyOf cidr ∈ moment

/-- A call that goes through finds every prefix it drops recorded in `loaded`,
and the kernel removes it. -/
def Clean (engine : TcDivertEngine) (call : Call) : Prop :=
  call.GoesThrough engine →
    ∀ key ∈ engine.map, key ∉ call.want → key ∈ engine.loaded ∧ call.removeOk key = true

theorem sync_covers {engine : TcDivertEngine} {call : Call} {key : LpmKey}
    {moment : Finset LpmKey} (held : key ∈ engine.map) (wanted : key ∈ call.want)
    (member : moment ∈ (syncDirectCidrs engine call).1.moments) : key ∈ moment := by
  by_cases through : call.GoesThrough engine
  · rw [(sync_through through).2] at member
    rcases List.mem_cons.mp member with rfl | during
    · exact held
    · rcases List.mem_append.mp during with inserting | cleaning
      · exact subset_insertNew.2 moment inserting held
      · exact removeStale_keeps (subset_insertNew.1 held) wanted cleaning
  · exact (sync_refused through).2.2.2 moment member held

theorem exact_iff_clean {engine : TcDivertEngine} {call : Call} (shadowed : Shadowed engine)
    (through : call.GoesThrough engine) :
    (∀ key, key ∈ (syncDirectCidrs engine call).2.map ↔ key ∈ call.want) ↔
      ∀ key ∈ engine.map, key ∉ call.want → key ∈ engine.loaded ∧ call.removeOk key = true := by
  obtain ⟨went, same⟩ := sync_through through
  have final : ∀ key, key ∈ (syncDirectCidrs engine call).2.map ↔
      (key ∈ engine.map ∨ key ∈ call.want ∧ key ∉ engine.loaded) ∧
        ¬ (key ∈ engine.loaded ∧ key ∉ call.want ∧ call.removeOk key = true) := by
    intro key
    rw [← mem_insertNew went, ← mem_removeStale, same]
  constructor
  · intro same key held dropped
    by_contra stays
    apply dropped
    rw [← same key, final key]
    refine ⟨.inl held, ?_⟩
    rintro ⟨known, _, removed⟩
    exact stays ⟨known, removed⟩
  · intro clean key
    rw [final key]
    constructor
    · rintro ⟨held | ⟨wanted, _⟩, kept⟩
      · by_contra dropped
        obtain ⟨known, removed⟩ := clean key held dropped
        exact kept ⟨known, dropped, removed⟩
      · exact wanted
    · intro wanted
      refine ⟨?_, fun stale => stale.2.1 wanted⟩
      by_cases known : key ∈ engine.loaded
      · exact .inl (shadowed key known)
      · exact .inr ⟨wanted, known⟩

/-- A sync tracks its list exactly if it finds no entry that a failed call or a
failed removal left behind. -/
theorem tracks_iff_clean (past : List Call) (call : Call) :
    Tracks past call ↔ Clean (run syncDirectCidrs .init past) call := by
  have shadowed := run_shadowed past
  have mirrors : Mirrors (run syncDirectCidrs .init past) (lastSynced .init past []) :=
    run_mirrors (fun _ => Iff.rfl) past
  have covers : ∀ moment ∈ (syncDirectCidrs (run syncDirectCidrs .init past) call).1.moments,
      ∀ cidr ∈ lastSynced .init past [],
        keyOf cidr ∈ call.cidrs.map keyOf → keyOf cidr ∈ moment := by
    intro moment member cidr listed kept
    have known := (mirrors (keyOf cidr)).mpr (List.mem_map_of_mem listed)
    exact sync_covers (shadowed _ known) ((call.collected _).mpr kept) member
  unfold Clean
  change (((syncDirectCidrs _ call).1.ok = true → _) ∧ _) ↔ _
  rw [ok_iff]
  constructor
  · rintro ⟨same, _⟩ through
    refine (exact_iff_clean shadowed through).mp fun key => ?_
    rw [call.collected]
    exact same through key
  · intro clean
    refine ⟨fun through key => ?_, covers⟩
    rw [← call.collected]
    exact (exact_iff_clean shadowed through).mpr (clean through) key

def firstNet : Ipv4Net := ⟨0x01000100#32, 24, by decide⟩
def secondNet : Ipv4Net := ⟨0x01000200#32, 23, by decide⟩

def halfWay : Call :=
  { cidrs := [firstNet, secondNet]
    want := [keyOf firstNet, keyOf secondNet]
    collected := fun _ => Iff.rfl
    distinct := by decide
    mapPresent := true
    insertOk := fun key => decide (key = keyOf firstNet)
    removeOk := fun _ => true }

def emptied : Call :=
  { cidrs := []
    want := []
    collected := fun _ => Iff.rfl
    distinct := List.nodup_nil
    mapPresent := true
    insertOk := fun _ => true
    removeOk := fun _ => true }

/-- The first prefix of the failed call is still direct after a successful sync
to the empty list. -/
theorem left_behind : ¬ ∀ past call, Tracks past call := by
  intro all
  have same := (all [halfWay] emptied).1 (by decide) (keyOf firstNet)
  have stale : keyOf firstNet ∈
      (syncDirectCidrs (run syncDirectCidrs .init [halfWay]) emptied).2.map := by decide
  exact absurd (same.mp stale) List.not_mem_nil

end Mirage.Kernel.DirectCidr
