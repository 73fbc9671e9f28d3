import Mathlib.Data.Multiset.MapFold
import Mathlib.Data.Multiset.ZeroCons
import Mirage.Config.Changes

/-!
What a hot reload can miss. Inbounds that the lookup by tag does not reach, because
they have no tag or one that an earlier inbound has, are hidden: their changes are
not reported.
-/

namespace Mirage.Config
open Json

section Matching

variable {Item : Type} {related : Item → Item → Prop}

end Matching

abbrev Document := {value : Value // value.Unique}

def InboundAlike (a b : Value) : Prop :=
  a.same b = true ∨
    (a.getStr "type" = some "mirage_server" ∧ b.getStr "type" = some "mirage_server" ∧
      ∀ key, key ∉ inboundHotKeys → sameOption (a.get key) (b.get key) = true)

def hiddenFrom (seen : List String) : List Value → List Value
  | [] => []
  | item :: rest =>
      match tagOf item with
      | none => item :: hiddenFrom seen rest
      | some tag =>
          if tag ∈ seen then item :: hiddenFrom seen rest else hiddenFrom (tag :: seen) rest

def hidden (items : List Value) : List Value := hiddenFrom [] items

structure AlikeByTag (alike : Value → Value → Prop) (o n : List Value) : Prop where
  tags : ∀ tag, tag ∈ tags o ↔ tag ∈ tags n
  first : ∀ tag a b, findTag tag o = some a → findTag tag n = some b → alike a b

abbrev SameItems (o n : List Value) : Prop := o.Forall₂ (fun a b => a.same b = true) n

abbrev Differ := String → Value → Value → List Reason → Prop

structure InboundReported (tag : String) (a b : Value) (reasons : List Reason) : Prop where
  type : (a.getStr "type").getD "" ≠ (b.getStr "type").getD "" →
    .inboundType tag ((a.getStr "type").getD "") ((b.getStr "type").getD "") ∈ reasons
  field : a.getStr "type" = some "mirage_server" → b.getStr "type" = some "mirage_server" →
    ∀ key, key ∉ inboundHotKeys → sameOption (a.get key) (b.get key) = false →
      .inboundKey tag key ∈ reasons
  other : (a.getStr "type").getD "" = (b.getStr "type").getD "" →
    a.getStr "type" ≠ some "mirage_server" → a.same b = false →
      .inboundChanged tag ((a.getStr "type").getD "") ∈ reasons

/-- Every tag that only one of the lists has, and every difference between the first
items with a tag, has its reason; so have items that no tag leads to, all together. -/
structure ListReported (added removed : String → Reason) (unnamed : Reason) (differ : Differ)
    (hiddenAlike : Prop) (o n : List Value) (reasons : List Reason) : Prop where
  added : ∀ tag ∈ tags n, tag ∉ tags o → added tag ∈ reasons
  removed : ∀ tag ∈ tags o, tag ∉ tags n → removed tag ∈ reasons
  first : ∀ tag a b, findTag tag o = some a → findTag tag n = some b → differ tag a b reasons
  hidden : ¬ hiddenAlike → unnamed ∈ reasons

def HiddenInbounds (o n : List Value) : Prop :=
  Multiset.Rel InboundAlike (hidden o : Multiset Value) (hidden n)

/-- Inbounds that the lookup by tag does not reach are alike, and outbounds that it
does not reach are the same unless it finds another difference between outbounds. -/
structure HiddenAlike (old new : Value) : Prop where
  inbounds : ∀ o n, old.getArray "inbounds" = some o → new.getArray "inbounds" = some n →
    HiddenInbounds o n
  outbounds : ∀ o n, old.getArray "outbounds" = some o → new.getArray "outbounds" = some n →
    ¬ AlikeByTag (fun a b => a.same b = true) o n → SameItems (hidden o) (hidden n)

section Keys

section TagReasons
variable {added removed : String → Reason} {differ : String → Value → Value → List Reason}
  {o n : List Value}

end TagReasons

end Keys

section Alike

end Alike

section Hidden

theorem hiddenFrom_eq_nil {seen : List String} {items : List Value}
    (tagged : ∀ item ∈ items, ∃ tag, tagOf item = some tag)
    (fresh : ∀ tag ∈ items.filterMap tagOf, tag ∉ seen)
    (unique : (items.filterMap tagOf).Nodup) : hiddenFrom seen items = [] := by
  induction items generalizing seen with
  | nil => rfl
  | cons item rest ih =>
      obtain ⟨tag, own⟩ := tagged item List.mem_cons_self
      rw [List.filterMap_cons_some own] at fresh unique
      have later := List.nodup_cons.mp unique
      rw [hiddenFrom, own]
      dsimp only
      rw [if_neg (fresh tag List.mem_cons_self)]
      apply ih (fun item member => tagged item (List.mem_cons_of_mem _ member)) _ later.2
      intro other member
      refine List.not_mem_cons_of_ne_of_not_mem ?_ (fresh other (List.mem_cons_of_mem _ member))
      rintro rfl
      exact later.1 member

/-- With a tag of its own on every inbound and outbound nothing is hidden. -/
theorem hiddenAlike_of_tagged {old new : Value}
    (tagged : ∀ document ∈ [old, new], ∀ key items, document.getArray key = some items →
      (∀ item ∈ items, ∃ tag, tagOf item = some tag) ∧ (items.filterMap tagOf).Nodup) :
    HiddenAlike old new := by
  have nothing : ∀ document ∈ [old, new], ∀ key items, document.getArray key = some items →
      hidden items = [] := by
    intro document member key items found
    obtain ⟨each, unique⟩ := tagged document member key items found
    exact hiddenFrom_eq_nil each (fun _ _ => List.not_mem_nil) unique
  have first : old ∈ [old, new] := List.mem_cons_self
  have second : new ∈ [old, new] := List.mem_cons_of_mem _ List.mem_cons_self
  constructor
  · intro o n inOld inNew
    rw [HiddenInbounds, nothing old first _ o inOld, nothing new second _ n inNew]
    exact .zero
  · intro o n inOld inNew _
    rw [nothing old first _ o inOld, nothing new second _ n inNew]
    exact .nil

end Hidden

section Reports

variable {old new : Document}

theorem unique_items {document : Document} {key : String} {items : List Value}
    (found : document.1.getArray key = some items) : ∀ item ∈ items, item.Unique := by
  obtain ⟨value, here, array⟩ := Option.bind_eq_some_iff.mp found
  have unique := document.2.get here
  cases value with
  | array items' =>
      cases array
      cases unique with
      | array each => exact each
  | _ => cases array

section SameItems
variable {o n : List Value} (unique : ∀ item ∈ o, item.Unique) (same : SameItems o n)
include unique same

end SameItems

end Reports

section Complete

variable {old new : Document} {o n : List Value}

theorem InboundReported.mono {tag : String} {a b : Value} {reasons more : List Reason}
    (reported : InboundReported tag a b reasons) (subset : reasons ⊆ more) :
    InboundReported tag a b more where
  type types := subset (reported.type types)
  field typed typed' key cold differs := subset (reported.field typed typed' key cold differs)
  other types other differs := subset (reported.other types other differs)

theorem ListReported.mono {added removed : String → Reason} {unnamed : Reason} {differ : Differ}
    {hiddenAlike : Prop} {reasons more : List Reason}
    (grows : ∀ tag a b, differ tag a b reasons → differ tag a b more)
    (reported : ListReported added removed unnamed differ hiddenAlike o n reasons)
    (subset : reasons ⊆ more) : ListReported added removed unnamed differ hiddenAlike o n more where
  added tag inNew missing := subset (reported.added tag inNew missing)
  removed tag inOld missing := subset (reported.removed tag inOld missing)
  first tag a b inOld inNew := grows tag a b (reported.first tag a b inOld inNew)
  hidden differs := subset (reported.hidden differs)

end Complete

end Mirage.Config
