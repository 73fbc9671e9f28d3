import Mathlib.Data.List.Perm.Basic
import Mathlib.Logic.Relation

/-!
Dependencies without cycles. A relation that a rank goes down along has none.
Among finitely many elements some one depends on no other, so they can be put in
an order in which each depends on earlier ones only.
-/

namespace Mirage.Dependency
open Relation

variable {α : Type} {r : α → α → Prop}

def Acyclic (r : α → α → Prop) : Prop := ∀ a, ¬ TransGen r a a

theorem acyclic_of_rank (rank : α → Nat) (down : ∀ {a b}, r a b → rank b < rank a) :
    Acyclic r := by
  have below : ∀ {a b}, TransGen r a b → rank b < rank a := by
    intro a b path
    induction path with
    | single edge => exact down edge
    | tail _ edge ih => exact Nat.lt_trans (down edge) ih
  exact fun a cycle => Nat.lt_irrefl _ (below cycle)

theorem Acyclic.mono {s : α → α → Prop} (acyclic : Acyclic s) (weaker : ∀ {a b}, r a b → s a b) :
    Acyclic r :=
  fun a cycle => acyclic a (TransGen.mono (fun _ _ => weaker) _ _ cycle)

theorem Acyclic.comap {β : Type} (acyclic : Acyclic r) (f : β → α) :
    Acyclic fun a b => r (f a) (f b) :=
  fun a cycle => acyclic (f a) (cycle.lift f fun _ _ => id)

theorem Acyclic.exists_last (acyclic : Acyclic r) {items : List α} (some_item : items ≠ []) :
    ∃ a ∈ items, ∀ b ∈ items, ¬ TransGen r a b := by
  induction items with
  | nil => exact absurd rfl some_item
  | cons x rest ih =>
      by_cases alone : rest = []
      · subst alone
        refine ⟨x, List.mem_singleton_self x, ?_⟩
        intro b member
        rw [List.mem_singleton.mp member]
        exact acyclic x
      · obtain ⟨a, inside, none⟩ := ih alone
        by_cases reaches : TransGen r a x
        · -- Whatever x reaches, a reaches through x.
          refine ⟨x, List.mem_cons_self, ?_⟩
          intro b member path
          rcases List.mem_cons.mp member with rfl | later
          · exact acyclic b path
          · exact none b later (reaches.trans path)
        · refine ⟨a, List.mem_cons_of_mem _ inside, ?_⟩
          intro b member
          rcases List.mem_cons.mp member with rfl | later
          · exact reaches
          · exact none b later

theorem Acyclic.exists_order (acyclic : Acyclic r) (items : List α) :
    ∃ order : List α, order.Perm items ∧ order.Pairwise fun a b => ¬ r a b := by
  classical
  induction size : items.length generalizing items with
  | zero =>
      rw [List.length_eq_zero_iff] at size
      subst size
      exact ⟨[], .nil, .nil⟩
  | succ n ih =>
      have some_item : items ≠ [] := by
        rintro rfl
        cases size
      obtain ⟨a, inside, none⟩ := acyclic.exists_last some_item
      obtain ⟨order, same, sorted⟩ := ih (items.erase a) (by
        rw [List.length_erase_of_mem inside, size]
        rfl)
      refine ⟨a :: order, (same.cons a).trans (List.perm_cons_erase inside).symm, ?_⟩
      refine List.pairwise_cons.mpr ⟨?_, sorted⟩
      intro b member edge
      have original := List.mem_of_mem_erase (same.subset member)
      exact none b original (.single edge)

end Mirage.Dependency
