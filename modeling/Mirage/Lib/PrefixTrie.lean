import Mathlib.Logic.Function.Basic
import Mathlib.Data.List.Infix

/-!
Tries over lists of keys. A node holds the values filed at its own path and
one optional child per key. `search` walks as far down as the query leads and
collects the values of every node it passes, so a value is found exactly when
the path it was filed under is a prefix of the query.
-/

namespace Mirage.PrefixTrie

variable {Key Value : Type}

inductive Trie (Key Value : Type) where
  | node (values : List Value) (children : Key → Option (Trie Key Value))

def empty : Trie Key Value := .node [] fun _ => none

section Insertion
variable [DecidableEq Key]

def insert : List Key → Value → Trie Key Value → Trie Key Value
  | [], value, .node values children => .node (values ++ [value]) children
  | key :: path, value, .node values children =>
      .node values (Function.update children key
        (some (insert path value ((children key).getD empty))))

def insertAll (entries : List (List Key × Value)) (trie : Trie Key Value) : Trie Key Value :=
  entries.foldl (fun acc entry => insert entry.1 entry.2 acc) trie

end Insertion

def search : List Key → Trie Key Value → List Value
  | [], .node values _ => values
  | key :: path, .node values children =>
      values ++ match children key with
        | some child => search path child
        | none => []

@[simp] theorem search_empty (query : List Key) :
    search query (empty : Trie Key Value) = [] := by
  cases query <;> rfl

theorem mem_search_getD (query : List Key) (child : Option (Trie Key Value)) (found : Value) :
    found ∈ search query (child.getD empty) ↔
      found ∈ (match child with
        | some child => search query child
        | none => []) := by
  cases child <;> simp

section Search
variable [DecidableEq Key]

/-- Inserting adds exactly one value, and only to the queries below its path. -/
theorem mem_search_insert (path query : List Key) (value found : Value)
    (trie : Trie Key Value) :
    found ∈ search query (insert path value trie) ↔
      found ∈ search query trie ∨ (found = value ∧ path <+: query) := by
  induction path generalizing query trie with
  | nil =>
      obtain ⟨values, children⟩ := trie
      cases query with
      | nil => simp [insert, search]
      | cons key query =>
          simp only [insert, search, List.mem_append, List.mem_singleton, List.nil_prefix, and_true]
          tauto
  | cons head path ih =>
      obtain ⟨values, children⟩ := trie
      cases query with
      | nil => simp [insert, search]
      | cons key query =>
          by_cases same : key = head
          · subst key
            simp only [insert, search, Function.update_self, List.mem_append, ih,
              List.cons_prefix_cons, true_and, mem_search_getD]
            tauto
          · have unrelated : ¬ (head :: path) <+: (key :: query) := fun below =>
              same (List.cons_prefix_cons.mp below).1.symm
            simp [insert, search, same, unrelated]

theorem mem_search_insertAll (entries : List (List Key × Value)) (trie : Trie Key Value)
    (query : List Key) (found : Value) :
    found ∈ search query (insertAll entries trie) ↔
      found ∈ search query trie ∨ ∃ path, (path, found) ∈ entries ∧ path <+: query := by
  induction entries generalizing trie with
  | nil => simp [insertAll]
  | cons entry rest ih =>
      have step := ih (insert entry.1 entry.2 trie)
      simp only [insertAll, List.foldl_cons] at step ⊢
      rw [step, mem_search_insert]
      constructor
      · rintro ((old | ⟨rfl, below⟩) | ⟨path, member, below⟩)
        · exact Or.inl old
        · exact Or.inr ⟨entry.1, List.mem_cons_self, below⟩
        · exact Or.inr ⟨path, List.mem_cons_of_mem _ member, below⟩
      · rintro (old | ⟨path, member, below⟩)
        · exact Or.inl (Or.inl old)
        · rcases List.mem_cons.mp member with rfl | later
          · exact Or.inl (Or.inr ⟨rfl, below⟩)
          · exact Or.inr ⟨path, later, below⟩

end Search

end Mirage.PrefixTrie
