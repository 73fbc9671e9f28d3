import Mathlib.Data.List.Basic

/-!
Programs that end in a value or an error, and what a chain and a fold that come
to a value went through; programs over a state, and two of them run side by side.
-/

namespace Mirage.Programs

section Fallible

variable {State Item Value Error : Type}

def errorOf : Except Error Value → Option Error
  | .ok _ => none
  | .error reason => some reason

theorem bind_eq_ok {first : Except Error State} {rest : State → Except Error Value} {value : Value} :
    first >>= rest = .ok value ↔ ∃ state, first = .ok state ∧ rest state = .ok value := by
  cases first with
  | error reason =>
      constructor
      · rintro ⟨⟩
      · rintro ⟨_, ⟨⟩, _⟩
  | ok state =>
      constructor
      · exact fun ended => ⟨state, rfl, ended⟩
      · rintro ⟨_, ⟨⟩, ended⟩
        exact ended

/-- What every step of a fold keeps holds at its end. -/
theorem foldlM_keeps {step : State → Item → Except Error State} {items : List Item}
    {start final : State} (Inv : State → Prop)
    (keep : ∀ {state item next}, item ∈ items → Inv state → step state item = .ok next → Inv next)
    (initial : Inv start) (ran : items.foldlM step start = .ok final) : Inv final := by
  induction items generalizing start with
  | nil =>
      cases ran
      exact initial
  | cons item rest ih =>
      rw [List.foldlM_cons] at ran
      obtain ⟨next, stepped, tail⟩ := bind_eq_ok.mp ran
      refine ih ?_ (keep List.mem_cons_self initial stepped) tail
      intro state item next member
      exact keep (List.mem_cons_of_mem _ member)

theorem values_of_no_errors {items : List (Except Error Value)}
    (clean : items.filterMap errorOf = []) :
    items = (items.filterMap Except.toOption).map .ok := by
  induction items with
  | nil => rfl
  | cons item rest ih =>
      cases item with
      | error reason => cases clean
      | ok value => exact congrArg (.ok value :: ·) (ih clean)

end Fallible

section SideBySide

universe u

variable {σ τ ρ : Type u} {α β : Type u}

/-- From related states both give the same value and end in related states. -/
def Related (R : σ → τ → Prop) (f : StateM σ α) (g : StateM τ α) : Prop :=
  ∀ s t, R s t → (f s).1 = (g t).1 ∧ R (f s).2 (g t).2

namespace Related
variable {R : σ → τ → Prop} {f : StateM σ α} {g : StateM τ α}

theorem pure (value : α) : Related R (pure value : StateM σ α) (pure value : StateM τ α) :=
  fun _ _ related => ⟨rfl, related⟩

theorem bind {next : α → StateM σ β} {next' : α → StateM τ β} (first : Related R f g)
    (then_ : ∀ value, Related R (next value) (next' value)) :
    Related R (f >>= next) (g >>= next') := by
  intro s t related
  obtain ⟨same, after⟩ := first s t related
  have further := then_ (f s).1 (f s).2 (g t).2 after
  rw [same] at further
  change (next (f s).1 (f s).2).1 = (next' (g t).1 (g t).2).1 ∧
    R (next (f s).1 (f s).2).2 (next' (g t).1 (g t).2).2
  rw [same]
  exact further

theorem map (first : Related R f g) (act : α → β) : Related R (act <$> f) (act <$> g) :=
  fun s t related => ⟨congrArg act (first s t related).1, (first s t related).2⟩

/-- What is read of the state, where related states agree on it. -/
theorem gets {read : σ → α} {read' : τ → α} (agrees : ∀ s t, R s t → read s = read' t) :
    Related R (read <$> get : StateM σ α) (read' <$> get : StateM τ α) :=
  fun s t related => ⟨agrees s t related, related⟩

theorem modify {act : σ → σ} {act' : τ → τ} (keeps : ∀ s t, R s t → R (act s) (act' t)) :
    Related R (modify act : StateM σ PUnit) (modify act' : StateM τ PUnit) :=
  fun s t related => ⟨rfl, keeps s t related⟩

end Related

end SideBySide

end Mirage.Programs
