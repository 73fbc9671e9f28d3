import Mirage.Lib.Text

/-!
Text cut in two at a delimiter: `split_once` at the first one, `rsplit_once` at
the last. A cut gives back the parts of a text put together with the delimiter
between them, as long as the part on the side it looks at first is free of it.
-/

namespace Mirage.Cut
open Text

variable {separator : Char} {text front back pattern : List Char}

/-- `str::split_once` at a character. -/
def splitOnce (separator : Char) : List Char → Option (List Char × List Char)
  | [] => none
  | c :: rest =>
      if c = separator then some ([], rest)
      else (splitOnce separator rest).map fun parts => (c :: parts.1, parts.2)

/-- `str::split_once` at a text. -/
def splitOnceAt (pattern : List Char) : List Char → Option (List Char × List Char)
  | [] => if pattern = [] then some ([], []) else none
  | c :: rest =>
      if pattern.isPrefixOf (c :: rest) then some ([], (c :: rest).drop pattern.length)
      else (splitOnceAt pattern rest).map fun parts => (c :: parts.1, parts.2)

/-- `str::strip_prefix` -/
def stripPrefix (pattern text : List Char) : Option (List Char) :=
  if pattern.isPrefixOf text then some (text.drop pattern.length) else none

theorem splitOnce_cons (separator c : Char) (rest : List Char) :
    splitOnce separator (c :: rest) = if c = separator then some ([], rest)
      else (splitOnce separator rest).map fun parts => (c :: parts.1, parts.2) := rfl

theorem splitOnceAt_cons (pattern : List Char) (c : Char) (rest : List Char) :
    splitOnceAt pattern (c :: rest) =
      if pattern.isPrefixOf (c :: rest) then some ([], (c :: rest).drop pattern.length)
      else (splitOnceAt pattern rest).map fun parts => (c :: parts.1, parts.2) := rfl

theorem splitOnce_append (free : separator ∉ front) :
    splitOnce separator (front ++ separator :: back) = some (front, back) := by
  induction front with
  | nil => rw [List.nil_append, splitOnce_cons, if_pos rfl]
  | cons c rest ih =>
      have first := List.ne_of_not_mem_cons free
      have later := List.not_mem_of_not_mem_cons free
      rw [List.cons_append, splitOnce_cons, if_neg (Ne.symm first), ih later]
      rfl

theorem splitOnce_eq_some (cut : splitOnce separator text = some (front, back)) :
    text = front ++ separator :: back ∧ separator ∉ front := by
  induction text generalizing front with
  | nil => cases cut
  | cons c rest ih =>
      rw [splitOnce_cons] at cut
      by_cases here : c = separator
      · rw [if_pos here] at cut
        cases cut
        exact ⟨by rw [here]; rfl, List.not_mem_nil⟩
      · rw [if_neg here] at cut
        obtain ⟨⟨before, after⟩, found, same⟩ := Option.map_eq_some_iff.mp cut
        cases same
        obtain ⟨rfl, free⟩ := ih found
        exact ⟨rfl, List.not_mem_cons_of_ne_of_not_mem (Ne.symm here) free⟩

theorem rsplitOnce_cons (separator c : Char) (rest : List Char) :
    rsplitOnce separator (c :: rest) =
      match rsplitOnce separator rest with
      | some (front, back) => some (c :: front, back)
      | none => if c = separator then some ([], rest) else none := rfl

theorem rsplitOnce_eq_none (free : separator ∉ text) : rsplitOnce separator text = none := by
  induction text with
  | nil => rfl
  | cons c rest ih =>
      have first := List.ne_of_not_mem_cons free
      have later := List.not_mem_of_not_mem_cons free
      simp only [rsplitOnce_cons, ih later, if_neg (Ne.symm first)]

theorem rsplitOnce_append (front : List Char) (free : separator ∉ back) :
    rsplitOnce separator (front ++ separator :: back) = some (front, back) := by
  induction front with
  | nil => simp only [List.nil_append, rsplitOnce_cons, rsplitOnce_eq_none free, ↓reduceIte]
  | cons c rest ih => simp only [List.cons_append, rsplitOnce_cons, ih]

theorem not_mem_of_rsplitOnce (missing : rsplitOnce separator text = none) : separator ∉ text := by
  induction text with
  | nil => exact List.not_mem_nil
  | cons c rest ih =>
      rw [rsplitOnce_cons] at missing
      cases found : rsplitOnce separator rest with
      | some parts =>
          rw [found] at missing
          exact nomatch missing
      | none =>
          rw [found] at missing
          have here : c ≠ separator := fun same => by simp [same] at missing
          exact List.not_mem_cons_of_ne_of_not_mem (Ne.symm here) (ih found)

theorem rsplitOnce_eq_some (cut : rsplitOnce separator text = some (front, back)) :
    text = front ++ separator :: back ∧ separator ∉ back := by
  induction text generalizing front with
  | nil => cases cut
  | cons c rest ih =>
      rw [rsplitOnce_cons] at cut
      cases found : rsplitOnce separator rest with
      | some parts =>
          rw [found] at cut
          cases cut
          obtain ⟨same, free⟩ := ih found
          exact ⟨congrArg (c :: ·) same, free⟩
      | none =>
          rw [found] at cut
          dsimp only at cut
          split at cut
          · rename_i here
            cases cut
            exact ⟨by rw [here]; rfl, not_mem_of_rsplitOnce found⟩
          · cases cut

theorem splitOnceAt_append {c : Char} {rest : List Char} (free : c ∉ front) :
    splitOnceAt (c :: rest) (front ++ (c :: rest ++ back)) = some (front, back) := by
  induction front with
  | nil =>
      have starts : (c :: rest).isPrefixOf (c :: rest ++ back) = true :=
        List.isPrefixOf_iff_prefix.mpr (List.prefix_append _ _)
      rw [List.nil_append, List.cons_append, splitOnceAt_cons, ← List.cons_append, if_pos starts,
        List.drop_left]
  | cons d more ih =>
      have first := List.ne_of_not_mem_cons free
      have later := List.not_mem_of_not_mem_cons free
      have starts : ¬(c :: rest).isPrefixOf (d :: more ++ (c :: rest ++ back)) = true := by
        intro inside
        obtain ⟨tail, same⟩ := List.isPrefixOf_iff_prefix.mp inside
        exact first (List.cons.inj same).1
      rw [List.cons_append, splitOnceAt_cons, ← List.cons_append, if_neg starts, ih later]
      rfl

theorem stripPrefix_append : stripPrefix pattern (pattern ++ text) = some text := by
  have starts : pattern.isPrefixOf (pattern ++ text) = true :=
    List.isPrefixOf_iff_prefix.mpr (List.prefix_append _ _)
  rw [stripPrefix, if_pos starts, List.drop_left]

theorem stripPrefix_eq_some (stripped : stripPrefix pattern text = some back) :
    text = pattern ++ back := by
  unfold stripPrefix at stripped
  split at stripped
  · rename_i starts
    obtain ⟨rest, rfl⟩ := List.isPrefixOf_iff_prefix.mp starts
    rw [List.drop_left] at stripped
    cases stripped
    rfl
  · cases stripped

end Mirage.Cut
