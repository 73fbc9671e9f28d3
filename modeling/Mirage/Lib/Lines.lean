import Mathlib.Data.List.Basic

/-!
Text cut into lines, `str::lines`. Lines without a line feed of their own, each
ended by one, are found again.
-/

namespace Mirage.Lines

/-- A line without the carriage return of its line ending. -/
def chomp (line : List Char) : List Char :=
  if line.getLast? = some '\r' then line.dropLast else line

/-- `str::lines`. The end of the last line is optional. -/
def lines (text : List Char) : List (List Char) :=
  let parts := text.splitOn '\n'
  let whole := parts.dropLast.map chomp
  match parts.getLast? with
  | none | some [] => whole
  | some rest => whole ++ [rest]

theorem lines_cons {line : List Char} (clean : '\n' ∉ line) (rest : List Char) :
    lines (line ++ '\n' :: rest) = chomp line :: lines rest := by
  have later : rest.splitOn '\n' ≠ [] := List.splitOn_ne_nil _ _
  simp only [lines, List.splitOn_append_cons_self_of_not_mem clean,
    List.dropLast_cons_of_ne_nil later, List.map_cons, List.getLast?_cons_of_ne_nil later]
  split <;> rfl

theorem chomp_eq_self {line : List Char} (plain : line.getLast? ≠ some '\r') :
    chomp line = line := if_neg plain

theorem mem_of_mem_chomp {line : List Char} {c : Char} (member : c ∈ chomp line) : c ∈ line := by
  rw [chomp] at member
  split at member
  · exact (List.dropLast_prefix _).subset member
  · exact member

theorem of_mem_splitOn {text part : List Char} {separator : Char}
    (member : part ∈ text.splitOn separator) : separator ∉ part ∧ ∀ c ∈ part, c ∈ text := by
  induction text generalizing part with
  | nil =>
      rw [List.splitOn_nil, List.mem_singleton] at member
      simp [member]
  | cons c rest ih =>
      rw [List.splitOn_cons_eq_if_modifyHead] at member
      split at member
      · rcases List.mem_cons.mp member with rfl | later
        · simp
        · exact ⟨(ih later).1, fun d inside => List.mem_cons_of_mem _ ((ih later).2 d inside)⟩
      · rename_i other
        cases parts : rest.splitOn separator with
        | nil => exact absurd parts (List.splitOn_ne_nil _ _)
        | cons first others =>
            rw [parts, List.modifyHead_cons] at member
            rcases List.mem_cons.mp member with rfl | later
            · obtain ⟨free, inside⟩ := ih (parts ▸ List.mem_cons_self)
              constructor
              · simp only [List.mem_cons, not_or]
                exact ⟨fun same => other (by simp [same]), free⟩
              · intro d among
                rcases List.mem_cons.mp among with rfl | tail
                · exact List.mem_cons_self
                · exact List.mem_cons_of_mem _ (inside d tail)
            · obtain ⟨free, inside⟩ := ih (parts ▸ List.mem_cons_of_mem _ later)
              exact ⟨free, fun d among => List.mem_cons_of_mem _ (inside d among)⟩

theorem of_mem_lines {text line : List Char} (member : line ∈ lines text) :
    '\n' ∉ line ∧ ∀ c ∈ line, c ∈ text := by
  have whole : ∀ part ∈ (text.splitOn '\n').dropLast.map chomp,
      '\n' ∉ part ∧ ∀ c ∈ part, c ∈ text := by
    intro part found
    obtain ⟨raw, cut, rfl⟩ := List.mem_map.mp found
    obtain ⟨free, inside⟩ := of_mem_splitOn ((List.dropLast_prefix _).subset cut)
    exact ⟨fun bad => free (mem_of_mem_chomp bad), fun c among => inside c (mem_of_mem_chomp among)⟩
  simp only [lines] at member
  split at member
  · exact whole line member
  · exact whole line member
  · rename_i rest _ last
    rcases List.mem_append.mp member with head | tail
    · exact whole line head
    · rw [List.mem_singleton.mp tail]
      exact of_mem_splitOn (List.mem_of_getLast? last)

end Mirage.Lines
