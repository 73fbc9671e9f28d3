import Mathlib.Data.List.Infix

/-!
Searching one text for many keywords, reporting matches as they are seen.
`Standard` collects what such a search promises: every report is an
occurrence, reports do not overlap and come in order, and no occurrence ends
before the next report does. Which of several keywords ending at the same
place is named is left open. `scan` is a search with these properties.
-/

namespace Mirage.KeywordScan

variable {Letter : Type}

structure Hit where
  pattern : Nat
  start : Nat
  stop : Nat
  deriving DecidableEq, Repr

def OccursAt (keyword text : List Letter) (offset : Nat) : Prop :=
  offset ≤ text.length ∧ keyword <+: text.drop offset

structure Standard (findIter : List (List Letter) → List Letter → List Hit) : Prop where
  sound : ∀ patterns text, ∀ hit ∈ findIter patterns text, ∃ keyword,
    patterns[hit.pattern]? = some keyword ∧ OccursAt keyword text hit.start ∧
      hit.stop = hit.start + keyword.length
  ordered : ∀ patterns text, (findIter patterns text).Pairwise fun a b => a.stop ≤ b.start
  eager : ∀ patterns text keyword offset, keyword ∈ patterns → OccursAt keyword text offset →
    ∃ hit ∈ findIter patterns text, offset ≤ hit.stop ∧
      hit.stop ≤ offset + keyword.length ∧ (keyword ≠ [] → offset < hit.stop)

theorem infix_of_occursAt {keyword text : List Letter} {offset : Nat}
    (occurs : OccursAt keyword text offset) : keyword <:+: text :=
  occurs.2.isInfix.trans (List.drop_suffix offset text).isInfix

theorem exists_occursAt {keyword text : List Letter} (inside : keyword <:+: text) :
    ∃ offset, OccursAt keyword text offset := by
  obtain ⟨before, after, rfl⟩ := inside
  exact ⟨before.length, by simp, by simp⟩

namespace Standard
variable {findIter : List (List Letter) → List Letter → List Hit} {patterns : List (List Letter)}
  {text keyword : List Letter}

/-- An occurrence is reported, or a report that ends inside it comes before. -/
theorem overtaken (standard : Standard findIter) {offset : Nat} (listed : keyword ∈ patterns)
    (occurs : OccursAt keyword text offset) :
    ∃ hit ∈ findIter patterns text, ∃ other, patterns[hit.pattern]? = some other ∧
      OccursAt other text hit.start ∧ hit.stop = hit.start + other.length ∧
        offset ≤ hit.stop ∧ hit.stop ≤ offset + keyword.length ∧
          (keyword ≠ [] → offset < hit.stop) := by
  obtain ⟨hit, member, reached⟩ := standard.eager patterns text keyword offset listed occurs
  obtain ⟨other, at_other, stands, stop⟩ := standard.sound patterns text hit member
  exact ⟨hit, member, other, at_other, stands, stop, reached⟩

theorem apart (standard : Standard findIter) {hit other : Hit} (member : hit ∈ findIter patterns text)
    (also : other ∈ findIter patterns text) (before : hit.start < other.stop)
    (after : other.start < hit.stop) : hit = other := by
  obtain ⟨i, here⟩ := List.mem_iff_getElem?.mp member
  obtain ⟨j, there⟩ := List.mem_iff_getElem?.mp also
  have ordered := List.pairwise_iff_getElem.mp (standard.ordered patterns text)
  obtain ⟨inside, rfl⟩ := List.getElem?_eq_some_iff.mp here
  obtain ⟨within, rfl⟩ := List.getElem?_eq_some_iff.mp there
  rcases Nat.lt_trichotomy i j with first | rfl | second
  · exact absurd (ordered i j inside within first) (Nat.not_le.mpr after)
  · rfl
  · exact absurd (ordered j i within inside second) (Nat.not_le.mpr before)

end Standard

section Scan
variable [DecidableEq Letter]

def longest : List (List Letter × Nat) → Option (List Letter × Nat)
  | [] => none
  | head :: rest => match longest rest with
    | none => some head
    | some best => if head.1.length < best.1.length then some best else some head

/-- The keyword reported when the text since the last report is `window`. An
empty keyword is seen before any letter is read, so it comes first. -/
def choose (patterns : List (List Letter)) (window : List Letter) : Option (List Letter × Nat) :=
  let ending := patterns.zipIdx.filter fun entry => entry.1 <:+ window
  match ending.find? fun entry => entry.1.isEmpty with
  | some entry => some entry
  | none => longest ending

def scanFrom (patterns : List (List Letter)) : List Letter → Nat → List Letter → List Hit
  | window, here, [] =>
      match choose patterns window with
      | some (keyword, pattern) => [⟨pattern, here - keyword.length, here⟩]
      | none => []
  | window, here, letter :: rest =>
      match choose patterns window with
      | some (keyword, pattern) =>
          ⟨pattern, here - keyword.length, here⟩ :: scanFrom patterns [letter] (here + 1) rest
      | none => scanFrom patterns (window ++ [letter]) (here + 1) rest

def scan (patterns : List (List Letter)) (text : List Letter) : List Hit :=
  scanFrom patterns [] 0 text

omit [DecidableEq Letter] in
theorem longest_mem {entries : List (List Letter × Nat)} {best : List Letter × Nat}
    (chosen : longest entries = some best) : best ∈ entries := by
  induction entries generalizing best with
  | nil => simp [longest] at chosen
  | cons head rest ih =>
      simp only [longest] at chosen
      cases tail : longest rest with
      | none =>
          simp only [tail, Option.some.injEq] at chosen
          exact chosen ▸ List.mem_cons_self
      | some other =>
          simp only [tail] at chosen
          split at chosen
          · cases chosen
            exact List.mem_cons_of_mem _ (ih tail)
          · cases chosen
            exact List.mem_cons_self

omit [DecidableEq Letter] in
theorem longest_none {entries : List (List Letter × Nat)} (none : longest entries = none) :
    entries = [] := by
  cases entries with
  | nil => rfl
  | cons head rest =>
      simp only [longest] at none
      cases tail : longest rest <;> simp only [tail] at none
      · cases none
      · split at none <;> cases none

theorem choose_sound {patterns : List (List Letter)} {window keyword : List Letter} {pattern : Nat}
    (chosen : choose patterns window = some (keyword, pattern)) :
    patterns[pattern]? = some keyword ∧ keyword <:+ window := by
  have member : (keyword, pattern) ∈ patterns.zipIdx.filter fun entry => entry.1 <:+ window := by
    simp only [choose] at chosen
    split at chosen
    · rename_i entry found
      cases chosen
      exact List.mem_of_find?_eq_some found
    · exact longest_mem chosen
  obtain ⟨listed, ending⟩ := List.mem_filter.mp member
  exact ⟨List.mem_zipIdx_iff_getElem?.mp listed, by simpa using ending⟩

theorem choose_none {patterns : List (List Letter)} {window keyword : List Letter}
    (none : choose patterns window = none) (listed : keyword ∈ patterns) :
    ¬ keyword <:+ window := by
  intro ending
  obtain ⟨pattern, here⟩ := List.mem_iff_getElem?.mp listed
  have member : (keyword, pattern) ∈ patterns.zipIdx.filter fun entry => entry.1 <:+ window :=
    List.mem_filter.mpr ⟨List.mem_zipIdx_iff_getElem?.mpr here, by simpa using ending⟩
  simp only [choose] at none
  split at none
  · cases none
  · rw [longest_none none] at member
    cases member

omit [DecidableEq Letter] in
/-- A keyword ending the window stands in the text just before `here`. -/
theorem occursAt_window {before window rest keyword : List Letter} (ending : keyword <:+ window) :
    OccursAt keyword (before ++ window ++ rest)
      (before.length + window.length - keyword.length) := by
  obtain ⟨front, rfl⟩ := ending
  have offset : before.length + (front ++ keyword).length - keyword.length =
      (before ++ front).length := by simp; omega
  rw [offset]
  refine ⟨by simp, ?_⟩
  rw [show before ++ (front ++ keyword) ++ rest = (before ++ front) ++ (keyword ++ rest) by simp,
    List.drop_left]
  exact List.prefix_append _ _

theorem report_sound {patterns : List (List Letter)} {before window rest keyword : List Letter}
    {pattern : Nat} (chosen : choose patterns window = some (keyword, pattern)) :
    patterns[pattern]? = some keyword ∧
      OccursAt keyword (before ++ window ++ rest)
        (before.length + window.length - keyword.length) ∧
      before.length + window.length =
        before.length + window.length - keyword.length + keyword.length ∧
      before.length ≤ before.length + window.length - keyword.length := by
  obtain ⟨listed, ending⟩ := choose_sound chosen
  have short := ending.length_le
  exact ⟨listed, occursAt_window ending, by omega, by omega⟩

theorem scanFrom_sound (patterns : List (List Letter)) (before window rest : List Letter) :
    ∀ hit ∈ scanFrom patterns window (before.length + window.length) rest, ∃ keyword,
      patterns[hit.pattern]? = some keyword ∧
        OccursAt keyword (before ++ window ++ rest) hit.start ∧
        hit.stop = hit.start + keyword.length ∧ before.length ≤ hit.start := by
  induction rest generalizing before window with
  | nil =>
      intro hit member
      rw [scanFrom] at member
      split at member
      · rename_i keyword pattern chosen
        rw [List.mem_singleton] at member
        subst member
        exact ⟨keyword, report_sound chosen⟩
      · cases member
  | cons letter rest ih =>
      intro hit member
      rw [scanFrom] at member
      split at member
      · rename_i keyword pattern chosen
        rcases List.mem_cons.mp member with rfl | later
        · exact ⟨keyword, report_sound chosen⟩
        · have position : before.length + window.length + 1 =
              (before ++ window).length + [letter].length := by simp
          rw [position] at later
          obtain ⟨other, listed, occurs, stop, start⟩ := ih (before ++ window) [letter] hit later
          refine ⟨other, listed, by simpa using occurs, stop, ?_⟩
          exact Nat.le_trans (by simp) start
      · have position : before.length + window.length + 1 =
            before.length + (window ++ [letter]).length := by simp; omega
        rw [position] at member
        obtain ⟨other, listed, occurs, stop, start⟩ := ih before (window ++ [letter]) hit member
        exact ⟨other, listed, by simpa using occurs, stop, start⟩

theorem scanFrom_ordered (patterns : List (List Letter)) (before window rest : List Letter) :
    (scanFrom patterns window (before.length + window.length) rest).Pairwise
      fun a b => a.stop ≤ b.start := by
  induction rest generalizing before window with
  | nil =>
      rw [scanFrom]
      split <;> simp
  | cons letter rest ih =>
      rw [scanFrom]
      split
      · have position : before.length + window.length + 1 =
            (before ++ window).length + [letter].length := by simp
        rw [position]
        refine List.pairwise_cons.mpr ⟨?_, ih (before ++ window) [letter]⟩
        intro hit later
        obtain ⟨_, _, _, _, start⟩ := scanFrom_sound patterns (before ++ window) [letter] rest hit later
        simpa using start
      · have position : before.length + window.length + 1 =
            before.length + (window ++ [letter]).length := by simp; omega
        rw [position]
        exact ih before (window ++ [letter])

omit [DecidableEq Letter] in
/-- An occurrence that begins inside the window and ends with it. -/
theorem suffix_of_occursAt {before window rest keyword : List Letter} {offset : Nat}
    (occurs : OccursAt keyword (before ++ window ++ rest) offset)
    (inside : before.length ≤ offset)
    (ends : offset + keyword.length = before.length + window.length) : keyword <:+ window := by
  obtain ⟨_, starts⟩ := occurs
  have tail : (before ++ window ++ rest).drop offset =
      window.drop (offset - before.length) ++ rest := by
    rw [List.append_assoc, List.drop_append, List.drop_append,
      List.drop_eq_nil_of_le inside, List.nil_append,
      show offset - before.length - window.length = 0 by omega, List.drop_zero]
  rw [tail] at starts
  have same : keyword = window.drop (offset - before.length) := by
    have long : (window.drop (offset - before.length)).length = keyword.length := by
      simp; omega
    have both := List.prefix_of_prefix_length_le starts (List.prefix_append _ rest) (by omega)
    exact both.eq_of_length long.symm
  rw [same]
  exact List.drop_suffix _ _

/-- The induction is on the unread text; an occurrence that begins after the
last report and is not yet complete is reported, or overtaken, by its end. -/
theorem scanFrom_eager (patterns : List (List Letter)) (before window rest : List Letter)
    (keyword : List Letter) (offset : Nat) (listed : keyword ∈ patterns)
    (occurs : OccursAt keyword (before ++ window ++ rest) offset)
    (inside : before.length ≤ offset)
    (pending : before.length + window.length ≤ offset + keyword.length) :
    ∃ hit ∈ scanFrom patterns window (before.length + window.length) rest,
      offset ≤ hit.stop ∧ hit.stop ≤ offset + keyword.length ∧
        (keyword ≠ [] → offset < hit.stop) := by
  have bound : offset + keyword.length ≤ before.length + window.length + rest.length := by
    have fits := occurs.2.length_le
    have start := occurs.1
    simp at fits start
    omega
  induction rest generalizing before window with
  | nil =>
      have ends : offset + keyword.length = before.length + window.length := by simp at bound; omega
      have ending := suffix_of_occursAt occurs inside ends
      rw [scanFrom]
      split
      · refine ⟨_, List.mem_singleton.mpr rfl, by simp only; omega, by simp only; omega, ?_⟩
        intro nonempty
        have := List.length_pos_iff.mpr nonempty
        simp only
        omega
      · rename_i none
        exact absurd ending (choose_none none listed)
  | cons letter rest ih =>
      rw [scanFrom]
      split
      -- A match ends here: it begins after the occurrence does, or the scan goes on behind it.
      · by_cases now : offset < before.length + window.length ∨ keyword = []
          ∧ offset = before.length + window.length
        · refine ⟨_, List.mem_cons_self, ?_, pending, ?_⟩
          · rcases now with early | ⟨_, same⟩
            · exact Nat.le_of_lt early
            · exact Nat.le_of_eq same
          · intro nonempty
            rcases now with early | ⟨emptyKeyword, _⟩
            · exact early
            · exact absurd emptyKeyword nonempty
        · have position : before.length + window.length + 1 =
              (before ++ window).length + [letter].length := by simp
          -- An occurrence that ended here would have been chosen.
          have later : before.length + window.length < offset + keyword.length := by
            have := List.length_pos_iff (l := keyword)
            rcases Nat.lt_or_ge offset (before.length + window.length) with early | late
            · exact absurd (Or.inl early) now
            · by_cases empty : keyword = []
              · have : offset ≠ before.length + window.length := fun same =>
                  now (Or.inr ⟨empty, same⟩)
                omega
              · have := List.length_pos_iff.mpr empty
                omega
          obtain ⟨hit, member, facts⟩ := ih (before ++ window) [letter] (by simpa using occurs)
            (by simp; rcases Nat.lt_or_ge offset (before.length + window.length) with early | late
                · exact absurd (Or.inl early) now
                · exact late)
            (by simp; omega) (by simp at bound ⊢; omega)
          rw [← position] at member
          exact ⟨hit, List.mem_cons_of_mem _ member, facts⟩
      · rename_i none
        have position : before.length + window.length + 1 =
            before.length + (window ++ [letter]).length := by simp; omega
        have later : before.length + window.length < offset + keyword.length := by
          refine Nat.lt_of_le_of_ne pending fun ends => ?_
          exact choose_none none listed (suffix_of_occursAt occurs inside ends.symm)
        obtain ⟨hit, member, facts⟩ := ih before (window ++ [letter]) (by simpa using occurs)
          inside (by simp; omega) (by simp at bound ⊢; omega)
        rw [← position] at member
        exact ⟨hit, member, facts⟩

theorem scan_standard : Standard (@scan Letter _) where
  sound patterns text hit member := by
    obtain ⟨keyword, listed, occurs, stop, _⟩ := scanFrom_sound patterns [] [] text hit member
    exact ⟨keyword, listed, by simpa using occurs, stop⟩
  ordered patterns text := scanFrom_ordered patterns [] [] text
  eager patterns text keyword offset listed occurs := by
    exact scanFrom_eager patterns [] [] text keyword offset listed (by simpa using occurs)
      (Nat.zero_le _) (Nat.zero_le _)

end Scan

end Mirage.KeywordScan
