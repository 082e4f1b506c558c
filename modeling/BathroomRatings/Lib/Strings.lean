import Mathlib.Algebra.GroupWithZero.Nat
import Mathlib.Data.List.DropRight
import Mathlib.Data.List.Infix

/-!
# Sequences as streams of lines

Substring search and delimiter-terminated line extraction over an arbitrary
alphabet, with the laws that relate both to concatenation: what is found in a
sequence is found at the same place in every extension of it, and lines split
at a delimiter independently on either side.
-/

set_option autoImplicit false

namespace BathroomRatings

/-- A `std::string`: one character for each of its bytes. -/
abbrev Text := List Char

end BathroomRatings

namespace BathroomRatings.Lib.Strings

variable {α : Type*} [DecidableEq α]

def find (pattern : List α) : List α → Option Nat
  | [] => if pattern = [] then some 0 else none
  | c :: rest =>
      if pattern <+: c :: rest then some 0
      else (find pattern rest).map (· + 1)

/-- The lines successive line reads extract.  A delimiter ends a line; a last
line without one counts when it is not empty. -/
def lines (delimiter : α) : List α → List (List α)
  | [] => []
  | c :: rest =>
      if c = delimiter then [] :: lines delimiter rest
      else
        match lines delimiter rest with
        | [] => [[c]]
        | line :: more => (c :: line) :: more

def pieces (delimiter : α) (s : List α) : List (List α) :=
  (lines delimiter s).filter (fun piece => !piece.isEmpty)

theorem find_eq_zero_iff (pattern s : List α) :
    find pattern s = some 0 ↔ pattern <+: s := by
  cases s with
  | nil => simp [find, List.prefix_nil]
  | cons c rest =>
      by_cases occurs : pattern <+: c :: rest
      · simp [find, occurs]
      · simp [find, occurs]

theorem find_spec (pattern s : List α) (position : Nat)
    (found : find pattern s = some position) :
    pattern <+: s.drop position ∧
      ∀ j < position, ¬ pattern <+: s.drop j := by
  induction s generalizing position with
  | nil =>
      by_cases empty : pattern = []
      · simp only [find, if_pos empty, Option.some.injEq] at found
        subst found
        simp [empty]
      · simp [find, empty] at found
  | cons c rest ih =>
      by_cases occurs : pattern <+: c :: rest
      · simp only [find, if_pos occurs, Option.some.injEq] at found
        subst found
        exact ⟨occurs, by simp⟩
      · simp only [find, if_neg occurs, Option.map_eq_some_iff] at found
        obtain ⟨previous, foundRest, rfl⟩ := found
        obtain ⟨here, earlier⟩ := ih previous foundRest
        refine ⟨by simpa using here, ?_⟩
        intro j smaller
        cases j with
        | zero => simpa using occurs
        | succ j => simpa using earlier j (by omega)

theorem find_bound (pattern s : List α) (position : Nat)
    (found : find pattern s = some position) :
    position + pattern.length ≤ s.length := by
  obtain ⟨here, earlier⟩ := find_spec pattern s position found
  have fits := here.length_le
  rw [List.length_drop] at fits
  by_cases empty : pattern = []
  · -- nothing stands before the first occurrence of the empty pattern
    have start : position = 0 := by
      by_contra later
      exact earlier 0 (by omega) (by simp [empty])
    simp [start, empty]
  · have nonempty := List.length_pos_iff.mpr empty
    omega

theorem find_of_first (pattern s : List α) (position : Nat)
    (fits : position ≤ s.length) (here : pattern <+: s.drop position)
    (earlier : ∀ j < position, ¬ pattern <+: s.drop j) :
    find pattern s = some position := by
  induction s generalizing position with
  | nil =>
      have start : position = 0 := by simpa using fits
      subst start
      simpa [find, List.prefix_nil] using here
  | cons c rest ih =>
      cases position with
      | zero => exact (find_eq_zero_iff _ _).mpr (by simpa using here)
      | succ position =>
          have notHere : ¬ pattern <+: c :: rest := by
            simpa using earlier 0 (by omega)
          have foundRest := ih position (by simpa using fits)
            (by simpa using here)
            (fun j smaller => by simpa using earlier (j + 1) (by omega))
          simp [find, notHere, foundRest]

omit [DecidableEq α] in
/-- A match inside `s ++ x` that ends within `s` is a match inside `s`. -/
theorem prefix_drop_append (pattern s x : List α) (j : Nat)
    (inside : j + pattern.length ≤ s.length) :
    pattern <+: (s ++ x).drop j ↔ pattern <+: s.drop j := by
  have reach : j ≤ s.length := by omega
  rw [List.drop_append_of_le_length reach]
  constructor
  · intro occurs
    exact List.prefix_of_prefix_length_le occurs (List.prefix_append _ _)
      (by rw [List.length_drop]; omega)
  · intro occurs
    exact occurs.trans (List.prefix_append _ _)

theorem find_append (pattern s x : List α) (position : Nat)
    (found : find pattern s = some position) :
    find pattern (s ++ x) = some position := by
  obtain ⟨here, earlier⟩ := find_spec pattern s position found
  have bound := find_bound pattern s position found
  apply find_of_first
  · simp only [List.length_append]
    omega
  · exact (prefix_drop_append pattern s x position bound).mpr here
  · intro j smaller occurs
    exact earlier j smaller
      ((prefix_drop_append pattern s x j (by omega)).mp occurs)

/-- A longer sequence has a match that ends inside the shorter one only if the
shorter one already has it. -/
theorem find_of_append (pattern s x : List α) (position : Nat)
    (found : find pattern (s ++ x) = some position)
    (inside : position + pattern.length ≤ s.length) :
    find pattern s = some position := by
  obtain ⟨here, earlier⟩ := find_spec pattern (s ++ x) position found
  apply find_of_first
  · omega
  · exact (prefix_drop_append pattern s x position inside).mp here
  · intro j smaller occurs
    exact earlier j smaller
      ((prefix_drop_append pattern s x j (by omega)).mpr occurs)

theorem find_skip (pattern line s : List α) (symbol : α) (free : symbol ∉ line) :
    find (symbol :: pattern) (line ++ s) =
      (find (symbol :: pattern) s).map (· + line.length) := by
  induction line with
  | nil => simp
  | cons c line ih =>
      have differs : symbol ≠ c := fun same => free (by simp [same])
      have tail := ih fun member => free (List.mem_cons_of_mem c member)
      simp [find, differs, tail, Function.comp_def, Nat.add_assoc]

omit [DecidableEq α] in
theorem split_at_first (p : α → Bool) (s : List α) :
    (∀ c ∈ s, p c = false) ∨
    ∃ before c rest, s = before ++ c :: rest ∧ p c = true ∧
      ∀ d ∈ before, p d = false := by
  induction s with
  | nil => simp
  | cons c s ih =>
      cases here : p c with
      | true => exact Or.inr ⟨[], c, s, rfl, here, by simp⟩
      | false =>
          rcases ih with free | ⟨before, d, rest, split, stop, free⟩
          · exact Or.inl (List.forall_mem_cons.mpr ⟨here, free⟩)
          · exact Or.inr ⟨c :: before, d, rest, by simp [split], stop,
              List.forall_mem_cons.mpr ⟨here, free⟩⟩

/-! ## Lines -/

@[simp] theorem lines_nil (delimiter : α) : lines delimiter [] = [] := rfl

theorem lines_cons_delimiter (delimiter : α) (rest : List α) :
    lines delimiter (delimiter :: rest) = [] :: lines delimiter rest := by
  simp [lines]

theorem lines_eq_nil_iff (delimiter : α) (s : List α) :
    lines delimiter s = [] ↔ s = [] := by
  cases s with
  | nil => simp
  | cons c rest =>
      simp only [lines, reduceCtorEq, iff_false]
      split
      · simp
      · split <;> simp

theorem lines_append_delimiter (delimiter : α) (line rest : List α)
    (free : delimiter ∉ line) :
    lines delimiter (line ++ delimiter :: rest) =
      line :: lines delimiter rest := by
  induction line with
  | nil => exact lines_cons_delimiter delimiter rest
  | cons c line ih =>
      have differs : c ≠ delimiter := fun same => free (by simp [same])
      have tail := ih (fun member => free (List.mem_cons_of_mem _ member))
      simp [lines, differs, tail]

theorem lines_of_free (delimiter : α) (line : List α)
    (free : delimiter ∉ line) (nonempty : line ≠ []) :
    lines delimiter line = [line] := by
  induction line with
  | nil => exact absurd rfl nonempty
  | cons c line ih =>
      have differs : c ≠ delimiter := fun same => free (by simp [same])
      cases line with
      | nil => simp [lines, differs]
      | cons d line =>
          have tail := ih (fun member => free (List.mem_cons_of_mem _ member))
            (by simp)
          rw [lines, if_neg differs, tail]

/-- Reading lines restarts behind every delimiter. -/
theorem lines_append (delimiter : α) (before rest : List α) :
    lines delimiter (before ++ delimiter :: rest) =
      lines delimiter (before ++ [delimiter]) ++ lines delimiter rest := by
  induction before with
  | nil => simp [lines]
  | cons c before ih =>
      by_cases same : c = delimiter
      · subst same
        simp [lines_cons_delimiter, ih]
      · have nonempty : lines delimiter (before ++ [delimiter]) ≠ [] := by
          simp [lines_eq_nil_iff]
        cases firstLines : lines delimiter (before ++ [delimiter]) with
        | nil => exact absurd firstLines nonempty
        | cons line more => simp [lines, same, ih, firstLines]

/-- Every line of a sequence that ends with a delimiter took one more symbol. -/
theorem lines_length (delimiter : α) (before : List α) :
    ((lines delimiter (before ++ [delimiter])).map fun line => line.length + 1).sum =
      before.length + 1 := by
  induction before with
  | nil => simp [lines]
  | cons c before ih =>
      by_cases same : c = delimiter
      · simp [lines, same, ih]
        omega
      · cases rest : lines delimiter (before ++ [delimiter]) with
        | nil => simp [lines_eq_nil_iff] at rest
        | cons line more =>
            rw [rest, List.map_cons, List.sum_cons] at ih
            have longer : lines delimiter (c :: before ++ [delimiter]) = (c :: line) :: more := by
              simp [lines, same, rest]
            rw [longer, List.map_cons, List.sum_cons, List.length_cons, List.length_cons]
            omega

/-- Line reads and splitting differ by an empty last line at most. -/
theorem splitOn_eq_lines (delimiter : α) (s : List α) :
    s.splitOn delimiter = lines delimiter s ∨
      s.splitOn delimiter = lines delimiter s ++ [[]] := by
  induction s with
  | nil => exact Or.inr rfl
  | cons c rest ih =>
      rw [List.splitOn_cons_eq_if_modifyHead]
      by_cases same : c = delimiter
      · rcases ih with exact' | longer
        · exact Or.inl (by simp [lines, same, exact'])
        · exact Or.inr (by simp [lines, same, longer])
      · cases tail : lines delimiter rest with
        | nil =>
            have empty := (lines_eq_nil_iff delimiter rest).mp tail
            exact Or.inl (by simp [lines, same, empty])
        | cons line more =>
            rw [tail] at ih
            rcases ih with exact' | longer
            · exact Or.inl (by simp [lines, same, tail, exact'])
            · exact Or.inr (by simp [lines, same, tail, longer])

theorem pieces_eq_splitOn (delimiter : α) (s : List α) :
    pieces delimiter s = (s.splitOn delimiter).filter (fun piece => !piece.isEmpty) := by
  unfold pieces
  rcases splitOn_eq_lines delimiter s with exact' | longer
  · rw [exact']
  · rw [longer, List.filter_append]
    simp

@[simp] theorem pieces_nil (delimiter : α) : pieces delimiter [] = [] := rfl

theorem pieces_append (delimiter : α) (before after : List α) :
    pieces delimiter (before ++ delimiter :: after) =
      pieces delimiter before ++ pieces delimiter after := by
  simp only [pieces_eq_splitOn, List.splitOn_append_cons_self, List.filter_append]

theorem pieces_cons_delimiter (delimiter : α) (s : List α) :
    pieces delimiter (delimiter :: s) = pieces delimiter s :=
  pieces_append delimiter [] s

theorem pieces_dropWhile (delimiter : α) (s : List α) :
    pieces delimiter (s.dropWhile (· == delimiter)) = pieces delimiter s := by
  induction s with
  | nil => rfl
  | cons c s ih =>
      by_cases same : c = delimiter
      · rw [same, pieces_cons_delimiter, ← ih]
        simp
      · simp [same]

theorem pieces_rdropWhile (delimiter : α) (s : List α) :
    pieces delimiter (s.rdropWhile (· == delimiter)) = pieces delimiter s := by
  induction s using List.reverseRecOn with
  | nil => rfl
  | append_singleton s c ih =>
      by_cases same : c = delimiter
      · rw [same, List.rdropWhile_concat_pos _ _ _ (by simp), pieces_append, ih,
          pieces_nil, List.append_nil]
      · rw [List.rdropWhile_concat_neg _ _ _ (by simpa using same)]

theorem pieces_of_free (delimiter : α) (piece : List α) (free : delimiter ∉ piece)
    (nonempty : piece ≠ []) : pieces delimiter piece = [piece] := by
  unfold pieces
  rw [lines_of_free delimiter piece free nonempty]
  simp [nonempty]

end BathroomRatings.Lib.Strings
