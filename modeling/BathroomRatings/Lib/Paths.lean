import Mathlib.Data.List.Infix

/-!
# Path names and their components

A path is a list of names; its text puts a separator before each.  When one text is a
prefix of another, the one path is a prefix of the other, or its last name is a proper
prefix of the name in its place.
-/

set_option autoImplicit false

namespace BathroomRatings.Lib.Paths

variable {α : Type*} (separator : α)

def render (names : List (List α)) : List α :=
  separator :: List.intercalate [separator] names

def joined (names : List (List α)) : List α := names.flatMap (separator :: ·)

/-- `path` leads to, or below, a sibling of `base` whose name extends that of `base`. -/
def Beside (base path : List (List α)) : Prop :=
  ∃ parent name extra rest, base = parent ++ [name] ∧
    path = parent ++ (name ++ extra) :: rest ∧ extra ≠ []

def Names (names : List (List α)) : Prop :=
  ∀ name ∈ names, name ≠ [] ∧ separator ∉ name

theorem joined_cons (name : List α) (more : List (List α)) :
    joined separator (name :: more) = separator :: (name ++ joined separator more) := by
  simp [joined]

theorem render_eq_joined (names : List (List α)) (nonempty : names ≠ []) :
    render separator names = joined separator names := by
  unfold render
  induction names with
  | nil => exact absurd rfl nonempty
  | cons name more ih =>
      cases more with
      | nil => simp [joined]
      | cons next rest =>
          rw [joined_cons, ← ih (by simp)]
          simp

theorem render_append (names : List (List α)) (nonempty : names ≠ []) (name : List α) :
    render separator (names ++ [name]) = render separator names ++ separator :: name := by
  rw [render_eq_joined separator _ (by simp), render_eq_joined separator names nonempty]
  simp [joined]

/-- The text of a path ends in a separator for the root only. -/
theorem render_getLast? {names : List (List α)} (wellFormed : Names separator names) :
    (render separator names).getLast? = some separator ↔ names = [] := by
  rcases List.eq_nil_or_concat names with rfl | ⟨parent, name, rfl⟩
  · simp [render]
  · obtain ⟨nonempty, free⟩ := wellFormed name (by simp)
    have last : (render separator (parent ++ [name])).getLast? = name.getLast? := by
      rw [render_eq_joined separator _ (by simp)]
      rcases List.eq_nil_or_concat name with rfl | ⟨front, c, rfl⟩
      · exact absurd rfl nonempty
      · simp only [joined, List.flatMap_append, List.flatMap_cons, List.flatMap_nil,
          List.append_nil, List.concat_eq_append, ← List.cons_append, ← List.append_assoc,
          List.getLast?_concat]
    rw [List.concat_eq_append, last]
    simp only [List.append_eq_nil_iff, List.cons_ne_self, and_false, iff_false]
    intro ends
    exact free (List.mem_of_getLast? ends)

/-! ## Prefixes of texts -/

variable {separator}

theorem head_of_joined_prefix {more : List (List α)} {c : α} {rest : List α}
    (nonempty : more ≠ []) (occurs : joined separator more <+: c :: rest) : c = separator := by
  cases more with
  | nil => exact absurd rfl nonempty
  | cons name more =>
      rw [joined_cons, List.cons_prefix_cons] at occurs
      exact occurs.1.symm

/-- A separator in the one text must meet one in the other. -/
theorem append_joined_prefix_iff {name other : List α} (more rest : List (List α))
    (nameFree : separator ∉ name) (otherFree : separator ∉ other) :
    name ++ joined separator more <+: other ++ joined separator rest ↔
      (more = [] ∧ name <+: other) ∨
        (more ≠ [] ∧ name = other ∧ joined separator more <+: joined separator rest) := by
  induction name generalizing other with
  | nil =>
      by_cases last : more = []
      · subst last
        simp [joined]
      · cases other with
        | nil => simp [last]
        | cons c other =>
            have differs : ¬ joined separator more <+: c :: (other ++ joined separator rest) := by
              intro occurs
              have same := head_of_joined_prefix last occurs
              exact otherFree (same ▸ List.mem_cons_self)
            simp [last, differs]
  | cons c name ih =>
      have notSeparator : c ≠ separator := by
        rintro rfl
        exact nameFree List.mem_cons_self
      cases other with
      | nil =>
          have differs : ¬ c :: (name ++ joined separator more) <+: joined separator rest := by
            cases rest with
            | nil => simp [joined]
            | cons next rest =>
                rw [joined_cons, List.cons_prefix_cons]
                rintro ⟨same, -⟩
                exact notSeparator same
          simpa using differs
      | cons d other =>
          have step := ih (fun member => nameFree (List.mem_cons_of_mem c member))
            (fun member => otherFree (List.mem_cons_of_mem d member))
          rw [List.cons_append, List.cons_append, List.cons_prefix_cons, step,
            List.cons_prefix_cons, List.cons.injEq]
          tauto

theorem beside_singleton_iff (name other : List α) (rest : List (List α)) :
    Beside [name] (other :: rest) ↔ ∃ extra, other = name ++ extra ∧ extra ≠ [] := by
  constructor
  · rintro ⟨parent, last, extra, behind, base, path, more⟩
    have short : parent = [] := by
      have length := congrArg List.length base
      simp only [List.length_singleton, List.length_append] at length
      exact List.length_eq_zero_iff.mp (by omega)
    subst short
    obtain ⟨same, -⟩ := List.cons.inj base
    obtain ⟨begins, -⟩ := List.cons.inj path
    exact ⟨extra, by rw [begins, same], more⟩
  · rintro ⟨extra, rfl, more⟩
    exact ⟨[], name, extra, rest, rfl, rfl, more⟩

theorem beside_cons_iff (name other : List α) {more : List (List α)} (nonempty : more ≠ [])
    (rest : List (List α)) :
    Beside (name :: more) (other :: rest) ↔ name = other ∧ Beside more rest := by
  constructor
  · rintro ⟨parent, last, extra, behind, base, path, longer⟩
    cases parent with
    | nil => exact absurd (List.cons.inj base).2 nonempty
    | cons first parent =>
        obtain ⟨sameName, base⟩ := List.cons.inj base
        obtain ⟨sameOther, path⟩ := List.cons.inj path
        exact ⟨sameName.trans sameOther.symm, parent, last, extra, behind, base, path, longer⟩
  · rintro ⟨rfl, parent, last, extra, behind, rfl, rfl, longer⟩
    exact ⟨name :: parent, last, extra, behind, rfl, rfl, longer⟩

theorem not_beside_nil (base : List (List α)) : ¬ Beside base [] := by
  rintro ⟨parent, name, extra, rest, -, path, -⟩
  exact absurd path (by simp)

theorem not_prefix_of_beside {base path : List (List α)} (beside : Beside base path)
    (more : List (List α)) : ¬ base <+: path ++ more := by
  obtain ⟨parent, name, extra, rest, rfl, rfl, longer⟩ := beside
  rw [List.append_assoc, List.prefix_append_right_inj, List.cons_append, List.cons_prefix_cons]
  rintro ⟨same, -⟩
  exact longer (List.self_eq_append_right.mp same)

theorem joined_prefix_iff {base path : List (List α)} (baseNames : Names separator base)
    (pathNames : Names separator path) :
    joined separator base <+: joined separator path ↔ base <+: path ∨ Beside base path := by
  induction base generalizing path with
  | nil => simp [joined]
  | cons name more ih =>
      cases path with
      | nil =>
          rw [joined_cons]
          simp [joined, not_beside_nil]
      | cons other rest =>
          obtain ⟨⟨-, nameFree⟩, moreNames⟩ := List.forall_mem_cons.mp baseNames
          obtain ⟨⟨-, otherFree⟩, restNames⟩ := List.forall_mem_cons.mp pathNames
          rw [joined_cons, joined_cons, List.cons_prefix_cons,
            append_joined_prefix_iff more rest nameFree otherFree, List.cons_prefix_cons]
          by_cases last : more = []
          · subst last
            rw [beside_singleton_iff]
            constructor
            · rintro ⟨-, ⟨-, extra, rfl⟩ | ⟨more, -⟩⟩
              · by_cases longer : extra = []
                · exact Or.inl ⟨by rw [longer, List.append_nil], List.nil_prefix⟩
                · exact Or.inr ⟨extra, rfl, longer⟩
              · exact absurd rfl more
            · rintro (⟨rfl, -⟩ | ⟨extra, rfl, -⟩)
              · exact ⟨rfl, Or.inl ⟨rfl, List.prefix_refl _⟩⟩
              · exact ⟨rfl, Or.inl ⟨rfl, List.prefix_append _ _⟩⟩
          · rw [beside_cons_iff name other last, ih moreNames restNames]
            tauto

/-- What a prefix of texts says about the paths. -/
theorem render_prefix_iff {base path : List (List α)} (baseNames : Names separator base)
    (pathNames : Names separator path) :
    render separator base <+: render separator path ↔ base <+: path ∨ Beside base path := by
  by_cases baseRoot : base = []
  · subst baseRoot
    simp [render]
  · rw [render_eq_joined separator base baseRoot]
    by_cases pathRoot : path = []
    · subst pathRoot
      obtain ⟨name, more, rfl⟩ := List.exists_cons_of_ne_nil baseRoot
      have nonempty := (baseNames name List.mem_cons_self).1
      simp [joined_cons, render, not_beside_nil, nonempty]
    · rw [render_eq_joined separator path pathRoot]
      exact joined_prefix_iff baseNames pathNames

end BathroomRatings.Lib.Paths
