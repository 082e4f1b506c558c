import BathroomRatings.Lib.Paths
import Mathlib.Data.List.Induction

/-!
# Directory trees

A tree of directories and files without links, and what the text of a path leads to
in it.  Every directory on the way must exist, also one that `..` leaves again.
-/

set_option autoImplicit false

namespace BathroomRatings.Lib

open BathroomRatings.Lib.Paths

inductive Entry where
  | file (content : List Char)
  | directory
  deriving DecidableEq

def IsName (name : List Char) : Prop :=
  name ≠ [] ∧ '/' ∉ name ∧ name ≠ ['.'] ∧ name ≠ ['.', '.']

instance (name : List Char) : Decidable (IsName name) :=
  inferInstanceAs (Decidable (_ ∧ _ ∧ _ ∧ _))

/-- A tree, and the directory from which relative paths lead on. -/
structure DirectoryTree where
  node : List (List Char) → Option Entry
  workingDirectory : List (List Char)
  root : node [] = some .directory
  parent : ∀ path name, node (path ++ [name]) ≠ none → node path = some .directory
  named : ∀ path name, node (path ++ [name]) ≠ none → IsName name
  working : node workingDirectory = some .directory

namespace DirectoryTree

/-- Walks on from a place.  An empty step, such as the one behind a last slash, stays
there. -/
def walk (tree : DirectoryTree) (here : List (List Char)) :
    List (List Char) → Option (List (List Char))
  | [] => if (tree.node here).isSome then some here else none
  | step :: rest =>
      if tree.node here = some .directory then
        if step = [] ∨ step = ['.'] then tree.walk here rest
        else if step = ['.', '.'] then tree.walk here.dropLast rest
        else tree.walk (here ++ [step]) rest
      else none

def resolve (tree : DirectoryTree) : List Char → Option (List (List Char))
  | [] => none
  | c :: path =>
      if c = '/' then tree.walk [] (path.splitOn '/')
      else tree.walk tree.workingDirectory ((c :: path).splitOn '/')

variable {tree : DirectoryTree}

/-- What lies below something lies in a directory. -/
theorem directory_of_below {here : List (List Char)} (below : List (List Char))
    (nonempty : below ≠ []) (present : tree.node (here ++ below) ≠ none) :
    tree.node here = some .directory := by
  induction below using List.reverseRecOn with
  | nil => exact absurd rfl nonempty
  | append_singleton above name ih =>
      rw [← List.append_assoc] at present
      have parent := tree.parent _ _ present
      by_cases direct : above = []
      · rw [direct, List.append_nil] at parent
        exact parent
      · apply ih direct
        rw [parent]
        simp

theorem isName_of_mem {path : List (List Char)} (present : tree.node path ≠ none) :
    ∀ name ∈ path, IsName name := by
  induction path using List.reverseRecOn with
  | nil => simp
  | append_singleton path name ih =>
      intro other member
      rcases List.mem_append.mp member with above | last
      · apply ih _ other above
        rw [tree.parent _ _ present]
        simp
      · rw [List.mem_singleton.mp last]
        exact tree.named _ _ present

theorem names_of_present {path : List (List Char)} (present : tree.node path ≠ none) :
    Names '/' path := by
  intro name member
  obtain ⟨nonempty, free, -⟩ := isName_of_mem present name member
  exact ⟨nonempty, free⟩

/-! ## Walking -/

theorem walk_present {here path : List (List Char)} {steps : List (List Char)}
    (led : tree.walk here steps = some path) : tree.node path ≠ none := by
  induction steps generalizing here with
  | nil =>
      unfold walk at led
      split at led
      · rename_i there
        rw [← Option.some.inj led]
        exact Option.isSome_iff_ne_none.mp there
      · exact absurd led (by simp)
  | cons step rest ih =>
      unfold walk at led
      split at led
      · split at led
        · exact ih led
        · split at led
          · exact ih led
          · exact ih led
      · exact absurd led (by simp)

theorem resolve_present {path : List Char} {place : List (List Char)}
    (led : tree.resolve path = some place) : tree.node place ≠ none := by
  cases path with
  | nil => exact absurd led (by simp [resolve])
  | cons c rest =>
      simp only [resolve] at led
      split at led
      · exact walk_present led
      · exact walk_present led

theorem walk_append (here steps more : List (List Char)) :
    tree.walk here (steps ++ more) =
      (tree.walk here steps).bind fun between => tree.walk between more := by
  induction steps generalizing here with
  | nil =>
      rw [List.nil_append]
      by_cases there : (tree.node here).isSome
      · have stay : tree.walk here [] = some here := by
          rw [walk, if_pos there]
        rw [stay]
        rfl
      · have nowhere : tree.walk here [] = none := by
          rw [walk, if_neg there]
        rw [nowhere]
        cases more with
        | nil => exact nowhere
        | cons step rest =>
            rw [walk, if_neg]
            · rfl
            · intro directory
              exact there (by rw [directory]; rfl)
  | cons step rest ih =>
      rw [List.cons_append, walk, walk]
      by_cases directory : tree.node here = some .directory
      · rw [if_pos directory, if_pos directory]
        by_cases stays : step = [] ∨ step = ['.']
        · rw [if_pos stays, if_pos stays]
          exact ih here
        · rw [if_neg stays, if_neg stays]
          by_cases up : step = ['.', '.']
          · rw [if_pos up, if_pos up]
            exact ih here.dropLast
          · rw [if_neg up, if_neg up]
            exact ih (here ++ [step])
      · rw [if_neg directory, if_neg directory]
        rfl

theorem walk_stay (here : List (List Char)) {step : List Char}
    (stays : step = [] ∨ step = ['.']) :
    tree.walk here [step] = if tree.node here = some .directory then some here else none := by
  unfold walk
  by_cases directory : tree.node here = some .directory
  · rw [if_pos directory, if_pos directory, if_pos stays, walk, directory]
    rfl
  · rw [if_neg directory, if_neg directory]

theorem walk_of_names (here : List (List Char)) (names : List (List Char))
    (all : ∀ name ∈ names, IsName name) :
    tree.walk here names =
      if (tree.node (here ++ names)).isSome then some (here ++ names) else none := by
  induction names generalizing here with
  | nil => simp [walk]
  | cons name rest ih =>
      obtain ⟨⟨nonempty, -, notDot, notDots⟩, allRest⟩ := List.forall_mem_cons.mp all
      have step := ih (here ++ [name]) allRest
      rw [List.append_assoc, List.singleton_append] at step
      unfold walk
      by_cases directory : tree.node here = some .directory
      · rw [if_pos directory, if_neg (by simp [nonempty, notDot]), if_neg notDots, step]
      · rw [if_neg directory, if_neg]
        intro present
        exact directory (directory_of_below (name :: rest) (by simp)
          (Option.isSome_iff_ne_none.mp present))

/-- The text of a path leads to that path, if there is something. -/
theorem resolve_render (path : List (List Char)) (all : ∀ name ∈ path, IsName name) :
    tree.resolve (render '/' path) = if (tree.node path).isSome then some path else none := by
  have absolute : tree.resolve (render '/' path) =
      tree.walk [] (([('/' : Char)].intercalate path).splitOn '/') := by
    simp [resolve, render]
  rw [absolute]
  by_cases top : path = []
  · subst top
    have stay : tree.walk [] [[]] = some [] := by
      simp [walk, tree.root]
    simpa [tree.root] using stay
  · rw [List.splitOn_intercalate '/' (fun name member => (all name member).2.1) top,
      walk_of_names [] path all, List.nil_append]

theorem resolve_slash (path rest : List Char) (nonempty : path ≠ []) :
    tree.resolve (path ++ '/' :: rest) =
      (tree.resolve path).bind fun between => tree.walk between (rest.splitOn '/') := by
  obtain ⟨c, more, rfl⟩ := List.exists_cons_of_ne_nil nonempty
  rw [List.cons_append]
  simp only [resolve]
  by_cases absolute : c = '/'
  · rw [if_pos absolute, if_pos absolute, List.splitOn_append_cons_self, walk_append]
  · rw [if_neg absolute, if_neg absolute, ← List.cons_append, List.splitOn_append_cons_self,
      walk_append]

/-- What is put behind the path of a directory leads on from there. -/
theorem resolve_below {path : List Char} {base : List (List Char)} (rest : List Char)
    (led : tree.resolve path = some base) :
    tree.resolve (if path = [] ∨ path.getLast? = some '/' then path ++ rest
      else path ++ '/' :: rest) = tree.walk base (rest.splitOn '/') := by
  have nonempty : path ≠ [] := by
    rintro rfl
    exact absurd led (by simp [resolve])
  by_cases ends : path.getLast? = some '/'
  · rw [if_pos (Or.inr ends)]
    obtain ⟨front, rfl⟩ := List.getLast?_eq_some_iff.mp ends
    rw [List.append_assoc, List.singleton_append]
    by_cases top : front = []
    · subst top
      have stay : tree.resolve ['/'] = some [] := by
        simp [resolve, walk, tree.root]
      rw [List.nil_append] at led
      obtain rfl := Option.some.inj (led.symm.trans stay)
      simp [resolve]
    · rw [resolve_slash front [] top] at led
      obtain ⟨between, there, stay⟩ := Option.bind_eq_some_iff.mp led
      rw [List.splitOn_nil, walk_stay between (Or.inl rfl)] at stay
      rw [resolve_slash front rest top, there, Option.bind_some]
      split at stay
      · rw [Option.some.inj stay]
      · exact absurd stay (by simp)
  · rw [if_neg (by simp [nonempty, ends]), resolve_slash path rest nonempty, led,
      Option.bind_some]

def IsListed (entries : List (List (List Char) × Entry)) (place : List (List Char)) : Prop :=
  place = [] ∨ (entries.lookup place.dropLast = some .directory ∧
    ∀ name ∈ place.getLast?, IsName name)

instance (entries : List (List (List Char) × Entry)) (place : List (List Char)) :
    Decidable (IsListed entries place) :=
  inferInstanceAs (Decidable (_ ∨ (_ ∧ _)))

theorem mem_of_lookup {entries : List (List (List Char) × Entry)} {place : List (List Char)}
    (present : entries.lookup place ≠ none) : place ∈ entries.map (·.1) := by
  obtain ⟨entry, found⟩ := Option.ne_none_iff_exists'.mp present
  obtain ⟨before, behind, split, -⟩ := List.lookup_eq_some_iff.mp found
  simp [split]

/-- The tree of a listing in which every entry has its parent directory. -/
def ofEntries (entries : List (List (List Char) × Entry))
    (root : entries.lookup [] = some .directory)
    (listed : ∀ place ∈ entries.map (·.1), IsListed entries place) : DirectoryTree where
  node place := entries.lookup place
  workingDirectory := []
  root := root
  parent := by
    intro path name present
    rcases listed _ (mem_of_lookup present) with top | ⟨parent, -⟩
    · exact absurd top (by simp)
    · rw [List.dropLast_concat] at parent
      exact parent
  named := by
    intro path name present
    rcases listed _ (mem_of_lookup present) with top | ⟨-, named⟩
    · exact absurd top (by simp)
    · exact named name (by simp)
  working := root

end DirectoryTree
end BathroomRatings.Lib
