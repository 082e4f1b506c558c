import BathroomRatings.Store.Crash

/-!
# Stores on different data paths

A store calls the file system for paths below its data root only.  Elsewhere it makes at
most the directories that lead there, so stores none of whose roots lies inside another do
not disturb each other.
-/

set_option autoImplicit false

namespace BathroomRatings.Store

open BathroomRatings.Lib BathroomRatings.Lib.Interface BathroomRatings.Lib.Interference
open BathroomRatings.Lib.Decimal FileSystem

def SideBySide (root other : Path) : Prop := ¬ root <+: other ∧ ¬ other <+: root

/-- Outside the root nothing changes but that directories are made on the way to it. -/
def Confined (root : Path) : Changes FileSystem := fun fs fs' =>
  ∀ path, ¬ root <+: path → fs'.get path = fs.get path ∨
    (path <+: root ∧ fs.get path = none ∧ fs'.get path = some .directory)

section Confined

variable {root other : Path} {fs fs' : FileSystem}

theorem confined_refl (root : Path) (fs : FileSystem) : Confined root fs fs :=
  fun _ _ => Or.inl rfl

theorem confined_trans (root : Path) (first second third : FileSystem)
    (earlier : Confined root first second) (later : Confined root second third) :
    Confined root first third := by
  intro path outside
  rcases earlier path outside with same | ⟨above, missing, made⟩
  · rcases later path outside with again | ⟨above, missing, made⟩
    · exact Or.inl (again.trans same)
    · exact Or.inr ⟨above, same.symm.trans missing, made⟩
  · rcases later path outside with again | ⟨_, missing, _⟩
    · exact Or.inr ⟨above, missing, again.trans made⟩
    · rw [made] at missing
      exact absurd missing (by simp)

theorem confined_of_elsewhere {path : Path} (below : root <+: path)
    (elsewhere : ∀ other, other ≠ path → fs'.get other = fs.get other) :
    Confined root fs fs' := by
  intro other outside
  exact Or.inl (elsewhere other fun same => outside (same ▸ below))

theorem confined_insert {path : Path} (below : root <+: path) (fs : FileSystem) (node : Node) :
    Confined root fs (fs.insert path node) :=
  confined_of_elsewhere below fun other differs =>
    (Table.get_insert fs path other node).trans (if_neg differs)

theorem confined_erase {path : Path} (below : root <+: path) (fs : FileSystem) :
    Confined root fs (fs.erase path) :=
  confined_of_elsewhere below fun other differs =>
    (Table.get_erase fs path other).trans (if_neg differs)

theorem confined_makeDirectories {path : Path} (below : root <+: path) (fs : FileSystem) :
    Confined root fs (makeDirectories [] path fs).2 := by
  intro other outside
  rcases makeDirectories_lookup [] path fs other with same | ⟨missing, made, front, _, inside, rfl⟩
  · exact Or.inl same
  · rcases List.prefix_or_prefix_of_prefix inside below with above | beyond
    · exact Or.inr ⟨above, missing, made⟩
    · exact absurd beyond outside

theorem perform_confined (order : IterationOrder) (fs : FileSystem) {command : FileCommand}
    (below : root <+: command.path) : Confined root fs (perform order fs command).2 := by
  cases command with
  | createDirectories path => exact confined_makeDirectories below fs
  | openTruncated path =>
      rcases openTruncated_cases fs path with refused | ⟨opened, _⟩
      · simp only [perform, refused]
        exact confined_refl root fs
      · simp only [perform, opened]
        exact confined_insert below fs _
  | write path offset piece =>
      simp only [perform, write]
      split
      · exact confined_insert below fs _
      · exact confined_refl root fs
  | remove path =>
      simp only [perform, remove]
      split
      · exact confined_refl root fs
      · exact confined_erase below fs
      · split
        · exact confined_erase below fs
        · exact confined_refl root fs
  | _ => exact confined_refl root fs

/-- A store with a root aside keeps its objects. -/
theorem Confined.keeps (confined : Confined root fs fs') (aside : SideBySide root other)
    {map : Objects} (keeps : Keeps other map fs) : Keeps other map fs' := by
  have below : ∀ more, fs'.get (other ++ more) = fs.get (other ++ more) := by
    intro more
    have apart : ¬ root <+: other ++ more := by
      intro inside
      rcases List.prefix_or_prefix_of_prefix inside (List.prefix_append other more) with
        above | beyond
      · exact aside.1 above
      · exact aside.2 beyond
    rcases confined _ apart with same | ⟨above, _, _⟩
    · exact same
    · exact absurd ((List.prefix_append other more).trans above) aside.2
  obtain ⟨shaped, held⟩ := keeps
  refine ⟨⟨?_, ?_, ?_⟩, ?_⟩
  · intro front nonempty inside text
    have apart : ¬ root <+: front := fun within => aside.1 (within.trans inside)
    rcases confined front apart with same | ⟨_, _, made⟩
    · rw [same]
      exact shaped.clear front nonempty inside text
    · rw [made]
      simp
  · intro entityName valid text
    rw [below]
    exact shaped.entity entityName valid text
  · intro entityName valid name node present
    rw [below] at present ⊢
    exact shaped.object entityName valid name node present
  · funext entityName id
    rw [← held]
    simp only [objects, content, below]

end Confined

theorem construct_confined (root : Path) (order : IterationOrder) {fs fs' : FileSystem}
    (ran : (EntityStorePersistent.construct root).run (perform order) fs = some ((), fs')) :
    Confined root fs fs' := by
  obtain ⟨-, rfl⟩ := Prod.mk.inj (Option.some.inj ran)
  exact confined_makeDirectories (List.prefix_refl root) fs

end BathroomRatings.Store
