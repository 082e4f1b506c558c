import BathroomRatings.Lib.Table

/-!
# Resources with one user each

Users hold resources of a table by key.  A table is owned when every resource in it
has exactly one user and no user holds anything else: then nothing is used that was
freed, nothing is freed twice, and nothing is forgotten.
-/

set_option autoImplicit false

namespace BathroomRatings.Lib

variable {κ ν : Type} [DecidableEq κ]

/-- Every resource has one user. -/
def Owned (users : List κ) (table : Table κ ν) : Prop :=
  ∀ key, users.count key = if (table.get key).isSome then 1 else 0

theorem owned_empty : Owned ([] : List κ) (∅ : Table κ ν) := by
  intro key
  simp

namespace Owned

variable {users others : List κ} {table : Table κ ν} {key : κ} {value : ν}

theorem congr (owned : Owned users table) (same : users.Perm others) : Owned others table := by
  intro key
  rw [← same.count_eq]
  exact owned key

theorem present (owned : Owned users table) (used : key ∈ users) :
    ∃ value, table.get key = some value := by
  have positive := List.count_pos_iff.mpr used
  rw [owned key] at positive
  split at positive
  · rename_i there
    exact Option.isSome_iff_exists.mp there
  · exact absurd positive (by omega)

theorem allocate (owned : Owned users table) (unused : table.get key = none) (value : ν) :
    Owned (key :: users) (table.insert key value) := by
  intro other
  rw [List.count_cons, owned other, Table.get_insert]
  by_cases same : other = key
  · subst same
    simp [unused]
  · have differs : ¬ key = other := fun equal => same equal.symm
    simp [same, differs]

/-- A resource is freed by its user. -/
theorem free (owned : Owned (key :: users) table) : Owned users (table.erase key) := by
  intro other
  have counted := owned other
  rw [List.count_cons] at counted
  rw [Table.get_erase]
  by_cases same : other = key
  · subst same
    obtain ⟨value, present⟩ := owned.present List.mem_cons_self
    simp only [present, beq_self_eq_true, if_true, Option.isSome_some] at counted
    simp only [if_true, Option.isSome_none, Bool.false_eq_true, if_false]
    omega
  · have differs : ¬ key = other := fun equal => same equal.symm
    simpa [same, differs] using counted

/-- A resource is changed by its user. -/
theorem modify (owned : Owned (key :: users) table) (value : ν) :
    Owned (key :: users) (table.insert key value) := by
  obtain ⟨before, present⟩ := owned.present List.mem_cons_self
  intro other
  rw [owned other, Table.get_insert]
  by_cases same : other = key
  · subst same
    simp [present]
  · rw [if_neg same]

end Owned

end BathroomRatings.Lib
