import Mathlib.Data.List.AList
import Mathlib.Data.List.Induction

/-!
# Finite tables

Finite maps as association lists without repeated keys, with what an insertion and
a removal do to every key at once.
-/

set_option autoImplicit false

namespace BathroomRatings.Lib

abbrev Table (κ ν : Type) := AList (fun _ : κ => ν)

namespace Table

variable {κ ν : Type} [DecidableEq κ]

def get (table : Table κ ν) (key : κ) : Option ν := table.lookup key

@[simp] theorem get_empty (key : κ) : get (∅ : Table κ ν) key = none :=
  AList.lookup_empty key

theorem get_insert (table : Table κ ν) (key other : κ) (value : ν) :
    get (table.insert key value) other =
      if other = key then some value else get table other := by
  unfold get
  by_cases same : other = key
  · subst same
    rw [if_pos rfl, AList.lookup_insert]
  · rw [if_neg same, AList.lookup_insert_ne same]

theorem get_erase (table : Table κ ν) (key other : κ) :
    get (table.erase key) other = if other = key then none else get table other := by
  unfold get
  by_cases same : other = key
  · subst same
    rw [if_pos rfl, AList.lookup_erase]
  · rw [if_neg same, AList.lookup_erase_ne same]

def insertAll (items : List (κ × ν)) (table : Table κ ν) : Table κ ν :=
  items.foldl (fun current item => current.insert item.1 item.2) table

theorem insertAll_append (first second : List (κ × ν)) (table : Table κ ν) :
    insertAll (first ++ second) table = insertAll second (insertAll first table) := by
  simp [insertAll, List.foldl_append]

/-- The last insertion at a key decides. -/
theorem get_insertAll (items : List (κ × ν)) (table : Table κ ν) (key : κ) :
    get (insertAll items table) key =
      match (items.filter fun item => item.1 = key).getLast? with
      | some item => some item.2
      | none => get table key := by
  induction items using List.reverseRecOn with
  | nil => rfl
  | append_singleton items item ih =>
      rw [insertAll_append, List.filter_append]
      have last : get (insertAll [item] (insertAll items table)) key =
          if key = item.1 then some item.2 else get (insertAll items table) key :=
        get_insert _ _ _ _
      rw [last]
      by_cases same : key = item.1
      · simp [same]
      · have others : ¬ item.1 = key := fun equal => same equal.symm
        simp [same, others, ih]

theorem get_insertAll_constant (keys : List κ) (value : ν) (table : Table κ ν) (key : κ) :
    get (insertAll (keys.map fun k => (k, value)) table) key =
      if key ∈ keys then some value else get table key := by
  induction keys generalizing table with
  | nil => simp [insertAll]
  | cons first rest ih =>
      have unfolded : insertAll ((first :: rest).map fun k => (k, value)) table =
          insertAll (rest.map fun k => (k, value)) (table.insert first value) := rfl
      rw [unfolded, ih, get_insert]
      by_cases here : key = first
      · simp [here]
      · simp [here]

theorem mem_entries_iff (table : Table κ ν) (key : κ) (value : ν) :
    (⟨key, value⟩ : Sigma fun _ : κ => ν) ∈ table.entries ↔
      get table key = some value :=
  AList.mem_lookup_iff.symm

theorem mem_keys_iff (table : Table κ ν) (key : κ) :
    key ∈ table.keys ↔ get table key ≠ none := by
  unfold get
  rw [← Option.isSome_iff_ne_none, AList.lookup_isSome, AList.mem_keys]

omit [DecidableEq κ] in
theorem entries_distinct (table : Table κ ν) :
    table.entries.Pairwise fun first second => first.1 ≠ second.1 :=
  List.pairwise_map.mp table.nodupKeys

end Table
end BathroomRatings.Lib
