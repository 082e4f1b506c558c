import Mathlib.Data.List.Sort

/-!
# Sorting by a comparison

A sort that is handed any comparison rearranges the items.  If the comparison orders them,
then the result is sorted and keeps the order of items that compare equal.
-/

set_option autoImplicit false

namespace BathroomRatings.Lib.StableSort

variable {α : Type}

structure Consistent (compare : α → α → Ordering) (items : List α) : Prop where
  swap : ∀ first ∈ items, ∀ second ∈ items, compare second first = (compare first second).swap
  trans : ∀ first ∈ items, ∀ second ∈ items, ∀ third ∈ items, compare first second ≠ .gt →
    compare second third ≠ .gt → compare first third ≠ .gt

structure Sorter where
  sort {α : Type} : (α → α → Ordering) → List α → List α
  perm : ∀ {α : Type} (compare : α → α → Ordering) (items : List α),
    (sort compare items).Perm items
  sorted : ∀ {α : Type} {compare : α → α → Ordering} {items : List α},
    Consistent compare items →
      (sort compare items).Pairwise fun first second => compare first second ≠ .gt
  stable : ∀ {α : Type} {compare : α → α → Ordering} {items : List α},
    Consistent compare items → ∀ first second, [first, second].Sublist items →
      compare first second = .eq → [first, second].Sublist (sort compare items)

def NotAfter (compare : α → α → Ordering) (first second : α) : Prop :=
  compare first second ≠ .gt

instance (compare : α → α → Ordering) : DecidableRel (NotAfter compare) := fun first second =>
  inferInstanceAs (Decidable (compare first second ≠ .gt))

section Insertion

variable {compare : α → α → Ordering} {items : List α}

theorem Consistent.total (consistent : Consistent compare items)
    (first second : { item // item ∈ items }) :
    NotAfter compare first.1 second.1 ∨ NotAfter compare second.1 first.1 := by
  simp only [NotAfter, consistent.swap first.1 first.2 second.1 second.2]
  cases compare first.1 second.1 <;> simp

theorem Consistent.insertionSort_sorted (consistent : Consistent compare items) :
    (items.insertionSort (NotAfter compare)).Pairwise (NotAfter compare) := by
  let among (first second : { item // item ∈ items }) := NotAfter compare first.1 second.1
  have : Std.Total among := ⟨consistent.total⟩
  have : IsTrans _ among := ⟨fun first second third =>
    consistent.trans first.1 first.2 second.1 second.2 third.1 third.2⟩
  have : DecidableRel among := fun first second =>
    inferInstanceAs (Decidable (NotAfter compare first.1 second.1))
  have sorted := List.pairwise_insertionSort among items.attach
  have same : items.insertionSort (NotAfter compare) =
      (items.attach.insertionSort among).map Subtype.val := by
    rw [List.map_insertionSort among (NotAfter compare) Subtype.val items.attach
      fun _ _ _ _ => Iff.rfl, List.attach_map_subtype_val]
  rw [same, List.pairwise_map]
  exact sorted

end Insertion

def Sorter.insertion : Sorter where
  sort compare items := items.insertionSort (NotAfter compare)
  perm compare items := List.perm_insertionSort (NotAfter compare) items
  sorted consistent := consistent.insertionSort_sorted
  stable _ first second ordered equal :=
    List.pair_sublist_insertionSort (by simp [NotAfter, equal]) ordered

/-! ## The first few -/

section First

variable (sorter : Sorter) {compare : α → α → Ordering} {items : List α} (count : Nat)

/-- A sorted part of the items; no other item comes before any of them, and equal ones stay
in their order. -/
structure First (compare : α → α → Ordering) (items : List α) (count : Nat)
    (chosen : List α) : Prop where
  length : chosen.length = min count items.length
  split : ∃ others, (chosen ++ others).Perm items ∧
    (∀ item ∈ chosen, ∀ other ∈ others, compare item other ≠ .gt) ∧
    ∀ first second, [first, second].Sublist items → compare first second = .eq →
      [first, second].Sublist (chosen ++ others)
  sorted : chosen.Pairwise fun first second => compare first second ≠ .gt

theorem first_take (consistent : Consistent compare items) :
    First compare items count ((sorter.sort compare items).take count) := by
  have perm := sorter.perm compare items
  have sorted := sorter.sorted consistent
  rw [← List.take_append_drop count (sorter.sort compare items), List.pairwise_append] at sorted
  refine ⟨?_, ⟨(sorter.sort compare items).drop count, ?_, sorted.2.2, ?_⟩, sorted.1⟩
  · rw [List.length_take, perm.length_eq]
  · rw [List.take_append_drop]
    exact perm
  · rw [List.take_append_drop]
    exact fun first second => sorter.stable consistent first second

end First

end BathroomRatings.Lib.StableSort
