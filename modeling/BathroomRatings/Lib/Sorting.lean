import Mathlib.Algebra.Order.Group.Int
import Mathlib.Data.List.Sort

/-!
# Ascending lists of numbers

Lists whose order is not determined, and the ascending lists that sorting makes of
them.
-/

set_option autoImplicit false

namespace BathroomRatings.Lib.Sorting

structure Arrangement (α : Type) where
  arrange : List α → List α
  perm : ∀ elements, (arrange elements).Perm elements

def Arrangement.plain {α : Type} : Arrangement α :=
  ⟨fun elements => elements, fun elements => List.Perm.refl elements⟩

def ascending (numbers : List Int) : List Int := numbers.insertionSort (· ≤ ·)

theorem mem_ascending {numbers : List Int} {n : Int} :
    n ∈ ascending numbers ↔ n ∈ numbers :=
  List.mem_insertionSort _

theorem ascending_strict {numbers : List Int} (distinct : numbers.Nodup) :
    (ascending numbers).Pairwise (· < ·) := by
  have sorted := List.pairwise_insertionSort (· ≤ ·) numbers
  have nodup := (List.perm_insertionSort (· ≤ ·) numbers).nodup_iff.mpr distinct
  have both := sorted.and nodup
  apply both.imp
  rintro first second ⟨le, ne⟩
  omega

end BathroomRatings.Lib.Sorting
