import Mathlib.Tactic.TypeStar

/-!
# Selection of a largest element

A scan that replaces its choice only by an eligible element of larger weight: it ends
with the first of the eligible elements of largest weight.  Elements of weight zero
are never chosen.
-/

set_option autoImplicit false

namespace BathroomRatings.Lib.Selection

variable {α : Type*} (eligible : α → Bool) (weight : α → Nat)

def firstLargest : List α → Option α → Nat → Option α
  | [], best, _ => best
  | item :: rest, best, bound =>
      if eligible item ∧ weight item > bound then
        firstLargest rest (some item) (weight item)
      else firstLargest rest best bound

/-- An eligible element of a list, heavier than a bound, that no eligible element of
the list outweighs. -/
structure Largest (items : List α) (bound : Nat) (item : α) : Prop where
  member : item ∈ items
  fits : eligible item = true
  above : bound < weight item
  largest : ∀ other ∈ items, eligible other = true → weight other ≤ weight item

/-- The scan keeps the choice it started with if nothing outweighs it. -/
theorem firstLargest_cases (items : List α) (best : Option α) (bound : Nat) :
    (firstLargest eligible weight items best bound = best ∧
      ∀ other ∈ items, eligible other = true → weight other ≤ bound) ∨
    ∃ item, firstLargest eligible weight items best bound = some item ∧
      Largest eligible weight items bound item := by
  induction items generalizing best bound with
  | nil => exact Or.inl ⟨rfl, by simp⟩
  | cons first rest ih =>
      by_cases better : eligible first ∧ weight first > bound
      · rw [firstLargest, if_pos better]
        rcases ih (some first) (weight first) with ⟨kept, below⟩ | ⟨item, found, chosen⟩
        · refine Or.inr ⟨first, kept, List.mem_cons_self, better.1, better.2, ?_⟩
          intro other member fits
          rcases List.mem_cons.mp member with rfl | later
          · exact Nat.le_refl _
          · exact below other later fits
        · refine Or.inr ⟨item, found, List.mem_cons_of_mem _ chosen.member,
            chosen.fits, Nat.lt_trans better.2 chosen.above, ?_⟩
          intro other member fits
          rcases List.mem_cons.mp member with rfl | later
          · exact Nat.le_of_lt chosen.above
          · exact chosen.largest other later fits
      · rw [firstLargest, if_neg better]
        have small : eligible first = true → weight first ≤ bound := fun fits =>
          Nat.not_lt.mp fun larger => better ⟨fits, larger⟩
        rcases ih best bound with ⟨kept, below⟩ | ⟨item, found, chosen⟩
        · refine Or.inl ⟨kept, ?_⟩
          intro other member fits
          rcases List.mem_cons.mp member with rfl | later
          · exact small fits
          · exact below other later fits
        · refine Or.inr ⟨item, found, List.mem_cons_of_mem _ chosen.member,
            chosen.fits, chosen.above, ?_⟩
          intro other member fits
          rcases List.mem_cons.mp member with rfl | later
          · exact Nat.le_trans (small fits) (Nat.le_of_lt chosen.above)
          · exact chosen.largest other later fits

end BathroomRatings.Lib.Selection
