import Mathlib.Data.Finset.Card
import Mathlib.Logic.Function.Iterate

/-!
# The first free value of a sequence

A search that follows `next` from a starting value until it meets a value that is
not occupied.  The fuel bounds the steps; a search of finitely many occupied
values that visits no value twice needs one step more than there are values.
-/

set_option autoImplicit false

namespace BathroomRatings.Lib.Search

variable {α : Type*}

def firstFree (next : α → α) (occupied : α → Bool) : Nat → α → Option α
  | 0, _ => none
  | fuel + 1, value =>
      if occupied value then firstFree next occupied fuel (next value)
      else some value

/-- `steps` is the number of occupied values before the free one. -/
structure Found (next : α → α) (occupied : α → Bool) (start result : α)
    (steps : Nat) : Prop where
  reached : next^[steps] start = result
  free : occupied result = false
  passed : ∀ i < steps, occupied (next^[i] start) = true

theorem firstFree_found (next : α → α) (occupied : α → Bool) (fuel : Nat)
    (start result : α) (found : firstFree next occupied fuel start = some result) :
    ∃ steps < fuel, Found next occupied start result steps := by
  induction fuel generalizing start with
  | zero => simp [firstFree] at found
  | succ fuel ih =>
      unfold firstFree at found
      cases busy : occupied start with
      | false =>
          rw [busy, if_neg Bool.false_ne_true, Option.some.injEq] at found
          subst found
          exact ⟨0, by omega, rfl, busy, by simp⟩
      | true =>
          rw [busy, if_pos rfl] at found
          obtain ⟨steps, smaller, reached, free, passed⟩ := ih (next start) found
          refine ⟨steps + 1, by omega, reached, free, ?_⟩
          intro i before
          cases i with
          | zero => exact busy
          | succ i => exact passed i (by omega)

theorem firstFree_none (next : α → α) (occupied : α → Bool) (fuel : Nat)
    (start : α) (missing : firstFree next occupied fuel start = none) :
    ∀ i < fuel, occupied (next^[i] start) = true := by
  induction fuel generalizing start with
  | zero => simp
  | succ fuel ih =>
      unfold firstFree at missing
      cases busy : occupied start with
      | false => simp [busy] at missing
      | true =>
          rw [busy, if_pos rfl] at missing
          intro i smaller
          cases i with
          | zero => exact busy
          | succ i => exact ih (next start) missing i (by omega)

theorem firstFree_of_found {next : α → α} {occupied : α → Bool} {start result : α}
    {steps : Nat} (found : Found next occupied start result steps) (fuel : Nat)
    (enough : steps < fuel) : firstFree next occupied fuel start = some result := by
  obtain ⟨reached, free, passed⟩ := found
  induction fuel generalizing start steps with
  | zero => exact absurd enough (by omega)
  | succ fuel ih =>
      unfold firstFree
      cases steps with
      | zero =>
          have same : start = result := reached
          rw [same, free, if_neg Bool.false_ne_true]
      | succ steps =>
          have busy : occupied start = true := passed 0 (by omega)
          rw [busy, if_pos rfl]
          have shorter : steps < fuel := by omega
          apply ih shorter reached
          intro i before
          exact passed (i + 1) (by omega)

/-- A search that ends has met no value twice: it would have gone round for ever. -/
theorem Found.distinct {next : α → α} {occupied : α → Bool} {start result : α} {steps : Nat}
    (found : Found next occupied start result steps) (i j : Nat) (within : j ≤ steps)
    (before : i < j) : next^[i] start ≠ next^[j] start := by
  intro same
  have around : next^[steps - j + i] start = result := by
    rw [Function.iterate_add_apply, same, ← Function.iterate_add_apply,
      Nat.sub_add_cancel within]
    exact found.reached
  have busy := found.passed (steps - j + i) (by omega)
  rw [around, found.free] at busy
  exact absurd busy (by simp)

theorem Found.steps_le [DecidableEq α] {next : α → α} {occupied : α → Bool}
    {start result : α} {steps : Nat} (found : Found next occupied start result steps)
    (values : Finset α) (covered : ∀ value, occupied value = true → value ∈ values) :
    steps ≤ values.card := by
  have visits : ((Finset.range steps).image fun i => next^[i] start).card = steps := by
    rw [Finset.card_image_of_injOn, Finset.card_range]
    intro i iMem j jMem same
    have iSmall := Finset.mem_range.mp iMem
    have jSmall := Finset.mem_range.mp jMem
    rcases Nat.lt_trichotomy i j with less | equal | more
    · exact absurd same (found.distinct i j (by omega) less)
    · exact equal
    · exact absurd same.symm (found.distinct j i (by omega) more)
  have inside : ((Finset.range steps).image fun i => next^[i] start) ⊆ values := by
    intro value member
    obtain ⟨i, smaller, rfl⟩ := Finset.mem_image.mp member
    exact covered _ (found.passed i (Finset.mem_range.mp smaller))
  rw [← visits]
  exact Finset.card_le_card inside

/-- A search ends if it has more steps than there are occupied values to meet, and
meets none of them twice. -/
theorem firstFree_total [DecidableEq α] (next : α → α) (occupied : α → Bool)
    (fuel : Nat) (start : α) (values : Finset α) (few : values.card < fuel)
    (covered : ∀ i ≤ values.card, occupied (next^[i] start) = true → next^[i] start ∈ values)
    (distinct : ∀ i ≤ values.card, ∀ j ≤ values.card,
      next^[i] start = next^[j] start → i = j) :
    ∃ result steps, steps ≤ values.card ∧
      firstFree next occupied fuel start = some result ∧
      Found next occupied start result steps := by
  cases search : firstFree next occupied (values.card + 1) start with
  | some result =>
      obtain ⟨steps, bound, found⟩ := firstFree_found _ _ _ _ _ search
      exact ⟨result, steps, by omega, firstFree_of_found found fuel (by omega), found⟩
  | none =>
      have busy := firstFree_none next occupied (values.card + 1) start search
      have visits : ((Finset.range (values.card + 1)).image fun i => next^[i] start).card =
          values.card + 1 := by
        rw [Finset.card_image_of_injOn, Finset.card_range]
        intro i iMem j jMem same
        have iSmall := Finset.mem_range.mp iMem
        have jSmall := Finset.mem_range.mp jMem
        exact distinct i (by omega) j (by omega) same
      have inside : ((Finset.range (values.card + 1)).image fun i => next^[i] start) ⊆
          values := by
        intro value member
        obtain ⟨i, smaller, rfl⟩ := Finset.mem_image.mp member
        have bound := Finset.mem_range.mp smaller
        exact covered i (by omega) (busy i bound)
      have bound := Finset.card_le_card inside
      omega

end BathroomRatings.Lib.Search
