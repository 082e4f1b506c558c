import Mathlib.Logic.Function.Iterate
import Mathlib.Tactic.NormNum

/-!
# Two's complement words

A signed machine word of a given width is an integer in its range; arithmetic
that leaves the range wraps around.
-/

set_option autoImplicit false

namespace BathroomRatings.Lib.Word

/-- The signed word with the low `bits` bits of `value`. -/
def wrap (bits : Nat) (value : Int) : Int := value.bmod (2 ^ bits)

def InRange32 (value : Int) : Prop := -2147483648 ≤ value ∧ value < 2147483648

instance (value : Int) : Decidable (InRange32 value) :=
  inferInstanceAs (Decidable (_ ∧ _))

structure Word32 where
  value : Int
  inRange : InRange32 value

theorem wrap32_of_inRange {value : Int} (inRange : InRange32 value) :
    wrap 32 value = value := by
  obtain ⟨lower, upper⟩ := inRange
  apply Int.bmod_eq_of_le
  · norm_num
    exact lower
  · norm_num
    exact upper

theorem wrap32_inRange (value : Int) : InRange32 (wrap 32 value) := by
  have lower := Int.le_bmod (x := value) (m := 2 ^ 32) (by norm_num)
  have upper := Int.bmod_lt (x := value) (m := 2 ^ 32) (by norm_num)
  norm_num at lower upper
  exact ⟨lower, upper⟩

/-- Wrapping early does not change a later multiply-and-add. -/
theorem wrap_mul_add (bits : Nat) (a b c : Int) :
    wrap bits (wrap bits a * b + c) = wrap bits (a * b + c) := by
  unfold wrap
  rw [← Int.bmod_add_bmod (x := a.bmod (2 ^ bits) * b), Int.bmod_mul_bmod,
    Int.bmod_add_bmod]

def successor (value : Int) : Int := wrap 32 (value + 1)

theorem successor_iterate (start : Int) (inRange : InRange32 start) (steps : Nat) :
    successor^[steps] start = wrap 32 (start + steps) := by
  induction steps with
  | zero => simp [wrap32_of_inRange inRange]
  | succ steps ih =>
      rw [Function.iterate_succ_apply', ih]
      unfold successor
      have folded := wrap_mul_add 32 (start + steps) 1 1
      simp only [mul_one] at folded
      rw [folded]
      congr 1
      push_cast
      omega

theorem successor_iterate_inRange (start : Int) (inRange : InRange32 start)
    (steps : Nat) : InRange32 (successor^[steps] start) := by
  rw [successor_iterate start inRange]
  exact wrap32_inRange _

/-- Up to the top of the range the increments do not wrap. -/
theorem successor_iterate_of_small (start : Int) (inRange : InRange32 start)
    (steps : Nat) (small : start + steps < 2147483648) :
    successor^[steps] start = start + steps := by
  rw [successor_iterate start inRange]
  apply wrap32_of_inRange
  obtain ⟨lower, upper⟩ := inRange
  constructor
  · omega
  · exact small

theorem successor_iterate_distinct (start : Int) (inRange : InRange32 start)
    (i j : Nat) (iSmall : i < 4294967296) (jSmall : j < 4294967296)
    (same : successor^[i] start = successor^[j] start) : i = j := by
  rw [successor_iterate start inRange, successor_iterate start inRange] at same
  have residues := congrArg (fun value => value % (2 ^ 32 : Int)) same
  unfold wrap at residues
  have left := Int.bmod_emod (x := start + i) (m := 2 ^ 32)
  have right := Int.bmod_emod (x := start + j) (m := 2 ^ 32)
  norm_num at left right residues
  omega

end BathroomRatings.Lib.Word
