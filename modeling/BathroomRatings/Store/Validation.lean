import BathroomRatings.Lib.Strings
import BathroomRatings.Lib.Decimal
import BathroomRatings.Lib.Word

/-!
# The store interface and its arguments

The interface of an entity store, over whatever its operations act on, and
`EntityStoreValidation`, less its JSON check, which a library makes.  The
arithmetic of `ParseId` is that of a 32-bit `int` that wraps.
-/

set_option autoImplicit false

namespace BathroomRatings.Store

open BathroomRatings.Lib.Decimal BathroomRatings.Lib.Word

/-- `read` is given the text its out parameter holds, and returns what it holds
afterwards. -/
structure EntityStore (m : Type → Type) where
  create : Text → Text → m Int
  read : Text → Int → Text → m (Bool × Text)
  update : Text → Int → Text → m Bool
  delete : Text → Int → m Bool
  list : Text → m (List Int)

def isValidEntityName (entityName : Text) : Bool :=
  !entityName.isEmpty &&
    entityName.all (fun c => c.isAlphanum || c == '_' || c == '-')

def parseDigits : Int → Text → Option Int
  | result, [] => some result
  | result, c :: rest =>
      if c.isDigit then
        parseDigits (wrap 32 (result * 10 + ((c.toNat : Int) - ('0'.toNat : Int)))) rest
      else none

def parseId (segment : Text) : Option Int :=
  if segment.isEmpty then none else parseDigits 0 segment

theorem isValidEntityName_iff (entityName : Text) :
    isValidEntityName entityName = true ↔
      entityName ≠ [] ∧
        ∀ c ∈ entityName, c.isAlphanum = true ∨ c = '_' ∨ c = '-' := by
  simp [isValidEntityName, or_assoc]

theorem slash_not_mem_of_valid {entityName : Text}
    (valid : isValidEntityName entityName = true) : '/' ∉ entityName := by
  intro member
  have allowed := ((isValidEntityName_iff entityName).mp valid).2 '/' member
  exact absurd allowed (by decide)

theorem ofDigitChars_cons (c : Char) (rest : Text) (start : Nat) :
    Nat.ofDigitChars 10 (c :: rest) start =
      Nat.ofDigitChars 10 rest (start * 10 + (c.toNat - '0'.toNat)) := by
  simp [Nat.ofDigitChars, Nat.mul_comm]

theorem digit_value {c : Char} (digit : c.isDigit = true) :
    (c.toNat : Int) - ('0'.toNat : Int) = ((c.toNat - '0'.toNat : Nat) : Int) := by
  have lower : '0'.toNat ≤ c.toNat := by
    simp only [Char.isDigit, Bool.and_eq_true, decide_eq_true_eq] at digit
    exact digit.1
  omega

/-- Wrapping at every digit is wrapping once at the end. -/
theorem parseDigits_eq (digits : Text) (start : Nat)
    (all : ∀ c ∈ digits, c.isDigit = true) :
    parseDigits (wrap 32 start) digits =
      some (wrap 32 (Nat.ofDigitChars 10 digits start : Nat)) := by
  induction digits generalizing start with
  | nil => rfl
  | cons c rest ih =>
      have digit := all c List.mem_cons_self
      unfold parseDigits
      rw [if_pos digit, wrap_mul_add, digit_value digit, ofDigitChars_cons]
      have step := ih (start * 10 + (c.toNat - '0'.toNat))
        (fun d member => all d (List.mem_cons_of_mem c member))
      push_cast at step ⊢
      exact step

theorem parseDigits_none (digits : Text) (start : Int)
    (bad : ∃ c ∈ digits, c.isDigit = false) : parseDigits start digits = none := by
  induction digits generalizing start with
  | nil => simp at bad
  | cons c rest ih =>
      unfold parseDigits
      cases digit : c.isDigit with
      | false => simp
      | true =>
          rw [if_pos rfl]
          apply ih
          obtain ⟨d, member, notDigit⟩ := bad
          cases member with
          | head => simp [digit] at notDigit
          | tail _ member => exact ⟨d, member, notDigit⟩

theorem parseId_iff (segment : Text) (id : Int) :
    parseId segment = some id ↔
      segment ≠ [] ∧ (∀ c ∈ segment, c.isDigit = true) ∧
        id = wrap 32 (digitsValue segment) := by
  unfold parseId
  cases segment with
  | nil => simp
  | cons c rest =>
      by_cases all : ∀ d ∈ c :: rest, d.isDigit = true
      · have answer := parseDigits_eq (c :: rest) 0 all
        rw [Nat.cast_zero, wrap32_of_inRange (by constructor <;> norm_num)] at answer
        simp only [List.isEmpty_cons, Bool.false_eq_true, if_false, answer,
          Option.some.injEq, ne_eq, reduceCtorEq, not_false_eq_true, true_and]
        constructor
        · intro same
          exact ⟨all, same.symm⟩
        · intro same
          exact same.2.symm
      · have rejected := parseDigits_none (c :: rest) 0 (by
          push Not at all
          obtain ⟨d, member, notDigit⟩ := all
          exact ⟨d, member, by simpa using notDigit⟩)
        simp only [List.isEmpty_cons, Bool.false_eq_true, if_false, rejected,
          reduceCtorEq, false_iff]
        intro accepted
        exact all accepted.2.1

/-- `ParseId` inverts `std::to_string` on the nonnegative `int`s. -/
theorem parseId_decimal {id : Int} (nonneg : 0 ≤ id) (small : id < 2147483648) :
    parseId (decimal id) = some id := by
  have inRange : InRange32 id := ⟨by omega, small⟩
  rw [parseId_iff, digitsValue_decimal nonneg, wrap32_of_inRange inRange]
  exact ⟨decimal_ne_nil id, decimal_digits nonneg, rfl⟩

theorem parseId_decimal_of_neg {id : Int} (negative : id < 0) :
    parseId (decimal id) = none := by
  rw [Option.eq_none_iff_forall_ne_some]
  intro other accepted
  have digits := ((parseId_iff _ _).mp accepted).2.1
  have sign := digits '-' (by simp [decimal, negative])
  exact absurd sign (by decide)

end BathroomRatings.Store
