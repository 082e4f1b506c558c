import BathroomRatings.Lib.Interface

/-!
# Programs that are cut off

A program may be stopped behind any of its calls.  What holds of the state wherever that
happens is shown call by call.
-/

set_option autoImplicit false

namespace BathroomRatings.Lib.Crash

open BathroomRatings.Lib.Interface BathroomRatings.Lib.Interface.Program

variable {Command : Type} {Reply : Command → Type} {σ α β : Type}

/-- The state that a program leaves if it is cut off behind its first calls. -/
def cutOff (handler : Handler Command Reply σ) :
    Nat → Program Command Reply α → σ → σ
  | calls + 1, .call command next, state =>
      cutOff handler calls (next (handler state command).1) (handler state command).2
  | _, _, state => state

/-- Wherever the program is cut off, the condition holds of the state. -/
def Through (handler : Handler Command Reply σ) (condition : σ → Prop)
    (program : Program Command Reply α) (state : σ) : Prop :=
  ∀ calls, condition (cutOff handler calls program state)

section Rules

variable {handler : Handler Command Reply σ} {condition : σ → Prop} {state : σ}

theorem cutOff_zero (handler : Handler Command Reply σ) (program : Program Command Reply α)
    (state : σ) : cutOff handler 0 program state = state := by
  cases program <;> rfl

theorem through_pure (result : α) (holds : condition state) :
    Through handler condition (pure result : Program Command Reply α) state := by
  intro calls
  cases calls <;> exact holds

theorem through_call {command : Command} {next : Reply command → Program Command Reply α}
    (holds : condition state)
    (rest : Through handler condition (next (handler state command).1)
      (handler state command).2) :
    Through handler condition (.call command next) state := by
  intro calls
  cases calls with
  | zero => exact holds
  | succ calls => exact rest calls

theorem through_request {command : Command} {next : Reply command → Program Command Reply α}
    (holds : condition state)
    (rest : Through handler condition (next (handler state command).1)
      (handler state command).2) :
    Through handler condition (request command >>= next) state :=
  through_call holds rest

theorem Through.first {program : Program Command Reply α}
    (through : Through handler condition program state) : condition state := by
  have here := through 0
  rw [cutOff_zero] at here
  exact here

/-- A program that ends has been cut off behind its last call. -/
theorem Through.last {program : Program Command Reply α}
    (through : Through handler condition program state) {result : α} {final : σ}
    (ran : program.run handler state = some (result, final)) : condition final := by
  induction program generalizing state with
  | done other =>
      obtain ⟨-, rfl⟩ := Prod.mk.inj (Option.some.inj ran)
      exact through.first
  | call command next ih => exact ih _ (fun calls => through (calls + 1)) ran
  | diverge => exact absurd ran (by simp [Program.run])

theorem Through.bind {program : Program Command Reply α}
    {next : α → Program Command Reply β} (through : Through handler condition program state)
    (rest : ∀ result final, program.run handler state = some (result, final) →
      Through handler condition (next result) final) :
    Through handler condition (program >>= next) state := by
  induction program generalizing state with
  | done result => exact rest result state rfl
  | call command more ih =>
      refine through_call through.first (ih _ (fun calls => through (calls + 1)) ?_)
      intro result final ran
      exact rest result final ran
  | diverge => exact fun calls => by cases calls <;> exact through.first

theorem Through.map {program : Program Command Reply α} (f : α → β)
    (through : Through handler condition program state) :
    Through handler condition (f <$> program) state :=
  through.bind fun result _ ran => through_pure (f result) (through.last ran)

theorem Through.mono {weaker : σ → Prop} {program : Program Command Reply α}
    (through : Through handler condition program state)
    (implies : ∀ state, condition state → weaker state) :
    Through handler weaker program state :=
  fun calls => implies _ (through calls)

end Rules

end BathroomRatings.Lib.Crash
