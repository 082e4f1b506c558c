import BathroomRatings.Lib.Interface
import Mathlib.Logic.Relation

/-!
# Rely and guarantee

A program meets a postcondition among other threads if it does so whatever they change,
as long as their changes are ones it relies on; in return each of its own calls makes
only changes it guarantees.  Threads whose guarantees the others can rely on meet their
postconditions in every schedule.
-/

set_option autoImplicit false

namespace BathroomRatings.Lib.Interference

open BathroomRatings.Lib.Interface BathroomRatings.Lib.Interface.Program
open Relation

variable {Command : Type} {Reply : Command → Type} {σ α β : Type}

/-- `Changes` are the pairs of states that a change may lead from and to. -/
abbrev Changes (σ : Type) := σ → σ → Prop

/-- Before every call of its own, the others may have changed the state. -/
def Meets (handler : Handler Command Reply σ) (rely guarantee : Changes σ)
    (post : α → σ → Prop) : Program Command Reply α → σ → Prop
  | .done result, state => ∀ later, ReflTransGen rely state later → post result later
  | .call command next, state => ∀ later, ReflTransGen rely state later →
      guarantee later (handler later command).2 ∧
        Meets handler rely guarantee post (next (handler later command).1)
          (handler later command).2
  | .diverge, _ => False

/-- An assertion that the changes of the others keep. -/
def Stable (rely : Changes σ) (assertion : σ → Prop) : Prop :=
  ∀ state later, assertion state → rely state later → assertion later

theorem Stable.always {rely : Changes σ} {assertion : σ → Prop} (stable : Stable rely assertion)
    {state later : σ} (holds : assertion state) (changed : ReflTransGen rely state later) :
    assertion later := by
  induction changed with
  | refl => exact holds
  | tail _ last ih => exact stable _ _ ih last

theorem Stable.and {rely : Changes σ} {first second : σ → Prop} (stable : Stable rely first)
    (also : Stable rely second) : Stable rely fun state => first state ∧ second state :=
  fun state later holds changed =>
    ⟨stable state later holds.1 changed, also state later holds.2 changed⟩

section Rules

variable {handler : Handler Command Reply σ} {rely guarantee : Changes σ}
variable {post : α → σ → Prop} {assertion : σ → Prop} {state : σ}

theorem meets_pure {result : α} (stable : Stable rely assertion) (holds : assertion state)
    (ends : ∀ later, assertion later → post result later) :
    Meets handler rely guarantee post (pure result) state :=
  fun later changed => ends later (stable.always holds changed)

/-- A call, under an assertion that holds whenever it may be made. -/
theorem meets_request {command : Command} {next : Reply command → Program Command Reply α}
    (stable : Stable rely assertion) (holds : assertion state)
    (step : ∀ later, assertion later → guarantee later (handler later command).2 ∧
      Meets handler rely guarantee post (next (handler later command).1)
        (handler later command).2) :
    Meets handler rely guarantee post (request command >>= next) state :=
  fun later changed => step later (stable.always holds changed)

theorem Meets.afterwards {program : Program Command Reply α}
    (meets : Meets handler rely guarantee post program state) {later : σ}
    (changed : ReflTransGen rely state later) :
    Meets handler rely guarantee post program later := by
  cases program with
  | done result => exact fun last more => meets last (changed.trans more)
  | call command next => exact fun last more => meets last (changed.trans more)
  | diverge => exact meets

theorem Meets.bind {between : β → σ → Prop} {program : Program Command Reply β}
    {next : β → Program Command Reply α}
    (first : Meets handler rely guarantee between program state)
    (rest : ∀ result later, between result later →
      Meets handler rely guarantee post (next result) later) :
    Meets handler rely guarantee post (program >>= next) state := by
  induction program generalizing state with
  | done result => exact rest result state (first state .refl)
  | call command more ih =>
      intro later changed
      obtain ⟨kept, further⟩ := first later changed
      exact ⟨kept, ih _ further⟩
  | diverge => exact first.elim

theorem Meets.map {posted : β → σ → Prop} {program : Program Command Reply β} {f : β → α}
    (meets : Meets handler rely guarantee posted program state)
    (ends : ∀ result later, posted result later → post (f result) later) :
    Meets handler rely guarantee post (f <$> program) state := by
  induction program generalizing state with
  | done result => exact fun later changed => ends result later (meets later changed)
  | call command more ih =>
      intro later changed
      obtain ⟨kept, further⟩ := meets later changed
      exact ⟨kept, ih _ further⟩
  | diverge => exact meets.elim

end Rules

section Threads

variable {ι : Type} [DecidableEq ι] {Result : ι → Type}
variable {handler : ι → Handler Command Reply σ} {rely guarantee : ι → Changes σ}
variable {post : (i : ι) → Result i → σ → Prop}
variable {system : System Command Reply σ Result}

theorem turn_guaranteed {i : ι}
    (meets : Meets (handler i) (rely i) (guarantee i) (post i) (system.thread i)
      system.shared) :
    (system.turn handler i).shared = system.shared ∨
      guarantee i system.shared (system.turn handler i).shared := by
  rw [turn_shared]
  cases own : system.thread i with
  | done result => exact Or.inl rfl
  | call command next =>
      rw [own] at meets
      exact Or.inr (meets system.shared .refl).1
  | diverge => exact Or.inl rfl

theorem turn_meets
    (compatible : ∀ i j, i ≠ j → ∀ state later, guarantee i state later → rely j state later)
    (meets : ∀ i, Meets (handler i) (rely i) (guarantee i) (post i) (system.thread i)
      system.shared) (i j : ι) :
    Meets (handler j) (rely j) (guarantee j) (post j) ((system.turn handler i).thread j)
      (system.turn handler i).shared := by
  by_cases same : j = i
  · subst same
    rw [turn_own, turn_shared]
    have before := meets j
    cases own : system.thread j with
    | done result =>
        rw [own] at before
        exact before
    | call command next =>
        rw [own] at before
        exact (before system.shared .refl).2
    | diverge =>
        rw [own] at before
        exact before.elim
  · rw [turn_other _ _ _ _ same]
    rcases turn_guaranteed (meets i) with unchanged | changed
    · rw [unchanged]
      exact meets j
    · exact (meets j).afterwards
        (.single (compatible i j (fun equal => same equal.symm) _ _ changed))

variable (system) in
/-- Threads that can rely on each other all meet their postconditions, and what all of
them keep is kept. -/
theorem follow_meets
    (compatible : ∀ i j, i ≠ j → ∀ state later, guarantee i state later → rely j state later)
    (meets : ∀ i, Meets (handler i) (rely i) (guarantee i) (post i) (system.thread i)
      system.shared)
    {kept : σ → Prop} (initial : kept system.shared)
    (keeps : ∀ i state later, kept state → guarantee i state later → kept later)
    (schedule : List ι) :
    kept (system.follow handler schedule).shared ∧
      ∀ i result, (system.follow handler schedule).result i = some result →
        post i result (system.follow handler schedule).shared := by
  have holds := follow_invariant handler
    (fun _ current => kept current.shared ∧ ∀ i, Meets (handler i) (rely i) (guarantee i)
      (post i) (current.thread i) current.shared)
    system ⟨initial, meets⟩ (by
      intro made i current before
      refine ⟨?_, turn_meets compatible before.2 i⟩
      rcases turn_guaranteed (before.2 i) with unchanged | changed
      · rw [unchanged]
        exact before.1
      · exact keeps i _ _ before.1 changed) schedule
  refine ⟨holds.1, ?_⟩
  intro i result ended
  have own := holds.2 i
  simp only [System.result] at ended
  split at ended
  · rename_i reached done
    rw [done] at own
    rw [← Option.some.inj ended]
    exact own _ .refl
  · exact absurd ended (by simp)

end Threads

end BathroomRatings.Lib.Interference
