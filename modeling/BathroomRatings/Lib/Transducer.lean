import Mathlib.Data.List.Forall2

/-!
# Machines that read a symbol at a time

A transducer moves on every symbol of its input, may emit outputs on the way, and
emits some more at the end of the input.  What it emits for an input is cut at any
place by `emits_append`; two machines of which one reads the symbols of the other
respelled are compared symbol by symbol (`emits_simulates`).
-/

set_option autoImplicit false

namespace BathroomRatings.Lib

structure Transducer (α σ β : Type*) where
  feed : σ → α → σ × List β
  finish : σ → List β

namespace Transducer

section Runs

variable {α σ β : Type*} (machine : Transducer α σ β)

def after (state : σ) : List α → σ
  | [] => state
  | symbol :: input => after (machine.feed state symbol).1 input

/-- The outputs emitted before the end of the input is met. -/
def during (state : σ) : List α → List β
  | [] => []
  | symbol :: input =>
      (machine.feed state symbol).2 ++ during (machine.feed state symbol).1 input

def emits (state : σ) (input : List α) : List β :=
  machine.during state input ++ machine.finish (machine.after state input)

@[simp] theorem emits_nil (state : σ) : machine.emits state [] = machine.finish state := rfl

theorem emits_cons (state : σ) (symbol : α) (input : List α) :
    machine.emits state (symbol :: input) =
      (machine.feed state symbol).2 ++ machine.emits (machine.feed state symbol).1 input := by
  simp only [emits, during, after, List.append_assoc]

theorem after_append (state : σ) (first second : List α) :
    machine.after state (first ++ second) = machine.after (machine.after state first) second := by
  induction first generalizing state with
  | nil => rfl
  | cons symbol first ih => exact ih _

theorem during_append (state : σ) (first second : List α) :
    machine.during state (first ++ second) =
      machine.during state first ++ machine.during (machine.after state first) second := by
  induction first generalizing state with
  | nil => rfl
  | cons symbol first ih =>
      simp only [List.cons_append, during, after, ih, List.append_assoc]

theorem emits_append (state : σ) (first second : List α) :
    machine.emits state (first ++ second) =
      machine.during state first ++ machine.emits (machine.after state first) second := by
  simp only [emits, during_append, after_append, List.append_assoc]

theorem emits_of_stuck {state : σ} (stuck : ∀ symbol, machine.feed state symbol = (state, []))
    (input : List α) : machine.emits state input = machine.finish state := by
  induction input with
  | nil => rfl
  | cons symbol input ih => rw [emits_cons, stuck, List.nil_append, ih]

end Runs

section Simulation

variable {α α' σ τ β γ : Type*} {machine : Transducer α σ β} {other : Transducer α' τ γ}
  {spell : α → List α'} {allowed : α → Prop} {related : σ → τ → Prop} {agree : β → γ → Prop}

/-- The second machine reads every symbol of the first spelled out. -/
structure Simulates (machine : Transducer α σ β) (other : Transducer α' τ γ)
    (spell : α → List α') (allowed : α → Prop) (related : σ → τ → Prop)
    (agree : β → γ → Prop) : Prop where
  feed : ∀ state state' symbol, allowed symbol → related state state' →
    related (machine.feed state symbol).1 (other.after state' (spell symbol)) ∧
      List.Forall₂ agree (machine.feed state symbol).2 (other.during state' (spell symbol))

theorem Simulates.run (simulates : Simulates machine other spell allowed related agree)
    {state : σ} {state' : τ} (start : related state state') (input : List α)
    (inside : ∀ symbol ∈ input, allowed symbol) :
    related (machine.after state input) (other.after state' (input.flatMap spell)) ∧
      List.Forall₂ agree (machine.during state input)
        (other.during state' (input.flatMap spell)) := by
  induction input generalizing state state' with
  | nil => exact ⟨start, .nil⟩
  | cons symbol input ih =>
      obtain ⟨next, outputs⟩ :=
        simulates.feed state state' symbol (inside symbol List.mem_cons_self) start
      obtain ⟨last, more⟩ := ih next fun later member =>
        inside later (List.mem_cons_of_mem _ member)
      rw [List.flatMap_cons, after_append, during_append]
      exact ⟨last, List.rel_append outputs more⟩

end Simulation

end Transducer
end BathroomRatings.Lib
