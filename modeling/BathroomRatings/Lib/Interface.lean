import Mathlib.Data.List.Induction
import Mathlib.Logic.Function.Basic

/-!
# Programs over a system interface

A program is a tree of calls to an interface whose replies it continues with.  A
handler gives the calls a meaning on some state; one program runs to its end
under a handler, and several run on a shared state one call at a time, in any
order.
-/

set_option autoImplicit false

namespace BathroomRatings.Lib.Interface

/-- `diverge` is a loop that never ends. -/
inductive Program (Command : Type) (Reply : Command → Type) (α : Type) where
  | done (result : α)
  | call (command : Command) (next : Reply command → Program Command Reply α)
  | diverge

variable {Command : Type} {Reply : Command → Type} {α β σ : Type}

namespace Program

def bind : Program Command Reply α → (α → Program Command Reply β) →
    Program Command Reply β
  | done result, next => next result
  | call command more, next => call command fun reply => (more reply).bind next
  | diverge, _ => diverge

instance : Monad (Program Command Reply) where
  pure := done
  bind := bind

def request (command : Command) : Program Command Reply (Reply command) :=
  call command done

def ofOption : Option α → Program Command Reply α
  | some result => done result
  | none => diverge

end Program

open Program

/-- What a call returns in a state, and the state it leaves. -/
abbrev Handler (Command : Type) (Reply : Command → Type) (σ : Type) :=
  σ → (command : Command) → Reply command × σ

def Program.run (handler : Handler Command Reply σ) :
    Program Command Reply α → σ → Option (α × σ)
  | .done result, state => some (result, state)
  | .call command next, state =>
      (next (handler state command).1).run handler (handler state command).2
  | .diverge, _ => none

def Program.step (handler : Handler Command Reply σ) :
    Program Command Reply α → σ → Program Command Reply α × σ
  | .call command next, state =>
      (next (handler state command).1, (handler state command).2)
  | program, state => (program, state)

def Program.trace (handler : Handler Command Reply σ) :
    Program Command Reply α → σ → List Command
  | .done _, _ => []
  | .call command next, state =>
      command :: (next (handler state command).1).trace handler (handler state command).2
  | .diverge, _ => []

section Run

variable (handler : Handler Command Reply σ) (state : σ)

@[simp] theorem run_done (result : α) :
    (Program.done result : Program Command Reply α).run handler state =
      some (result, state) := rfl

@[simp] theorem run_pure (result : α) :
    (pure result : Program Command Reply α).run handler state =
      some (result, state) := rfl

theorem run_bind (program : Program Command Reply α)
    (next : α → Program Command Reply β) :
    (program >>= next).run handler state =
      (program.run handler state).bind fun reached =>
        (next reached.1).run handler reached.2 := by
  induction program generalizing state with
  | done result => rfl
  | call command more ih => exact ih (handler state command).1 (handler state command).2
  | diverge => rfl

/-- Where the calls leave the state as it is, a handler with the same replies runs a program to
the same result. -/
theorem run_of_same_replies {τ : Type} {other : Handler Command Reply τ}
    (still : ∀ command, (handler state command).2 = state) {program : Program Command Reply α}
    (same : ∀ command ∈ program.trace handler state, ∀ spot,
      (other spot command).1 = (handler state command).1)
    {result : α} {final : σ} (ran : program.run handler state = some (result, final)) (spot : τ) :
    ∃ reached, program.run other spot = some (result, reached) := by
  induction program generalizing spot with
  | done value =>
      obtain ⟨rfl, -⟩ := Prod.mk.inj (Option.some.inj ran)
      exact ⟨spot, rfl⟩
  | call command next ih =>
      obtain ⟨first, rest⟩ := List.forall_mem_cons.mp same
      rw [still command] at rest
      simp only [Program.run, still command] at ran
      simp only [Program.run, first spot]
      exact ih _ rest ran _
  | diverge => exact absurd ran (by simp [Program.run])

theorem run_map (f : α → β) (program : Program Command Reply α) :
    (f <$> program).run handler state =
      (program.run handler state).map fun reached => (f reached.1, reached.2) := by
  have unfolded := run_bind handler state program fun result => Program.done (f result)
  cases reached : program.run handler state with
  | none =>
      rw [reached] at unfolded
      exact unfolded
  | some pair =>
      rw [reached] at unfolded
      exact unfolded

variable {handler state} in
theorem run_map_of_run (f : α → β) {program : Program Command Reply α} {result : α} {final : σ}
    (ran : program.run handler state = some (result, final)) :
    (f <$> program).run handler state = some (f result, final) := by
  rw [run_map, ran]
  rfl

@[simp] theorem run_request_bind (command : Command)
    (next : Reply command → Program Command Reply β) :
    (request command >>= next).run handler state =
      (next (handler state command).1).run handler (handler state command).2 := rfl

theorem trace_request_bind (command : Command)
    (next : Reply command → Program Command Reply β) :
    (request command >>= next).trace handler state =
      command ::
        (next (handler state command).1).trace handler (handler state command).2 := rfl

theorem trace_bind (program : Program Command Reply α)
    (next : α → Program Command Reply β) :
    (program >>= next).trace handler state =
      program.trace handler state ++
        match program.run handler state with
        | some reached => (next reached.1).trace handler reached.2
        | none => [] := by
  induction program generalizing state with
  | done result => rfl
  | call command more ih =>
      have rest := ih (handler state command).1 (handler state command).2
      exact congrArg (command :: ·) rest
  | diverge => rfl

end Run

/-! ## The calls a program may make -/

/-- Whatever the replies are, every call is one of the allowed ones. -/
def Program.Only (allowed : Command → Prop) : Program Command Reply α → Prop
  | .done _ => True
  | .call command next => allowed command ∧ ∀ reply, (next reply).Only allowed
  | .diverge => True

section Only

variable {allowed : Command → Prop}

theorem only_request_bind {command : Command} {next : Reply command → Program Command Reply β}
    (permitted : allowed command) (rest : ∀ reply, (next reply).Only allowed) :
    (request command >>= next).Only allowed := ⟨permitted, rest⟩

theorem only_bind {program : Program Command Reply α} {next : α → Program Command Reply β}
    (first : program.Only allowed) (rest : ∀ result, (next result).Only allowed) :
    (program >>= next).Only allowed := by
  induction program with
  | done result => exact rest result
  | call command more ih => exact ⟨first.1, fun reply => ih reply (first.2 reply)⟩
  | diverge => trivial

theorem only_trace {program : Program Command Reply α} (only : program.Only allowed)
    (handler : Handler Command Reply σ) (state : σ) :
    ∀ command ∈ program.trace handler state, allowed command := by
  induction program generalizing state with
  | done result => simp [Program.trace]
  | call command next ih =>
      exact List.forall_mem_cons.mpr ⟨only.1, ih _ (only.2 _) _⟩
  | diverge => simp [Program.trace]

/-- What every call of a run does to the state, as far as it is kept by more of it, the
whole run does. -/
theorem run_related {handler : Handler Command Reply σ} {related : σ → σ → Prop}
    (same : ∀ state, related state state)
    (trans : ∀ first second third, related first second → related second third →
      related first third)
    {program : Program Command Reply α} {state final : σ} {result : α}
    (step : ∀ command ∈ program.trace handler state, ∀ state,
      related state (handler state command).2)
    (ran : program.run handler state = some (result, final)) : related state final := by
  induction program generalizing state with
  | done other =>
      obtain ⟨-, rfl⟩ := Prod.mk.inj (Option.some.inj ran)
      exact same state
  | call command next ih =>
      obtain ⟨first, rest⟩ := List.forall_mem_cons.mp step
      exact trans _ _ _ (first state) (ih _ rest ran)
  | diverge => exact absurd ran (by simp [Program.run])

theorem trace_bind_silent (handler : Handler Command Reply σ) (state : σ)
    (program : Program Command Reply α) (next : α → Program Command Reply β)
    (silent : ∀ result, (next result).Only fun _ => False) :
    (program >>= next).trace handler state = program.trace handler state := by
  rw [trace_bind]
  cases program.run handler state with
  | none => simp
  | some reached =>
      have nothing := only_trace (silent reached.1) handler reached.2
      have empty : (next reached.1).trace handler reached.2 = [] :=
        List.eq_nil_iff_forall_not_mem.mpr nothing
      simp [empty]

end Only

/-- Whatever the replies are, the program ends, and its result meets the condition. -/
def Program.Ends (condition : α → Prop) : Program Command Reply α → Prop
  | .done result => condition result
  | .call _ next => ∀ reply, (next reply).Ends condition
  | .diverge => False

section Ends

theorem ends_request {command : Command} {condition : Reply command → Prop}
    (every : ∀ reply, condition reply) : (request command).Ends condition := every

theorem ends_bind {between : α → Prop} {condition : β → Prop}
    {program : Program Command Reply α} {next : α → Program Command Reply β}
    (first : program.Ends between)
    (rest : ∀ result, between result → (next result).Ends condition) :
    (program >>= next).Ends condition := by
  induction program with
  | done result => exact rest result first
  | call command more ih => exact fun reply => ih reply (first reply)
  | diverge => exact first.elim

theorem ends_run {condition : α → Prop} {program : Program Command Reply α}
    (ends : program.Ends condition) (handler : Handler Command Reply σ) (state : σ) :
    ∃ result final, program.run handler state = some (result, final) ∧ condition result := by
  induction program generalizing state with
  | done result => exact ⟨result, state, rfl, ends⟩
  | call command next ih =>
      exact ih (handler state command).1 (ends _) (handler state command).2
  | diverge => exact ends.elim

end Ends

/-! ## Calls and results

The rules by which a run is followed call by call. -/

structure Yields (handler : Handler Command Reply σ) (state : σ)
    (program : Program Command Reply α) (result : α) (calls : List Command) (final : σ) :
    Prop where
  run : program.run handler state = some (result, final)
  trace : program.trace handler state = calls

section Yields

variable (handler : Handler Command Reply σ) (state : σ)

theorem yields_pure (result : α) :
    Yields handler state (pure result) result [] state := ⟨rfl, rfl⟩

theorem yields_request (command : Command) :
    Yields handler state (request command) (handler state command).1 [command]
      (handler state command).2 := ⟨rfl, rfl⟩

variable {handler state}

theorem Yields.bind {program : Program Command Reply α}
    {next : α → Program Command Reply β} {between final : σ} {first : α} {result : β}
    {calls more : List Command} (yields : Yields handler state program first calls between)
    (rest : Yields handler between (next first) result more final) :
    Yields handler state (program >>= next) result (calls ++ more) final := by
  constructor
  · rw [run_bind, yields.run]
    exact rest.run
  · rw [trace_bind, yields.run, yields.trace]
    exact congrArg (calls ++ ·) rest.trace

theorem Yields.unique {program : Program Command Reply α} {first second : α}
    {calls others : List Command} {final other : σ}
    (yields : Yields handler state program first calls final)
    (again : Yields handler state program second others other) :
    first = second ∧ calls = others := by
  have results := Option.some.inj (yields.run.symm.trans again.run)
  exact ⟨congrArg Prod.fst results, yields.trace.symm.trans again.trace⟩

end Yields

section Step

variable (handler : Handler Command Reply σ) (state : σ)

theorem step_request_bind (command : Command) (next : Reply command → Program Command Reply β) :
    (request command >>= next).step handler state =
      (next (handler state command).1, (handler state command).2) := rfl

theorem step_request_bind_bind {γ : Type} (command : Command)
    (next : Reply command → Program Command Reply β) (more : β → Program Command Reply γ) :
    ((request command >>= next) >>= more).step handler state =
      (next (handler state command).1 >>= more, (handler state command).2) := rfl

end Step

/-! ## Threads on a shared state -/

section Threads

variable {ι : Type} [DecidableEq ι] {Result : ι → Type}

structure System (Command : Type) (Reply : Command → Type) (σ : Type)
    {ι : Type} (Result : ι → Type) where
  shared : σ
  thread : (i : ι) → Program Command Reply (Result i)

/-- Thread `i` makes its next call.  A thread that has ended stays as it is. -/
def System.turn (handler : ι → Handler Command Reply σ) (i : ι)
    (system : System Command Reply σ Result) : System Command Reply σ Result :=
  let (program, shared) := (system.thread i).step (handler i) system.shared
  ⟨shared, Function.update system.thread i program⟩

def System.follow (handler : ι → Handler Command Reply σ) (schedule : List ι)
    (system : System Command Reply σ Result) : System Command Reply σ Result :=
  schedule.foldl (fun current i => current.turn handler i) system

def System.result (system : System Command Reply σ Result) (i : ι) :
    Option (Result i) :=
  match system.thread i with
  | .done result => some result
  | _ => none

variable (handler : ι → Handler Command Reply σ)

theorem turn_shared (i : ι) (system : System Command Reply σ Result) :
    (system.turn handler i).shared =
      ((system.thread i).step (handler i) system.shared).2 := rfl

theorem turn_own (i : ι) (system : System Command Reply σ Result) :
    (system.turn handler i).thread i =
      ((system.thread i).step (handler i) system.shared).1 :=
  Function.update_self i _ _

theorem turn_other (i j : ι) (system : System Command Reply σ Result) (differs : j ≠ i) :
    (system.turn handler i).thread j = system.thread j :=
  Function.update_of_ne differs _ _

theorem follow_append (first second : List ι) (system : System Command Reply σ Result) :
    system.follow handler (first ++ second) =
      (system.follow handler first).follow handler second := by
  simp [System.follow, List.foldl_append]

/-- What holds at the start, and is kept by a turn of any thread after any part of
the schedule, holds at the end. -/
theorem follow_invariant (invariant : List ι → System Command Reply σ Result → Prop)
    (system : System Command Reply σ Result) (initial : invariant [] system)
    (kept : ∀ (made : List ι) (i : ι) (current : System Command Reply σ Result),
      invariant made current → invariant (made ++ [i]) (current.turn handler i))
    (schedule : List ι) : invariant schedule (system.follow handler schedule) := by
  induction schedule using List.reverseRecOn with
  | nil => exact initial
  | append_singleton made i ih =>
      rw [follow_append]
      exact kept made i _ ih

/-- The rule for threads that go through stages, each of which determines the rest of
the program: an invariant of the stages and the shared state holds at the end. -/
theorem follow_stages {Stage : ι → Type}
    (rest : (i : ι) → Stage i → Program Command Reply (Result i))
    (advance : (i : ι) → Stage i → σ → Stage i × σ)
    (agrees : ∀ (i : ι) (stage : Stage i) (state : σ),
      (rest i stage).step (handler i) state =
        (rest i (advance i stage state).1, (advance i stage state).2))
    (invariant : List ι → σ → ((i : ι) → Stage i) → Prop)
    (stages : (i : ι) → Stage i) (shared : σ) (initial : invariant [] shared stages)
    (kept : ∀ (made : List ι) (i : ι) (state : σ) (current : (i : ι) → Stage i),
      invariant made state current →
        invariant (made ++ [i]) (advance i (current i) state).2
          (Function.update current i (advance i (current i) state).1))
    (schedule : List ι) :
    ∃ reached : (i : ι) → Stage i,
      (System.follow handler schedule ⟨shared, fun i => rest i (stages i)⟩).thread =
          (fun i => rest i (reached i)) ∧
        invariant schedule
          (System.follow handler schedule ⟨shared, fun i => rest i (stages i)⟩).shared
          reached := by
  apply follow_invariant handler
    (fun made current => ∃ reached : (i : ι) → Stage i,
      current.thread = (fun i => rest i (reached i)) ∧ invariant made current.shared reached)
  · exact ⟨stages, rfl, initial⟩
  · rintro made i current ⟨reached, threads, holds⟩
    have step := agrees i (reached i) current.shared
    have program := congrFun threads i
    refine ⟨Function.update reached i (advance i (reached i) current.shared).1, ?_, ?_⟩
    · funext j
      by_cases same : j = i
      · subst same
        rw [turn_own, program, step, Function.update_self]
      · rw [turn_other _ _ _ _ same, Function.update_of_ne same, threads]
    · rw [turn_shared, program, step]
      exact kept made i current.shared reached holds

variable {Other : ι → Type}

def System.map (f : (i : ι) → Result i → Other i) (system : System Command Reply σ Result) :
    System Command Reply σ Other :=
  ⟨system.shared, fun i => f i <$> system.thread i⟩

theorem step_map {α β : Type} (handler : Handler Command Reply σ) (state : σ) (f : α → β)
    (program : Program Command Reply α) :
    (f <$> program).step handler state =
      (f <$> (program.step handler state).1, (program.step handler state).2) := by
  cases program <;> rfl

theorem turn_map (f : (i : ι) → Result i → Other i) (i : ι)
    (system : System Command Reply σ Result) :
    (system.map f).turn handler i = (system.turn handler i).map f := by
  have step := step_map (handler i) system.shared (f i) (system.thread i)
  unfold System.turn System.map
  simp only [step, System.mk.injEq, true_and]
  funext j
  by_cases same : j = i
  · subst same
    simp
  · simp [Function.update_of_ne same]

theorem follow_map (f : (i : ι) → Result i → Other i) (schedule : List ι)
    (system : System Command Reply σ Result) :
    (system.map f).follow handler schedule = (system.follow handler schedule).map f := by
  induction schedule generalizing system with
  | nil => rfl
  | cons i rest ih =>
      have first := turn_map handler f i system
      have later := ih (system.turn handler i)
      rw [← first] at later
      exact later

omit [DecidableEq ι] in
theorem result_map (f : (i : ι) → Result i → Other i) (i : ι)
    (system : System Command Reply σ Result) :
    (system.map f).result i = (system.result i).map (f i) := by
  simp only [System.result, System.map]
  cases system.thread i <;> rfl

end Threads

end BathroomRatings.Lib.Interface
