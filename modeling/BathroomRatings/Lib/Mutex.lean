import BathroomRatings.Lib.Interface

/-!
# Calls under a lock

Threads make calls whose bodies are programs on a shared state.  A body begins when
its thread gets the lock, ends when it gives the lock back, and in between any other
thread may take turns.  In every schedule the threads behave as if each body ran at
once, in the order in which the bodies ended.
-/

set_option autoImplicit false

namespace BathroomRatings.Lib.Mutex

open BathroomRatings.Lib.Interface

variable {Command : Type} {Reply : Command → Type} {Call : Type} {Answer : Call → Type}
variable {σ ι : Type} {Result : ι → Type}

/-- Where a thread is: between its calls, or in the body of one. -/
inductive Stage (Command : Type) (Reply : Command → Type) (Call : Type)
    (Answer : Call → Type) (α : Type) where
  | outside (rest : Program Call Answer α)
  | inside (call : Call) (rest : Program Command Reply (Answer call))
      (next : Answer call → Program Call Answer α)

structure Guarded (Command : Type) (Reply : Command → Type) (Call : Type)
    (Answer : Call → Type) (σ : Type) {ι : Type} (Result : ι → Type) where
  shared : σ
  owner : Option ι
  stage : (i : ι) → Stage Command Reply Call Answer (Result i)

namespace Guarded

def start (system : System Call Answer σ Result) :
    Guarded Command Reply Call Answer σ Result :=
  ⟨system.shared, none, fun i => .outside (system.thread i)⟩

def result (guarded : Guarded Command Reply Call Answer σ Result) (i : ι) :
    Option (Result i) :=
  match guarded.stage i with
  | .outside (.done result) => some result
  | _ => none

variable [DecidableEq ι]

/-- Thread `i` takes the lock if it is free, makes a step of its body, or gives the lock
back behind it. -/
def turn (handler : ι → Handler Command Reply σ)
    (body : (call : Call) → Program Command Reply (Answer call)) (i : ι)
    (guarded : Guarded Command Reply Call Answer σ Result) :
    Guarded Command Reply Call Answer σ Result :=
  match guarded.stage i with
  | .outside (.call call next) =>
      if guarded.owner.isNone then
        ⟨guarded.shared, some i,
          Function.update guarded.stage i (.inside call (body call) next)⟩
      else guarded
  | .outside _ => guarded
  | .inside _ (.done answer) next =>
      ⟨guarded.shared, none, Function.update guarded.stage i (.outside (next answer))⟩
  | .inside call rest next =>
      ⟨(rest.step (handler i) guarded.shared).2, guarded.owner,
        Function.update guarded.stage i
          (.inside call (rest.step (handler i) guarded.shared).1 next)⟩

def follow (handler : ι → Handler Command Reply σ)
    (body : (call : Call) → Program Command Reply (Answer call)) (schedule : List ι)
    (guarded : Guarded Command Reply Call Answer σ Result) :
    Guarded Command Reply Call Answer σ Result :=
  schedule.foldl (fun current i => current.turn handler body i) guarded

end Guarded

variable [DecidableEq ι]
variable (handler : ι → Handler Command Reply σ)
variable (body : (call : Call) → Program Command Reply (Answer call))

/-- The states reached when each body runs at once; the list names the threads that
called. -/
inductive Serial (initial : System Call Answer σ Result) :
    List ι → System Call Answer σ Result → Prop
  | start : Serial initial [] initial
  | call (order : List ι) (i : ι) (middle : System Call Answer σ Result) (call : Call)
      (next : Answer call → Program Call Answer (Result i)) (answer : Answer call) (shared : σ)
      (before : Serial initial order middle) (calls : middle.thread i = .call call next)
      (ran : (body call).run (handler i) middle.shared = some (answer, shared)) :
      Serial initial (order ++ [i])
        ⟨shared, Function.update middle.thread i (next answer)⟩

/-- The threads are where those of a serial run are, but for the one that has the lock:
the rest of its body comes to what the whole body does. -/
inductive Mimics (system : System Call Answer σ Result)
    (guarded : Guarded Command Reply Call Answer σ Result) : Prop
  | free (owner : guarded.owner = none) (shared : guarded.shared = system.shared)
      (stages : ∀ j, guarded.stage j = .outside (system.thread j))
  | held (i : ι) (call : Call) (rest : Program Command Reply (Answer call))
      (next : Answer call → Program Call Answer (Result i))
      (owner : guarded.owner = some i)
      (others : ∀ j, j ≠ i → guarded.stage j = .outside (system.thread j))
      (own : guarded.stage i = .inside call rest next)
      (calls : system.thread i = .call call next)
      (run : rest.run (handler i) guarded.shared =
        (body call).run (handler i) system.shared)

theorem run_step {α : Type} (handler : Handler Command Reply σ) (state : σ)
    (program : Program Command Reply α) :
    (program.step handler state).1.run handler (program.step handler state).2 =
      program.run handler state := by
  cases program <;> rfl

variable {handler body}
variable {initial system : System Call Answer σ Result}
variable {guarded : Guarded Command Reply Call Answer σ Result}

theorem Mimics.owner_of_inside (mimics : Mimics handler body system guarded) {i : ι}
    {call : Call} {rest : Program Command Reply (Answer call)}
    {next : Answer call → Program Call Answer (Result i)}
    (inside : guarded.stage i = .inside call rest next) : guarded.owner = some i := by
  cases mimics with
  | free owner shared stages =>
      rw [stages i] at inside
      exact absurd inside (by simp)
  | held j _ _ _ owner others =>
      by_cases same : i = j
      · rw [same]
        exact owner
      · rw [others i same] at inside
        exact absurd inside (by simp)

theorem Mimics.result (mimics : Mimics handler body system guarded) {i : ι}
    {result : Result i} (ended : guarded.result i = some result) :
    system.thread i = .done result := by
  unfold Guarded.result at ended
  cases here : guarded.stage i with
  | inside call rest next => simp [here] at ended
  | outside rest =>
      have same : guarded.stage i = .outside (system.thread i) := by
        cases mimics with
        | free owner shared stages => exact stages i
        | held j _ _ _ _ others own =>
            by_cases same : i = j
            · subst same
              rw [own] at here
              exact absurd here (by simp)
            · exact others i same
      rw [here] at same ended
      rw [← Stage.outside.inj same]
      cases rest with
      | done reached => exact congrArg Program.done (Option.some.inj ended)
      | call call next => simp at ended
      | diverge => simp at ended

/-- A turn is none of a serial run, or the next call of one. -/
theorem Mimics.turn {order : List ι} (serial : Serial handler body initial order system)
    (mimics : Mimics handler body system guarded) (i : ι) :
    ∃ more after, List.Sublist more [i] ∧
      Serial handler body initial (order ++ more) after ∧
      Mimics handler body after (guarded.turn handler body i) := by
  have unchanged : guarded.turn handler body i = guarded →
      ∃ more after, List.Sublist more [i] ∧
        Serial handler body initial (order ++ more) after ∧
        Mimics handler body after (guarded.turn handler body i) := by
    intro same
    refine ⟨[], system, List.nil_sublist _, ?_, ?_⟩
    · rw [List.append_nil]
      exact serial
    · rw [same]
      exact mimics
  cases here : guarded.stage i with
  | outside rest =>
      cases rest with
      | done result => exact unchanged (by simp [Guarded.turn, here])
      | diverge => exact unchanged (by simp [Guarded.turn, here])
      | call call next =>
          cases mimics with
          | held j _ _ _ owner => exact unchanged (by simp [Guarded.turn, here, owner])
          | free owner shared stages =>
              have calls : system.thread i = .call call next := by
                have same := stages i
                rw [here] at same
                exact (Stage.outside.inj same).symm
              refine ⟨[], system, List.nil_sublist _, by rwa [List.append_nil], ?_⟩
              simp only [Guarded.turn, here, owner, Option.isNone_none, if_true]
              refine .held i call (body call) next rfl ?_ (Function.update_self ..) calls ?_
              · intro j differs
                exact (Function.update_of_ne differs _ _).trans (stages j)
              · rw [shared]
  | inside call rest next =>
      have owned := mimics.owner_of_inside here
      cases mimics with
      | free owner =>
          rw [owner] at owned
          exact absurd owned (by simp)
      | held j made left behind owner others own calls run =>
          obtain rfl : j = i := Option.some.inj (owner.symm.trans owned)
          obtain ⟨rfl, sameRest, sameNext⟩ := Stage.inside.inj (here.symm.trans own)
          obtain rfl := eq_of_heq sameRest
          obtain rfl := eq_of_heq sameNext
          -- what a step inside the body comes to
          have inside : guarded.turn handler body j =
              ⟨(rest.step (handler j) guarded.shared).2, guarded.owner,
                Function.update guarded.stage j
                  (.inside call (rest.step (handler j) guarded.shared).1 next)⟩ →
              ∃ more after, List.Sublist more [j] ∧
                Serial handler body initial (order ++ more) after ∧
                Mimics handler body after (guarded.turn handler body j) := by
            intro stepped
            refine ⟨[], system, List.nil_sublist _, by rwa [List.append_nil], ?_⟩
            rw [stepped]
            refine .held j call _ next owner ?_ (Function.update_self ..) calls ?_
            · intro k differs
              exact (Function.update_of_ne differs _ _).trans (others k differs)
            · exact (run_step _ _ rest).trans run
          cases rest with
          | call command more => exact inside (by simp [Guarded.turn, here])
          | diverge => exact inside (by simp [Guarded.turn, here])
          | done answer =>
              have ran : (body call).run (handler j) system.shared =
                  some (answer, guarded.shared) := run.symm
              refine ⟨[j], _, List.Sublist.refl _, .call order j system call next answer
                guarded.shared serial calls ran, ?_⟩
              simp only [Guarded.turn, here]
              refine .free rfl rfl ?_
              intro k
              by_cases same : k = j
              · subst same
                simp
              · have stage := (Function.update_of_ne same
                  (Stage.outside (next answer)) guarded.stage).trans (others k same)
                have thread := Function.update_of_ne same (next answer) system.thread
                exact stage.trans (congrArg Stage.outside thread.symm)

/-- Every schedule behaves as a serial run, whose calls are made at turns of the
schedule. -/
theorem follow_serial (handler : ι → Handler Command Reply σ)
    (body : (call : Call) → Program Command Reply (Answer call))
    (initial : System Call Answer σ Result) (schedule : List ι) :
    ∃ order system, List.Sublist order schedule ∧
      Serial handler body initial order system ∧
      Mimics handler body system (Guarded.follow handler body schedule (.start initial)) := by
  induction schedule using List.reverseRecOn with
  | nil =>
      exact ⟨[], initial, List.nil_sublist _, .start, .free rfl rfl fun _ => rfl⟩
  | append_singleton made i ih =>
      obtain ⟨order, system, within, serial, mimics⟩ := ih
      obtain ⟨more, after, last, longer, mimics'⟩ := mimics.turn serial i
      refine ⟨order ++ more, after, within.append last, longer, ?_⟩
      rw [Guarded.follow, List.foldl_append]
      exact mimics'

end BathroomRatings.Lib.Mutex
