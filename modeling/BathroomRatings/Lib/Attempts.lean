import Mathlib.Data.List.Forall2

/-!
# Actions that may throw

An action changes a state and may throw on its way.  What it changed before it threw
stays changed.
-/

set_option autoImplicit false

namespace BathroomRatings.Lib.Attempts

abbrev Attempt (σ ε : Type) := ExceptT ε (StateM σ)

variable {σ ε α β : Type}

/-- What an action returns or throws in a state, and the state it leaves. -/
def Attempt.perform (action : Attempt σ ε α) (state : σ) : Except ε α × σ :=
  (action.run.run state).run

def compute (computation : Except ε α) : Attempt σ ε α := ExceptT.mk (pure computation)

def change (f : σ → σ) : Attempt σ ε Unit := modify f

/-- The rest of the action starts where its first part has stopped, unless that threw. -/
theorem perform_bind (action : Attempt σ ε α) (next : α → Attempt σ ε β) (state : σ) :
    (action >>= next).perform state =
      match action.perform state with
      | (.ok value, between) => (next value).perform between
      | (.error thrown, between) => (.error thrown, between) := by
  have unfolded : (action >>= next).perform state =
      (StateT.run (ExceptT.bindCont next (action.perform state).1)
        (action.perform state).2).run := rfl
  rw [unfolded]
  obtain ⟨result, between⟩ := action.perform state
  cases result with
  | ok value => rfl
  | error thrown => rfl

/-! ## Triples -/

/-- From a state that meets the first condition the action returns in one that meets the
second, or throws in one that meets the third. -/
def Triple (before : σ → Prop) (action : Attempt σ ε α) (after : α → σ → Prop)
    (failed : σ → Prop) : Prop :=
  ∀ state, before state →
    match action.perform state with
    | (.ok value, reached) => after value reached
    | (.error _, reached) => failed reached

section Triple

variable {before : σ → Prop} {after : α → σ → Prop} {failed : σ → Prop}

theorem triple_pure {value : α} (met : ∀ state, before state → after value state) :
    Triple before (pure value : Attempt σ ε α) after failed := met

theorem triple_change {f : σ → σ} {after : Unit → σ → Prop}
    (met : ∀ state, before state → after () (f state)) :
    Triple before (change f : Attempt σ ε Unit) after failed := met

theorem Triple.bind {between : α → σ → Prop} {after : β → σ → Prop} {action : Attempt σ ε α}
    {next : α → Attempt σ ε β} (first : Triple before action between failed)
    (rest : ∀ value, Triple (between value) (next value) after failed) :
    Triple before (action >>= next) after failed := by
  intro state holds
  have reached := first state holds
  rw [perform_bind]
  cases stopped : action.perform state with
  | mk result place =>
      rw [stopped] at reached
      cases result with
      | ok value => exact rest value place reached
      | error thrown => exact reached

theorem triple_compute_bind {computation : Except ε α} {after : β → σ → Prop}
    {next : α → Attempt σ ε β} (spoilt : ∀ state, before state → failed state)
    (rest : ∀ value, computation = .ok value → Triple before (next value) after failed) :
    Triple before (compute computation >>= next) after failed := by
  cases computation with
  | ok value => exact rest value rfl
  | error thrown => exact spoilt

theorem triple_change_bind (between : σ → Prop) {f : σ → σ} {after : β → σ → Prop}
    {next : Unit → Attempt σ ε β} (met : ∀ state, before state → between (f state))
    (rest : Triple between (next ()) after failed) :
    Triple before (change f >>= next) after failed := by
  have changed : Triple before (change f : Attempt σ ε Unit) (fun _ => between) failed :=
    triple_change met
  exact changed.bind fun _ => rest

/-- The invariant of a loop speaks of the items that have been dealt with. -/
theorem triple_forM {action : α → Attempt σ ε Unit} {invariant : List α → σ → Prop}
    (turn : ∀ done item,
      Triple (invariant done) (action item) (fun _ => invariant (done ++ [item])) failed)
    (done items : List α) :
    Triple (invariant done) (items.forM action) (fun _ => invariant (done ++ items)) failed := by
  induction items generalizing done with
  | nil =>
      refine triple_pure ?_
      intro state holds
      rw [List.append_nil]
      exact holds
  | cons item rest ih =>
      refine (turn done item).bind ?_
      intro _
      have later := ih (done ++ [item])
      rw [List.append_assoc] at later
      exact later

/-- A turn may rely on where in the list it is. -/
theorem triple_forM_split {action : α → Attempt σ ε Unit} {invariant : List α → σ → Prop}
    (items done rest : List α) (split : items = done ++ rest)
    (turn : ∀ done item rest, items = done ++ item :: rest →
      Triple (invariant done) (action item) (fun _ => invariant (done ++ [item])) failed) :
    Triple (invariant done) (rest.forM action) (fun _ => invariant items) failed := by
  induction rest generalizing done with
  | nil =>
      refine triple_pure ?_
      intro state holds
      rw [split, List.append_nil]
      exact holds
  | cons item rest ih =>
      exact (turn done item rest split).bind fun _ =>
        ih (done ++ [item]) (by rw [split, List.append_assoc, List.singleton_append])

theorem Triple.weaken {weaker : α → σ → Prop} {action : Attempt σ ε α}
    (triple : Triple before action after failed)
    (met : ∀ value state, after value state → weaker value state) :
    Triple before action weaker failed := by
  intro state holds
  have reached := triple state holds
  cases stopped : action.perform state with
  | mk result place =>
      rw [stopped] at reached
      cases result with
      | ok value => exact met value place reached
      | error thrown => exact reached

theorem triple_get_bind {after : β → σ → Prop} {next : σ → Attempt σ ε β}
    (rest : ∀ seen, before seen → Triple (· = seen) (next seen) after failed) :
    Triple before (get >>= next) after failed :=
  fun state holds => rest state holds state rfl

theorem Triple.strengthen {stronger : σ → Prop} {action : Attempt σ ε α}
    (triple : Triple before action after failed) (met : ∀ state, stronger state → before state) :
    Triple stronger action after failed :=
  fun state holds => triple state (met state holds)

end Triple

/-- The action keeps the invariant, whether it returns or throws. -/
def Preserves (invariant : σ → Prop) (action : Attempt σ ε α) : Prop :=
  Triple invariant action (fun _ => invariant) invariant

section Preserves

variable {invariant : σ → Prop}

theorem preserves_pure (value : α) : Preserves invariant (pure value : Attempt σ ε α) :=
  triple_pure fun _ holds => holds

theorem preserves_change {f : σ → σ} (met : ∀ state, invariant state → invariant (f state)) :
    Preserves invariant (change f : Attempt σ ε Unit) :=
  triple_change met

theorem Preserves.bind {action : Attempt σ ε α} {next : α → Attempt σ ε β}
    (first : Preserves invariant action) (rest : ∀ value, Preserves invariant (next value)) :
    Preserves invariant (action >>= next) :=
  Triple.bind first rest

theorem preserves_compute_bind {computation : Except ε α} {next : α → Attempt σ ε β}
    (rest : ∀ value, computation = .ok value → Preserves invariant (next value)) :
    Preserves invariant (compute computation >>= next) :=
  triple_compute_bind (fun _ holds => holds) rest

theorem preserves_get_bind {next : σ → Attempt σ ε β}
    (rest : ∀ seen, Preserves invariant (next seen)) :
    Preserves invariant (get >>= next) :=
  triple_get_bind fun seen holds => (rest seen).strengthen fun _ same => same ▸ holds

theorem preserves_forM {action : α → Attempt σ ε Unit} (items : List α)
    (turn : ∀ item, Preserves invariant (action item)) : Preserves invariant (items.forM action) :=
  triple_forM (fun _ item => turn item) [] items

theorem Preserves.perform {action : Attempt σ ε α} (preserves : Preserves invariant action)
    {state : σ} (holds : invariant state) : invariant (action.perform state).2 := by
  have reached := preserves state holds
  cases stopped : action.perform state with
  | mk result place =>
      rw [stopped] at reached
      cases result with
      | ok value => exact reached
      | error thrown => exact reached

end Preserves

theorem mapM_ok_iff {f : α → Except ε β} {items : List α} {results : List β} :
    items.mapM f = .ok results ↔
      List.Forall₂ (fun item result => f item = .ok result) items results := by
  induction items generalizing results with
  | nil =>
      rw [List.mapM_nil, List.forall₂_nil_left_iff]
      constructor
      · intro same
        exact (Except.ok.inj same).symm
      · intro empty
        rw [empty]
        rfl
  | cons item rest ih =>
      rw [List.mapM_cons, List.forall₂_cons_left_iff]
      cases first : f item with
      | error thrown => simp [bind, Except.bind]
      | ok result =>
          simp only [← ih]
          cases more : rest.mapM f with
          | error thrown => simp [bind, Except.bind]
          | ok others =>
              simp [bind, Except.bind, pure, Except.pure, eq_comm]

end BathroomRatings.Lib.Attempts
