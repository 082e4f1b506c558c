import BathroomRatings.Api.Calls
import BathroomRatings.Store.InMemory

/-!
# The ids a store in memory hands out

A run of store calls on a fresh store.  The counter never passes the number of calls
that can bring an id into use: an id it skips was brought into use by an `Update` that
no earlier search was charged for.  It only grows, so no id is handed out twice.
-/

set_option autoImplicit false

namespace BathroomRatings.Api

open BathroomRatings.Lib.Search BathroomRatings.Lib.Sorting BathroomRatings.Lib.Word
open BathroomRatings.Store BathroomRatings.Store.EntityStoreInMemory

/-- `Create` and `Update` can bring an id into use. -/
def StoreCall.stores : StoreCall → Bool
  | create _ _ => true
  | update _ _ _ => true
  | _ => false

/-- A call that was made, with its reply and the store before and behind it. -/
structure Step where
  call : StoreCall
  before : EntityStoreInMemory
  reply : call.Reply
  behind : EntityStoreInMemory

namespace Step

def stores (step : Step) : Bool := step.call.stores

def created : Step → Option (Text × Int)
  | ⟨.create entityName _, _, id, _⟩ => some (entityName, id)
  | _ => none

end Step

/-- The steps of a run.  With each call comes the order in which a `List` would iterate
at that time. -/
def steps : List (StoreCall × Arrangement Int) → EntityStoreInMemory → Option (List Step)
  | [], _ => some []
  | (call, order) :: calls, store => do
      let (reply, store') ← call.on (entityStoreInMemory order) store
      let more ← steps calls store'
      pure (⟨call, store, reply, store'⟩ :: more)

/-- The search met `count` ids in use, counted up without wrapping, and left the counter
just behind the id it found. -/
structure Allocates (before : EntityStoreInMemory) (entityName : Text) (id : Int)
    (behind : EntityStoreInMemory) : Prop where
  unused : before.objects entityName id = none
  searched : ∃ count : Nat, id = before.nextId + count ∧
    Found successor (before.occupied entityName) before.nextId id count
  next : behind.nextId = id + 1
  inRange : 0 ≤ id ∧ id < 2147483647

structure StepNumbered (earlier : List Step) (step : Step) : Prop where
  nonneg : 0 ≤ step.behind.nextId
  bounded : step.behind.nextId ≤ (earlier ++ [step]).countP Step.stores
  allocates : ∀ entityName id, step.created = some (entityName, id) →
    Allocates step.before entityName id step.behind
  increasing : ∀ entityName id, step.created = some (entityName, id) →
    ∀ previous ∈ earlier, ∀ other otherId, previous.created = some (other, otherId) → otherId < id

structure Supplies (earlier : List Step) (store : EntityStoreInMemory) : Prop where
  counts : ∃ ahead, Counts store (earlier.countP Step.stores) ahead
  below : ∀ previous ∈ earlier, ∀ entityName id,
    previous.created = some (entityName, id) → id < store.nextId

theorem supplies_construct : Supplies [] construct where
  counts := ⟨∅, counts_construct⟩
  below := by simp

theorem countP_append_step (earlier : List Step) (step : Step) :
    (earlier ++ [step]).countP Step.stores =
      earlier.countP Step.stores + if step.call.stores then 1 else 0 := by
  rw [List.countP_append, List.countP_singleton]
  rfl

section Step

variable {earlier : List Step} {store : EntityStoreInMemory} (supplies : Supplies earlier store)
include supplies

theorem supplies_append {step : Step} (before : step.before = store)
    (nextId : step.behind.nextId = step.before.nextId)
    (created : step.created = none)
    (counts : ∃ ahead, Counts step.behind ((earlier ++ [step]).countP Step.stores) ahead) :
    StepNumbered earlier step ∧ Supplies (earlier ++ [step]) step.behind := by
  have bounded : 0 ≤ step.behind.nextId ∧
      step.behind.nextId ≤ (earlier ++ [step]).countP Step.stores := by
    obtain ⟨ahead, counts⟩ := counts
    have sum := counts.bounded
    have card : (0 : Int) ≤ ahead.card := Int.natCast_nonneg _
    exact ⟨counts.nonneg, by omega⟩
  refine ⟨⟨bounded.1, bounded.2, by simp [created], by simp [created]⟩, counts, ?_⟩
  intro previous member entityName id made
  rcases List.mem_append.mp member with old | new
  · rw [nextId, before]
    exact supplies.below previous old entityName id made
  · rw [List.mem_singleton.mp new, created] at made
    exact absurd made (by simp)

/-- A call that stores nothing new. -/
theorem supplies_fewer {step : Step} (before : step.before = store)
    (nextId : step.behind.nextId = step.before.nextId) (created : step.created = none)
    (fewer : ∀ entityName id, step.behind.objects entityName id ≠ none →
      step.before.objects entityName id ≠ none) :
    StepNumbered earlier step ∧ Supplies (earlier ++ [step]) step.behind := by
  apply supplies_append supplies before nextId created
  obtain ⟨ahead, counts⟩ := supplies.counts
  rw [before] at nextId fewer
  refine ⟨ahead, (counts.congr nextId fewer).mono ?_⟩
  rw [countP_append_step]
  omega

theorem supplies_create (entityName data : Text)
    (few : earlier.countP Step.stores < 2147483647) :
    ∃ id store', create entityName data store = some (id, store') ∧
      StepNumbered earlier ⟨.create entityName data, store, id, store'⟩ ∧
      Supplies (earlier ++ [⟨.create entityName data, store, id, store'⟩]) store' := by
  obtain ⟨ahead, counts⟩ := supplies.counts
  obtain ⟨id, count, store', ahead', created, counts', counted, found, next, objects⟩ :=
    create_run counts few entityName data
  have start := counts.nonneg
  have bounded := counts'.bounded
  have card : (0 : Int) ≤ ahead'.card := Int.natCast_nonneg _
  push_cast at bounded
  have unused := (occupied_eq_false_iff store entityName id).mp found.free
  refine ⟨id, store', created, ⟨counts'.nonneg, ?_, ?_, ?_⟩, ⟨ahead', ?_⟩, ?_⟩
  · rw [countP_append_step]
    simp only [StoreCall.stores, if_true]
    push_cast
    omega
  · intro other otherId made
    obtain ⟨rfl, rfl⟩ := Prod.mk.inj (Option.some.inj made)
    exact ⟨unused, ⟨count, counted, found⟩, next, by omega, by omega⟩
  · intro other otherId made previous member older olderId earlierMade
    obtain ⟨rfl, rfl⟩ := Prod.mk.inj (Option.some.inj made)
    have below := supplies.below previous member older olderId earlierMade
    omega
  · rw [countP_append_step]
    exact counts'
  · intro previous member other otherId made
    rcases List.mem_append.mp member with old | new
    · have below := supplies.below previous old other otherId made
      omega
    · rw [List.mem_singleton.mp new] at made
      obtain ⟨rfl, rfl⟩ := Prod.mk.inj (Option.some.inj made)
      omega

theorem supplies_update (entityName : Text) (id : Int) (data : Text) :
    ∃ store', update entityName id data store = some (true, store') ∧
      StepNumbered earlier ⟨.update entityName id data, store, true, store'⟩ ∧
      Supplies (earlier ++ [⟨.update entityName id data, store, true, store'⟩]) store' := by
  refine ⟨_, rfl, supplies_append supplies rfl rfl rfl ?_⟩
  obtain ⟨ahead, counts⟩ := supplies.counts
  rw [countP_append_step]
  exact ⟨insert id ahead, counts.update entityName id data⟩

theorem supplies_call (call : StoreCall) (order : Arrangement Int)
    (few : earlier.countP Step.stores + (if call.stores then 1 else 0) ≤ 2147483647) :
    ∃ reply store', call.on (entityStoreInMemory order) store = some (reply, store') ∧
      StepNumbered earlier ⟨call, store, reply, store'⟩ ∧
      Supplies (earlier ++ [⟨call, store, reply, store'⟩]) store' := by
  cases call with
  | create entityName data =>
      simp only [StoreCall.stores, if_true] at few
      exact supplies_create supplies entityName data (by omega)
  | read entityName id outData =>
      refine ⟨_, _, read_run store entityName id outData, supplies_fewer supplies rfl rfl rfl ?_⟩
      intro other otherId stored
      rw [objects_touch] at stored
      exact stored
  | update entityName id data =>
      obtain ⟨store', run, numbered, supplies'⟩ := supplies_update supplies entityName id data
      exact ⟨true, store', run, numbered, supplies'⟩
  | delete entityName id =>
      refine ⟨_, _, delete_run store entityName id, supplies_fewer supplies rfl rfl rfl ?_⟩
      intro other otherId stored
      rw [objects_erase] at stored
      intro absent
      apply stored
      simp only [Objects.erase]
      rw [absent, ite_self]
  | list entityName =>
      refine ⟨_, _, rfl, supplies_fewer supplies rfl rfl rfl ?_⟩
      intro other otherId stored
      rw [objects_touch] at stored
      exact stored

end Step

/-! ## Runs -/

theorem steps_run (calls : List (StoreCall × Arrangement Int)) {earlier : List Step}
    {store : EntityStoreInMemory} (supplies : Supplies earlier store)
    (few : earlier.countP Step.stores + calls.countP (·.1.stores) ≤ 2147483647) :
    ∃ run, steps calls store = some run ∧ run.map Step.call = calls.map Prod.fst ∧
      ∀ front step back, run = front ++ step :: back → StepNumbered (earlier ++ front) step := by
  induction calls generalizing earlier store with
  | nil =>
      refine ⟨[], rfl, rfl, ?_⟩
      intro front step back split
      exact absurd split (by simp)
  | cons first calls ih =>
      obtain ⟨call, order⟩ := first
      have more : earlier.countP Step.stores + (if call.stores then 1 else 0) +
          calls.countP (·.1.stores) ≤ 2147483647 := by
        rw [List.countP_cons] at few
        change _ + (_ + if call.stores then 1 else 0) ≤ _ at few
        omega
      obtain ⟨reply, store', called, numbered, supplies'⟩ :=
        supplies_call supplies call order (by omega)
      obtain ⟨run, ran, made, all⟩ := ih supplies' (by
        rw [countP_append_step]
        exact more)
      refine ⟨⟨call, store, reply, store'⟩ :: run, ?_, ?_, ?_⟩
      · simp only [steps, called, ran, Option.bind_eq_bind, Option.bind_some]
        rfl
      · rw [List.map_cons, List.map_cons, made]
      · intro front step back split
        cases front with
        | nil =>
            obtain ⟨same, -⟩ := List.cons.inj split
            rw [List.append_nil, ← same]
            exact numbered
        | cons previous front =>
            obtain ⟨same, rest⟩ := List.cons.inj split
            have later := all front step back rest
            rw [List.append_assoc] at later
            rw [← same]
            exact later

/-- Every run on a fresh store, with so few calls of `Create` and `Update` that their
number is an `int`. -/
theorem ids_numbered (calls : List (StoreCall × Arrangement Int))
    (few : calls.countP (·.1.stores) ≤ 2147483647) :
    ∃ run, steps calls construct = some run ∧ run.map Step.call = calls.map Prod.fst ∧
      ∀ earlier step later, run = earlier ++ step :: later → StepNumbered earlier step :=
  steps_run calls supplies_construct (by
    rw [List.countP_nil]
    omega)

/-- Two ids ahead of the counter, one of them of another entity and one removed again. -/
def idsAhead : List (StoreCall × Arrangement Int) :=
  [(.update "Shoes".toList 0 "a".toList, .plain), (.update "Books".toList 1 "b".toList, .plain),
    (.create "Shoes".toList "c".toList, .plain), (.delete "Shoes".toList 1, .plain),
    (.create "Books".toList "d".toList, .plain)]

theorem ids_numbered_idsAhead :
    ∃ run, steps idsAhead construct = some run ∧
      run.map Step.call = idsAhead.map Prod.fst ∧
      ∀ earlier step later, run = earlier ++ step :: later → StepNumbered earlier step :=
  ids_numbered idsAhead (by decide)

example : (steps idsAhead construct).map (fun run => run.filterMap Step.created) =
    some [("Shoes".toList, 1), ("Books".toList, 2)] := by
  decide +kernel

end BathroomRatings.Api
