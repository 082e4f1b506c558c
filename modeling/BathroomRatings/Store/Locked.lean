import BathroomRatings.Lib.Interface
import BathroomRatings.Store.InMemory

/-!
# The operations under the mutex

The operations of `EntityStoreInMemory` access by access, as they run between the
constructor and the destructor of their `lock_guard`.  Run without interruption they do
what the operations of the store do.  The loop in `Create` gives up after a number of
rounds; whatever it does in any number of rounds is covered.
-/

set_option autoImplicit false

namespace BathroomRatings.Store

open BathroomRatings.Lib BathroomRatings.Lib.Interface BathroomRatings.Lib.Search
open BathroomRatings.Lib.Sorting BathroomRatings.Lib.Word
open BathroomRatings.Lib.Interface.Program (request)

/-- An access to a member, or to the map of an entity that `subscript` has looked up. -/
inductive MemoryCommand where
  | subscript (entityName : Text)
  | loadNextId
  | storeNextId (id : Int)
  | count (entityName : Text) (id : Int)
  | find (entityName : Text) (id : Int)
  | assign (entityName : Text) (id : Int) (data : Text)
  | erase (entityName : Text) (id : Int)
  | ids (entityName : Text)
  deriving DecidableEq

abbrev MemoryCommand.Reply : MemoryCommand → Type
  | .subscript _ => Unit
  | .loadNextId => Int
  | .storeNextId _ => Unit
  | .count _ _ => Bool
  | .find _ _ => Option Text
  | .assign _ _ _ => Unit
  | .erase _ _ => Bool
  | .ids _ => List Int

abbrev MemoryProgram := Program MemoryCommand MemoryCommand.Reply

namespace EntityStoreInMemory

/-- What an access returns and changes; `order` is the order of iteration. -/
def access (order : Arrangement Int) :
    Handler MemoryCommand MemoryCommand.Reply EntityStoreInMemory
  | store, .subscript entityName => ((), store.setEntry entityName (store.entry entityName))
  | store, .loadNextId => (store.nextId, store)
  | store, .storeNextId id => ((), { store with nextId := id })
  | store, .count entityName id => (((store.entry entityName).get id).isSome, store)
  | store, .find entityName id => ((store.entry entityName).get id, store)
  | store, .assign entityName id data =>
      ((), store.setEntry entityName ((store.entry entityName).insert id data))
  | store, .erase entityName id =>
      (((store.entry entityName).get id).isSome,
        store.setEntry entityName ((store.entry entityName).erase id))
  | store, .ids entityName => (order.arrange (store.entry entityName).keys, store)

def increment : MemoryProgram Int := do
  let id ← request MemoryCommand.loadNextId
  let _ ← request (MemoryCommand.storeNextId (successor id))
  pure id

/-- `while (objects_by_id.count(next_id_)) next_id_++;` -/
def skipUsed (entityName : Text) : Nat → MemoryProgram Unit
  | 0 => .diverge
  | rounds + 1 => do
      let id ← request MemoryCommand.loadNextId
      if ← request (MemoryCommand.count entityName id) then
        let _ ← increment
        skipUsed entityName rounds
      else pure ()

def createSteps (rounds : Nat) (entityName data : Text) : MemoryProgram Int := do
  let _ ← request (MemoryCommand.subscript entityName)
  let _ ← skipUsed entityName rounds
  let id ← increment
  let _ ← request (MemoryCommand.assign entityName id data)
  pure id

def readSteps (entityName : Text) (id : Int) (outData : Text) :
    MemoryProgram (Bool × Text) := do
  let _ ← request (MemoryCommand.subscript entityName)
  match ← request (MemoryCommand.find entityName id) with
  | some data => pure (true, data)
  | none => pure (false, outData)

def updateSteps (entityName : Text) (id : Int) (data : Text) : MemoryProgram Bool := do
  let _ ← request (MemoryCommand.subscript entityName)
  let _ ← request (MemoryCommand.assign entityName id data)
  pure true

def deleteSteps (entityName : Text) (id : Int) : MemoryProgram Bool := do
  let _ ← request (MemoryCommand.subscript entityName)
  request (MemoryCommand.erase entityName id)

def listSteps (entityName : Text) : MemoryProgram (List Int) := do
  let _ ← request (MemoryCommand.subscript entityName)
  request (MemoryCommand.ids entityName)

end EntityStoreInMemory

def lockedStore (rounds : Nat) : EntityStore MemoryProgram where
  create := EntityStoreInMemory.createSteps rounds
  read := EntityStoreInMemory.readSteps
  update := EntityStoreInMemory.updateSteps
  delete := EntityStoreInMemory.deleteSteps
  list := EntityStoreInMemory.listSteps

namespace EntityStoreInMemory

section Runs

variable (order : Arrangement Int) (entityName : Text)

theorem setEntry_entry (store : EntityStoreInMemory) (objectsById : Table Int Text) :
    (store.setEntry entityName objectsById).entry entityName = objectsById := by
  rw [entry_setEntry, if_pos rfl]

theorem setEntry_setEntry (store : EntityStoreInMemory) (first second : Table Int Text) :
    (store.setEntry entityName first).setEntry entityName second =
      store.setEntry entityName second := by
  simp only [setEntry]
  rw [AList.insert_insert]

theorem increment_run (store : EntityStoreInMemory) :
    increment.run (access order) store =
      some (store.nextId, { store with nextId := successor store.nextId }) := rfl

theorem skipUsed_round (rounds : Nat) (store : EntityStoreInMemory) :
    (skipUsed entityName (rounds + 1)).run (access order) store =
      if store.occupied entityName store.nextId then
        (skipUsed entityName rounds).run (access order)
          { store with nextId := successor store.nextId }
      else some ((), store) := by
  have unfolded : (skipUsed entityName (rounds + 1)).run (access order) store =
      Program.run (access order)
        (if store.occupied entityName store.nextId then
          (do let _ ← increment; skipUsed entityName rounds)
        else pure ()) store := rfl
  rw [unfolded]
  cases store.occupied entityName store.nextId <;> rfl

theorem skipUsed_run {rounds : Nat} {store : EntityStoreInMemory}
    {reached : Unit × EntityStoreInMemory}
    (ran : (skipUsed entityName rounds).run (access order) store = some reached) :
    ∃ steps,
      Found successor (store.occupied entityName) store.nextId reached.2.nextId steps ∧
        reached.2 = { store with nextId := reached.2.nextId } := by
  induction rounds generalizing store with
  | zero => exact absurd ran (by simp [skipUsed, Program.run])
  | succ rounds ih =>
      rw [skipUsed_round] at ran
      cases busy : store.occupied entityName store.nextId with
      | false =>
          rw [busy, if_neg Bool.false_ne_true] at ran
          rw [← Option.some.inj ran]
          exact ⟨0, ⟨rfl, busy, by simp⟩, rfl⟩
      | true =>
          rw [busy, if_pos rfl] at ran
          obtain ⟨steps, ⟨arrived, free, passed⟩, same⟩ := ih ran
          refine ⟨steps + 1, ⟨arrived, free, ?_⟩, same⟩
          intro i before
          cases i with
          | zero => exact busy
          | succ i => exact passed i (by omega)

theorem createSteps_run {rounds : Nat} {data : Text} {store after : EntityStoreInMemory}
    {id : Int} (ran : (createSteps rounds entityName data).run (access order) store =
      some (id, after)) : create entityName data store = some (id, after) := by
  rw [createSteps, run_request_bind, run_bind] at ran
  obtain ⟨⟨_, skipped⟩, loop, ran⟩ := Option.bind_eq_some_iff.mp ran
  obtain ⟨steps, found, same⟩ := skipUsed_run order entityName loop
  rw [run_bind, increment_run] at ran
  obtain ⟨rfl, rfl⟩ := Prod.mk.inj (Option.some.inj ran)
  have entry : (access order store (.subscript entityName)).2.entry entityName =
      store.entry entityName := setEntry_entry entityName store _
  have occupied : (access order store (.subscript entityName)).2.occupied entityName =
      store.occupied entityName := by
    funext id
    simp only [EntityStoreInMemory.occupied, entry]
  rw [occupied] at found
  have few : steps ≤ (store.entry entityName).entries.length := by
    have met := found.steps_le (store.entry entityName).keys.toFinset (by
      intro id busy
      rw [List.mem_toFinset, Table.mem_keys_iff]
      exact Option.isSome_iff_ne_none.mp busy)
    have keys := List.toFinset_card_le (store.entry entityName).keys
    have length : (store.entry entityName).keys.length =
        (store.entry entityName).entries.length := List.length_map _
    omega
  have search : firstFree successor (store.occupied entityName)
      ((store.entry entityName).entries.length + 1) store.nextId = some skipped.nextId :=
    firstFree_of_found found _ (by omega)
  have table : skipped.objectsByIdByEntity =
      store.objectsByIdByEntity.insert entityName (store.entry entityName) :=
    congrArg EntityStoreInMemory.objectsByIdByEntity same
  have held : skipped.entry entityName = store.entry entityName := by
    unfold EntityStoreInMemory.entry
    rw [table, Table.get_insert, if_pos rfl]
    rfl
  have created : create entityName data store = some (skipped.nextId,
      setEntry { store with nextId := successor skipped.nextId } entityName
        ((store.entry entityName).insert skipped.nextId data)) := by
    simp only [create, search]
    rfl
  rw [created]
  refine congrArg (fun final => some (skipped.nextId, final)) ?_
  change _ = setEntry { skipped with nextId := successor skipped.nextId } entityName
    ((skipped.entry entityName).insert skipped.nextId data)
  rw [held]
  simp only [setEntry, table, AList.insert_insert]

theorem readSteps_run (id : Int) (outData : Text) (store : EntityStoreInMemory) :
    (readSteps entityName id outData).run (access order) store =
      read entityName id outData store := by
  have entry : (store.setEntry entityName (store.entry entityName)).entry entityName =
      store.entry entityName := setEntry_entry entityName store _
  simp only [readSteps, run_request_bind, access, entry, read]
  cases (store.entry entityName).get id <;> rfl

theorem updateSteps_run (id : Int) (data : Text) (store : EntityStoreInMemory) :
    (updateSteps entityName id data).run (access order) store =
      update entityName id data store := by
  have entry : (store.setEntry entityName (store.entry entityName)).entry entityName =
      store.entry entityName := setEntry_entry entityName store _
  simp only [updateSteps, run_request_bind, access, entry, setEntry_setEntry, update]
  rfl

theorem deleteSteps_run (id : Int) (store : EntityStoreInMemory) :
    (deleteSteps entityName id).run (access order) store = delete entityName id store := by
  have entry : (store.setEntry entityName (store.entry entityName)).entry entityName =
      store.entry entityName := setEntry_entry entityName store _
  have erased : (deleteSteps entityName id).run (access order) store =
      some (access order (access order store (.subscript entityName)).2
        (.erase entityName id)) := rfl
  rw [erased]
  simp only [access, entry, setEntry_setEntry, delete]
  rfl

theorem listSteps_run (store : EntityStoreInMemory) :
    (listSteps entityName).run (access order) store = list order entityName store := by
  have entry : (store.setEntry entityName (store.entry entityName)).entry entityName =
      store.entry entityName := setEntry_entry entityName store _
  have listed : (listSteps entityName).run (access order) store =
      some (access order (access order store (.subscript entityName)).2
        (.ids entityName)) := rfl
  rw [listed]
  simp only [access, entry, list]
  rfl

end Runs

end EntityStoreInMemory
end BathroomRatings.Store
