import BathroomRatings.Store.Specification
import BathroomRatings.Lib.Search
import BathroomRatings.Lib.Sorting
import BathroomRatings.Lib.Table

/-!
# The store in memory

`EntityStoreInMemory`: a map of maps, and one counter for the ids of all entities.
`operator[]` inserts an empty map for an entity that has none, also when nothing is
stored.  Every operation holds the mutex from its start to its end.
-/

set_option autoImplicit false

namespace BathroomRatings.Store

open BathroomRatings.Lib BathroomRatings.Lib.Search BathroomRatings.Lib.Sorting
open BathroomRatings.Lib.Word

structure EntityStoreInMemory where
  objectsByIdByEntity : Table Text (Table Int Text)
  nextId : Int

namespace EntityStoreInMemory

def construct : EntityStoreInMemory := ⟨∅, 0⟩

/-- `objects_by_id_by_entity_[entity_name]` -/
def entry (store : EntityStoreInMemory) (entityName : Text) : Table Int Text :=
  (store.objectsByIdByEntity.get entityName).getD ∅

def setEntry (store : EntityStoreInMemory) (entityName : Text) (objectsById : Table Int Text) :
    EntityStoreInMemory :=
  { store with objectsByIdByEntity := store.objectsByIdByEntity.insert entityName objectsById }

/-- The operations act on the store; none is a search that does not end. -/
abbrev Action := StateT EntityStoreInMemory Option

/-- The search follows `next_id_++` from the counter.  It ends if it meets an unused id
before it has seen as many as there are objects. -/
def create (entityName data : Text) : Action Int := fun store => do
  let objectsById := store.entry entityName
  let id ← firstFree successor (fun id => (objectsById.get id).isSome)
    (objectsById.entries.length + 1) store.nextId
  let store := { store with nextId := successor id }
  pure (id, store.setEntry entityName (objectsById.insert id data))

def read (entityName : Text) (id : Int) (outData : Text) : Action (Bool × Text) :=
  fun store =>
    let objectsById := store.entry entityName
    let store := store.setEntry entityName objectsById
    match objectsById.get id with
    | some data => pure ((true, data), store)
    | none => pure ((false, outData), store)

def update (entityName : Text) (id : Int) (data : Text) : Action Bool := fun store =>
  let objectsById := store.entry entityName
  pure (true, store.setEntry entityName (objectsById.insert id data))

def delete (entityName : Text) (id : Int) : Action Bool := fun store =>
  let objectsById := store.entry entityName
  pure ((objectsById.get id).isSome, store.setEntry entityName (objectsById.erase id))

def list (order : Arrangement Int) (entityName : Text) : Action (List Int) := fun store =>
  let objectsById := store.entry entityName
  pure (order.arrange objectsById.keys, store.setEntry entityName objectsById)

end EntityStoreInMemory

def entityStoreInMemory (order : Arrangement Int) :
    EntityStore EntityStoreInMemory.Action where
  create := EntityStoreInMemory.create
  read := EntityStoreInMemory.read
  update := EntityStoreInMemory.update
  delete := EntityStoreInMemory.delete
  list := EntityStoreInMemory.list order

namespace EntityStoreInMemory

theorem bind_run {α β : Type} {action : Action α} {next : α → Action β}
    {store store' : EntityStoreInMemory} {result : α}
    (run : action store = some (result, store')) :
    (action >>= next) store = next result store' := by
  change (action store).bind _ = _
  rw [run]
  rfl

/-! ## The objects of a store -/

def objects (store : EntityStoreInMemory) : Objects := fun entityName id =>
  (store.entry entityName).get id

theorem objects_construct : construct.objects = Objects.empty := by
  funext entityName id
  rfl

theorem entry_setEntry (store : EntityStoreInMemory) (entityName other : Text)
    (objectsById : Table Int Text) :
    (store.setEntry entityName objectsById).entry other =
      if other = entityName then objectsById else store.entry other := by
  simp only [entry, setEntry]
  rw [Table.get_insert]
  split <;> rfl

theorem objects_touch (store : EntityStoreInMemory) (entityName : Text) :
    (store.setEntry entityName (store.entry entityName)).objects = store.objects := by
  funext other id
  simp only [objects]
  rw [entry_setEntry]
  by_cases same : other = entityName
  · rw [if_pos same, same]
  · rw [if_neg same]

theorem objects_insert (store : EntityStoreInMemory) (entityName : Text) (id : Int)
    (data : Text) :
    (store.setEntry entityName ((store.entry entityName).insert id data)).objects =
      store.objects.put entityName id data := by
  funext other otherId
  simp only [objects, Objects.put]
  rw [entry_setEntry]
  by_cases same : other = entityName
  · subst same
    simp [Table.get_insert]
  · simp [same]

theorem objects_erase (store : EntityStoreInMemory) (entityName : Text) (id : Int) :
    (store.setEntry entityName ((store.entry entityName).erase id)).objects =
      store.objects.erase entityName id := by
  funext other otherId
  simp only [objects, Objects.erase]
  rw [entry_setEntry]
  by_cases same : other = entityName
  · subst same
    simp [Table.get_erase]
  · simp [same]

theorem read_run (store : EntityStoreInMemory) (entityName : Text) (id : Int)
    (outData : Text) :
    read entityName id outData store =
      some (((store.objects entityName id).isSome, (store.objects entityName id).getD outData),
        store.setEntry entityName (store.entry entityName)) := by
  unfold read objects
  cases found : (store.entry entityName).get id <;> simp only [found] <;> rfl

theorem delete_run (store : EntityStoreInMemory) (entityName : Text) (id : Int) :
    delete entityName id store =
      some ((store.objects entityName id).isSome,
        store.setEntry entityName ((store.entry entityName).erase id)) := rfl

/-- After a number of calls, `ahead` are the ids in use that the counter has yet to
meet. -/
structure Counts (store : EntityStoreInMemory) (calls : Nat) (ahead : Finset Int) :
    Prop where
  nonneg : 0 ≤ store.nextId
  bounded : store.nextId + ahead.card ≤ calls
  behind : ∀ entityName id, store.objects entityName id ≠ none →
    id < store.nextId ∨ id ∈ ahead

theorem counts_construct : Counts construct 0 ∅ := by
  refine ⟨le_rfl, le_rfl, ?_⟩
  intro entityName id stored
  rw [objects_construct] at stored
  exact absurd rfl stored

theorem Counts.mono {store : EntityStoreInMemory} {calls more : Nat} {ahead : Finset Int}
    (counts : Counts store calls ahead) (le : calls ≤ more) : Counts store more ahead := by
  refine ⟨counts.nonneg, ?_, counts.behind⟩
  have bounded := counts.bounded
  omega

theorem Counts.congr {store store' : EntityStoreInMemory} {calls : Nat} {ahead : Finset Int}
    (counts : Counts store calls ahead) (nextId : store'.nextId = store.nextId)
    (fewer : ∀ entityName id, store'.objects entityName id ≠ none →
      store.objects entityName id ≠ none) : Counts store' calls ahead := by
  refine ⟨?_, ?_, ?_⟩
  · rw [nextId]
    exact counts.nonneg
  · rw [nextId]
    exact counts.bounded
  · intro entityName id stored
    rw [nextId]
    exact counts.behind entityName id (fewer entityName id stored)

theorem Counts.update {store : EntityStoreInMemory} {calls : Nat} {ahead : Finset Int}
    (counts : Counts store calls ahead) (entityName : Text) (id : Int) (data : Text) :
    Counts (store.setEntry entityName ((store.entry entityName).insert id data)) (calls + 1)
      (insert id ahead) := by
  refine ⟨counts.nonneg, ?_, ?_⟩
  · have bounded := counts.bounded
    have card := Finset.card_insert_le id ahead
    change store.nextId + _ ≤ _
    push_cast
    omega
  · intro other otherId stored
    rw [objects_insert] at stored
    simp only [Objects.put] at stored
    rw [Finset.mem_insert]
    split at stored
    · rename_i same
      exact Or.inr (Or.inl same.2)
    · rcases counts.behind other otherId stored with smaller | member
      · exact Or.inl smaller
      · exact Or.inr (Or.inr member)

abbrev occupied (store : EntityStoreInMemory) (entityName : Text) (id : Int) : Bool :=
  ((store.entry entityName).get id).isSome

theorem occupied_eq_false_iff (store : EntityStoreInMemory) (entityName : Text) (id : Int) :
    store.occupied entityName id = false ↔ store.objects entityName id = none :=
  Option.isSome_eq_false_iff.trans Option.isNone_iff_eq_none

/-- A table has no more keys, of whatever kind, than entries. -/
theorem card_keys_inter_le (table : Table Int Text) (ids : Finset Int) :
    (table.keys.toFinset ∩ ids).card ≤ table.entries.length := by
  have part : (table.keys.toFinset ∩ ids).card ≤ table.keys.toFinset.card :=
    Finset.card_le_card Finset.inter_subset_left
  have keys := List.toFinset_card_le table.keys
  have length : table.keys.length = table.entries.length := List.length_map _
  omega

/-- The search of `Create` ends at an id that is not in use; it counts up to it without
wrapping, and the ids it passes are ahead of the counter. -/
theorem search_run {store : EntityStoreInMemory} {calls : Nat} {ahead : Finset Int}
    (counts : Counts store calls ahead) (few : calls < 2147483647) (entityName : Text) :
    ∃ steps : Nat, steps ≤ ahead.card ∧
      firstFree successor (store.occupied entityName)
        ((store.entry entityName).entries.length + 1) store.nextId =
          some (store.nextId + steps) ∧
      Found successor (store.occupied entityName) store.nextId (store.nextId + steps) steps ∧
      ∀ i : Nat, i < steps → store.nextId + i ∈ ahead := by
  obtain ⟨nonneg, bounded, behind⟩ := counts
  have inRange : InRange32 store.nextId := ⟨by omega, by omega⟩
  have counting : ∀ i : Nat, i ≤ ahead.card →
      successor^[i] store.nextId = store.nextId + i := by
    intro i small
    exact successor_iterate_of_small store.nextId inRange i (by omega)
  have met : ∀ i : Nat, store.occupied entityName (store.nextId + i) = true →
      store.nextId + i ∈ (store.entry entityName).keys.toFinset ∩ ahead := by
    intro i busy
    have stored : store.objects entityName (store.nextId + i) ≠ none :=
      Option.isSome_iff_ne_none.mp busy
    rw [Finset.mem_inter, List.mem_toFinset, Table.mem_keys_iff]
    rcases behind entityName _ stored with smaller | member
    · omega
    · exact ⟨stored, member⟩
  have cardAhead : ((store.entry entityName).keys.toFinset ∩ ahead).card ≤ ahead.card :=
    Finset.card_le_card Finset.inter_subset_right
  have cardKeys := card_keys_inter_le (store.entry entityName) ahead
  obtain ⟨id, steps, fewSteps, search, found⟩ := firstFree_total successor
    (store.occupied entityName)
    ((store.entry entityName).entries.length + 1) store.nextId
    ((store.entry entityName).keys.toFinset ∩ ahead) (by omega)
    (by
      intro i small busy
      rw [counting i (by omega)] at busy ⊢
      exact met i busy)
    (by
      intro i iSmall j jSmall same
      rw [counting i (by omega), counting j (by omega)] at same
      omega)
  obtain rfl : store.nextId + steps = id := (counting steps (by omega)).symm.trans found.reached
  refine ⟨steps, by omega, search, found, ?_⟩
  intro i before
  have busy := found.passed i before
  rw [counting i (by omega)] at busy
  exact (Finset.mem_inter.mp (met i busy)).2

theorem card_beyond {ahead : Finset Int} {start : Int} {steps : Nat}
    (passed : ∀ i : Nat, i < steps → start + i ∈ ahead) :
    (ahead.filter fun id => start + steps < id).card + steps ≤ ahead.card := by
  have met : ((Finset.range steps).image fun i : Nat => start + (i : Int)).card = steps := by
    rw [Finset.card_image_of_injective, Finset.card_range]
    intro i j same
    simpa using same
  have apart : Disjoint (ahead.filter fun id => start + steps < id)
      ((Finset.range steps).image fun i : Nat => start + (i : Int)) := by
    rw [Finset.disjoint_left]
    intro id later earlier
    obtain ⟨i, before, rfl⟩ := Finset.mem_image.mp earlier
    have beyond := (Finset.mem_filter.mp later).2
    have bound := Finset.mem_range.mp before
    omega
  have inside : (ahead.filter fun id => start + steps < id) ∪
      ((Finset.range steps).image fun i : Nat => start + (i : Int)) ⊆ ahead := by
    intro id member
    rcases Finset.mem_union.mp member with later | earlier
    · exact (Finset.mem_filter.mp later).1
    · obtain ⟨i, before, rfl⟩ := Finset.mem_image.mp earlier
      exact passed i (Finset.mem_range.mp before)
  have card := Finset.card_le_card inside
  rw [Finset.card_union_of_disjoint apart, met] at card
  exact card

/-- `Create` ends, with the id that its search counts up to. -/
theorem create_run {store : EntityStoreInMemory} {calls : Nat} {ahead : Finset Int}
    (counts : Counts store calls ahead) (few : calls < 2147483647) (entityName data : Text) :
    ∃ (id : Int) (steps : Nat) (store' : EntityStoreInMemory) (ahead' : Finset Int),
      create entityName data store = some (id, store') ∧
      Counts store' (calls + 1) ahead' ∧ id = store.nextId + steps ∧
      Found successor (store.occupied entityName) store.nextId id steps ∧
      store'.nextId = id + 1 ∧ store'.objects = store.objects.put entityName id data := by
  obtain ⟨steps, fewSteps, search, found, passed⟩ := search_run counts few entityName
  have bounded := counts.bounded
  have nonneg := counts.nonneg
  have next : successor (store.nextId + steps) = store.nextId + steps + 1 := by
    simp only [successor]
    exact wrap32_of_inRange ⟨by omega, by omega⟩
  -- the counter passes the ids that the search met
  have metCard := card_beyond passed
  have run : create entityName data store = some (store.nextId + steps,
      setEntry { store with nextId := successor (store.nextId + steps) } entityName
        ((store.entry entityName).insert (store.nextId + steps) data)) := by
    simp only [create, search]
    rfl
  refine ⟨store.nextId + steps, steps, _, ahead.filter fun id => store.nextId + steps < id, run,
    ⟨?_, ?_, ?_⟩, rfl, found, next, ?_⟩
  · change 0 ≤ successor _
    rw [next]
    omega
  · change successor _ + _ ≤ _
    rw [next]
    push_cast
    omega
  · intro other id stored
    change id < successor _ ∨ _
    rw [next, Finset.mem_filter]
    by_cases passedId : id < store.nextId + steps + 1
    · exact Or.inl passedId
    · refine Or.inr ⟨?_, by omega⟩
      have before : store.objects other id ≠ none := by
        intro absent
        apply stored
        have put := congrFun (congrFun (objects_insert store entityName
          (store.nextId + steps) data) other) id
        refine put.trans ?_
        simp only [Objects.put]
        rw [if_neg (by omega), absent]
      rcases counts.behind other id before with smaller | member
      · omega
      · exact member
  · exact objects_insert store entityName (store.nextId + steps) data

end EntityStoreInMemory
end BathroomRatings.Store
