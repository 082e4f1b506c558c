import BathroomRatings.Api.Service

/-!
# Two stores behind one handler

The store in memory counts on behind every id that it has given, the persistent store
looks from zero on for an id that is free.  When a client can tell them apart.
-/

set_option autoImplicit false

namespace BathroomRatings.Api

open BathroomRatings.Http BathroomRatings.Lib.Interface BathroomRatings.Lib.Search
open BathroomRatings.Lib.Sorting BathroomRatings.Lib.Word BathroomRatings.Store
open BathroomRatings.Store.EntityStoreInMemory BathroomRatings.Store.EntityStorePersistent
open BathroomRatings.Store.FileSystem

def storedExchanges (isValidJson : Text → Bool) (urlPrefix : Text) (dataRoot : Path) :
    List (Request × Environment) → FileSystem → Option (List Exchange × FileSystem)
  | [], fs => some ([], fs)
  | (request, environment) :: rest, fs => do
      let (response, fs) ← (handleRequest (entityStorePersistent dataRoot environment.buffering)
        isValidJson urlPrefix request).run (perform environment.order) fs
      let (more, fs) ← storedExchanges isValidJson urlPrefix dataRoot rest fs
      pure (⟨request, response⟩ :: more, fs)

/-- The stores agree on a request behind the same exchanges: a POST finds in use every id
up to those that POSTs were given, and a PUT is not to a negative id. -/
def Route.Agrees (urlPrefix : Text) (before : List Exchange) : Route → Prop
  | .create entityName _ =>
      ∀ earlier ∈ before, ∀ given, earlier.created = some given →
        ∀ id, 0 ≤ id → id ≤ given → ledger urlPrefix before entityName id ≠ none
  | .update _ id _ => 0 ≤ id
  | _ => True

theorem serves_unique {map : Objects} {taken : Route} {response other : Response}
    (serves : taken.Serves map response) (others : taken.Serves map other) :
    response = other := by
  cases taken with
  | create entityName data =>
      obtain ⟨id, least, rfl⟩ := serves
      obtain ⟨otherId, otherLeast, rfl⟩ := others
      rw [least.unique otherLeast]
  | list entityName =>
      obtain ⟨ids, sorted, listed, rfl⟩ := serves
      obtain ⟨otherIds, otherSorted, otherListed, rfl⟩ := others
      have same : ids = otherIds := by
        apply List.Perm.eq_of_pairwise' (r := (· < ·)) sorted otherSorted
        rw [List.perm_ext_iff_of_nodup (sorted.imp ne_of_lt) (otherSorted.imp ne_of_lt)]
        intro id
        rw [listed, otherListed]
      rw [same]
  | rejected answer => exact serves.trans others.symm
  | read entityName id => exact serves.trans others.symm
  | update entityName id data => exact serves.trans others.symm
  | delete entityName id => exact serves.trans others.symm

section InMemory

variable (order : Arrangement Int) (store : EntityStoreInMemory)

/-- Neither makes a new object nor asks for a negative id. -/
def Route.Plain : Route → Prop
  | .create _ _ => False
  | .update _ id _ => 0 ≤ id
  | _ => True

theorem serve_plain {taken : Route} (plain : taken.Plain) :
    ∃ response store', taken.serve (entityStoreInMemory order) store = some (response, store') ∧
      taken.Serves store.objects response ∧
      store'.objects = taken.objectsAfter store.objects response ∧
      store'.nextId = store.nextId := by
  cases taken with
  | create entityName data => exact absurd plain id
  | rejected answer => exact ⟨answer, store, rfl, rfl, rfl, rfl⟩
  | read entityName id =>
      refine ⟨_, store.setEntry entityName (store.entry entityName), ?_, rfl,
        objects_touch store entityName, rfl⟩
      refine (bind_run (read_run store entityName id [])).trans ?_
      cases store.objects entityName id <;> rfl
  | list entityName =>
      refine ⟨_, _, rfl, ⟨_, ?_, ?_, rfl⟩, objects_touch store entityName, rfl⟩
      · apply ascending_strict
        exact (order.perm _).nodup_iff.mpr (store.entry entityName).keys_nodup
      · intro id
        rw [mem_ascending, (order.perm _).mem_iff, Lib.Table.mem_keys_iff]
        rfl
  | update entityName id data =>
      have nonneg : 0 ≤ id := plain
      refine ⟨_, _, rfl, ?_, ?_, rfl⟩
      · exact (if_pos nonneg).symm
      · rw [objects_insert]
        exact (if_pos nonneg).symm
  | delete entityName id =>
      refine ⟨_, store.setEntry entityName ((store.entry entityName).erase id), ?_, rfl,
        objects_erase store entityName id, rfl⟩
      refine (bind_run (delete_run store entityName id)).trans ?_
      cases store.objects entityName id <;> rfl

structure NextUnused (entityName : Text) (id : Int) : Prop where
  nonneg : 0 ≤ id
  small : id < 2147483648
  least : IsLeast {id | store.nextId ≤ id ∧ store.objects entityName id = none} id

variable {store}

theorem serve_create {calls : Nat} {ahead : Finset Int} (counts : Counts store calls ahead)
    (few : calls < 2147483647) (entityName data : Text) :
    ∃ id store', (Route.create entityName data).serve (entityStoreInMemory order) store =
        some (ResponseBuilder.ok (idJson id) jsonContentType, store') ∧
      NextUnused store entityName id ∧ store'.objects = store.objects.put entityName id data ∧
      store'.nextId = id + 1 := by
  obtain ⟨id, steps, store', ahead', created, counts', counted, found, next, objects⟩ :=
    create_run counts few entityName data
  have bounded := counts'.bounded
  have nonneg := counts.nonneg
  have small : id < 2147483648 := by omega
  refine ⟨id, store', ?_, ⟨by omega, small, ⟨by omega, ?_⟩, ?_⟩, objects, next⟩
  · refine (bind_run created).trans ?_
    rw [if_neg (by omega)]
    rfl
  · exact (occupied_eq_false_iff store entityName id).mp found.free
  · intro other unused
    obtain ⟨beyond, free⟩ := unused
    by_contra smaller
    obtain ⟨i, counting⟩ := Int.eq_ofNat_of_zero_le (Int.sub_nonneg_of_le beyond)
    have passed := found.passed i (by omega)
    rw [successor_iterate_of_small store.nextId ⟨by omega, by omega⟩ i (by omega),
      show store.nextId + i = other by omega] at passed
    rw [(occupied_eq_false_iff store entityName other).mpr free] at passed
    exact absurd passed (by simp)

end InMemory

/-- The ids below the counter are those up to an id that a POST was given. -/
def Reached (before : List Exchange) (store : EntityStoreInMemory) : Prop :=
  ∀ id, 0 ≤ id → id < store.nextId →
    ∃ earlier ∈ before, ∃ given, earlier.created = some given ∧ id ≤ given

theorem Reached.append {before : List Exchange} {store store' : EntityStoreInMemory}
    (reached : Reached before store) (nextId : store'.nextId = store.nextId)
    (exchange : Exchange) : Reached (before ++ [exchange]) store' := by
  intro id nonneg below
  rw [nextId] at below
  obtain ⟨earlier, member, given, made, upTo⟩ := reached id nonneg below
  exact ⟨earlier, List.mem_append_left _ member, given, made, upTo⟩

section Step

variable {isValidJson : Text → Bool} {urlPrefix : Text} {before : List Exchange}
  {store : EntityStoreInMemory} {request : Request}

theorem idJson_inj {id other : Int} (nonneg : 0 ≤ id) (small : id < 2147483648)
    (otherNonneg : 0 ≤ other) (otherSmall : other < 2147483648)
    (same : idJson id = idJson other) : id = other := by
  have named := createdId_idJson nonneg small
  rw [same, createdId_idJson otherNonneg otherSmall] at named
  exact (Option.some.inj named).symm

theorem ok_inj {body other contentType : Text}
    (same : ResponseBuilder.ok body contentType = ResponseBuilder.ok other contentType) :
    body = other :=
  congrArg Response.body same

/-- The counter gives the least free id if there is none below it. -/
theorem nextUnused_eq_iff (represents : Represents urlPrefix before store)
    (reached : Reached before store) {entityName : Text} {id other : Int}
    (next : NextUnused store entityName id)
    (least : IsLeast {id | 0 ≤ id ∧ store.objects entityName id = none} other)
    (data : Text) :
    id = other ↔ (Route.create entityName data).Agrees urlPrefix before := by
  obtain ⟨⟨beyond, free⟩, first⟩ := next.least
  simp only [Route.Agrees, ← represents.objects]
  constructor
  · rintro rfl earlier member given made smaller nonneg upTo unused
    have below := represents.made earlier member given made
    have bound : id ≤ smaller := least.2 ⟨nonneg, unused⟩
    omega
  · intro agrees
    obtain ⟨⟨nonneg, unused⟩, lower⟩ := least
    have notAbove : other ≤ id := lower ⟨next.nonneg, free⟩
    have past : store.nextId ≤ other := by
      by_contra below
      obtain ⟨earlier, member, given, made, upTo⟩ := reached other nonneg (by omega)
      exact agrees earlier member given made other nonneg upTo unused
    exact le_antisymm (first ⟨past, unused⟩) notAbove

/-- What the store in memory answers when the service over the same objects may answer
`other`. -/
structure AnswersBeside (isValidJson : Text → Bool) (urlPrefix : Text)
    (before : List Exchange) (store : EntityStoreInMemory) (request : Request)
    (other response : Response) (store' : EntityStoreInMemory) : Prop where
  represents : Represents urlPrefix (before ++ [⟨request, response⟩]) store'
  reached : Reached (before ++ [⟨request, response⟩]) store'
  agrees : response = other ↔ (route isValidJson urlPrefix request).Agrees urlPrefix before
  objects : response = other →
    store'.objects = (route isValidJson urlPrefix request).objectsAfter store.objects other

variable (represents : Represents urlPrefix before store) (reached : Reached before store)
variable (few : before.length < 2147483647) (order : Arrangement Int)
variable {other : Response}
include represents reached few

theorem create_beside {entityName data : Text}
    (taken : route isValidJson urlPrefix request = .create entityName data)
    (small : ∀ id, IsLeast {id | 0 ≤ id ∧ store.objects entityName id = none} id →
      id < 2147483648)
    (serves : (Route.create entityName data).Serves store.objects other) :
    ∃ response store',
      handleRequest (entityStoreInMemory order) isValidJson urlPrefix request store =
        some (response, store') ∧
      AnswersBeside isValidJson urlPrefix before store request other response store' := by
  obtain ⟨ahead, counts⟩ := represents.counts
  obtain ⟨id, store', served, next, objects, nextId⟩ :=
    serve_create order counts few entityName data
  obtain ⟨response, last, handled, -, represents'⟩ :=
    handleRequest_run isValidJson represents few order request
  have same := handled
  rw [handleRequest_eq_serve, taken, served] at same
  obtain ⟨rfl, rfl⟩ := Prod.mk.inj (Option.some.inj same)
  obtain ⟨otherId, least, rfl⟩ := serves
  have ids : ResponseBuilder.ok (idJson id) jsonContentType =
      ResponseBuilder.ok (idJson otherId) jsonContentType ↔ id = otherId := by
    constructor
    · intro answers
      exact idJson_inj next.nonneg next.small least.1.1 (small otherId least) (ok_inj answers)
    · rintro rfl
      rfl
  refine ⟨_, _, handled, represents', ?_, ?_, ?_⟩
  · intro smaller nonneg below
    rw [nextId] at below
    refine ⟨_, List.mem_append_right before List.mem_cons_self, id, ?_, by omega⟩
    have routed := route_routed isValidJson urlPrefix request
    rw [taken] at routed
    cases routed with
    | create entityName method =>
        simp only [Exchange.created]
        rw [if_pos ⟨method, rfl⟩]
        exact createdId_idJson next.nonneg next.small
  · rw [ids, taken]
    exact nextUnused_eq_iff represents reached next least data
  · intro answers
    obtain rfl := ids.mp answers
    have named : createdId (ResponseBuilder.ok (idJson id) jsonContentType).body = some id :=
      createdId_idJson next.nonneg next.small
    rw [taken, objects]
    simp only [Route.objectsAfter, named]

theorem plain_beside (plain : (route isValidJson urlPrefix request).Plain)
    (serves : (route isValidJson urlPrefix request).Serves store.objects other) :
    ∃ response store',
      handleRequest (entityStoreInMemory order) isValidJson urlPrefix request store =
        some (response, store') ∧
      AnswersBeside isValidJson urlPrefix before store request other response store' := by
  obtain ⟨response, last, handled, -, represents'⟩ :=
    handleRequest_run isValidJson represents few order request
  obtain ⟨answer, store', served, answers, objects, nextId⟩ := serve_plain order store plain
  have same := handled
  rw [handleRequest_eq_serve, served] at same
  obtain ⟨rfl, rfl⟩ := Prod.mk.inj (Option.some.inj same)
  obtain rfl := serves_unique answers serves
  refine ⟨_, _, handled, represents', reached.append nextId _, ?_, fun _ => objects⟩
  refine iff_of_true rfl ?_
  cases taken : route isValidJson urlPrefix request with
  | create entityName data =>
      rw [taken] at plain
      exact absurd plain id
  | update entityName id data =>
      rw [taken] at plain
      exact plain
  | _ => trivial

/-- The persistent store has no place for a negative id. -/
theorem negative_beside {entityName data : Text} {id : Int}
    (taken : route isValidJson urlPrefix request = .update entityName id data)
    (negative : ¬ 0 ≤ id)
    (serves : (Route.update entityName id data).Serves store.objects other) :
    ∃ response store',
      handleRequest (entityStoreInMemory order) isValidJson urlPrefix request store =
        some (response, store') ∧
      AnswersBeside isValidJson urlPrefix before store request other response store' := by
  obtain ⟨response, last, handled, -, represents'⟩ :=
    handleRequest_run isValidJson represents few order request
  have same := handled
  rw [handleRequest_eq_serve, taken] at same
  obtain ⟨rfl, rfl⟩ := Prod.mk.inj (Option.some.inj same)
  have refused : other =
      ResponseBuilder.internalServerError "Failed to update entity".toList :=
    serves.trans (if_neg negative)
  have differ : ResponseBuilder.ok (idJson id) jsonContentType ≠ other := by
    rw [refused]
    intro answers
    have status : "200 OK".toList = "500 Internal Server Error".toList :=
      congrArg Response.statusCode answers
    exact absurd status (by decide)
  refine ⟨_, _, handled, represents', reached.append rfl _, ?_, fun answers =>
    absurd answers differ⟩
  rw [taken]
  exact iff_of_false differ negative

theorem handle_beside
    (small : ∀ entityName id, IsLeast {id | 0 ≤ id ∧ store.objects entityName id = none} id →
      id < 2147483648)
    (serves : (route isValidJson urlPrefix request).Serves store.objects other) :
    ∃ response store',
      handleRequest (entityStoreInMemory order) isValidJson urlPrefix request store =
        some (response, store') ∧
      AnswersBeside isValidJson urlPrefix before store request other response store' := by
  by_cases plain : (route isValidJson urlPrefix request).Plain
  · exact plain_beside represents reached few order plain serves
  · cases taken : route isValidJson urlPrefix request with
    | create entityName data =>
        rw [taken] at serves
        exact create_beside represents reached few order taken (small entityName) serves
    | update entityName id data =>
        rw [taken] at plain serves
        exact negative_beside represents reached few order taken plain serves
    | _ =>
        rw [taken] at plain
        exact absurd trivial plain

end Step

/-! ## Runs -/

theorem storedExchanges_run (isValidJson : Text → Bool) (urlPrefix : Text) {dataRoot : Path}
    {map : Objects} {fs : FileSystem} (keeps : Keeps dataRoot map fs) {used : Finset Int}
    (within : map.Within used) (requests : List (Request × Environment))
    (few : used.card + requests.length ≤ 2147483648) :
    ∃ others fs', storedExchanges isValidJson urlPrefix dataRoot requests fs =
      some (others, fs') := by
  induction requests generalizing map fs used with
  | nil => exact ⟨[], fs, rfl⟩
  | cons first rest ih =>
      obtain ⟨request, environment⟩ := first
      rw [List.length_cons] at few
      obtain ⟨other, middle, ran, -, kept⟩ :=
        handle_served isValidJson urlPrefix request keeps within (by omega) environment
      obtain ⟨more, -, within', count⟩ := objectsAfter_within within
        (route isValidJson urlPrefix request) other
      obtain ⟨others, fs', runs⟩ := ih kept within' (by omega)
      exact ⟨⟨request, other⟩ :: others, fs', by simp [storedExchanges, ran, runs]⟩

/-- A request, with what `List` and the file system leave open for the two stores. -/
structure Asked where
  request : Request
  order : Arrangement Int
  environment : Environment

def inMemory (asked : List Asked) : List (Request × Arrangement Int) :=
  asked.map fun item => (item.request, item.order)

def onDisk (asked : List Asked) : List (Request × Environment) :=
  asked.map fun item => (item.request, item.environment)

theorem forall_split_cons {α : Type} (holds : List α → α → Prop) (first : α) (rest : List α) :
    (∀ earlier item later, first :: rest = earlier ++ item :: later → holds earlier item) ↔
      holds [] first ∧
        ∀ earlier item later, rest = earlier ++ item :: later → holds (first :: earlier) item := by
  constructor
  · intro all
    refine ⟨all [] first rest rfl, ?_⟩
    intro earlier item later split
    exact all (first :: earlier) item later (congrArg (List.cons first) split)
  · rintro ⟨here, all⟩ earlier item later split
    cases earlier with
    | nil =>
        obtain ⟨rfl, -⟩ := List.cons.inj split
        exact here
    | cons next earlier =>
        obtain ⟨rfl, further⟩ := List.cons.inj split
        exact all earlier item later further

theorem exchanges_agree (isValidJson : Text → Bool) {urlPrefix : Text} {dataRoot : Path}
    (asked : List Asked) {before : List Exchange} {store : EntityStoreInMemory}
    {fs : FileSystem} (represents : Represents urlPrefix before store)
    (reached : Reached before store) (keeps : Keeps dataRoot store.objects fs)
    {used : Finset Int} (within : store.objects.Within used)
    (few : before.length + asked.length < 2147483648)
    (fewUsed : used.card + asked.length ≤ 2147483648) :
    ∃ history store' others fs',
      exchanges isValidJson urlPrefix (inMemory asked) store = some (history, store') ∧
      storedExchanges isValidJson urlPrefix dataRoot (onDisk asked) fs = some (others, fs') ∧
      (history = others ↔ ∀ earlier exchange later, history = earlier ++ exchange :: later →
        (route isValidJson urlPrefix exchange.request).Agrees urlPrefix (before ++ earlier)) := by
  induction asked generalizing before store fs used with
  | nil =>
      refine ⟨[], store, [], fs, rfl, rfl, iff_of_true rfl ?_⟩
      intro earlier exchange later split
      exact absurd split (by simp)
  | cons first rest ih =>
      rw [List.length_cons] at few fewUsed
      obtain ⟨other, middle, ran, serves, kept⟩ :=
        handle_served isValidJson urlPrefix first.request keeps within (by omega)
          first.environment
      obtain ⟨response, next, handled, beside⟩ := handle_beside
        represents reached (by omega) first.order
        (fun entityName id least => least_small within (by omega) least) serves
      obtain ⟨more, -, within', count⟩ := objectsAfter_within within
        (route isValidJson urlPrefix first.request) other
      have longer : (before ++ [Exchange.mk first.request response]).length + rest.length <
          2147483648 := by
        rw [List.length_append, List.length_singleton]
        omega
      by_cases same : response = other
      · rw [← beside.objects same] at kept within'
        obtain ⟨history, store', others, fs', runs, runsOnDisk, agree⟩ :=
          ih beside.represents beside.reached kept within' longer (by omega)
        refine ⟨⟨first.request, response⟩ :: history, store',
          ⟨first.request, other⟩ :: others, fs', (bind_run handled).trans (bind_run runs), ?_, ?_⟩
        · simp only [onDisk] at runsOnDisk
          simp [onDisk, storedExchanges, ran, runsOnDisk]
        · rw [forall_split_cons, List.append_nil, and_iff_right (beside.agrees.mp same), ← same,
            List.cons_inj_right, agree]
          simp only [List.append_assoc, List.singleton_append]
      · obtain ⟨history, store', runs, -, -⟩ :=
          exchanges_run isValidJson (inMemory rest) beside.represents (by
            simpa [inMemory] using longer)
        obtain ⟨others, fs', runsOnDisk⟩ :=
          storedExchanges_run isValidJson urlPrefix kept within' (onDisk rest) (by
            rw [onDisk, List.length_map]
            omega)
        refine ⟨⟨first.request, response⟩ :: history, store',
          ⟨first.request, other⟩ :: others, fs', (bind_run handled).trans (bind_run runs), ?_, ?_⟩
        · simp only [onDisk] at runsOnDisk
          simp [onDisk, storedExchanges, ran, runsOnDisk]
        · rw [forall_split_cons, List.append_nil]
          refine iff_of_false ?_ fun agrees => same (beside.agrees.mpr agrees.1)
          intro equal
          exact same (Exchange.mk.inj (List.cons.inj equal).1).2

/-- On the same requests, from nothing stored, on a disk that performs every call its contents
permit: the two stores have the same answers exactly if every POST finds in use the ids up to
those given before, and no PUT has a negative id. -/
theorem stores_agree_iff (isValidJson : Text → Bool) (urlPrefix : Text) (dataRoot : Path)
    {fs : FileSystem} (emptyRoot : EmptyRoot dataRoot fs) (asked : List Asked)
    (few : asked.length < 2147483648) :
    ∃ history store others fs',
      exchanges isValidJson urlPrefix (inMemory asked) construct = some (history, store) ∧
      storedExchanges isValidJson urlPrefix dataRoot (onDisk asked) fs = some (others, fs') ∧
      (history = others ↔ ∀ before exchange behind, history = before ++ exchange :: behind →
        (route isValidJson urlPrefix exchange.request).Agrees urlPrefix before) := by
  have reached : Reached [] construct := by
    intro id nonneg below
    have start : id < 0 := below
    omega
  have keeps : Keeps dataRoot construct.objects fs :=
    ⟨emptyRoot.shaped, emptyRoot.objects.trans objects_construct.symm⟩
  have within : construct.objects.Within ∅ := by
    rw [objects_construct]
    exact fun _ _ stored => absurd rfl stored
  exact exchanges_agree isValidJson asked (represents_construct urlPrefix) reached keeps within
    (by rw [List.length_nil]; omega) (by rw [Finset.card_empty]; omega)

/-- The least id is given again on disk. -/
def reusedId : List Asked :=
  [⟨plainRequest "POST" "/api/Shoes" "1", .plain, .plain⟩,
    ⟨plainRequest "DELETE" "/api/Shoes/0" "", .plain, .plain⟩,
    ⟨plainRequest "POST" "/api/Shoes" "2", .plain, .plain⟩]

theorem stores_agree_iff_reusedId :
    ∃ history store others fs',
      exchanges (fun _ => true) "/api".toList (inMemory reusedId) construct =
        some (history, store) ∧
      storedExchanges (fun _ => true) "/api".toList ["data".toList] (onDisk reusedId) ∅ =
        some (others, fs') ∧
      (history = others ↔ ∀ before exchange behind, history = before ++ exchange :: behind →
        (route (fun _ => true) "/api".toList exchange.request).Agrees "/api".toList before) :=
  stores_agree_iff (fun _ => true) "/api".toList ["data".toList] (empty_emptyRoot _) reusedId
    (by decide)

end BathroomRatings.Api
