import BathroomRatings.Api.Handler
import BathroomRatings.Store.InMemory

/-!
# Answers explained by earlier answers

A client that sees only requests and answers keeps a ledger of the objects there
must be.  Over a store in memory every answer is the one that the ledger of the
exchanges before it explains.
-/

set_option autoImplicit false

namespace BathroomRatings.Api

open BathroomRatings.Http BathroomRatings.Lib.Decimal BathroomRatings.Lib.Sorting
open BathroomRatings.Lib.Word BathroomRatings.Store BathroomRatings.Store.EntityStoreInMemory

structure Exchange where
  request : Request
  response : Response

def createdId (body : Text) : Option Int :=
  parseId ((body.drop "\x7b\"id\":".length).dropLast)

def Exchange.succeeded (exchange : Exchange) : Bool :=
  exchange.response.statusCode = "200 OK".toList

def Exchange.created (exchange : Exchange) : Option Int :=
  if exchange.request.method = "POST".toList ∧ exchange.succeeded then
    createdId exchange.response.body
  else none

/-! ## The ledger -/

def record (urlPrefix : Text) (map : Objects) (exchange : Exchange) : Objects :=
  match extractSegments urlPrefix exchange.request.url, exchange.succeeded with
  | entityName :: rest, true =>
      if exchange.request.method = "POST".toList then
        match createdId exchange.response.body with
        | some id => map.put entityName id exchange.request.body
        | none => map
      else
        match rest.head?.bind parseId with
        | none => map
        | some id =>
            if exchange.request.method = "PUT".toList then
              map.put entityName id exchange.request.body
            else if exchange.request.method = "DELETE".toList then map.erase entityName id
            else map
  | _, _ => map

def ledger (urlPrefix : Text) (history : List Exchange) : Objects :=
  history.foldl (record urlPrefix) Objects.empty

/-- An answer is explained by the exchanges before it. -/
structure ExplainedBy (isValidJson : Text → Bool) (urlPrefix : Text)
    (before : List Exchange) (exchange : Exchange) : Prop where
  read : ∀ entityName segment more id, exchange.request.method = "GET".toList →
    extractSegments urlPrefix exchange.request.url = entityName :: segment :: more →
    isValidEntityName entityName = true → parseId segment = some id →
      exchange.response =
        match ledger urlPrefix before entityName id with
        | some data => ResponseBuilder.ok data jsonContentType
        | none => entityNotFound
  delete : ∀ entityName segment id, exchange.request.method = "DELETE".toList →
    extractSegments urlPrefix exchange.request.url = [entityName, segment] →
    isValidEntityName entityName = true → parseId segment = some id →
      exchange.response =
        if (ledger urlPrefix before entityName id).isSome then
          ResponseBuilder.ok deletedJson jsonContentType
        else entityNotFound
  list : ∀ entityName, exchange.request.method = "GET".toList →
    extractSegments urlPrefix exchange.request.url = [entityName] →
    isValidEntityName entityName = true →
      ∃ ids : List Int, exchange.response = ResponseBuilder.ok (idsJson ids) jsonContentType ∧
        ids.Pairwise (· < ·) ∧ ∀ id, id ∈ ids ↔ ledger urlPrefix before entityName id ≠ none
  create : ∀ entityName, exchange.request.method = "POST".toList →
    extractSegments urlPrefix exchange.request.url = [entityName] →
    isValidEntityName entityName = true → isValidJson exchange.request.body = true →
      ∃ id, exchange.response = ResponseBuilder.ok (idJson id) jsonContentType ∧ 0 ≤ id ∧
        ledger urlPrefix before entityName id = none ∧
        ∀ earlier ∈ before, ∀ other, earlier.created = some other → other < id
  update : ∀ entityName segment id, exchange.request.method = "PUT".toList →
    extractSegments urlPrefix exchange.request.url = [entityName, segment] →
    isValidEntityName entityName = true → parseId segment = some id →
    isValidJson exchange.request.body = true →
      exchange.response = ResponseBuilder.ok (idJson id) jsonContentType
  /-- Everything else is refused. -/
  status : exchange.succeeded = true ∨ exchange.response = entityNotFound ∨
    exchange.response.statusCode = "400 Bad Request".toList ∨
    exchange.response.statusCode = "405 Method Not Allowed".toList

theorem ledger_append (urlPrefix : Text) (before : List Exchange) (exchange : Exchange) :
    ledger urlPrefix (before ++ [exchange]) =
      record urlPrefix (ledger urlPrefix before) exchange :=
  List.foldl_concat _ _ _ _

theorem createdId_idJson {id : Int} (nonneg : 0 ≤ id) (small : id < 2147483648) :
    createdId (idJson id) = some id := by
  have inside : ((idJson id).drop "\x7b\"id\":".length).dropLast = decimal id := by
    have spelled : idJson id = "\x7b\"id\":".toList ++ (decimal id ++ "\x7d".toList) :=
      List.append_assoc _ _ _
    have front : (idJson id).drop "\x7b\"id\":".length = decimal id ++ "\x7d".toList := by
      rw [spelled]
      exact List.drop_left
    rw [front]
    exact List.dropLast_concat
  exact (congrArg parseId inside).trans (parseId_decimal nonneg small)

section Record

variable {urlPrefix : Text} {map : Objects} {request : Request} {response : Response}

theorem record_of_failed (failed : (Exchange.mk request response).succeeded = false) :
    record urlPrefix map ⟨request, response⟩ = map := by
  simp only [record]
  rw [failed]
  split <;> simp_all

theorem created_of_failed (failed : (Exchange.mk request response).succeeded = false) :
    (Exchange.mk request response).created = none := by
  simp only [Exchange.created]
  rw [if_neg (by simp [failed])]

theorem record_get (get : request.method = "GET".toList) :
    record urlPrefix map ⟨request, response⟩ = map := by
  simp only [record, get]
  split
  · rw [if_neg (by decide)]
    split
    · rfl
    · rw [if_neg (by decide), if_neg (by decide)]
  · rfl

theorem created_of_method {method : Text} (other : request.method = method)
    (notPost : method ≠ "POST".toList) : (Exchange.mk request response).created = none := by
  simp only [Exchange.created]
  rw [if_neg (fun both => notPost (other.symm.trans both.1))]

variable {entityName segment : Text} {more : List Text} {id : Int}

theorem record_post (post : request.method = "POST".toList)
    (target : extractSegments urlPrefix request.url = entityName :: more)
    (succeeded : (Exchange.mk request response).succeeded = true)
    (named : createdId response.body = some id) :
    record urlPrefix map ⟨request, response⟩ = map.put entityName id request.body := by
  simp only [record, target, succeeded, named]
  rw [if_pos post]

theorem record_put (put : request.method = "PUT".toList)
    (target : extractSegments urlPrefix request.url = entityName :: segment :: more)
    (succeeded : (Exchange.mk request response).succeeded = true)
    (parsed : parseId segment = some id) :
    record urlPrefix map ⟨request, response⟩ = map.put entityName id request.body := by
  simp only [record, target, succeeded, put, List.head?_cons, Option.bind_some, parsed]
  rw [if_neg (by decide), if_true]

theorem record_delete (delete : request.method = "DELETE".toList)
    (target : extractSegments urlPrefix request.url = entityName :: segment :: more)
    (succeeded : (Exchange.mk request response).succeeded = true)
    (parsed : parseId segment = some id) :
    record urlPrefix map ⟨request, response⟩ = map.erase entityName id := by
  simp only [record, target, succeeded, delete, List.head?_cons, Option.bind_some, parsed]
  rw [if_neg (by decide), if_neg (by decide), if_true]

end Record

def Route.Explains (urlPrefix : Text) (before : List Exchange) : Route → Response → Prop
  | .rejected answer, response => response = answer
  | .create entityName _, response =>
      ∃ id, response = ResponseBuilder.ok (idJson id) jsonContentType ∧ 0 ≤ id ∧
        ledger urlPrefix before entityName id = none ∧
        ∀ earlier ∈ before, ∀ other, earlier.created = some other → other < id
  | .read entityName id, response =>
      response = match ledger urlPrefix before entityName id with
        | some data => ResponseBuilder.ok data jsonContentType
        | none => entityNotFound
  | .list entityName, response =>
      ∃ ids : List Int, response = ResponseBuilder.ok (idsJson ids) jsonContentType ∧
        ids.Pairwise (· < ·) ∧ ∀ id, id ∈ ids ↔ ledger urlPrefix before entityName id ≠ none
  | .update _ id _, response => response = ResponseBuilder.ok (idJson id) jsonContentType
  | .delete entityName id, response =>
      response = if (ledger urlPrefix before entityName id).isSome then
        ResponseBuilder.ok deletedJson jsonContentType
      else entityNotFound

theorem status_of_explains {isValidJson : Text → Bool} {urlPrefix : Text}
    {before : List Exchange} {exchange : Exchange} {taken : Route}
    (routed : Routed isValidJson urlPrefix exchange.request taken)
    (explains : taken.Explains urlPrefix before exchange.response) :
    exchange.succeeded = true ∨ exchange.response = entityNotFound ∨
      exchange.response.statusCode = "400 Bad Request".toList ∨
      exchange.response.statusCode = "405 Method Not Allowed".toList := by
  have ok : ∀ body contentType,
      exchange.response = ResponseBuilder.ok body contentType → exchange.succeeded = true := by
    intro body contentType answer
    simp only [Exchange.succeeded]
    rw [answer]
    rfl
  cases routed with
  | rejected answer status =>
      have same : exchange.response = answer := explains
      rw [← same] at status
      exact Or.inr (Or.inr status)
  | create =>
      obtain ⟨id, answer, -⟩ := explains
      exact Or.inl (ok _ _ answer)
  | read entityName segment more id =>
      simp only [Route.Explains] at explains
      split at explains
      · exact Or.inl (ok _ _ explains)
      · exact Or.inr (Or.inl explains)
  | list =>
      obtain ⟨ids, answer, -⟩ := explains
      exact Or.inl (ok _ _ answer)
  | update => exact Or.inl (ok _ _ explains)
  | delete =>
      simp only [Route.Explains] at explains
      split at explains
      · exact Or.inl (ok _ _ explains)
      · exact Or.inr (Or.inl explains)

theorem explainedBy_of_route {isValidJson : Text → Bool} {urlPrefix : Text}
    {before : List Exchange} {exchange : Exchange}
    (explains : (route isValidJson urlPrefix exchange.request).Explains urlPrefix before
      exchange.response) :
    ExplainedBy isValidJson urlPrefix before exchange where
  read := by
    intro entityName segment more id method target valid parsed
    rw [route_get target valid method] at explains
    simpa only [routeGet, Route.ofId, parsed, Route.Explains] using explains
  delete := by
    intro entityName segment id method target valid parsed
    rw [route_delete target valid method] at explains
    simpa only [routeDelete, Route.ofId, parsed, Route.Explains] using explains
  list := by
    intro entityName method target valid
    rw [route_get target valid method] at explains
    exact explains
  create := by
    intro entityName method target valid json
    rw [route_post target valid method] at explains
    simpa only [routePost, Route.ofBody, json, if_true, Route.Explains] using explains
  update := by
    intro entityName segment id method target valid parsed json
    rw [route_put target valid method] at explains
    simpa only [routePut, Route.ofId, Route.ofBody, parsed, json, if_true, Route.Explains]
      using explains
  status := status_of_explains (route_routed _ _ _) explains

structure Represents (urlPrefix : Text) (before : List Exchange)
    (store : EntityStoreInMemory) : Prop where
  objects : store.objects = ledger urlPrefix before
  counts : ∃ ahead, Counts store before.length ahead
  made : ∀ earlier ∈ before, ∀ id, earlier.created = some id → id < store.nextId

theorem represents_construct (urlPrefix : Text) : Represents urlPrefix [] construct where
  objects := objects_construct
  counts := ⟨∅, counts_construct⟩
  made := by simp

section Step

variable {urlPrefix : Text} {before : List Exchange} {store store' : EntityStoreInMemory}
  {exchange : Exchange} (represents : Represents urlPrefix before store)
include represents

theorem represents_append (objects : store'.objects =
      record urlPrefix (ledger urlPrefix before) exchange)
    (nextId : store'.nextId = store.nextId)
    (fewer : ∀ entityName id, store'.objects entityName id ≠ none →
      store.objects entityName id ≠ none)
    (created : exchange.created = none) :
    Represents urlPrefix (before ++ [exchange]) store' where
  objects := by rw [objects, ledger_append]
  counts := by
    obtain ⟨ahead, counts⟩ := represents.counts
    rw [List.length_append]
    exact ⟨ahead, (counts.congr nextId fewer).mono (Nat.le_add_right _ _)⟩
  made := by
    intro earlier member id named
    rw [nextId]
    rcases List.mem_append.mp member with old | new
    · exact represents.made earlier old id named
    · rw [List.mem_singleton.mp new, created] at named
      exact absurd named (by simp)

theorem represents_unchanged (objects : store'.objects = store.objects)
    (nextId : store'.nextId = store.nextId)
    (unchanged : record urlPrefix (ledger urlPrefix before) exchange =
      ledger urlPrefix before)
    (created : exchange.created = none) :
    Represents urlPrefix (before ++ [exchange]) store' := by
  apply represents_append represents _ nextId _ created
  · rw [objects, represents.objects, unchanged]
  · intro entityName id stored
    rw [objects] at stored
    exact stored

variable {isValidJson : Text → Bool} {request : Request} (order : Arrangement Int)

/-- Serving a route gives an explained answer, and a store for the longer ledger. -/
def ServesTo (urlPrefix : Text) (before : List Exchange) (store : EntityStoreInMemory)
    (order : Arrangement Int) (request : Request) (taken : Route) : Prop :=
  ∃ response store', taken.serve (entityStoreInMemory order) store = some (response, store') ∧
    taken.Explains urlPrefix before response ∧
      Represents urlPrefix (before ++ [⟨request, response⟩]) store'

theorem serve_rejected_run {answer : Response}
    (status : answer.statusCode = "400 Bad Request".toList ∨
      answer.statusCode = "405 Method Not Allowed".toList) :
    ServesTo urlPrefix before store order request (.rejected answer) := by
  have failed : (Exchange.mk request answer).succeeded = false := by
    simp only [Exchange.succeeded]
    rcases status with status | status <;> rw [status] <;> decide
  exact ⟨answer, store, rfl, rfl, represents_unchanged represents rfl rfl
    (record_of_failed failed) (created_of_failed failed)⟩

theorem serve_read_run {entityName : Text} {id : Int}
    (method : request.method = "GET".toList) :
    ServesTo urlPrefix before store order request (.read entityName id) := by
  have unchanged : ∀ response, Represents urlPrefix (before ++ [⟨request, response⟩])
      (store.setEntry entityName (store.entry entityName)) := by
    intro response
    apply represents_unchanged represents (objects_touch store entityName) rfl
    · exact record_get method
    · exact created_of_method method (by decide)
  refine ⟨_, _, ?_, ?_, unchanged (match ledger urlPrefix before entityName id with
    | some data => ResponseBuilder.ok data jsonContentType
    | none => entityNotFound)⟩
  · refine (bind_run (read_run store entityName id [])).trans ?_
    rw [represents.objects]
    cases ledger urlPrefix before entityName id <;> rfl
  · rfl

theorem serve_list_run {entityName : Text} (method : request.method = "GET".toList) :
    ServesTo urlPrefix before store order request (.list entityName) := by
  refine ⟨_, _, rfl, ⟨_, rfl, ?_, ?_⟩, ?_⟩
  · apply ascending_strict
    exact (order.perm _).nodup_iff.mpr (store.entry entityName).keys_nodup
  · intro id
    rw [mem_ascending, (order.perm _).mem_iff, Lib.Table.mem_keys_iff, ← represents.objects]
    rfl
  · apply represents_unchanged represents (objects_touch store entityName) rfl
    · exact record_get method
    · exact created_of_method method (by decide)

theorem serve_update_run {entityName segment : Text} {id : Int}
    (method : request.method = "PUT".toList)
    (target : extractSegments urlPrefix request.url = [entityName, segment])
    (parsed : parseId segment = some id) :
    ServesTo urlPrefix before store order request (.update entityName id request.body) := by
  refine ⟨_, _, rfl, rfl, ?_, ?_, ?_⟩
  · rw [ledger_append, objects_insert, represents.objects]
    exact (record_put method target rfl parsed).symm
  · obtain ⟨ahead, counts⟩ := represents.counts
    rw [List.length_append]
    exact ⟨_, counts.update entityName id request.body⟩
  · intro earlier member other named
    rcases List.mem_append.mp member with old | new
    · exact represents.made earlier old other named
    · rw [List.mem_singleton.mp new,
        created_of_method method (by decide)] at named
      exact absurd named (by simp)

theorem serve_delete_run {entityName segment : Text} {id : Int}
    (method : request.method = "DELETE".toList)
    (target : extractSegments urlPrefix request.url = [entityName, segment])
    (parsed : parseId segment = some id) :
    ServesTo urlPrefix before store order request (.delete entityName id) := by
  have created : ∀ response, (Exchange.mk request response).created = none := by
    intro response
    exact created_of_method method (by decide)
  have fewer : ∀ other otherId, (store.setEntry entityName
      ((store.entry entityName).erase id)).objects other otherId ≠ none →
        store.objects other otherId ≠ none := by
    intro other otherId stored
    rw [objects_erase] at stored
    simp only [Objects.erase] at stored
    split at stored
    · exact absurd rfl stored
    · exact stored
  refine ⟨if (ledger urlPrefix before entityName id).isSome then
    ResponseBuilder.ok deletedJson jsonContentType else entityNotFound,
    store.setEntry entityName ((store.entry entityName).erase id), ?_, rfl, ?_⟩
  · refine (bind_run (delete_run store entityName id)).trans ?_
    rw [represents.objects]
    cases ledger urlPrefix before entityName id <;> rfl
  · refine represents_append represents ?_ rfl fewer (created _)
    rw [objects_erase, represents.objects]
    cases found : ledger urlPrefix before entityName id with
    | none =>
        rw [Objects.erase_absent found]
        exact (record_of_failed rfl).symm
    | some data => exact (record_delete method target rfl parsed).symm

theorem serve_create_run (few : before.length < 2147483647) {entityName : Text}
    (method : request.method = "POST".toList)
    (target : extractSegments urlPrefix request.url = [entityName]) :
    ServesTo urlPrefix before store order request (.create entityName request.body) := by
  obtain ⟨ahead, counts⟩ := represents.counts
  obtain ⟨id, steps, store', ahead', created, counts', counted, found, next, objects⟩ :=
    create_run counts few entityName request.body
  have bounded := counts'.bounded
  have nonneg : 0 ≤ id := by
    have start := counts.nonneg
    omega
  have named : createdId (idJson id) = some id := createdId_idJson nonneg (by omega)
  refine ⟨ResponseBuilder.ok (idJson id) jsonContentType, store', ?_, ⟨id, rfl, nonneg, ?_, ?_⟩,
    ?_, ?_, ?_⟩
  · refine (bind_run created).trans ?_
    rw [if_neg (by omega)]
    rfl
  · rw [← represents.objects]
    exact (occupied_eq_false_iff store entityName id).mp found.free
  · intro earlier member other made
    have before := represents.made earlier member other made
    omega
  · rw [ledger_append, objects, represents.objects]
    have recorded : record urlPrefix (ledger urlPrefix before)
        ⟨request, ResponseBuilder.ok (idJson id) jsonContentType⟩ = _ :=
      record_post method target rfl named
    exact recorded.symm
  · rw [List.length_append]
    exact ⟨ahead', counts'⟩
  · intro earlier member other made
    rcases List.mem_append.mp member with old | new
    · have before := represents.made earlier old other made
      omega
    · rw [List.mem_singleton.mp new] at made
      simp only [Exchange.created] at made
      rw [if_pos ⟨method, rfl⟩] at made
      have same : some id = some other := named.symm.trans made
      rw [← Option.some.inj same]
      omega

theorem serve_run (few : before.length < 2147483647) {taken : Route}
    (routed : Routed isValidJson urlPrefix request taken) :
    ServesTo urlPrefix before store order request taken := by
  cases routed with
  | rejected answer status => exact serve_rejected_run represents order status
  | create entityName method target =>
      exact serve_create_run represents order few method target
  | read entityName segment more id method => exact serve_read_run represents order method
  | list entityName method => exact serve_list_run represents order method
  | update entityName segment id method target valid parsed =>
      exact serve_update_run represents order method target parsed
  | delete entityName segment id method target valid parsed =>
      exact serve_delete_run represents order method target parsed

end Step

/-! ## Runs -/

/-- Requests handled one after another.  With each comes the order in which a `List`
would iterate at that time. -/
def exchanges (isValidJson : Text → Bool) (urlPrefix : Text) :
    List (Request × Arrangement Int) → Action (List Exchange)
  | [] => pure []
  | (request, order) :: rest => do
      let response ← handleRequest (entityStoreInMemory order) isValidJson urlPrefix request
      let more ← exchanges isValidJson urlPrefix rest
      pure (⟨request, response⟩ :: more)

theorem handleRequest_run (isValidJson : Text → Bool) {urlPrefix : Text}
    {before : List Exchange} {store : EntityStoreInMemory}
    (represents : Represents urlPrefix before store) (few : before.length < 2147483647)
    (order : Arrangement Int) (request : Request) :
    ∃ response store',
      handleRequest (entityStoreInMemory order) isValidJson urlPrefix request store =
          some (response, store') ∧
        ExplainedBy isValidJson urlPrefix before ⟨request, response⟩ ∧
          Represents urlPrefix (before ++ [⟨request, response⟩]) store' := by
  obtain ⟨response, store', served, explains, represents'⟩ :=
    serve_run represents order few (route_routed isValidJson urlPrefix request)
  refine ⟨response, store', ?_, explainedBy_of_route explains, represents'⟩
  rw [handleRequest_eq_serve]
  exact served

theorem exchanges_run (isValidJson : Text → Bool) {urlPrefix : Text}
    (requests : List (Request × Arrangement Int)) {before : List Exchange}
    {store : EntityStoreInMemory} (represents : Represents urlPrefix before store)
    (few : before.length + requests.length < 2147483648) :
    ∃ history store', exchanges isValidJson urlPrefix requests store = some (history, store') ∧
      history.map (·.request) = requests.map (·.1) ∧
      ∀ earlier exchange later, history = earlier ++ exchange :: later →
        ExplainedBy isValidJson urlPrefix (before ++ earlier) exchange := by
  induction requests generalizing before store with
  | nil =>
      refine ⟨[], store, rfl, rfl, ?_⟩
      intro earlier exchange later split
      exact absurd split (by simp)
  | cons first rest ih =>
      obtain ⟨request, order⟩ := first
      rw [List.length_cons] at few
      obtain ⟨response, store', handled, explained, represents'⟩ :=
        handleRequest_run isValidJson represents (by omega) order request
      obtain ⟨history, last, run, requested, all⟩ := ih represents' (by
        rw [List.length_append, List.length_singleton]
        omega)
      refine ⟨⟨request, response⟩ :: history, last, ?_, ?_, ?_⟩
      · exact (bind_run handled).trans (bind_run run)
      · rw [List.map_cons, List.map_cons, requested]
      · intro earlier exchange later split
        cases earlier with
        | nil =>
            obtain ⟨same, -⟩ := List.cons.inj split
            rw [List.append_nil, ← same]
            exact explained
        | cons previous earlier =>
            obtain ⟨same, rest⟩ := List.cons.inj split
            have later := all earlier exchange later rest
            rw [List.append_assoc] at later
            rw [← same]
            exact later

/-- Every answer of a run is explained by the exchanges before it. -/
theorem answers_explained (isValidJson : Text → Bool) (urlPrefix : Text)
    (requests : List (Request × Arrangement Int)) (few : requests.length < 2147483648) :
    ∃ history store, exchanges isValidJson urlPrefix requests construct = some (history, store) ∧
      history.map (·.request) = requests.map (·.1) ∧
      ∀ before exchange behind, history = before ++ exchange :: behind →
        ExplainedBy isValidJson urlPrefix before exchange :=
  exchanges_run isValidJson requests (represents_construct urlPrefix) (by
    rw [List.length_nil]
    omega)

def plainRequest (method url body : String) : Request :=
  { Request.fresh with
    isValid := true, method := method.toList, url := url.toList, body := body.toList }

/-- Two objects of different entities, one of them under an id ahead of the counter. -/
def twoEntities : List (Request × Arrangement Int) :=
  [(plainRequest "PUT" "/api/Shoes/0" "1", .plain),
    (plainRequest "POST" "/api/Shoes" "2", .plain),
    (plainRequest "POST" "/api/Books" "3", .plain),
    (plainRequest "GET" "/api/Shoes?all" "", .plain),
    (plainRequest "DELETE" "/api/Shoes/1" "", .plain),
    (plainRequest "GET" "/api/Shoes/1" "", .plain)]

theorem answers_explained_twoEntities :
    ∃ history store,
      exchanges (fun _ => true) "/api".toList twoEntities construct = some (history, store) ∧
      history.map (·.request) = twoEntities.map (·.1) ∧
      ∀ before exchange behind, history = before ++ exchange :: behind →
        ExplainedBy (fun _ => true) "/api".toList before exchange :=
  answers_explained (fun _ => true) "/api".toList twoEntities (by decide)

example :
    (exchanges (fun _ => true) "/api".toList twoEntities construct).map
        (fun run => run.1.map (·.response.body)) =
      some (["\x7b\"id\":0\x7d", "\x7b\"id\":1\x7d", "\x7b\"id\":2\x7d", "[0,1]",
        "\x7b\"deleted\":true\x7d", "Entity not found"].map String.toList) := by
  decide +kernel

end BathroomRatings.Api
