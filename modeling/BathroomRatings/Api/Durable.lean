import BathroomRatings.Api.Service

/-!
# What a client may rely on across crashes

The server may die while it handles a request, whose client then gets no answer, and come
up again on the same data path.  A client that saw all requests knows of some objects what
they are: what an answered request wrote holds until another writes it, and a request
without an answer leaves only its own object in doubt.
-/

set_option autoImplicit false

namespace BathroomRatings.Api

open BathroomRatings.Http BathroomRatings.Lib.Crash BathroomRatings.Lib.Interface
open BathroomRatings.Store BathroomRatings.Store.EntityStorePersistent
open BathroomRatings.Store.FileSystem

/-- A request is handled, or the process dies in it behind some file-system calls. -/
inductive Turn where
  | answered (request : Request) (environment : Environment)
  | crashed (request : Request) (environment : Environment) (calls : Nat)

inductive Seen where
  | answered (exchange : Exchange)
  | lost (request : Request)

def turns (isValidJson : Text → Bool) (urlPrefix : Text) (dataRoot : Path) :
    List Turn → FileSystem → Option (List Seen × FileSystem)
  | [], fs => some ([], fs)
  | .answered request environment :: rest, fs => do
      let (response, fs) ← (handleRequest (entityStorePersistent dataRoot environment.buffering)
        isValidJson urlPrefix request).run (perform environment.order) fs
      let (more, fs) ← turns isValidJson urlPrefix dataRoot rest fs
      pure (.answered ⟨request, response⟩ :: more, fs)
  | .crashed request environment calls :: rest, fs => do
      let fs := cutOff (perform environment.order) calls
        (handleRequest (entityStorePersistent dataRoot environment.buffering) isValidJson
          urlPrefix request) fs
      let ((), fs) ← (construct dataRoot).run (perform environment.order) fs
      let (more, fs) ← turns isValidJson urlPrefix dataRoot rest fs
      pure (.lost request :: more, fs)

def Turn.request : Turn → Request
  | .answered request _ => request
  | .crashed request _ _ => request

def Seen.request : Seen → Request
  | .answered exchange => exchange.request
  | .lost request => request

/-! ## Knowledge -/

/-- What is known of an object: nothing, that it is missing, or its data. -/
abbrev Knowledge := Text → Int → Option (Option Text)

namespace Knowledge

def nothingStored : Knowledge := fun _ _ => some none

def learn (known : Knowledge) (entityName : Text) (id : Int) (value : Option (Option Text)) :
    Knowledge :=
  fun other otherId => if other = entityName ∧ otherId = id then value else known other otherId

def FirstUnused (known : Knowledge) (entityName : Text) (id : Int) : Prop :=
  IsLeast {id | 0 ≤ id ∧ known entityName id = some none} id

open Classical in
/-- A POST without an answer may have made an object: if not of an id in doubt already, of
the least that is known to be unused. -/
noncomputable def doubtUnused (known : Knowledge) (entityName : Text) : Knowledge :=
  fun other id =>
    if other = entityName ∧ known.FirstUnused entityName id then none else known other id

def afterAnswer (known : Knowledge) : Route → Response → Knowledge
  | .create entityName data, response =>
      match createdId response.body with
      | some id => known.learn entityName id (some (some data))
      | none => known
  | .read entityName id, response =>
      known.learn entityName id
        (some (if response.statusCode = "200 OK".toList then some response.body else none))
  | .update entityName id data, _ =>
      if 0 ≤ id then known.learn entityName id (some (some data)) else known
  | .delete entityName id, _ => known.learn entityName id (some none)
  | _, _ => known

noncomputable def afterLoss (known : Knowledge) : Route → Knowledge
  | .create entityName _ => known.doubtUnused entityName
  | .update entityName id _ => known.learn entityName id none
  | .delete entityName id => known.learn entityName id none
  | _ => known

noncomputable def afterSeen (isValidJson : Text → Bool) (urlPrefix : Text)
    (known : Knowledge) : Seen → Knowledge
  | .answered exchange =>
      known.afterAnswer (route isValidJson urlPrefix exchange.request) exchange.response
  | .lost request => known.afterLoss (route isValidJson urlPrefix request)

end Knowledge

noncomputable def knowledge (isValidJson : Text → Bool) (urlPrefix : Text)
    (seen : List Seen) : Knowledge :=
  seen.foldl (Knowledge.afterSeen isValidJson urlPrefix) .nothingStored

/-- An answer is the one that what is known of its object asks for. -/
structure KnownAnswer (isValidJson : Text → Bool) (urlPrefix : Text) (known : Knowledge)
    (exchange : Exchange) : Prop where
  read : ∀ entityName segment more id value, exchange.request.method = "GET".toList →
    extractSegments urlPrefix exchange.request.url = entityName :: segment :: more →
    isValidEntityName entityName = true → parseId segment = some id →
    known entityName id = some value →
      exchange.response =
        match value with
        | some data => ResponseBuilder.ok data jsonContentType
        | none => entityNotFound
  delete : ∀ entityName segment id value, exchange.request.method = "DELETE".toList →
    extractSegments urlPrefix exchange.request.url = [entityName, segment] →
    isValidEntityName entityName = true → parseId segment = some id →
    known entityName id = some value →
      exchange.response =
        if value.isSome then ResponseBuilder.ok deletedJson jsonContentType else entityNotFound
  list : ∀ entityName, exchange.request.method = "GET".toList →
    extractSegments urlPrefix exchange.request.url = [entityName] →
    isValidEntityName entityName = true →
      ∃ ids : List Int, exchange.response = ResponseBuilder.ok (idsJson ids) jsonContentType ∧
        ids.Pairwise (· < ·) ∧
        ∀ id value, known entityName id = some value → (id ∈ ids ↔ value ≠ none)
  create : ∀ entityName, exchange.request.method = "POST".toList →
    extractSegments urlPrefix exchange.request.url = [entityName] →
    isValidEntityName entityName = true → isValidJson exchange.request.body = true →
      ∃ id, exchange.response = ResponseBuilder.ok (idJson id) jsonContentType ∧ 0 ≤ id ∧
        (∀ data, known entityName id ≠ some (some data)) ∧
        ∀ smaller, 0 ≤ smaller → smaller < id → known entityName smaller ≠ some none
  update : ∀ entityName segment id, exchange.request.method = "PUT".toList →
    extractSegments urlPrefix exchange.request.url = [entityName, segment] →
    isValidEntityName entityName = true → parseId segment = some id → 0 ≤ id →
    isValidJson exchange.request.body = true →
      exchange.response = ResponseBuilder.ok (idJson id) jsonContentType

def Holds (known : Knowledge) (map : Objects) : Prop :=
  ∀ entityName id value, known entityName id = some value → map entityName id = value

section Holds

variable {known : Knowledge} {map left : Objects} {taken : Route} {response : Response}

theorem holds_learn_put (holds : Holds known map) (entityName : Text) (id : Int)
    (data : Text) :
    Holds (known.learn entityName id (some (some data))) (map.put entityName id data) := by
  intro other otherId value learned
  unfold Knowledge.learn at learned
  unfold Objects.put
  split at learned
  · rename_i same
    rw [if_pos same]
    exact Option.some.inj learned
  · rename_i differs
    rw [if_neg differs]
    exact holds other otherId value learned

theorem holds_learn_erase (holds : Holds known map) (entityName : Text) (id : Int) :
    Holds (known.learn entityName id (some none)) (map.erase entityName id) := by
  intro other otherId value learned
  unfold Knowledge.learn at learned
  unfold Objects.erase
  split at learned
  · rename_i same
    rw [if_pos same]
    exact Option.some.inj learned
  · rename_i differs
    rw [if_neg differs]
    exact holds other otherId value learned

theorem holds_doubt (holds : Holds known map) {entityName : Text} {id : Int}
    (others : ∀ other otherId, ¬ (other = entityName ∧ otherId = id) →
      left other otherId = map other otherId) :
    Holds (known.learn entityName id none) left := by
  intro other otherId value learned
  unfold Knowledge.learn at learned
  split at learned
  · exact absurd learned (by simp)
  · rename_i differs
    rw [others other otherId differs]
    exact holds other otherId value learned

theorem holds_afterAnswer (holds : Holds known map) (serves : taken.Serves map response) :
    Holds (known.afterAnswer taken response) (taken.objectsAfter map response) := by
  cases taken with
  | rejected answer => exact holds
  | create entityName data =>
      simp only [Knowledge.afterAnswer, Route.objectsAfter]
      cases createdId response.body with
      | none => exact holds
      | some id => exact holds_learn_put holds entityName id data
  | read entityName id =>
      intro other otherId value learned
      simp only [Knowledge.afterAnswer, Knowledge.learn] at learned
      split at learned
      · rename_i same
        obtain ⟨rfl, rfl⟩ := same
        rw [← Option.some.inj learned]
        simp only [Route.Serves] at serves
        rw [serves]
        change map other otherId = _
        cases map other otherId with
        | none => rfl
        | some data => rfl
      · exact holds other otherId value learned
  | list entityName => exact holds
  | update entityName id data =>
      simp only [Knowledge.afterAnswer, Route.objectsAfter]
      split
      · exact holds_learn_put holds entityName id data
      · exact holds
  | delete entityName id => exact holds_learn_erase holds entityName id

theorem holds_afterLoss (holds : Holds known map) (interrupts : taken.Interrupts map left) :
    Holds (known.afterLoss taken) left := by
  have weaker : ∀ {known' : Knowledge},
      (∀ entityName id, known' entityName id = none ∨
        known' entityName id = known entityName id) → Holds known' map := by
    intro known' less entityName id value learned
    rcases less entityName id with nothing | same
    · rw [nothing] at learned
      exact absurd learned (by simp)
    · rw [same] at learned
      exact holds entityName id value learned
  cases interrupts with
  | untouched =>
      apply weaker
      intro entityName id
      cases taken with
      | create other data =>
          simp only [Knowledge.afterLoss, Knowledge.doubtUnused]
          split
          · exact Or.inl rfl
          · exact Or.inr rfl
      | update other otherId data =>
          simp only [Knowledge.afterLoss, Knowledge.learn]
          split
          · exact Or.inl rfl
          · exact Or.inr rfl
      | delete other otherId =>
          simp only [Knowledge.afterLoss, Knowledge.learn]
          split
          · exact Or.inl rfl
          · exact Or.inr rfl
      | _ => exact Or.inr rfl
  | @created entityName data written id least begins =>
      intro other otherId value learned
      simp only [Knowledge.afterLoss, Knowledge.doubtUnused] at learned
      split at learned
      · exact absurd learned (by simp)
      · rename_i certain
        have held := holds other otherId value learned
        unfold Objects.put
        split
        · rename_i same
          obtain ⟨rfl, rfl⟩ := same
          -- the id that was taken was unused; was it known to be, it was the first such
          refine absurd ⟨rfl, ⟨least.1.1, ?_⟩, ?_⟩ certain
          · rw [learned, ← held, least.1.2]
          · intro smaller unused
            exact least.2 ⟨unused.1, holds _ _ _ unused.2⟩
        · exact held
  | updated nonneg begins =>
      apply holds_doubt holds
      intro other otherId differs
      exact if_neg differs
  | deleted entityName id =>
      apply holds_doubt holds
      intro other otherId differs
      exact if_neg differs

theorem knownAnswer_of_serves {isValidJson : Text → Bool} {urlPrefix : Text}
    {exchange : Exchange} (holds : Holds known map)
    (serves : (route isValidJson urlPrefix exchange.request).Serves map exchange.response) :
    KnownAnswer isValidJson urlPrefix known exchange where
  read := by
    intro entityName segment more id value method target valid parsed learned
    rw [route_get target valid method] at serves
    simp only [routeGet, Route.ofId, parsed, Route.Serves] at serves
    rw [holds _ _ _ learned] at serves
    exact serves
  delete := by
    intro entityName segment id value method target valid parsed learned
    rw [route_delete target valid method] at serves
    simp only [routeDelete, Route.ofId, parsed, Route.Serves] at serves
    rw [holds _ _ _ learned] at serves
    exact serves
  list := by
    intro entityName method target valid
    rw [route_get target valid method] at serves
    obtain ⟨ids, sorted, members, answered⟩ := serves
    refine ⟨ids, answered, sorted, ?_⟩
    intro id value learned
    rw [members, holds _ _ _ learned]
  create := by
    intro entityName method target valid json
    rw [route_post target valid method] at serves
    simp only [routePost, Route.ofBody, json, if_true] at serves
    obtain ⟨id, least, answered⟩ := serves
    refine ⟨id, answered, least.1.1, ?_, ?_⟩
    · intro data learned
      have held := holds _ _ _ learned
      rw [least.1.2] at held
      exact absurd held (by simp)
    · intro smaller nonneg less learned
      have below := least.2 ⟨nonneg, holds _ _ _ learned⟩
      omega
  update := by
    intro entityName segment id method target valid parsed nonneg json
    rw [route_put target valid method] at serves
    simp only [routePut, Route.ofId, Route.ofBody, parsed, json, if_true, Route.Serves] at serves
    rw [serves, if_pos nonneg]

end Holds

/-! ## Runs -/

theorem turns_known (isValidJson : Text → Bool) (urlPrefix : Text) (dataRoot : Path)
    (run : List Turn) {before : List Seen} {fs : FileSystem} {map : Objects}
    (keeps : Keeps dataRoot map fs)
    (holds : Holds (knowledge isValidJson urlPrefix before) map) {used : Finset Int}
    (within : map.Within used) (few : used.card + run.length ≤ 2147483647) :
    ∃ seen fs', turns isValidJson urlPrefix dataRoot run fs = some (seen, fs') ∧
      seen.map Seen.request = run.map Turn.request ∧
      ∀ earlier exchange later, seen = earlier ++ .answered exchange :: later →
        KnownAnswer isValidJson urlPrefix
          (knowledge isValidJson urlPrefix (before ++ earlier)) exchange := by
  induction run generalizing before fs map used with
  | nil =>
      refine ⟨[], fs, rfl, rfl, ?_⟩
      intro earlier exchange later split
      exact absurd split (by simp)
  | cons turn rest ih =>
      rw [List.length_cons] at few
      have grown : ∀ item, knowledge isValidJson urlPrefix (before ++ [item]) =
          (knowledge isValidJson urlPrefix before).afterSeen isValidJson urlPrefix item :=
        fun item => List.foldl_concat _ _ _ _
      cases turn with
      | answered request environment =>
          obtain ⟨response, middle, ran, serves, kept⟩ :=
            handle_served isValidJson urlPrefix request keeps within (by omega) environment
          obtain ⟨more, -, within', count⟩ := objectsAfter_within within
            (route isValidJson urlPrefix request) response
          have holds' : Holds
              (knowledge isValidJson urlPrefix (before ++ [.answered ⟨request, response⟩]))
              ((route isValidJson urlPrefix request).objectsAfter map response) := by
            rw [grown]
            exact holds_afterAnswer holds serves
          obtain ⟨seen, fs', runs, requested, all⟩ := ih kept holds' within' (by omega)
          refine ⟨.answered ⟨request, response⟩ :: seen, fs', by simp [turns, ran, runs], ?_, ?_⟩
          · rw [List.map_cons, List.map_cons, requested]
            rfl
          · intro earlier exchange later split
            cases earlier with
            | nil =>
                obtain ⟨same, -⟩ := List.cons.inj split
                obtain rfl := Seen.answered.inj same
                rw [List.append_nil]
                exact knownAnswer_of_serves holds serves
            | cons first earlier =>
                obtain ⟨rfl, further⟩ := List.cons.inj split
                have answer := all earlier exchange later further
                rw [List.append_assoc] at answer
                exact answer
      | crashed request environment calls =>
          obtain ⟨left, interrupts, kept⟩ :=
            handle_through isValidJson urlPrefix request keeps within (by omega) environment calls
          obtain ⟨more, within', count⟩ := interrupts_within within interrupts
          obtain ⟨middle, ran, shaped, same⟩ := construct_run kept.1 environment.order
          have holds' : Holds
              (knowledge isValidJson urlPrefix (before ++ [.lost request])) left := by
            rw [grown]
            exact holds_afterLoss holds interrupts
          obtain ⟨seen, fs', runs, requested, all⟩ :=
            ih ⟨shaped, same.trans kept.2⟩ holds' within' (by omega)
          refine ⟨.lost request :: seen, fs', by simp [turns, ran, runs], ?_, ?_⟩
          · rw [List.map_cons, List.map_cons, requested]
            rfl
          · intro earlier exchange later split
            cases earlier with
            | nil => exact absurd (List.cons.inj split).1 (by simp)
            | cons first earlier =>
                obtain ⟨rfl, further⟩ := List.cons.inj split
                have answer := all earlier exchange later further
                rw [List.append_assoc] at answer
                exact answer

/-- From an empty data root, with the process dying in any of the requests behind any of
their file-system calls: every request is answered or lost, and every answer is the one
that the answered and lost requests before it ask for. -/
theorem answers_survive_crashes (isValidJson : Text → Bool) (urlPrefix : Text)
    (dataRoot : Path) {fs : FileSystem} (emptyRoot : EmptyRoot dataRoot fs) (run : List Turn)
    (few : run.length < 2147483648) :
    ∃ seen fs', turns isValidJson urlPrefix dataRoot run fs = some (seen, fs') ∧
      seen.map Seen.request = run.map Turn.request ∧
      ∀ before exchange behind, seen = before ++ .answered exchange :: behind →
        KnownAnswer isValidJson urlPrefix (knowledge isValidJson urlPrefix before) exchange := by
  have within : Objects.empty.Within ∅ := fun _ _ stored => absurd rfl stored
  have holds : Holds (knowledge isValidJson urlPrefix []) Objects.empty :=
    fun _ _ _ learned => Option.some.inj learned
  exact turns_known isValidJson urlPrefix dataRoot run
    ⟨emptyRoot.shaped, emptyRoot.objects⟩ holds within (by rw [Finset.card_empty]; omega)

def lostPut : List Turn :=
  [.answered (plainRequest "POST" "/api/Shoes" "[1,2]") .plain,
    .answered (plainRequest "POST" "/api/Shoes" "[4]") .plain,
    .crashed (plainRequest "PUT" "/api/Shoes/0" "[3]") .plain 2,
    .answered (plainRequest "GET" "/api/Shoes/0" "") .plain,
    .answered (plainRequest "GET" "/api/Shoes/1" "") .plain]

theorem answers_survive_crashes_lostPut :
    ∃ seen fs', turns (fun _ => true) "/api".toList ["data".toList] lostPut ∅ =
        some (seen, fs') ∧
      seen.map Seen.request = lostPut.map Turn.request ∧
      ∀ before exchange behind, seen = before ++ .answered exchange :: behind →
        KnownAnswer (fun _ => true) "/api".toList
          (knowledge (fun _ => true) "/api".toList before) exchange :=
  answers_survive_crashes (fun _ => true) "/api".toList ["data".toList] (empty_emptyRoot _)
    lostPut (by decide)

end BathroomRatings.Api
