import BathroomRatings.Http.Message
import BathroomRatings.Lib.Sorting
import BathroomRatings.Lib.Strings
import BathroomRatings.Store.Validation

/-!
# The API handler

`ApiRequestHandler` over any entity store.  Its constructor refuses a null store, so
the check for one in `handle_request` is left out.  `IsValidJson` is a library's
parser and stays a parameter.
-/

set_option autoImplicit false

namespace BathroomRatings.Api

open BathroomRatings.Http BathroomRatings.Lib.Decimal BathroomRatings.Lib.Sorting
open BathroomRatings.Lib.Strings BathroomRatings.Store

def jsonContentType : Text := "application/json".toList

/-! ## The target of a request -/

def cutQuery (url : Text) : Text :=
  match find ['?'] url with
  | some queryPos => url.take queryPos
  | none => url

/-- The prefix is removed at the end of the path or before a slash only. -/
def stripUrlPrefix (urlPrefix path : Text) : Text :=
  if urlPrefix ≠ [] ∧ urlPrefix <+: path then
    if path.length = urlPrefix.length ∨ path[urlPrefix.length]? = some '/' then
      path.drop urlPrefix.length
    else path
  else path

def trimSlashes (path : Text) : Text :=
  (path.dropWhile (· == '/')).rdropWhile (· == '/')

def extractSegments (urlPrefix rawUrl : Text) : List Text :=
  pieces '/' (trimSlashes (stripUrlPrefix urlPrefix (cutQuery rawUrl)))

def idJson (id : Int) : Text := "\x7b\"id\":".toList ++ decimal id ++ "\x7d".toList

def idsJson (ids : List Int) : Text :=
  '[' :: (List.intercalate [','] (ids.map decimal) ++ [']'])

def deletedJson : Text := "\x7b\"deleted\":true\x7d".toList

def invalidId : Response := ResponseBuilder.badRequest "Invalid ID".toList

def invalidJson : Response := ResponseBuilder.badRequest "Body is not valid JSON".toList

def entityNotFound : Response := ResponseBuilder.notFound "Entity not found".toList

variable {m : Type → Type} [Monad m]

def handlePost (entityStore : EntityStore m) (isValidJson : Text → Bool)
    (entityName body : Text) : m Response :=
  if isValidJson body then do
    let id ← entityStore.create entityName body
    if id < 0 then
      pure (ResponseBuilder.internalServerError "Failed to create entity".toList)
    else pure (ResponseBuilder.ok (idJson id) jsonContentType)
  else pure invalidJson

def handleGet (entityStore : EntityStore m) (entityName : Text) (segments : List Text) :
    m Response :=
  if segments.length = 1 then do
    let ids ← entityStore.list entityName
    pure (ResponseBuilder.ok (idsJson (ascending ids)) jsonContentType)
  else
    match parseId (segments.getD 1 []) with
    | none => pure invalidId
    | some id => do
        let (found, data) ← entityStore.read entityName id []
        if found then pure (ResponseBuilder.ok data jsonContentType) else pure entityNotFound

def handlePut (entityStore : EntityStore m) (isValidJson : Text → Bool) (entityName : Text)
    (id : Int) (body : Text) : m Response :=
  if isValidJson body then do
    if ← entityStore.update entityName id body then
      pure (ResponseBuilder.ok (idJson id) jsonContentType)
    else pure (ResponseBuilder.internalServerError "Failed to update entity".toList)
  else pure invalidJson

def handleDelete (entityStore : EntityStore m) (entityName : Text) (id : Int) : m Response := do
  if ← entityStore.delete entityName id then
    pure (ResponseBuilder.ok deletedJson jsonContentType)
  else pure entityNotFound

def handleRequest (entityStore : EntityStore m) (isValidJson : Text → Bool)
    (urlPrefix : Text) (request : Request) : m Response :=
  let segments := extractSegments urlPrefix request.url
  match segments.head? with
  | none => pure (ResponseBuilder.badRequest "Entity type required".toList)
  | some entityName =>
      if isValidEntityName entityName = false then
        pure (ResponseBuilder.badRequest "Invalid entity name".toList)
      else if request.method = "POST".toList then
        if segments.length ≠ 1 then
          pure (ResponseBuilder.badRequest "POST target must be /Entity".toList)
        else handlePost entityStore isValidJson entityName request.body
      else if request.method = "GET".toList then
        handleGet entityStore entityName segments
      else if request.method = "PUT".toList then
        if segments.length ≠ 2 then
          pure (ResponseBuilder.badRequest "PUT target must be /Entity/\x7bid\x7d".toList)
        else
          match parseId (segments.getD 1 []) with
          | none => pure invalidId
          | some id => handlePut entityStore isValidJson entityName id request.body
      else if request.method = "DELETE".toList then
        if segments.length ≠ 2 then
          pure (ResponseBuilder.badRequest "DELETE target must be /Entity/\x7bid\x7d".toList)
        else
          match parseId (segments.getD 1 []) with
          | none => pure invalidId
          | some id => handleDelete entityStore entityName id
      else pure (ResponseBuilder.methodNotAllowed "Unsupported method".toList)

/-! ## Routes

What a request asks of the store, if it passes the checks. -/

inductive Route where
  | rejected (answer : Response)
  | create (entityName data : Text)
  | read (entityName : Text) (id : Int)
  | list (entityName : Text)
  | update (entityName : Text) (id : Int) (data : Text)
  | delete (entityName : Text) (id : Int)

def Route.ofId (segment : Text) (route : Int → Route) : Route :=
  match parseId segment with
  | none => .rejected invalidId
  | some id => route id

def Route.ofBody (isValidJson : Text → Bool) (body : Text) (route : Route) : Route :=
  if isValidJson body then route else .rejected invalidJson

/-! The routes of the four methods, by the segments behind the entity name. -/

def routePost (isValidJson : Text → Bool) (entityName body : Text) : List Text → Route
  | [] => .ofBody isValidJson body (.create entityName body)
  | _ => .rejected (ResponseBuilder.badRequest "POST target must be /Entity".toList)

def routeGet (entityName : Text) : List Text → Route
  | [] => .list entityName
  | segment :: _ => .ofId segment (.read entityName)

def routePut (isValidJson : Text → Bool) (entityName body : Text) : List Text → Route
  | [segment] =>
      .ofId segment fun id => .ofBody isValidJson body (.update entityName id body)
  | _ => .rejected (ResponseBuilder.badRequest "PUT target must be /Entity/\x7bid\x7d".toList)

def routeDelete (entityName : Text) : List Text → Route
  | [segment] => .ofId segment (.delete entityName)
  | _ =>
      .rejected
        (ResponseBuilder.badRequest "DELETE target must be /Entity/\x7bid\x7d".toList)

def route (isValidJson : Text → Bool) (urlPrefix : Text) (request : Request) : Route :=
  match extractSegments urlPrefix request.url with
  | [] => .rejected (ResponseBuilder.badRequest "Entity type required".toList)
  | entityName :: rest =>
      if isValidEntityName entityName = false then
        .rejected (ResponseBuilder.badRequest "Invalid entity name".toList)
      else if request.method = "POST".toList then
        routePost isValidJson entityName request.body rest
      else if request.method = "GET".toList then routeGet entityName rest
      else if request.method = "PUT".toList then
        routePut isValidJson entityName request.body rest
      else if request.method = "DELETE".toList then routeDelete entityName rest
      else .rejected (ResponseBuilder.methodNotAllowed "Unsupported method".toList)

/-- The one store operation of a route, and its answer. -/
def Route.serve (entityStore : EntityStore m) : Route → m Response
  | .rejected answer => pure answer
  | .create entityName data => do
      let id ← entityStore.create entityName data
      if id < 0 then
        pure (ResponseBuilder.internalServerError "Failed to create entity".toList)
      else pure (ResponseBuilder.ok (idJson id) jsonContentType)
  | .read entityName id => do
      let (found, data) ← entityStore.read entityName id []
      if found then pure (ResponseBuilder.ok data jsonContentType) else pure entityNotFound
  | .list entityName => do
      let ids ← entityStore.list entityName
      pure (ResponseBuilder.ok (idsJson (ascending ids)) jsonContentType)
  | .update entityName id data => do
      if ← entityStore.update entityName id data then
        pure (ResponseBuilder.ok (idJson id) jsonContentType)
      else pure (ResponseBuilder.internalServerError "Failed to update entity".toList)
  | .delete entityName id => handleDelete entityStore entityName id

section Serve

variable (entityStore : EntityStore m) (isValidJson : Text → Bool) (entityName body : Text)

theorem serve_rejected (answer : Response) :
    (Route.rejected answer).serve entityStore = pure answer := rfl

theorem serve_ofId (segment : Text) (route : Int → Route) :
    (Route.ofId segment route).serve entityStore =
      match parseId segment with
      | none => pure invalidId
      | some id => (route id).serve entityStore := by
  unfold Route.ofId
  cases parseId segment <;> rfl

theorem serve_ofBody (route : Route) :
    (Route.ofBody isValidJson body route).serve entityStore =
      if isValidJson body then route.serve entityStore else pure invalidJson := by
  unfold Route.ofBody
  cases isValidJson body <;> rfl

theorem serve_routePost (rest : List Text) :
    (routePost isValidJson entityName body rest).serve entityStore =
      if (entityName :: rest).length ≠ 1 then
        pure (ResponseBuilder.badRequest "POST target must be /Entity".toList)
      else handlePost entityStore isValidJson entityName body := by
  cases rest with
  | nil =>
      rw [if_neg (by simp)]
      exact serve_ofBody entityStore isValidJson body _
  | cons segment more =>
      rw [if_pos (by simp)]
      rfl

theorem serve_routeGet (rest : List Text) :
    (routeGet entityName rest).serve entityStore =
      handleGet entityStore entityName (entityName :: rest) := by
  cases rest with
  | nil => rfl
  | cons segment more =>
      unfold handleGet
      rw [if_neg (by simp)]
      exact serve_ofId entityStore segment _

theorem serve_routePut (rest : List Text) :
    (routePut isValidJson entityName body rest).serve entityStore =
      if (entityName :: rest).length ≠ 2 then
        pure (ResponseBuilder.badRequest "PUT target must be /Entity/\x7bid\x7d".toList)
      else
        match parseId ((entityName :: rest).getD 1 []) with
        | none => pure invalidId
        | some id => handlePut entityStore isValidJson entityName id body := by
  rcases rest with _ | ⟨segment, _ | ⟨extra, more⟩⟩
  · rw [if_pos (by simp)]
    rfl
  · rw [if_neg (by simp)]
    refine (serve_ofId entityStore segment _).trans ?_
    simp only [serve_ofBody]
    rfl
  · rw [if_pos (by simp)]
    rfl

theorem serve_routeDelete (rest : List Text) :
    (routeDelete entityName rest).serve entityStore =
      if (entityName :: rest).length ≠ 2 then
        pure (ResponseBuilder.badRequest "DELETE target must be /Entity/\x7bid\x7d".toList)
      else
        match parseId ((entityName :: rest).getD 1 []) with
        | none => pure invalidId
        | some id => handleDelete entityStore entityName id := by
  rcases rest with _ | ⟨segment, _ | ⟨extra, more⟩⟩
  · rw [if_pos (by simp)]
    rfl
  · rw [if_neg (by simp)]
    exact serve_ofId entityStore segment _
  · rw [if_pos (by simp)]
    rfl

end Serve

/-- Handling a request is serving its route. -/
theorem handleRequest_eq_serve (entityStore : EntityStore m) (isValidJson : Text → Bool)
    (urlPrefix : Text) (request : Request) :
    handleRequest entityStore isValidJson urlPrefix request =
      (route isValidJson urlPrefix request).serve entityStore := by
  unfold handleRequest route
  cases extractSegments urlPrefix request.url with
  | nil => rfl
  | cons entityName rest =>
      simp only [List.head?_cons, apply_ite (Route.serve entityStore), serve_routePost,
        serve_routeGet, serve_routePut, serve_routeDelete, serve_rejected]

section Routed

variable (isValidJson : Text → Bool) (urlPrefix : Text) (request : Request)

inductive Routed : Route → Prop
  | rejected (answer : Response)
      (status : answer.statusCode = "400 Bad Request".toList ∨
        answer.statusCode = "405 Method Not Allowed".toList) :
      Routed (.rejected answer)
  | create (entityName : Text) (method : request.method = "POST".toList)
      (target : extractSegments urlPrefix request.url = [entityName])
      (valid : isValidEntityName entityName = true)
      (json : isValidJson request.body = true) :
      Routed (.create entityName request.body)
  | read (entityName segment : Text) (more : List Text) (id : Int)
      (method : request.method = "GET".toList)
      (target : extractSegments urlPrefix request.url = entityName :: segment :: more)
      (valid : isValidEntityName entityName = true) (parsed : parseId segment = some id) :
      Routed (.read entityName id)
  | list (entityName : Text) (method : request.method = "GET".toList)
      (target : extractSegments urlPrefix request.url = [entityName])
      (valid : isValidEntityName entityName = true) :
      Routed (.list entityName)
  | update (entityName segment : Text) (id : Int) (method : request.method = "PUT".toList)
      (target : extractSegments urlPrefix request.url = [entityName, segment])
      (valid : isValidEntityName entityName = true) (parsed : parseId segment = some id)
      (json : isValidJson request.body = true) :
      Routed (.update entityName id request.body)
  | delete (entityName segment : Text) (id : Int)
      (method : request.method = "DELETE".toList)
      (target : extractSegments urlPrefix request.url = [entityName, segment])
      (valid : isValidEntityName entityName = true) (parsed : parseId segment = some id) :
      Routed (.delete entityName id)

variable {isValidJson urlPrefix request}

theorem routed_badRequest (message : String) :
    Routed isValidJson urlPrefix request
      (.rejected (ResponseBuilder.badRequest message.toList)) :=
  .rejected _ (Or.inl rfl)

theorem routed_ofId {segment : Text} {next : Int → Route}
    (accepted : ∀ id, parseId segment = some id →
      Routed isValidJson urlPrefix request (next id)) :
    Routed isValidJson urlPrefix request (Route.ofId segment next) := by
  unfold Route.ofId
  cases parsed : parseId segment with
  | none => exact routed_badRequest _
  | some id => exact accepted id parsed

theorem routed_ofBody {next : Route}
    (accepted : isValidJson request.body = true →
      Routed isValidJson urlPrefix request next) :
    Routed isValidJson urlPrefix request (Route.ofBody isValidJson request.body next) := by
  unfold Route.ofBody
  cases json : isValidJson request.body with
  | false => exact routed_badRequest _
  | true => exact accepted json

theorem routed_routePost {entityName : Text} {rest : List Text}
    (method : request.method = "POST".toList)
    (target : extractSegments urlPrefix request.url = entityName :: rest)
    (valid : isValidEntityName entityName = true) :
    Routed isValidJson urlPrefix request
      (routePost isValidJson entityName request.body rest) := by
  cases rest with
  | nil => exact routed_ofBody fun json => .create entityName method target valid json
  | cons segment more => exact routed_badRequest _

theorem routed_routeGet {entityName : Text} {rest : List Text}
    (method : request.method = "GET".toList)
    (target : extractSegments urlPrefix request.url = entityName :: rest)
    (valid : isValidEntityName entityName = true) :
    Routed isValidJson urlPrefix request (routeGet entityName rest) := by
  cases rest with
  | nil => exact .list entityName method target valid
  | cons segment more =>
      exact routed_ofId fun id parsed =>
        .read entityName segment more id method target valid parsed

theorem routed_routePut {entityName : Text} {rest : List Text}
    (method : request.method = "PUT".toList)
    (target : extractSegments urlPrefix request.url = entityName :: rest)
    (valid : isValidEntityName entityName = true) :
    Routed isValidJson urlPrefix request
      (routePut isValidJson entityName request.body rest) := by
  rcases rest with _ | ⟨segment, _ | ⟨extra, more⟩⟩
  · exact routed_badRequest _
  · exact routed_ofId fun id parsed => routed_ofBody fun json =>
      .update entityName segment id method target valid parsed json
  · exact routed_badRequest _

theorem routed_routeDelete {entityName : Text} {rest : List Text}
    (method : request.method = "DELETE".toList)
    (target : extractSegments urlPrefix request.url = entityName :: rest)
    (valid : isValidEntityName entityName = true) :
    Routed isValidJson urlPrefix request (routeDelete entityName rest) := by
  rcases rest with _ | ⟨segment, _ | ⟨extra, more⟩⟩
  · exact routed_badRequest _
  · exact routed_ofId fun id parsed =>
      .delete entityName segment id method target valid parsed
  · exact routed_badRequest _

variable (isValidJson urlPrefix request) in
theorem route_routed :
    Routed isValidJson urlPrefix request (route isValidJson urlPrefix request) := by
  unfold route
  split
  · exact routed_badRequest _
  · rename_i entityName rest target
    split
    · exact routed_badRequest _
    · rename_i accepted
      have valid : isValidEntityName entityName = true := by simpa using accepted
      split
      · rename_i post
        exact routed_routePost post target valid
      · split
        · rename_i get
          exact routed_routeGet get target valid
        · split
          · rename_i put
            exact routed_routePut put target valid
          · split
            · rename_i delete
              exact routed_routeDelete delete target valid
            · exact .rejected _ (Or.inr rfl)

variable {entityName : Text} {rest : List Text}
  (target : extractSegments urlPrefix request.url = entityName :: rest)
  (valid : isValidEntityName entityName = true)
include target valid

theorem route_post (method : request.method = "POST".toList) :
    route isValidJson urlPrefix request =
      routePost isValidJson entityName request.body rest := by
  simp only [route, target]
  rw [if_neg (by simp [valid]), if_pos method]

theorem route_get (method : request.method = "GET".toList) :
    route isValidJson urlPrefix request = routeGet entityName rest := by
  simp only [route, target, method]
  rw [if_neg (by simp [valid]), if_neg (by decide), if_true]

theorem route_put (method : request.method = "PUT".toList) :
    route isValidJson urlPrefix request =
      routePut isValidJson entityName request.body rest := by
  simp only [route, target, method]
  rw [if_neg (by simp [valid]), if_neg (by decide), if_neg (by decide), if_true]

theorem route_delete (method : request.method = "DELETE".toList) :
    route isValidJson urlPrefix request = routeDelete entityName rest := by
  simp only [route, target, method]
  rw [if_neg (by simp [valid]), if_neg (by decide), if_neg (by decide), if_neg (by decide),
    if_true]

end Routed

end BathroomRatings.Api
