import BathroomRatings.Api.Handler
import BathroomRatings.Lib.Interface

/-!
# The store calls of a request

Handling a request over a store that does nothing but record shows which operations
the handler calls.  It is at most one, and its entity name and id are determined by
the segments of the url.
-/

set_option autoImplicit false

namespace BathroomRatings.Api

open BathroomRatings.Http BathroomRatings.Lib.Interface BathroomRatings.Store

inductive StoreCall where
  | create (entityName data : Text)
  | read (entityName : Text) (id : Int) (outData : Text)
  | update (entityName : Text) (id : Int) (data : Text)
  | delete (entityName : Text) (id : Int)
  | list (entityName : Text)
  deriving DecidableEq, Repr

namespace StoreCall

def Reply : StoreCall → Type
  | create _ _ => Int
  | read _ _ _ => Bool × Text
  | update _ _ _ => Bool
  | delete _ _ => Bool
  | list _ => List Int

def entityName : StoreCall → Text
  | create name _ => name
  | read name _ _ => name
  | update name _ _ => name
  | delete name _ => name
  | list name => name

/-- The id of the object an operation is about; `Create` and `List` are given none. -/
def id? : StoreCall → Option Int
  | create _ _ => none
  | read _ id _ => some id
  | update _ id _ => some id
  | delete _ id => some id
  | list _ => none

end StoreCall

abbrev StoreProgram := Program StoreCall StoreCall.Reply

def callingStore : EntityStore StoreProgram where
  create entityName data := Program.request (StoreCall.create entityName data)
  read entityName id outData := Program.request (StoreCall.read entityName id outData)
  update entityName id data := Program.request (StoreCall.update entityName id data)
  delete entityName id := Program.request (StoreCall.delete entityName id)
  list entityName := Program.request (StoreCall.list entityName)

def Calls (isValidJson : Text → Bool) (urlPrefix : Text) (request : Request)
    (call : StoreCall) : Prop :=
  ∃ (σ : Type) (replies : Handler StoreCall StoreCall.Reply σ) (state : σ),
    call ∈ (handleRequest callingStore isValidJson urlPrefix request).trace replies state

def Route.call : Route → Option StoreCall
  | .rejected _ => none
  | .create entityName data => some (.create entityName data)
  | .read entityName id => some (.read entityName id [])
  | .list entityName => some (.list entityName)
  | .update entityName id data => some (.update entityName id data)
  | .delete entityName id => some (.delete entityName id)

def StoreCall.on {m : Type → Type} (entityStore : EntityStore m) :
    (call : StoreCall) → m call.Reply
  | .create entityName data => entityStore.create entityName data
  | .read entityName id outData => entityStore.read entityName id outData
  | .update entityName id data => entityStore.update entityName id data
  | .delete entityName id => entityStore.delete entityName id
  | .list entityName => entityStore.list entityName

section Trace

variable {Command : Type} {Reply : Command → Type} {σ : Type}

/-- Serving a route calls what its operation calls: the answer is made without calls. -/
theorem trace_serve (entityStore : EntityStore (Program Command Reply))
    (handler : Handler Command Reply σ) (state : σ) (route : Route) :
    (route.serve entityStore).trace handler state =
      match route.call with
      | some call => (call.on entityStore).trace handler state
      | none => [] := by
  cases route with
  | rejected answer => rfl
  | create entityName data =>
      apply trace_bind_silent
      intro id
      split <;> trivial
  | read entityName id =>
      apply trace_bind_silent
      intro found
      split
      split <;> trivial
  | list entityName =>
      apply trace_bind_silent
      intro ids
      trivial
  | update entityName id data =>
      apply trace_bind_silent
      intro updated
      split <;> trivial
  | delete entityName id =>
      apply trace_bind_silent
      intro deleted
      split <;> trivial

end Trace

theorem trace_callingStore {σ : Type} (replies : Handler StoreCall StoreCall.Reply σ)
    (state : σ) (call : StoreCall) : (call.on callingStore).trace replies state = [call] := by
  cases call <;> rfl

def refusal : Handler StoreCall StoreCall.Reply Unit :=
  fun _ call =>
    match call with
    | .create _ _ => ((-1 : Int), ())
    | .read _ _ outData => ((false, outData), ())
    | .update _ _ _ => (false, ())
    | .delete _ _ => (false, ())
    | .list _ => (([] : List Int), ())

theorem calls_iff (isValidJson : Text → Bool) (urlPrefix : Text) (request : Request)
    (call : StoreCall) :
    Calls isValidJson urlPrefix request call ↔
      (route isValidJson urlPrefix request).call = some call := by
  simp only [Calls, handleRequest_eq_serve, trace_serve, trace_callingStore]
  constructor
  · intro made
    obtain ⟨_, _, _, here⟩ := made
    cases made : (route isValidJson urlPrefix request).call with
    | none => simp [made] at here
    | some other =>
        simp only [made, List.mem_singleton] at here
        rw [here]
  · intro made
    exact ⟨Unit, refusal, (), by simp [made]⟩

/-! ## Segments and targets -/

/-- The entity, and perhaps the id, that the segments of a url address. -/
def target : List Text → Option (Text × Option Int)
  | [] => none
  | entityName :: rest =>
      if isValidEntityName entityName then
        match rest with
        | [] => some (entityName, none)
        | segment :: _ => (parseId segment).map fun id => (entityName, some id)
      else none

theorem target_entity (entityName : Text) (valid : isValidEntityName entityName = true) :
    target [entityName] = some (entityName, none) := by
  simp [target, valid]

theorem target_object (entityName segment : Text) (more : List Text) (id : Int)
    (valid : isValidEntityName entityName = true) (parsed : parseId segment = some id) :
    target (entityName :: segment :: more) = some (entityName, some id) := by
  simp [target, valid, parsed]

section Target

variable {isValidJson : Text → Bool} {urlPrefix : Text} {request : Request}

theorem route_of_calls {call : StoreCall} (made : Calls isValidJson urlPrefix request call) :
    ∃ route, Routed isValidJson urlPrefix request route ∧ route.call = some call :=
  ⟨_, route_routed isValidJson urlPrefix request, (calls_iff _ _ _ _).mp made⟩

theorem target_of_calls {call : StoreCall}
    (made : Calls isValidJson urlPrefix request call) :
    target (extractSegments urlPrefix request.url) = some (call.entityName, call.id?) := by
  obtain ⟨route, routed, made⟩ := route_of_calls made
  cases routed with
  | rejected answer status => simp [Route.call] at made
  | create entityName method segments valid json =>
      obtain rfl := Option.some.inj made
      rw [segments]
      exact target_entity entityName valid
  | read entityName segment more id method segments valid parsed =>
      obtain rfl := Option.some.inj made
      rw [segments]
      exact target_object entityName segment more id valid parsed
  | list entityName method segments valid =>
      obtain rfl := Option.some.inj made
      rw [segments]
      exact target_entity entityName valid
  | update entityName segment id method segments valid parsed json =>
      obtain rfl := Option.some.inj made
      rw [segments]
      exact target_object entityName segment [] id valid parsed
  | delete entityName segment id method segments valid parsed =>
      obtain rfl := Option.some.inj made
      rw [segments]
      exact target_object entityName segment [] id valid parsed

theorem calls_of_target {entityName : Text} {id : Option Int}
    (method : request.method = "GET".toList)
    (addressed : target (extractSegments urlPrefix request.url) = some (entityName, id)) :
    ∃ call, Calls isValidJson urlPrefix request call ∧ call.entityName = entityName ∧
      call.id? = id := by
  simp only [calls_iff]
  cases segments : extractSegments urlPrefix request.url with
  | nil => simp [segments, target] at addressed
  | cons name rest =>
      cases valid : isValidEntityName name with
      | false => simp [segments, target, valid] at addressed
      | true =>
          rw [route_get segments valid method]
          cases rest with
          | nil =>
              rw [segments, target_entity name valid] at addressed
              obtain ⟨rfl, rfl⟩ := Prod.mk.inj (Option.some.inj addressed)
              exact ⟨.list name, rfl, rfl, rfl⟩
          | cons segment more =>
              cases parsed : parseId segment with
              | none => simp [segments, target, valid, parsed] at addressed
              | some found =>
                  rw [segments, target_object name segment more found valid parsed]
                    at addressed
                  obtain ⟨rfl, rfl⟩ := Prod.mk.inj (Option.some.inj addressed)
                  exact ⟨.read name found [], by simp [routeGet, Route.ofId, parsed, Route.call],
                    rfl, rfl⟩

end Target

end BathroomRatings.Api
