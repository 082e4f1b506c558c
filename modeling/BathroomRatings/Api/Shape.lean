import BathroomRatings.Api.Target

/-!
# Shapes of paths

Each method allows a number of segments, and every method but `GET` refuses others.
`GET` reads the second segment and looks at none behind it.
-/

set_option autoImplicit false

namespace BathroomRatings.Api

open BathroomRatings.Http BathroomRatings.Lib.Interface BathroomRatings.Store

/-- The numbers of segments that a method is documented with. -/
def segmentCounts (method : Text) : List Nat :=
  if method = "POST".toList then [1]
  else if method = "GET".toList then [1, 2]
  else if method = "PUT".toList then [2]
  else if method = "DELETE".toList then [2]
  else []

def DigitsOnly (segment : Text) : Prop := segment ≠ [] ∧ ∀ c ∈ segment, c.isDigit = true

structure TargetShape (method : Text) (segments : List Text) : Prop where
  count : segments.length ∈ segmentCounts method
  entity : ∀ entityName ∈ segments[0]?, isValidEntityName entityName = true
  id : ∀ segment ∈ segments[1]?, DigitsOnly segment

def Answers (isValidJson : Text → Bool) (urlPrefix : Text) (request : Request)
    (response : Response) : Prop :=
  ∃ (σ : Type) (replies : Handler StoreCall StoreCall.Reply σ) (state final : σ),
    (handleRequest callingStore isValidJson urlPrefix request).run replies state =
      some (response, final)

def ClientError (response : Response) : Prop := response.statusCode.head? = some '4'

structure CallsByShape (isValidJson : Text → Bool) (urlPrefix : Text) (request : Request) :
    Prop where
  calls : ∀ call, Calls isValidJson urlPrefix request call →
    TargetShape request.method (extractSegments urlPrefix request.url)
  succeeds : ∀ response, Answers isValidJson urlPrefix request response →
    response.statusCode = "200 OK".toList →
      TargetShape request.method (extractSegments urlPrefix request.url)
  refuses : (extractSegments urlPrefix request.url).length ∉ segmentCounts request.method →
    (∀ call, ¬ Calls isValidJson urlPrefix request call) ∧
      ∀ response, Answers isValidJson urlPrefix request response → ClientError response

/-- A `GET` with an entity, an id and something behind it. -/
def ReadsSurplus (urlPrefix : Text) (request : Request) : Prop :=
  request.method = "GET".toList ∧ ∃ entityName segment extra more,
    extractSegments urlPrefix request.url = entityName :: segment :: extra :: more ∧
      isValidEntityName entityName = true ∧ DigitsOnly segment

section Shape

variable {isValidJson : Text → Bool} {urlPrefix : Text} {request : Request}

theorem digitsOnly_iff (segment : Text) : DigitsOnly segment ↔ ∃ id, parseId segment = some id := by
  constructor
  · intro digits
    exact ⟨_, (parseId_iff segment _).mpr ⟨digits.1, digits.2, rfl⟩⟩
  · intro parsed
    obtain ⟨id, parsed⟩ := parsed
    obtain ⟨nonempty, digits, -⟩ := (parseId_iff segment id).mp parsed
    exact ⟨nonempty, digits⟩

theorem shape_entity {method entityName : Text} (valid : isValidEntityName entityName = true)
    (count : 1 ∈ segmentCounts method) : TargetShape method [entityName] := by
  refine ⟨count, ?_, by simp⟩
  intro other member
  obtain rfl := Option.some.inj member
  exact valid

theorem shape_object {method entityName segment : Text} {id : Int}
    (valid : isValidEntityName entityName = true) (parsed : parseId segment = some id)
    (count : 2 ∈ segmentCounts method) : TargetShape method [entityName, segment] := by
  refine ⟨count, ?_, ?_⟩
  · intro other member
    obtain rfl := Option.some.inj member
    exact valid
  · intro other member
    obtain rfl := Option.some.inj member
    exact (digitsOnly_iff segment).mpr ⟨id, parsed⟩

theorem calls_shape {call : StoreCall} (made : Calls isValidJson urlPrefix request call) :
    TargetShape request.method (extractSegments urlPrefix request.url) ∨
      ReadsSurplus urlPrefix request := by
  obtain ⟨route, routed, made⟩ := route_of_calls made
  cases routed with
  | rejected answer status => simp [Route.call] at made
  | create entityName method segments valid json =>
      left
      rw [segments, method]
      exact shape_entity valid (by decide)
  | list entityName method segments valid =>
      left
      rw [segments, method]
      exact shape_entity valid (by decide)
  | update entityName segment id method segments valid parsed json =>
      left
      rw [segments, method]
      exact shape_object valid parsed (by decide)
  | delete entityName segment id method segments valid parsed =>
      left
      rw [segments, method]
      exact shape_object valid parsed (by decide)
  | read entityName segment more id method segments valid parsed =>
      cases more with
      | nil =>
          left
          rw [segments, method]
          exact shape_object valid parsed (by decide)
      | cons extra more =>
          exact Or.inr ⟨method, entityName, segment, extra, more, segments, valid,
            (digitsOnly_iff segment).mpr ⟨id, parsed⟩⟩

theorem answers_of_no_call (none : ∀ call, ¬ Calls isValidJson urlPrefix request call)
    {response : Response} (answers : Answers isValidJson urlPrefix request response) :
    response.statusCode = "400 Bad Request".toList ∨
      response.statusCode = "405 Method Not Allowed".toList := by
  obtain ⟨σ, replies, state, final, ran⟩ := answers
  rw [handleRequest_eq_serve] at ran
  simp only [calls_iff] at none
  have routed := route_routed isValidJson urlPrefix request
  generalize route isValidJson urlPrefix request = route at none ran routed
  cases routed with
  | rejected answer status =>
      obtain ⟨rfl, -⟩ := Prod.mk.inj (Option.some.inj ran)
      exact status
  | create | read | list | update | delete => exact absurd rfl (none _)

theorem clientError_of_status {response : Response}
    (status : response.statusCode = "400 Bad Request".toList ∨
      response.statusCode = "405 Method Not Allowed".toList) : ClientError response := by
  unfold ClientError
  rcases status with status | status
  · rw [status]
    rfl
  · rw [status]
    rfl

theorem calls_of_surplus (surplus : ReadsSurplus urlPrefix request) :
    ∃ call, Calls isValidJson urlPrefix request call := by
  obtain ⟨method, entityName, segment, extra, more, segments, valid, digits⟩ := surplus
  obtain ⟨id, parsed⟩ := (digitsOnly_iff segment).mp digits
  have addressed : target (extractSegments urlPrefix request.url) = some (entityName, some id) := by
    rw [segments]
    exact target_object entityName segment (extra :: more) id valid parsed
  obtain ⟨call, made, -⟩ := calls_of_target method addressed
  exact ⟨call, made⟩

variable (isValidJson urlPrefix request)

/-- The handler calls the store for the allowed shapes alone, unless segments follow the
id of a `GET`. -/
theorem callsByShape_iff :
    CallsByShape isValidJson urlPrefix request ↔ ¬ ReadsSurplus urlPrefix request := by
  constructor
  · intro byShape surplus
    obtain ⟨call, made⟩ : ∃ call, Calls isValidJson urlPrefix request call :=
      calls_of_surplus surplus
    have count := (byShape.calls call made).count
    obtain ⟨method, entityName, segment, extra, more, segments, -⟩ := surplus
    have two : segmentCounts "GET".toList = [1, 2] := by decide
    rw [method, segments, two] at count
    simp at count
  · intro apart
    have shaped : ∀ call, Calls isValidJson urlPrefix request call →
        TargetShape request.method (extractSegments urlPrefix request.url) :=
      fun call made => (calls_shape made).resolve_right apart
    refine ⟨shaped, ?_, ?_⟩
    · intro response answers success
      by_contra misshapen
      have status := answers_of_no_call (fun call made => misshapen (shaped call made)) answers
      rw [success] at status
      exact absurd status (by decide)
    · intro count
      have none : ∀ call, ¬ Calls isValidJson urlPrefix request call := fun call made =>
        count (shaped call made).count
      exact ⟨none, fun response answers => clientError_of_status (answers_of_no_call none answers)⟩

end Shape

/-- The segment behind the id is not looked at. -/
theorem surplus_segment_read :
    ¬ CallsByShape (fun _ => true) "/api".toList (getRequest "/api/Shoes/1/laces".toList) := by
  intro byShape
  have made : Calls (fun _ => true) "/api".toList (getRequest "/api/Shoes/1/laces".toList)
      (.read "Shoes".toList 1 []) := (calls_iff _ _ _ _).mpr (by decide)
  have count := (byShape.calls _ made).count
  exact absurd count (by decide)

end BathroomRatings.Api
