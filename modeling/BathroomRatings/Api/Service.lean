import BathroomRatings.Api.Calls
import BathroomRatings.Api.Ledger
import BathroomRatings.Store.Crash

/-!
# The service over persistent objects

What the API answers by a map of objects, and what it leaves of them.  Handling a request
over a persistent store answers so by the objects in the data directory.
-/

set_option autoImplicit false

namespace BathroomRatings.Api

open BathroomRatings.Http BathroomRatings.Lib.Crash BathroomRatings.Lib.Interface
open BathroomRatings.Lib.Sorting BathroomRatings.Lib.Word BathroomRatings.Store
open BathroomRatings.Store.EntityStorePersistent BathroomRatings.Store.FileSystem

/-- The answers that a map of objects allows. -/
def Route.Serves (map : Objects) : Route → Response → Prop
  | .rejected answer, response => response = answer
  | .create entityName _, response =>
      ∃ id, IsLeast {id | 0 ≤ id ∧ map entityName id = none} id ∧
        response = ResponseBuilder.ok (idJson id) jsonContentType
  | .read entityName id, response =>
      response = match map entityName id with
        | some data => ResponseBuilder.ok data jsonContentType
        | none => entityNotFound
  | .list entityName, response =>
      ∃ ids : List Int, ids.Pairwise (· < ·) ∧ (∀ id, id ∈ ids ↔ map entityName id ≠ none) ∧
        response = ResponseBuilder.ok (idsJson ids) jsonContentType
  | .update _ id _, response =>
      -- an id segment beyond the `int`s may come out negative
      response = if 0 ≤ id then ResponseBuilder.ok (idJson id) jsonContentType
      else ResponseBuilder.internalServerError "Failed to update entity".toList
  | .delete entityName id, response =>
      response = if (map entityName id).isSome then
        ResponseBuilder.ok deletedJson jsonContentType
      else entityNotFound

/-- The objects behind a request; a POST tells in its answer which one it made. -/
def Route.objectsAfter (map : Objects) : Route → Response → Objects
  | .create entityName data, response =>
      match createdId response.body with
      | some id => map.put entityName id data
      | none => map
  | .update entityName id data, _ => if 0 ≤ id then map.put entityName id data else map
  | .delete entityName id, _ => map.erase entityName id
  | _, _ => map

/-- The objects behind a request in which the process died. -/
inductive Route.Interrupts (map : Objects) : Route → Objects → Prop
  | untouched (taken : Route) : Route.Interrupts map taken map
  | created {entityName data written : Text} {id : Int}
      (least : IsLeast {id | 0 ≤ id ∧ map entityName id = none} id)
      (begins : written <+: data) :
      Route.Interrupts map (.create entityName data) (map.put entityName id written)
  | updated {entityName data written : Text} {id : Int} (nonneg : 0 ≤ id)
      (begins : written <+: data) :
      Route.Interrupts map (.update entityName id data) (map.put entityName id written)
  | deleted (entityName : Text) (id : Int) :
      Route.Interrupts map (.delete entityName id) (map.erase entityName id)

inductive Route.Makes : Route → Call → Prop
  | create {entityName : Text} (data : Text) (valid : isValidEntityName entityName = true) :
      Route.Makes (.create entityName data) (.create entityName data)
  | read {entityName : Text} (id : Word32) (valid : isValidEntityName entityName = true) :
      Route.Makes (.read entityName id.value) (.read entityName id [])
  | list {entityName : Text} (valid : isValidEntityName entityName = true) :
      Route.Makes (.list entityName) (.list entityName)
  | update {entityName : Text} (id : Word32) (data : Text)
      (valid : isValidEntityName entityName = true) :
      Route.Makes (.update entityName id.value data) (.update entityName id data)
  | delete {entityName : Text} (id : Word32) (valid : isValidEntityName entityName = true) :
      Route.Makes (.delete entityName id.value) (.delete entityName id)

def Route.respond : Route → Answer → Response
  | .create _ _, .id id =>
      if id < 0 then ResponseBuilder.internalServerError "Failed to create entity".toList
      else ResponseBuilder.ok (idJson id) jsonContentType
  | .read _ _, .data found data =>
      if found then ResponseBuilder.ok data jsonContentType else entityNotFound
  | .list _, .ids ids => ResponseBuilder.ok (idsJson (ascending ids)) jsonContentType
  | .update _ id _, .success updated =>
      if updated then ResponseBuilder.ok (idJson id) jsonContentType
      else ResponseBuilder.internalServerError "Failed to update entity".toList
  | .delete _ _, .success deleted =>
      if deleted then ResponseBuilder.ok deletedJson jsonContentType else entityNotFound
  | _, _ => ResponseBuilder.defaultInternalServerError

section Makes

variable {isValidJson : Text → Bool} {urlPrefix : Text} {request : Request}

theorem parseId_inRange {segment : Text} {id : Int} (parsed : parseId segment = some id) :
    InRange32 id := by
  rw [((parseId_iff segment id).mp parsed).2.2]
  exact wrap32_inRange _

theorem routed_makes {taken : Route} (routed : Routed isValidJson urlPrefix request taken) :
    (∃ answer, taken = .rejected answer) ∨ ∃ call, taken.Makes call := by
  cases routed with
  | rejected answer => exact Or.inl ⟨answer, rfl⟩
  | create entityName method target valid => exact Or.inr ⟨_, .create _ valid⟩
  | read entityName segment more id method target valid parsed =>
      exact Or.inr ⟨_, .read ⟨id, parseId_inRange parsed⟩ valid⟩
  | list entityName method target valid => exact Or.inr ⟨_, .list valid⟩
  | update entityName segment id method target valid parsed =>
      exact Or.inr ⟨_, .update ⟨id, parseId_inRange parsed⟩ _ valid⟩
  | delete entityName segment id method target valid parsed =>
      exact Or.inr ⟨_, .delete ⟨id, parseId_inRange parsed⟩ valid⟩

end Makes

section Serve

variable {dataRoot : Path} {buffering : Buffering} {map : Objects} {taken : Route} {call : Call}

theorem bind_pure_eq_map {Command α β γ : Type} {Reply : Command → Type}
    (program : Program Command Reply α) (first : α → β) (second : β → γ) :
    (program >>= fun result => pure (second (first result))) = second <$> first <$> program := by
  induction program with
  | done result => rfl
  | call command next ih => exact congrArg (Program.call command) (funext ih)
  | diverge => rfl

theorem serve_eq (makes : taken.Makes call) :
    taken.serve (entityStorePersistent dataRoot buffering) =
      taken.respond <$> callProgram dataRoot buffering call := by
  cases makes with
  | @create entityName data valid =>
      refine Eq.trans ?_ (bind_pure_eq_map (create dataRoot buffering entityName data) _ _)
      simp only [Route.serve, Route.respond, apply_ite]
      rfl
  | @read entityName id valid =>
      refine Eq.trans ?_ (bind_pure_eq_map
        (EntityStorePersistent.read dataRoot entityName id.value []) _ _)
      simp only [Route.serve, Route.respond, apply_ite]
      rfl
  | @list entityName valid =>
      exact bind_pure_eq_map (list dataRoot entityName) Answer.ids
        (Route.list entityName).respond
  | @update entityName id data valid =>
      refine Eq.trans ?_ (bind_pure_eq_map
        (update dataRoot buffering entityName id.value data) _ _)
      simp only [Route.serve, Route.respond, apply_ite]
      rfl
  | @delete entityName id valid =>
      refine Eq.trans ?_ (bind_pure_eq_map (delete dataRoot entityName id.value) _ _)
      simp only [Route.serve, handleDelete, Route.respond, apply_ite]
      rfl

theorem serves_of_explains (makes : taken.Makes call) {answer : Answer}
    (inMap : ∀ entityName id, map entityName id ≠ none → 0 ≤ id ∧ id < 2147483648)
    (small : ∀ entityName id, IsLeast {id | 0 ≤ id ∧ map entityName id = none} id →
      id < 2147483648)
    (explains : Explains map call answer) :
    taken.Serves map (taken.respond answer) ∧
      after map call answer = taken.objectsAfter map (taken.respond answer) := by
  have negative : ∀ entityName id, ¬ 0 ≤ id → map entityName id = none := by
    intro entityName id negative
    by_contra stored
    exact negative (inMap entityName id stored).1
  cases makes with
  | @create entityName data valid =>
      cases answer with
      | id id =>
          have least : IsLeast {id | 0 ≤ id ∧ map entityName id = none} id := by
            simpa [Explains, valid] using explains
          have nonneg : 0 ≤ id := least.1.1
          have answered : (Route.create entityName data).respond (.id id) =
              ResponseBuilder.ok (idJson id) jsonContentType := if_neg (by omega)
          have named := createdId_idJson nonneg (small entityName id least)
          refine ⟨⟨id, least, answered⟩, ?_⟩
          have named' : createdId (ResponseBuilder.ok (idJson id) jsonContentType).body =
              some id := named
          rw [answered]
          simp only [after, valid, if_true, Route.objectsAfter, named']
      | _ => exact explains.elim
  | @read entityName id valid =>
      cases answer with
      | data found result =>
          refine ⟨?_, rfl⟩
          cases accepted : accepts entityName id.value with
          | false =>
              have rejected : found = false ∧ result = [] := by
                simpa [Explains, accepted] using explains
              have missing : map entityName id.value = none := by
                refine negative _ _ fun nonneg => ?_
                rw [(accepts_iff _ _).mpr ⟨valid, nonneg⟩] at accepted
                exact absurd accepted (by simp)
              simp [Route.Serves, Route.respond, missing, rejected.1]
          | true =>
              cases held : map entityName id.value with
              | none =>
                  have missing : found = false ∧ result = [] := by
                    simpa [Explains, accepted, held] using explains
                  simp [Route.Serves, Route.respond, held, missing.1]
              | some data =>
                  have there : found = true ∧ result = data := by
                    simpa [Explains, accepted, held] using explains
                  simp [Route.Serves, Route.respond, held, there.1, there.2]
      | _ => exact explains.elim
  | @list entityName valid =>
      cases answer with
      | ids ids =>
          have listed : ids.Pairwise (· < ·) ∧ ∀ id, id ∈ ids ↔ map entityName id ≠ none := by
            simpa [Explains, valid] using explains
          have distinct : ids.Nodup := listed.1.imp fun less => by omega
          refine ⟨⟨ascending ids, ascending_strict distinct, ?_, rfl⟩, rfl⟩
          intro id
          rw [mem_ascending]
          exact listed.2 id
      | _ => exact explains.elim
  | @update entityName id data valid =>
      cases answer with
      | success updated =>
          have same : updated = accepts entityName id.value := explains
          by_cases nonneg : 0 ≤ id.value
          · have accepted := (accepts_iff _ _).mpr ⟨valid, nonneg⟩
            simp [Route.Serves, Route.respond, Route.objectsAfter, after, same, accepted, nonneg]
          · have rejected := (accepts_eq_false_iff entityName id.value).mpr (Or.inl (by omega))
            simp [Route.Serves, Route.respond, Route.objectsAfter, after, same, rejected, nonneg]
      | _ => exact explains.elim
  | @delete entityName id valid =>
      cases answer with
      | success deleted =>
          have same : deleted =
              (accepts entityName id.value && (map entityName id.value).isSome) := explains
          by_cases nonneg : 0 ≤ id.value
          · have accepted := (accepts_iff _ _).mpr ⟨valid, nonneg⟩
            simp [Route.Serves, Route.respond, Route.objectsAfter, after, same, accepted]
          · have rejected := (accepts_eq_false_iff entityName id.value).mpr (Or.inl (by omega))
            have missing := negative entityName _ nonneg
            simp [Route.Serves, Route.respond, Route.objectsAfter, after, same, rejected,
              missing, Objects.erase_absent missing]
      | _ => exact explains.elim

theorem interrupts_of_leaves (makes : taken.Makes call) {left : Objects}
    (leaves : Leaves map call left) : taken.Interrupts map left := by
  cases leaves with
  | untouched => exact .untouched taken
  | partway stores begins =>
      cases stores with
      | create valid least =>
          cases makes with
          | create => exact .created least begins
      | update accepted =>
          cases makes with
          | update => exact .updated ((accepts_iff _ _).mp accepted).2 begins
  | deleted accepted =>
      cases makes with
      | delete => exact .deleted _ _

end Serve

/-! ## Handling a request over the persistent store -/

section Handle

variable {dataRoot : Path} {map : Objects} {fs : FileSystem} {used : Finset Int}
variable (isValidJson : Text → Bool) (urlPrefix : Text) (request : Request)

theorem keeps_bounded (keeps : Keeps dataRoot map fs) {entityName : Text} {id : Int}
    (stored : map entityName id ≠ none) : 0 ≤ id ∧ id < 2147483648 := by
  rw [← keeps.2] at stored
  have accepted := accepted_of_object stored
  obtain ⟨valid, nonneg⟩ := (accepts_iff _ _).mp accepted
  rw [objects_accepted dataRoot fs accepted] at stored
  obtain ⟨text, held⟩ := Option.ne_none_iff_exists'.mp stored
  have present := (content_eq_some_iff _ _ _).mp held
  exact ⟨nonneg, (keeps.1.small valid present).2⟩

theorem least_small (within : map.Within used) (few : used.card < 2147483648)
    {entityName : Text} {id : Int}
    (least : IsLeast {id | 0 ≤ id ∧ map entityName id = none} id) : id < 2147483648 := by
  by_contra large
  refine within.not_full few entityName fun other nonneg small missing => ?_
  have below := least.2 ⟨nonneg, missing⟩
  omega

theorem objectsAfter_within (within : map.Within used) (taken : Route) (response : Response) :
    ∃ more : Finset Int, used ⊆ more ∧ (taken.objectsAfter map response).Within more ∧
      more.card ≤ used.card + 1 := by
  have same : used ⊆ used ∧ map.Within used ∧ used.card ≤ used.card + 1 :=
    ⟨fun _ member => member, within, by omega⟩
  have added : ∀ entityName id data, used ⊆ insert id used ∧
      (map.put entityName id data).Within (insert id used) ∧
        (insert id used).card ≤ used.card + 1 :=
    fun entityName id data => ⟨Finset.subset_insert id used, within.put entityName id data,
      Finset.card_insert_le id used⟩
  cases taken with
  | create entityName data =>
      simp only [Route.objectsAfter]
      split
      · exact ⟨_, added _ _ _⟩
      · exact ⟨used, same⟩
  | update entityName id data =>
      simp only [Route.objectsAfter]
      split
      · exact ⟨_, added _ _ _⟩
      · exact ⟨used, same⟩
  | delete entityName id => exact ⟨used, same.1, within.erase entityName id, same.2.2⟩
  | _ => exact ⟨used, same⟩

/-- The handler over the store answers as the service over its objects. -/
theorem handle_served (keeps : Keeps dataRoot map fs) (within : map.Within used)
    (few : used.card < 2147483648) (environment : Environment) :
    ∃ response fs',
      (handleRequest (entityStorePersistent dataRoot environment.buffering) isValidJson urlPrefix
        request).run (perform environment.order) fs = some (response, fs') ∧
      (route isValidJson urlPrefix request).Serves map response ∧
      Keeps dataRoot ((route isValidJson urlPrefix request).objectsAfter map response) fs' := by
  rw [handleRequest_eq_serve]
  rcases routed_makes (route_routed isValidJson urlPrefix request) with
    ⟨answer, rejected⟩ | ⟨call, makes⟩
  · rw [rejected]
    exact ⟨answer, fs, rfl, rfl, keeps⟩
  · obtain ⟨answer, fs', ran, shaped, explains, kept⟩ :=
      call_run keeps.1 environment call (by rw [keeps.2]; exact within) few
    rw [keeps.2] at explains kept
    have bounded : ∀ entityName id, map entityName id ≠ none → 0 ≤ id ∧ id < 2147483648 :=
      fun entityName id stored => keeps_bounded keeps stored
    have small : ∀ entityName id, IsLeast {id | 0 ≤ id ∧ map entityName id = none} id →
        id < 2147483648 := fun entityName id least => least_small within few least
    obtain ⟨serves, same⟩ := serves_of_explains makes bounded small explains
    rw [serve_eq makes]
    exact ⟨_, fs', run_map_of_run _ ran, serves, shaped, kept.trans same⟩

/-- Wherever the process dies, the objects are those of an interrupted request. -/
theorem handle_through (keeps : Keeps dataRoot map fs) (within : map.Within used)
    (few : used.card < 2147483648) (environment : Environment) :
    Through (perform environment.order)
      (fun fs => ∃ left, (route isValidJson urlPrefix request).Interrupts map left ∧
        Keeps dataRoot left fs)
      (handleRequest (entityStorePersistent dataRoot environment.buffering) isValidJson urlPrefix
        request) fs := by
  rw [handleRequest_eq_serve]
  rcases routed_makes (route_routed isValidJson urlPrefix request) with
    ⟨answer, rejected⟩ | ⟨call, makes⟩
  · rw [rejected]
    exact through_pure _ ⟨map, .untouched _, keeps⟩
  · rw [serve_eq makes]
    refine Through.map _ ((call_through keeps environment call within few).mono ?_)
    intro fs left
    exact ⟨_, interrupts_of_leaves makes left.2, left.1, rfl⟩

theorem interrupts_within {taken : Route} {left : Objects} (within : map.Within used)
    (interrupts : taken.Interrupts map left) :
    ∃ more : Finset Int, left.Within more ∧ more.card ≤ used.card + 1 := by
  cases interrupts with
  | untouched => exact ⟨used, within, by omega⟩
  | created => exact ⟨_, within.put _ _ _, Finset.card_insert_le _ used⟩
  | updated => exact ⟨_, within.put _ _ _, Finset.card_insert_le _ used⟩
  | deleted => exact ⟨used, within.erase _ _, by omega⟩

end Handle

end BathroomRatings.Api
