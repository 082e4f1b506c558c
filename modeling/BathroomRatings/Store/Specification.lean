import BathroomRatings.Store.Validation
import Mathlib.Data.Finset.Card
import Mathlib.Order.Bounds.Basic

/-!
# What an entity store is for

An abstract store is a map from entity names and ids to data.  A call is explained
by the map before it when its answer is one the map allows; the answer then
determines the map behind it.
-/

set_option autoImplicit false

namespace BathroomRatings.Store

open BathroomRatings.Lib.Word

abbrev Objects := Text → Int → Option Text

namespace Objects

def empty : Objects := fun _ _ => none

def put (objects : Objects) (entityName : Text) (id : Int) (data : Text) : Objects :=
  fun other otherId =>
    if other = entityName ∧ otherId = id then some data else objects other otherId

def erase (objects : Objects) (entityName : Text) (id : Int) : Objects :=
  fun other otherId =>
    if other = entityName ∧ otherId = id then none else objects other otherId

theorem erase_absent {objects : Objects} {entityName : Text} {id : Int}
    (absent : objects entityName id = none) : objects.erase entityName id = objects := by
  funext other otherId
  unfold erase
  split
  · rename_i same
    rw [same.1, same.2, absent]
  · rfl

/-- The ids in use, of any entity, are among `used`. -/
def Within (objects : Objects) (used : Finset Int) : Prop :=
  ∀ entityName id, objects entityName id ≠ none → id ∈ used

theorem Within.put {objects : Objects} {used : Finset Int} (within : objects.Within used)
    (entityName : Text) (id : Int) (data : Text) :
    (objects.put entityName id data).Within (insert id used) := by
  intro other otherId stored
  rw [Finset.mem_insert]
  unfold Objects.put at stored
  split at stored
  · rename_i same
    exact Or.inl same.2
  · exact Or.inr (within other otherId stored)

theorem Within.erase {objects : Objects} {used : Finset Int} (within : objects.Within used)
    (entityName : Text) (id : Int) : (objects.erase entityName id).Within used := by
  intro other otherId stored
  unfold Objects.erase at stored
  split at stored
  · exact absurd rfl stored
  · exact within other otherId stored

end Objects

/-- A call of a store, or a restart of the server it belongs to. -/
inductive Call where
  | create (entityName data : Text)
  | read (entityName : Text) (id : Word32) (outData : Text)
  | update (entityName : Text) (id : Word32) (data : Text)
  | delete (entityName : Text) (id : Word32)
  | list (entityName : Text)
  | restart

inductive Answer where
  | id (id : Int)
  | data (found : Bool) (outData : Text)
  | success (success : Bool)
  | ids (ids : List Int)
  | restarted
  deriving DecidableEq

def Call.isRestart : Call → Bool
  | .restart => true
  | _ => false

def accepts (entityName : Text) (id : Int) : Bool :=
  isValidEntityName entityName && decide (0 ≤ id)

/-- The answers the interface promises.  A call with a name or an id that no object
can have fails. -/
def Explains (objects : Objects) : Call → Answer → Prop
  | .create entityName _, .id id =>
      if isValidEntityName entityName then
        IsLeast {id | 0 ≤ id ∧ objects entityName id = none} id
      else id = -1
  | .read entityName id outData, .data found result =>
      if accepts entityName id.value then
        match objects entityName id.value with
        | some data => found = true ∧ result = data
        | none => found = false ∧ result = outData
      else found = false ∧ result = outData
  | .update entityName id _, .success success => success = accepts entityName id.value
  | .delete entityName id, .success success =>
      success = (accepts entityName id.value && (objects entityName id.value).isSome)
  | .list entityName, .ids ids =>
      if isValidEntityName entityName then
        ids.Pairwise (· < ·) ∧ ∀ id, id ∈ ids ↔ objects entityName id ≠ none
      else ids = []
  | .restart, .restarted => True
  | _, _ => False

def after (objects : Objects) : Call → Answer → Objects
  | .create entityName data, .id id =>
      if isValidEntityName entityName then objects.put entityName id data else objects
  | .update entityName id data, _ =>
      if accepts entityName id.value then objects.put entityName id.value data
      else objects
  | .delete entityName id, _ =>
      if accepts entityName id.value then objects.erase entityName id.value else objects
  | _, _ => objects

/-- The answers of a run, each explained by the map the earlier ones leave. -/
def Explained : Objects → List Call → List Answer → Prop
  | _, [], [] => True
  | objects, call :: calls, answer :: answers =>
      Explains objects call answer ∧ Explained (after objects call answer) calls answers
  | _, _, _ => False

theorem accepts_iff (entityName : Text) (id : Int) :
    accepts entityName id = true ↔ isValidEntityName entityName = true ∧ 0 ≤ id := by
  simp [accepts]

theorem accepts_eq_false_iff (entityName : Text) (id : Int) :
    accepts entityName id = false ↔ id < 0 ∨ isValidEntityName entityName = false := by
  unfold accepts
  cases isValidEntityName entityName with
  | false => simp
  | true => simp

theorem not_rejected_iff (entityName : Text) (id : Int) :
    ¬ (id < 0 ∨ isValidEntityName entityName = false) ↔ accepts entityName id = true := by
  rw [← accepts_eq_false_iff, Bool.not_eq_false]

theorem within_after {objects : Objects} {used : Finset Int} (within : objects.Within used)
    (call : Call) (answer : Answer) :
    ∃ more : Finset Int, (after objects call answer).Within more ∧
      more.card ≤ used.card + if call.isRestart then 0 else 1 := by
  have same : objects.Within used ∧ used.card ≤ used.card + if call.isRestart then 0 else 1 :=
    ⟨within, by omega⟩
  have added : ∀ entityName id data,
      (objects.put entityName id data).Within (insert id used) ∧
        (insert id used).card ≤ used.card + 1 := by
    intro entityName id data
    exact ⟨within.put entityName id data, Finset.card_insert_le id used⟩
  cases call with
  | create entityName data =>
      cases answer with
      | id id =>
          simp only [after]
          split
          · exact ⟨_, added entityName id data⟩
          · exact ⟨used, same⟩
      | _ => exact ⟨used, same⟩
  | update entityName id data =>
      simp only [after]
      split
      · exact ⟨_, added entityName id.value data⟩
      · exact ⟨used, same⟩
  | delete entityName id =>
      simp only [after]
      split
      · exact ⟨used, within.erase entityName id.value, same.2⟩
      · exact ⟨used, same⟩
  | _ => exact ⟨used, same⟩

end BathroomRatings.Store
