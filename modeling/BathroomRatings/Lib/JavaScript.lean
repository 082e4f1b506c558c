import BathroomRatings.Lib.Strings

/-!
# Values of JavaScript

What `JSON.parse` returns, and the conversions that JavaScript makes of it.  Its numbers
and their arithmetic are a parameter.
-/

set_option autoImplicit false

namespace BathroomRatings.Lib.JavaScript

structure Arithmetic (Number : Type) where
  literal : Nat → Number
  divide : Number → Number → Number
  minimum : Number → Number → Number
  maximum : Number → Number → Number
  /-- `>=` -/
  atLeast : Number → Number → Bool
  /-- `===` -/
  equal : Number → Number → Bool
  /-- Not a zero and not `NaN`. -/
  truthy : Number → Bool
  toText : Number → Text
  toFixed : Number → Nat → Text
  parseFloat : Text → Number
  parseInt : Text → Number

/-- A value of a JSON text.  The fields of an object stand in their order. -/
inductive Json (Number : Type) where
  | null
  | bool (value : Bool)
  | number (value : Number)
  | string (text : Text)
  | array (items : List (Json Number))
  | object (fields : List (Text × Json Number))

/-- A field that an object does not have is undefined. -/
abbrev Value (Number : Type) := Option (Json Number)

inductive Thrown where
  | error
  | syntaxError
  | typeError

variable {Number : Type} (arithmetic : Arithmetic Number)

mutual

/-- An object is converted by its `toString`.  One that a JSON text gives it is no
function, and the object's `valueOf` gives nothing better. -/
def Json.toText : Json Number → Except Thrown Text
  | .null => .ok "null".toList
  | .bool true => .ok "true".toList
  | .bool false => .ok "false".toList
  | .number value => .ok (arithmetic.toText value)
  | .string text => .ok text
  | .array items => do
      let texts ← itemTexts items
      pure (List.intercalate [','] texts)
  | .object fields =>
      if fields.any (fun field => field.1 == "toString".toList) then .error .typeError
      else .ok "[object Object]".toList

/-- The parts of the text of an array; `null` has none. -/
def itemTexts : List (Json Number) → Except Thrown (List Text)
  | [] => pure []
  | .null :: rest => do
      let texts ← itemTexts rest
      pure ([] :: texts)
  | item :: rest => do
      let text ← item.toText
      let texts ← itemTexts rest
      pure (text :: texts)

end

def toText : Value Number → Except Thrown Text
  | none => .ok "undefined".toList
  | some value => value.toText arithmetic

def truthy : Value Number → Bool
  | none => false
  | some .null => false
  | some (.bool value) => value
  | some (.number value) => arithmetic.truthy value
  | some (.string text) => !text.isEmpty
  | some (.array _) => true
  | some (.object _) => true

def orElse (value : Value Number) (other : Json Number) : Json Number :=
  match value with
  | some given => if truthy arithmetic value then given else other
  | none => other

def parseFloat (value : Value Number) : Except Thrown Number := do
  let text ← toText arithmetic value
  pure (arithmetic.parseFloat text)

def parseInt (value : Value Number) : Except Thrown Number := do
  let text ← toText arithmetic value
  pure (arithmetic.parseInt text)

/-- The items of an array or a string under their places. -/
def indexed (items : List (Json Number)) : List (Text × Json Number) :=
  items.zipIdx.map fun entry => ((toString entry.2).toList, entry.1)

def ownFields : Json Number → List (Text × Json Number)
  | .object fields => fields
  | .array items => indexed items
  | .string text => indexed (text.map fun c => .string [c])
  | _ => []

/-- A field that is there already keeps its place. -/
def setField (fields : List (Text × Json Number)) (key : Text) (value : Json Number) :
    List (Text × Json Number) :=
  if fields.any (fun field => field.1 == key) then
    fields.map fun field => if field.1 == key then (key, value) else field
  else fields ++ [(key, value)]

def spread (fields : List (Text × Json Number)) (value : Json Number) :
    List (Text × Json Number) :=
  (ownFields value).foldl (fun known field => setField known field.1 field.2) fields

end BathroomRatings.Lib.JavaScript
