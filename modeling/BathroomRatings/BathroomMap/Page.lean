import BathroomRatings.Lib.Attempts
import BathroomRatings.Lib.JavaScript

/-!
# The bathroom map

`loadBathrooms` of the page.  A run has all its replies before it changes what the page
holds, and nothing else runs from there to its end.
-/

set_option autoImplicit false

namespace BathroomRatings.BathroomMap

open BathroomRatings.Lib.Attempts BathroomRatings.Lib.JavaScript

variable {Number : Type}

/-! ## What the page holds -/

abbrev Bathroom (Number : Type) := List (Text × Json Number)

def field (bathroom : Bathroom Number) (name : String) : Value Number :=
  bathroom.lookup name.toList

structure HeatPoint (Number : Type) where
  latitude : Number
  longitude : Number
  intensity : Number

/-- Every layer has a stamp, by which the map knows it. -/
structure HeatLayer (Number : Type) where
  stamp : Nat
  points : List (HeatPoint Number)

structure Marker (Number : Type) where
  stamp : Nat
  latitude : Number
  longitude : Number
  fillColor : Text
  popup : Text

/-- The global variables of the page, and which layers of its runs are on the map. -/
structure Page (Number : Type) where
  allBathrooms : List (Bathroom Number)
  heatLayer : Option (HeatLayer Number)
  markers : List (Marker Number)
  onMap : List Nat
  nextStamp : Nat
  loading : Bool

def Page.initial : Page Number := ⟨[], none, [], [], 0, false⟩

abbrev PageAction (Number α : Type) := Attempt (Page Number) Thrown α

def showLoading (page : Page Number) : Page Number := { page with loading := true }

def hideLoading (page : Page Number) : Page Number := { page with loading := false }

/-- How a `fetch` and the `json` of its response come out. -/
inductive Reply (Number : Type) where
  | rejected
  | notOk
  | unparsed
  | json (value : Json Number)

abbrev ServerState (Number : Type) := Text → Reply Number

/-- What comes of a new layer.  The map may keep one that it throws for. -/
inductive Added where
  | added
  | refused (kept : Bool)

structure Leaflet (Number : Type) where
  heatLayer : Page Number → List (HeatPoint Number) → Added
  circleMarker : Page Number → Number → Number → Added

/-- Uses a stamp up, for a layer that may stay off the map. -/
def stampLayer (kept : Bool) (page : Page Number) : Page Number :=
  { page with
    onMap := if kept then page.onMap ++ [page.nextStamp] else page.onMap
    nextStamp := page.nextStamp + 1 }

def addLayer (outcome : Page Number → Added) : PageAction Number Nat :=
  ExceptT.mk fun page =>
    match outcome page with
    | .added => pure (.ok page.nextStamp, stampLayer true page)
    | .refused kept => pure (.error .error, stampLayer kept page)

def removeLayers (stamps : List Nat) (page : Page Number) : Page Number :=
  { page with onMap := page.onMap.filter fun stamp => !stamps.contains stamp }

def bathroomsPath : Text := "/api/bathrooms".toList

def fetchIds (server : ServerState Number) : Except Thrown (Json Number) :=
  match server bathroomsPath with
  | .rejected => .error .typeError
  | .notOk => .error .error
  | .unparsed => .error .syntaxError
  | .json ids => .ok ids

/-- What is no array counts as an empty one. -/
def idsOf : Json Number → List (Json Number)
  | .array items => items
  | _ => []

variable (arithmetic : Arithmetic Number)

/-- The id is put into the path and, on a failure, into a warning. -/
def fetchBathroom (server : ServerState Number) (id : Json Number) :
    Except Thrown (Option (Bathroom Number)) := do
  let text ← id.toText arithmetic
  match server (bathroomsPath ++ '/' :: text) with
  | .json data => pure (some (spread [("id".toList, id)] data))
  | _ => pure none

def hasCoordinates (bathroom : Bathroom Number) : Bool :=
  (field bathroom "latitude").isSome && (field bathroom "longitude").isSome

def fieldOrZero (bathroom : Bathroom Number) (name : String) : Value Number :=
  some (orElse arithmetic (field bathroom name) (.number (arithmetic.literal 0)))

def heatPoint (bathroom : Bathroom Number) : Except Thrown (HeatPoint Number) := do
  let lat ← parseFloat arithmetic (field bathroom "latitude")
  let lng ← parseFloat arithmetic (field bathroom "longitude")
  let rating ← parseFloat arithmetic (fieldOrZero arithmetic bathroom "rating")
  let intensity := arithmetic.minimum (arithmetic.literal 1)
    (arithmetic.maximum (arithmetic.literal 0) (arithmetic.divide rating (arithmetic.literal 5)))
  pure ⟨lat, lng, intensity⟩

structure Reading (Number : Type) where
  latitude : Number
  longitude : Number
  rating : Number
  numRatings : Number

def readBathroom (bathroom : Bathroom Number) : Except Thrown (Reading Number) := do
  let lat ← parseFloat arithmetic (field bathroom "latitude")
  let lng ← parseFloat arithmetic (field bathroom "longitude")
  let rating ← parseFloat arithmetic (fieldOrZero arithmetic bathroom "rating")
  let numRatings ← parseInt arithmetic (fieldOrZero arithmetic bathroom "num_ratings")
  pure ⟨lat, lng, rating, numRatings⟩

def markerColor (rating : Number) : Text :=
  if arithmetic.atLeast rating (arithmetic.literal 4) then "green".toList
  else if arithmetic.atLeast rating (arithmetic.literal 3) then "yellow".toList
  else if arithmetic.atLeast rating (arithmetic.literal 2) then "orange".toList
  else "red".toList

def detail (label : String) (value : Value Number) : Except Thrown Text := do
  if truthy arithmetic value then
    let text ← toText arithmetic value
    pure (label.toList ++ text ++ "<br>".toList)
  else pure []

def popupContent (bathroom : Bathroom Number) (reading : Reading Number) :
    Except Thrown Text := do
  let name ← (orElse arithmetic (field bathroom "name")
    (.string "Unnamed Bathroom".toList)).toText arithmetic
  let building ← detail arithmetic "Building: " (field bathroom "building")
  let floor ← detail arithmetic "Floor: " (field bathroom "floor")
  let rating := arithmetic.toFixed reading.rating 1
  let numRatings := arithmetic.toText reading.numRatings
  let unit :=
    if arithmetic.equal reading.numRatings (arithmetic.literal 1) then "rating" else "ratings"
  pure ("\n                <b>".toList ++ name ++ "</b>\n".toList ++
    "                <div class=\"rating\">⭐ ".toList ++ rating ++ "/5.0</div>\n".toList ++
    "                <div class=\"details\">\n".toList ++
    "                    ".toList ++ building ++ "\n".toList ++
    "                    ".toList ++ floor ++ "\n".toList ++
    "                    ".toList ++ numRatings ++ " ".toList ++ unit.toList ++ "\n".toList ++
    "                </div>\n            ".toList)

def markerOf (reading : Reading Number) (popup : Text) (stamp : Nat) : Marker Number :=
  ⟨stamp, reading.latitude, reading.longitude, markerColor arithmetic reading.rating, popup⟩

/-! ## A run -/

variable (leaflet : Leaflet Number)

def Page.heatStamps (page : Page Number) : List Nat := page.heatLayer.toList.map (·.stamp)

def Page.markerStamps (page : Page Number) : List Nat := page.markers.map (·.stamp)

def replaceHeatLayer (heatmapData : List (HeatPoint Number)) : PageAction Number Unit := do
  change fun page => removeLayers page.heatStamps page
  let stamp ← addLayer fun page => leaflet.heatLayer page heatmapData
  change fun page => { page with heatLayer := some ⟨stamp, heatmapData⟩ }

def clearMarkers (page : Page Number) : Page Number :=
  { removeLayers page.markerStamps page with markers := [] }

/-- The marker is on the map before its popup is made. -/
def addMarker (bathroom : Bathroom Number) : PageAction Number Unit := do
  let reading ← compute (readBathroom arithmetic bathroom)
  let stamp ← addLayer fun page =>
    leaflet.circleMarker page reading.latitude reading.longitude
  let popup ← compute (popupContent arithmetic bathroom reading)
  change fun page =>
    { page with markers := page.markers ++ [markerOf arithmetic reading popup stamp] }

def showBathrooms (bathrooms : List (Bathroom Number)) : PageAction Number Unit := do
  change fun page => { page with allBathrooms := bathrooms }
  let heatmapData ← compute (bathrooms.mapM (heatPoint arithmetic))
  replaceHeatLayer leaflet heatmapData
  change clearMarkers
  bathrooms.forM (addMarker arithmetic leaflet)

/-- The `try` block up to its `hideLoading`. -/
def tryLoad (server : ServerState Number) : PageAction Number Unit := do
  let ids ← compute (fetchIds server)
  if (idsOf ids).isEmpty then pure ()
  else
    let replies ← compute ((idsOf ids).mapM (fetchBathroom arithmetic server))
    showBathrooms arithmetic leaflet ((replies.filterMap id).filter hasCoordinates)

/-- A run comes to the end of its `try` block or into its `catch` branch. -/
inductive Outcome where
  | finished
  | failed
  deriving DecidableEq

def loadBathrooms (server : ServerState Number) (page : Page Number) : Outcome × Page Number :=
  match (tryLoad arithmetic leaflet server).perform (showLoading page) with
  | (.ok _, page) => (.finished, hideLoading page)
  | (.error _, page) => (.failed, hideLoading page)

structure Run (Number : Type) where
  server : ServerState Number
  leaflet : Leaflet Number

def pageAfter (runs : List (Run Number)) : Page Number :=
  runs.foldl (fun page run => (loadBathrooms arithmetic run.leaflet run.server page).2) .initial

end BathroomRatings.BathroomMap
