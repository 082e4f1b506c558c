import BathroomRatings.BathroomMap.Page
import BathroomRatings.Lib.StableSort

/-!
# Finding the nearest bathroom

The rest of the page: distances, the callbacks of the geolocation, the list of the nearest
bathrooms with its route buttons, and the route on the map.
-/

set_option autoImplicit false

namespace BathroomRatings.BathroomMap

open BathroomRatings.Lib.Attempts BathroomRatings.Lib.JavaScript
open BathroomRatings.Lib.StableSort

/-- What the operators and `Math` do with numbers beyond the arithmetic. -/
structure Geometry (Number : Type) where
  add : Number → Number → Number
  subtract : Number → Number → Number
  multiply : Number → Number → Number
  sin : Number → Number
  cos : Number → Number
  sqrt : Number → Number
  atan2 : Number → Number → Number
  pi : Number
  /-- What a sort makes of the result of its comparison; `NaN` counts as a zero. -/
  sign : Number → Ordering

structure Engine (Number : Type) where
  arithmetic : Arithmetic Number
  geometry : Geometry Number
  sorter : Sorter

variable {Number : Type} (engine : Engine Number)

def radians (degrees : Number) : Number :=
  engine.arithmetic.divide (engine.geometry.multiply degrees engine.geometry.pi)
    (engine.arithmetic.literal 180)

/-- The haversine formula, in kilometers. -/
def calculateDistance (lat1 lon1 lat2 lon2 : Number) : Number :=
  let times := engine.geometry.multiply
  let half := fun angle => engine.arithmetic.divide angle (engine.arithmetic.literal 2)
  let earth := engine.arithmetic.literal 6371
  let dLat := radians engine (engine.geometry.subtract lat2 lat1)
  let dLon := radians engine (engine.geometry.subtract lon2 lon1)
  let a := engine.geometry.add
    (times (engine.geometry.sin (half dLat)) (engine.geometry.sin (half dLat)))
    (times
      (times
        (times (engine.geometry.cos (radians engine lat1))
          (engine.geometry.cos (radians engine lat2)))
        (engine.geometry.sin (half dLon)))
      (engine.geometry.sin (half dLon)))
  let c := times (engine.arithmetic.literal 2)
    (engine.geometry.atan2 (engine.geometry.sqrt a)
      (engine.geometry.sqrt (engine.geometry.subtract (engine.arithmetic.literal 1) a)))
  times earth c

def kmToMiles (km : Number) : Text :=
  engine.arithmetic.toFixed
    (engine.geometry.multiply km (engine.arithmetic.parseFloat "0.621371".toList)) 2

structure Near (Number : Type) where
  bathroom : Bathroom Number
  distance : Number
  distanceMiles : Text

structure Location (Number : Type) where
  latitude : Number
  longitude : Number
  accuracy : Number

def withDistance (user : Location Number) (bathroom : Bathroom Number) :
    Except Thrown (Near Number) := do
  let lat ← parseFloat engine.arithmetic (field bathroom "latitude")
  let lng ← parseFloat engine.arithmetic (field bathroom "longitude")
  let distance := calculateDistance engine user.latitude user.longitude lat lng
  pure ⟨bathroom, distance, kmToMiles engine distance⟩

def compareDistances (a b : Near Number) : Ordering :=
  engine.geometry.sign (engine.geometry.subtract a.distance b.distance)

def findClosestBathrooms (allBathrooms : List (Bathroom Number)) (user : Location Number)
    (count : Nat) : Except Thrown (List (Near Number)) :=
  if allBathrooms.isEmpty then pure []
  else do
    let bathroomsWithDistance ← allBathrooms.mapM (withDistance engine user)
    pure ((engine.sorter.sort (compareDistances engine) bathroomsWithDistance).take count)

/-! ## The screen -/

inductive LayerKind where
  | marker
  | accuracyCircle
  deriving DecidableEq

/-- A layer at a location of the user.  `added` tells whether `addTo` has returned. -/
structure UserLayer (Number : Type) where
  stamp : Nat
  kind : LayerKind
  location : Location Number
  added : Bool

structure Control (Number : Type) where
  stamp : Nat
  start : Location Number
  destination : Bathroom Number
  added : Bool

/-- An entry of the list; its button shows the route to the bathroom. -/
structure ListItem (Number : Type) where
  innerHtml : Text
  bathroom : Bathroom Number

/-- The page with the other global variables, and what else the map and the document hold. -/
structure Screen (Number : Type) where
  page : Page Number
  currentUserLocation : Option (Location Number)
  userLocationMarker : Option Nat
  routingControl : Option Nat
  userLayers : List (UserLayer Number)
  controls : List (Control Number)
  sidebarShown : Bool
  listHeading : Text
  closestList : List (ListItem Number)
  alerts : List Text
  nextStamp : Nat

def Screen.initial : Screen Number :=
  ⟨.initial, none, none, none, [], [], false, [], [], [], 0⟩

abbrev ScreenAction (Number α : Type) := Attempt (Screen Number) Thrown α

/-- How the map library takes what a callback asks of it. -/
structure MapReplies (Number : Type) where
  fitBounds : Location Number → Bathroom Number → Bool
  marker : Location Number → Added
  circle : Location Number → Added
  routingControl : Location Number → Bathroom Number → Added

def onPage (f : Page Number → Page Number) : ScreenAction Number Unit :=
  change fun screen => { screen with page := f screen.page }

def alert (message : String) : ScreenAction Number Unit :=
  change fun screen => { screen with alerts := screen.alerts ++ [message.toList] }

/-- Bounds that are no bounds throw. -/
def fitBounds (fits : Bool) : ScreenAction Number Unit :=
  compute (if fits then .ok () else .error .error)

def Screen.putLayer (layer : UserLayer Number) (screen : Screen Number) : Screen Number :=
  { screen with userLayers := screen.userLayers ++ [layer], nextStamp := screen.nextStamp + 1 }

def addUserLayer (kind : LayerKind) (location : Location Number) (outcome : Added) :
    ScreenAction Number Nat :=
  ExceptT.mk fun screen =>
    match outcome with
    | .added =>
        pure (.ok screen.nextStamp, screen.putLayer ⟨screen.nextStamp, kind, location, true⟩)
    | .refused true =>
        pure (.error .error, screen.putLayer ⟨screen.nextStamp, kind, location, false⟩)
    | .refused false => pure (.error .error, screen)

def Screen.putControl (control : Control Number) (screen : Screen Number) : Screen Number :=
  { screen with controls := screen.controls ++ [control], nextStamp := screen.nextStamp + 1 }

def addControl (start : Location Number) (destination : Bathroom Number) (outcome : Added) :
    ScreenAction Number Nat :=
  ExceptT.mk fun screen =>
    match outcome with
    | .added =>
        pure (.ok screen.nextStamp,
          screen.putControl ⟨screen.nextStamp, start, destination, true⟩)
    | .refused true =>
        pure (.error .error,
          screen.putControl ⟨screen.nextStamp, start, destination, false⟩)
    | .refused false => pure (.error .error, screen)

/-! ## The location of the user -/

def removeUserMarker (screen : Screen Number) : Screen Number :=
  { screen with
    userLayers := screen.userLayers.filter fun layer =>
      some layer.stamp != screen.userLocationMarker }

/-- The circle is in no variable. -/
def addUserLocationMarker (replies : MapReplies Number) (location : Location Number) :
    ScreenAction Number Unit := do
  change removeUserMarker
  let stamp ← addUserLayer .marker location (replies.marker location)
  change fun screen => { screen with userLocationMarker := some stamp }
  let _ ← addUserLayer .accuracyCircle location (replies.circle location)

def listItem (index : Nat) (near : Near Number) : Except Thrown (ListItem Number) := do
  let rating ← parseFloat engine.arithmetic (fieldOrZero engine.arithmetic near.bathroom "rating")
  let name ← (orElse engine.arithmetic (field near.bathroom "name")
    (.string "Unnamed Bathroom".toList)).toText engine.arithmetic
  let number := (toString (index + 1)).toList
  pure ⟨"\n            <div class=\"closest-number\">".toList ++ number ++ "</div>\n".toList ++
    "            <div class=\"closest-info\">\n".toList ++
    "                <div class=\"closest-name\">".toList ++ name ++ "</div>\n".toList ++
    "                <div class=\"closest-details\">\n".toList ++
    "                    <span class=\"closest-rating\">⭐ ".toList ++
    engine.arithmetic.toFixed rating 1 ++ "</span>\n".toList ++
    "                    <span class=\"closest-distance\">".toList ++ near.distanceMiles ++
    " mi</span>\n".toList ++
    "                </div>\n            </div>\n        ".toList, near.bathroom⟩

def addListItem (entry : Near Number × Nat) : ScreenAction Number Unit := do
  let item ← compute (listItem engine entry.2 entry.1)
  change fun screen => { screen with closestList := screen.closestList ++ [item] }

def updateClosestBathroomsList (user : Location Number) : ScreenAction Number Unit := do
  let screen ← get
  let closest ← compute (findClosestBathrooms engine screen.page.allBathrooms user 5)
  change fun screen => { screen with sidebarShown := true }
  if closest.isEmpty then
    change fun screen => { screen with
      listHeading := "<p>No bathrooms found nearby.</p>".toList, closestList := [] }
  else
    change fun screen => { screen with
      listHeading := "<h3>📍 Nearest Bathrooms</h3>".toList, closestList := [] }
    closest.zipIdx.forM (addListItem engine)

def located (replies : MapReplies Number) (location : Location Number) :
    ScreenAction Number Unit := do
  change fun screen => { screen with currentUserLocation := some location }
  let screen ← get
  let nearest ← compute (findClosestBathrooms engine screen.page.allBathrooms location 1)
  match nearest with
  | [] =>
      onPage hideLoading
      alert "No bathrooms found."
  | closest :: _ =>
      fitBounds (replies.fitBounds location closest.bathroom)
      addUserLocationMarker replies location
      updateClosestBathroomsList engine location
      onPage hideLoading

def geolocationError (code : Nat) : String :=
  "Unable to get your location. " ++
    if code = 1 then "Please allow location access and try again."
    else if code = 2 then "Location unavailable. Please check your connection."
    else if code = 3 then "Location request timed out. Please try again."
    else "Please enable location services and try again."

def notLocated (code : Nat) : ScreenAction Number Unit := do
  onPage hideLoading
  alert (geolocationError code)

/-- Where the browser has a geolocation, one of the callbacks comes later. -/
def findNearestBathroom (supported : Bool) : ScreenAction Number Unit := do
  let screen ← get
  if screen.page.allBathrooms.isEmpty then
    alert "No bathrooms loaded. Please wait for data to load."
  else if !supported then alert "Geolocation is not supported by your browser."
  else onPage showLoading

def removeControl (screen : Screen Number) : Screen Number :=
  { screen with
    controls := screen.controls.filter fun control =>
      some control.stamp != screen.routingControl
    routingControl := none }

def noLocation : String := "Please find your location first by clicking \"Find Nearest\""

def showRouteToBathroom (replies : MapReplies Number) (bathroom : Bathroom Number) :
    ScreenAction Number Unit := do
  let screen ← get
  match screen.currentUserLocation with
  | none => alert noLocation
  | some location =>
      change removeControl
      let stamp ← addControl location bathroom (replies.routingControl location bathroom)
      change fun screen => { screen with routingControl := some stamp }
      fitBounds (replies.fitBounds location bathroom)

def clearRoute : ScreenAction Number Unit := change removeControl

def routeClicked (replies : MapReplies Number) (index : Nat) : ScreenAction Number Unit := do
  let screen ← get
  match screen.closestList[index]? with
  | some item => showRouteToBathroom replies item.bathroom
  | none => pure ()

inductive Event (Number : Type) where
  | load (run : Run Number)
  | findNearest (supported : Bool)
  | located (location : Location Number) (replies : MapReplies Number)
  | notLocated (code : Nat)
  | routeClicked (index : Nat) (replies : MapReplies Number)
  | clearRoute

def loadFailure : String :=
  "Failed to load bathroom data. Make sure the server is running and bathrooms are populated."

/-- A run of the page, whose own failure is told. -/
def load (run : Run Number) : ScreenAction Number Unit := do
  let screen ← get
  match loadBathrooms engine.arithmetic run.leaflet run.server screen.page with
  | (.finished, page) => onPage fun _ => page
  | (.failed, page) =>
      onPage fun _ => page
      alert loadFailure

def Event.action : Event Number → ScreenAction Number Unit
  | .load run => BathroomMap.load engine run
  | .findNearest supported => findNearestBathroom supported
  | .located location replies => BathroomMap.located engine replies location
  | .notLocated code => BathroomMap.notLocated code
  | .routeClicked index replies => BathroomMap.routeClicked replies index
  | .clearRoute => BathroomMap.clearRoute

/-- What a callback has thrown nobody catches. -/
def Event.handle (event : Event Number) (screen : Screen Number) : Screen Number :=
  ((event.action engine).perform screen).2

def screenAfter (events : List (Event Number)) : Screen Number :=
  events.foldl (fun screen event => event.handle engine screen) .initial

end BathroomRatings.BathroomMap
