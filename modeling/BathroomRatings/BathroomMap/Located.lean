import BathroomRatings.BathroomMap.Displayed
import BathroomRatings.BathroomMap.Nearest
import Mathlib.Data.List.Induction

/-!
# What the screen shows of the user's location

Whatever is clicked, loaded and located in whatever order, and wherever a callback throws:
which routes, markers and circles are on the map, and what the list of the nearest
bathrooms shows.
-/

set_option autoImplicit false

namespace BathroomRatings.BathroomMap

open BathroomRatings.Lib.Attempts BathroomRatings.Lib.JavaScript
open BathroomRatings.Lib.StableSort

variable {Number : Type} (engine : Engine Number)

/-! ## What should be shown -/

/-- The user's markers that are on the map since `addTo` has returned. -/
def Screen.shownMarkers (screen : Screen Number) : List (UserLayer Number) :=
  screen.userLayers.filter fun layer => layer.kind = .marker ∧ layer.added

def Screen.shownRoutes (screen : Screen Number) : List (Control Number) :=
  screen.controls.filter (·.added)

def Screen.circles (screen : Screen Number) : List (UserLayer Number) :=
  screen.userLayers.filter fun layer => layer.kind = .accuracyCircle

def IsItemOf (entry : Near Number × Nat) (item : ListItem Number) : Prop :=
  listItem engine entry.2 entry.1 = .ok item

/-- Entries for the first of the five nearest bathrooms, in their order.  No other bathroom is
nearer if the distances can be compared. -/
structure ListsNearest (allBathrooms : List (Bathroom Number)) (user : Location Number)
    (items : List (ListItem Number)) : Prop where
  entries : ∃ measured closest shown,
    allBathrooms.mapM (withDistance engine user) = .ok measured ∧
    findClosestBathrooms engine allBathrooms user 5 = .ok closest ∧
    (Consistent (compareDistances engine) measured →
      First (compareDistances engine) measured 5 closest) ∧
    shown <+: closest.zipIdx ∧
    List.Forall₂ (IsItemOf engine) shown items

structure Guides (events : List (Event Number)) : Prop where
  route : (screenAfter engine events).shownRoutes.map (·.stamp) =
    (screenAfter engine events).routingControl.toList
  marker : (screenAfter engine events).shownMarkers.length ≤ 1
  heldMarker : ∀ layer ∈ (screenAfter engine events).shownMarkers,
    (screenAfter engine events).userLocationMarker = some layer.stamp
  circles : ∀ before after, events = before ++ after →
    (screenAfter engine before).circles <+: (screenAfter engine events).circles
  routable : (screenAfter engine events).closestList ≠ [] →
    (screenAfter engine events).currentUserLocation ≠ none
  list : (screenAfter engine events).closestList = [] ∨
    ∃ before user replies after, events = before ++ .located user replies :: after ∧
      ListsNearest engine (screenAfter engine before).page.allBathrooms user
        (screenAfter engine events).closestList

/-- If the distances can be compared, those are found to which no other is nearer. -/
theorem findClosestBathrooms_first {allBathrooms : List (Bathroom Number)}
    {user : Location Number} {count : Nat} {closest : List (Near Number)}
    (found : findClosestBathrooms engine allBathrooms user count = .ok closest) :
    ∃ measured, allBathrooms.mapM (withDistance engine user) = .ok measured ∧
      (Consistent (compareDistances engine) measured →
        First (compareDistances engine) measured count closest) := by
  unfold findClosestBathrooms at found
  by_cases none : allBathrooms.isEmpty = true
  · obtain rfl := List.isEmpty_iff.mp none
    obtain rfl : [] = closest := Except.ok.inj found
    refine ⟨[], rfl, fun consistent => ?_⟩
    have first := first_take engine.sorter count consistent
    have empty : engine.sorter.sort (compareDistances engine) [] = [] :=
      (engine.sorter.perm (compareDistances engine) []).eq_nil
    rw [empty, List.take_nil] at first
    exact first
  · rw [if_neg none] at found
    cases distances : allBathrooms.mapM (withDistance engine user) with
    | error thrown =>
        rw [distances] at found
        exact absurd found (by simp [bind, Except.bind])
    | ok measured =>
        rw [distances] at found
        obtain rfl := Except.ok.inj found
        exact ⟨measured, rfl, first_take engine.sorter count⟩

/-! ## Sound screens -/

/-- Layers have stamps of their own, what has been added is what is held, and some circles
are there already. -/
structure Sound (kept : List (UserLayer Number)) (user : Option (Location Number))
    (screen : Screen Number) : Prop where
  current : screen.currentUserLocation = user
  layers : (screen.userLayers.map (·.stamp)).Nodup
  layerStamps : ∀ layer ∈ screen.userLayers, layer.stamp < screen.nextStamp
  marker : ∀ layer ∈ screen.shownMarkers, screen.userLocationMarker = some layer.stamp
  markerKind : ∀ layer ∈ screen.userLayers, screen.userLocationMarker = some layer.stamp →
    layer.kind = .marker
  markerStamp : ∀ stamp, screen.userLocationMarker = some stamp → stamp < screen.nextStamp
  route : screen.shownRoutes.map (·.stamp) = screen.routingControl.toList
  located : screen.closestList ≠ [] → user ≠ none
  circles : kept <+: screen.circles

theorem sound_initial : Sound [] none (Screen.initial : Screen Number) where
  current := rfl
  layers := List.nodup_nil
  layerStamps := fun _ member => absurd member List.not_mem_nil
  marker := fun _ member => absurd member List.not_mem_nil
  markerKind := fun _ member => absurd member List.not_mem_nil
  markerStamp := fun _ held => absurd held (by simp [Screen.initial])
  route := rfl
  located := fun some => absurd rfl some
  circles := List.prefix_refl _

theorem nodup_fresh {layers : List (UserLayer Number)} {next : Nat} {kind : LayerKind}
    {location : Location Number} {added : Bool} (nodup : (layers.map (·.stamp)).Nodup)
    (below : ∀ layer ∈ layers, layer.stamp < next) :
    ((layers ++ [(⟨next, kind, location, added⟩ : UserLayer Number)]).map (·.stamp)).Nodup := by
  rw [List.map_append, List.nodup_append]
  refine ⟨nodup, by simp, ?_⟩
  intro stamp old other new same
  obtain ⟨layer, member, rfl⟩ := List.mem_map.mp old
  have bound := below layer member
  have fresh : other = next := List.mem_singleton.mp new
  omega

theorem circles_putLayer {screen : Screen Number} (layer : UserLayer Number) :
    screen.circles <+: (screen.putLayer layer).circles := by
  simp only [Screen.circles, Screen.putLayer, List.filter_append]
  exact List.prefix_append _ _

section Sound

variable {engine} {kept : List (UserLayer Number)} {user : Option (Location Number)}
  {screen : Screen Number}

theorem Sound.one (sound : Sound kept user screen) : screen.shownMarkers.length ≤ 1 := by
  have nodup : (screen.shownMarkers.map (·.stamp)).Nodup :=
    sound.layers.sublist (List.filter_sublist.map _)
  cases shown : screen.shownMarkers with
  | nil => simp
  | cons first rest =>
      cases rest with
      | nil => simp
      | cons second more =>
          have one := sound.marker first (by simp [shown])
          have other := sound.marker second (by simp [shown])
          rw [shown, List.map_cons, List.map_cons, List.nodup_cons] at nodup
          have same : first.stamp = second.stamp := Option.some.inj (one.symm.trans other)
          exact absurd (by rw [same]; exact List.mem_cons_self) nodup.1

theorem preserves_onPage (f : Page Number → Page Number) :
    Preserves (Sound kept user) (onPage f) :=
  preserves_change fun _ sound => ⟨sound.current, sound.layers, sound.layerStamps, sound.marker,
    sound.markerKind, sound.markerStamp, sound.route, sound.located, sound.circles⟩

theorem preserves_alert (message : String) :
    Preserves (Sound kept user) (alert message : ScreenAction Number Unit) :=
  preserves_change fun _ sound => ⟨sound.current, sound.layers, sound.layerStamps, sound.marker,
    sound.markerKind, sound.markerStamp, sound.route, sound.located, sound.circles⟩

theorem preserves_fitBounds (fits : Bool) (invariant : Screen Number → Prop) :
    Preserves invariant (fitBounds fits) := by
  intro state holds
  cases fits with
  | true => exact holds
  | false => exact holds

theorem removeUserMarker_sound (sound : Sound kept user screen) :
    Sound kept user (removeUserMarker screen) ∧ (removeUserMarker screen).shownMarkers = [] := by
  have none : (removeUserMarker screen).shownMarkers = [] := by
    rw [Screen.shownMarkers, removeUserMarker, List.filter_filter, List.filter_eq_nil_iff]
    intro layer member shown
    simp only [Bool.and_eq_true, decide_eq_true_eq, bne_iff_ne] at shown
    have held := sound.marker layer (List.mem_filter.mpr ⟨member, by simpa using shown.1⟩)
    exact shown.2 held.symm
  have circles : (removeUserMarker screen).circles = screen.circles := by
    rw [Screen.circles, removeUserMarker, List.filter_filter]
    apply List.filter_congr
    intro layer member
    by_cases circle : layer.kind = .accuracyCircle
    · have differs : some layer.stamp ≠ screen.userLocationMarker := by
        intro held
        rw [sound.markerKind layer member held.symm] at circle
        exact absurd circle (by simp)
      simp [circle, differs]
    · simp [circle]
  have subset : (removeUserMarker screen).userLayers ⊆ screen.userLayers :=
    fun _ member => List.mem_of_mem_filter member
  refine ⟨⟨sound.current, ?_, fun layer member => sound.layerStamps layer (subset member), ?_,
    fun layer member => sound.markerKind layer (subset member), sound.markerStamp, sound.route,
    sound.located, ?_⟩, none⟩
  · exact sound.layers.sublist (List.filter_sublist.map _)
  · rw [none]
    exact fun _ member => absurd member List.not_mem_nil
  · rw [circles]
    exact sound.circles

/-- A circle, or a marker whose `addTo` has thrown. -/
def Hidden (kind : LayerKind) (added : Bool) : Prop := kind = .accuracyCircle ∨ added = false

theorem Sound.putHidden (sound : Sound kept user screen) {kind : LayerKind} {added : Bool}
    (hidden : Hidden kind added) (location : Location Number) :
    Sound kept user (screen.putLayer ⟨screen.nextStamp, kind, location, added⟩) := by
  have shown : (screen.putLayer ⟨screen.nextStamp, kind, location, added⟩).shownMarkers =
      screen.shownMarkers := by
    simp only [Screen.shownMarkers, Screen.putLayer, List.filter_append]
    rcases hidden with rfl | rfl <;> simp
  refine ⟨sound.current, ?_, ?_, ?_, ?_, ?_, sound.route, sound.located, ?_⟩
  · exact nodup_fresh sound.layers sound.layerStamps
  · intro layer member
    rcases List.mem_append.mp member with old | new
    · exact Nat.lt_succ_of_lt (sound.layerStamps layer old)
    · rw [List.mem_singleton.mp new]
      exact Nat.lt_succ_self _
  · rw [shown]
    exact sound.marker
  · intro layer member held
    rcases List.mem_append.mp member with old | new
    · exact sound.markerKind layer old held
    · have stamp := sound.markerStamp layer.stamp held
      rw [List.mem_singleton.mp new] at stamp
      exact absurd stamp (Nat.lt_irrefl _)
  · exact fun stamp held => Nat.lt_succ_of_lt (sound.markerStamp stamp held)
  · exact sound.circles.trans (circles_putLayer _)

theorem Sound.putMarker (sound : Sound kept user screen) (none : screen.shownMarkers = [])
    (location : Location Number) :
    Sound kept user { screen.putLayer ⟨screen.nextStamp, .marker, location, true⟩ with
      userLocationMarker := some screen.nextStamp } := by
  have shown : Screen.shownMarkers
      { screen.putLayer ⟨screen.nextStamp, .marker, location, true⟩ with
        userLocationMarker := some screen.nextStamp } =
        [⟨screen.nextStamp, .marker, location, true⟩] := by
    have old : screen.userLayers.filter (fun layer => layer.kind = .marker ∧ layer.added) = [] :=
      none
    simp only [Screen.shownMarkers, Screen.putLayer, List.filter_append, old]
    simp
  refine ⟨sound.current, ?_, ?_, ?_, ?_, ?_, sound.route, sound.located, ?_⟩
  · exact nodup_fresh sound.layers sound.layerStamps
  · intro layer member
    rcases List.mem_append.mp member with old | new
    · exact Nat.lt_succ_of_lt (sound.layerStamps layer old)
    · rw [List.mem_singleton.mp new]
      exact Nat.lt_succ_self _
  · intro layer member
    rw [shown] at member
    rw [List.mem_singleton.mp member]
  · intro layer member held
    rcases List.mem_append.mp member with old | new
    · have stamp := sound.layerStamps layer old
      have same : screen.nextStamp = layer.stamp := Option.some.inj held
      omega
    · rw [List.mem_singleton.mp new]
  · intro stamp held
    rw [← Option.some.inj held]
    exact Nat.lt_succ_self _
  · exact sound.circles.trans (circles_putLayer _)

theorem preserves_addHidden {kind : LayerKind} (location : Location Number) (outcome : Added)
    (hidden : kind = .accuracyCircle) :
    Preserves (Sound kept user) (addUserLayer kind location outcome) := by
  intro screen sound
  cases outcome with
  | added => exact sound.putHidden (Or.inl hidden) location
  | refused left =>
      cases left with
      | true => exact sound.putHidden (Or.inr rfl) location
      | false => exact sound

theorem preserves_addUserLocationMarker (replies : MapReplies Number)
    (location : Location Number) :
    Preserves (Sound kept user) (addUserLocationMarker replies location) := by
  have bare : Triple (fun screen => Sound kept user screen ∧ screen.shownMarkers = [])
      (addUserLayer .marker location (replies.marker location))
      (fun stamp reached => ∃ screen, Sound kept user screen ∧ screen.shownMarkers = [] ∧
        stamp = screen.nextStamp ∧
        reached = screen.putLayer ⟨screen.nextStamp, .marker, location, true⟩)
      (Sound kept user) := by
    intro screen sound
    cases replies.marker location with
    | added => exact ⟨screen, sound.1, sound.2, rfl, rfl⟩
    | refused left =>
        cases left with
        | true => exact sound.1.putHidden (Or.inr rfl) location
        | false => exact sound.1
  refine triple_change_bind _ (fun screen sound => removeUserMarker_sound sound)
    (bare.bind fun stamp => triple_change_bind (Sound kept user) ?_ ?_)
  · rintro reached ⟨screen, sound, none, rfl, rfl⟩
    exact sound.putMarker none location
  · exact (preserves_addHidden location _ rfl).bind fun _ => preserves_pure _

theorem removeControl_sound (sound : Sound kept user screen) :
    Sound kept user (removeControl screen) ∧ (removeControl screen).shownRoutes = [] := by
  have none : (removeControl screen).shownRoutes = [] := by
    rw [Screen.shownRoutes, removeControl, List.filter_filter, List.filter_eq_nil_iff]
    intro control member shown
    simp only [Bool.and_eq_true, bne_iff_ne] at shown
    have listed : control.stamp ∈ screen.routingControl.toList := by
      rw [← sound.route]
      exact List.mem_map_of_mem (List.mem_filter.mpr ⟨member, shown.1⟩)
    exact shown.2 (Option.mem_toList.mp listed).symm
  refine ⟨⟨sound.current, sound.layers, sound.layerStamps, sound.marker, sound.markerKind,
    sound.markerStamp, ?_, sound.located, sound.circles⟩, none⟩
  rw [none]
  rfl

/-- A control whose `addTo` has thrown is not shown as a route. -/
theorem Sound.putRefused (sound : Sound kept user screen) (start : Location Number)
    (destination : Bathroom Number) :
    Sound kept user (screen.putControl ⟨screen.nextStamp, start, destination, false⟩) := by
  have shown : (screen.putControl
      ⟨screen.nextStamp, start, destination, false⟩).shownRoutes = screen.shownRoutes := by
    simp [Screen.shownRoutes, Screen.putControl]
  refine ⟨sound.current, sound.layers,
    fun layer member => Nat.lt_succ_of_lt (sound.layerStamps layer member), sound.marker,
    sound.markerKind, fun stamp held => Nat.lt_succ_of_lt (sound.markerStamp stamp held), ?_,
    sound.located, sound.circles⟩
  rw [shown]
  exact sound.route

theorem Sound.putRoute (sound : Sound kept user screen) (none : screen.shownRoutes = [])
    (start : Location Number) (destination : Bathroom Number) :
    Sound kept user { screen.putControl ⟨screen.nextStamp, start, destination, true⟩ with
      routingControl := some screen.nextStamp } := by
  have old : screen.controls.filter (·.added) = [] := none
  refine ⟨sound.current, sound.layers,
    fun layer member => Nat.lt_succ_of_lt (sound.layerStamps layer member), sound.marker,
    sound.markerKind, fun stamp held => Nat.lt_succ_of_lt (sound.markerStamp stamp held), ?_,
    sound.located, sound.circles⟩
  simp [Screen.shownRoutes, Screen.putControl, List.filter_append, old]

theorem preserves_showRoute (replies : MapReplies Number) (bathroom : Bathroom Number) :
    Preserves (Sound kept user) (showRouteToBathroom replies bathroom) := by
  refine preserves_get_bind fun seen => ?_
  cases seen.currentUserLocation with
  | none => exact preserves_alert _
  | some location =>
      have bare : Triple (fun screen => Sound kept user screen ∧ screen.shownRoutes = [])
          (addControl location bathroom (replies.routingControl location bathroom))
          (fun stamp reached => ∃ screen, Sound kept user screen ∧ screen.shownRoutes = [] ∧
            stamp = screen.nextStamp ∧
            reached = screen.putControl ⟨screen.nextStamp, location, bathroom, true⟩)
          (Sound kept user) := by
        intro screen sound
        cases replies.routingControl location bathroom with
        | added => exact ⟨screen, sound.1, sound.2, rfl, rfl⟩
        | refused left =>
            cases left with
            | true => exact sound.1.putRefused location bathroom
            | false => exact sound.1
      refine triple_change_bind _ (fun screen sound => removeControl_sound sound)
        (bare.bind fun stamp => triple_change_bind (Sound kept user) ?_ ?_)
      · rintro reached ⟨screen, sound, none, rfl, rfl⟩
        exact sound.putRoute none location bathroom
      · exact preserves_fitBounds _ _

theorem preserves_routeClicked (replies : MapReplies Number) (index : Nat) :
    Preserves (Sound kept user) (routeClicked replies index) := by
  refine preserves_get_bind fun seen => ?_
  cases seen.closestList[index]? with
  | none => exact preserves_pure _
  | some item => exact preserves_showRoute replies item.bathroom

theorem Sound.list (sound : Sound kept user screen) (known : user ≠ none) (sidebarShown : Bool)
    (listHeading : Text) (closestList : List (ListItem Number)) :
    Sound kept user { screen with
      sidebarShown := sidebarShown, listHeading := listHeading, closestList := closestList } :=
  ⟨sound.current, sound.layers, sound.layerStamps, sound.marker, sound.markerKind,
    sound.markerStamp, sound.route, fun _ => known, sound.circles⟩

variable (engine)

theorem preserves_updateList (known : user ≠ none) (location : Location Number) :
    Preserves (Sound kept user) (updateClosestBathroomsList engine location) := by
  refine preserves_get_bind fun seen => preserves_compute_bind fun closest found => ?_
  refine (preserves_change fun screen sound => sound.list known _ _ _).bind fun _ => ?_
  by_cases none : closest.isEmpty = true
  · rw [if_pos none]
    exact preserves_change fun screen sound => sound.list known _ _ _
  · rw [if_neg none]
    refine (preserves_change fun screen sound => sound.list known _ _ _).bind fun _ => ?_
    exact preserves_forM _ fun entry => preserves_compute_bind fun item made =>
      preserves_change fun screen sound => sound.list known _ _ _

theorem located_sound (replies : MapReplies Number) (location : Location Number) :
    Triple (Sound kept user) (located engine replies location)
      (fun _ => Sound kept (some location)) (Sound kept (some location)) := by
  refine triple_change_bind (Sound kept (some location)) ?_ ?_
  · intro screen sound
    exact ⟨rfl, sound.layers, sound.layerStamps, sound.marker, sound.markerKind,
      sound.markerStamp, sound.route, fun _ => by simp, sound.circles⟩
  · refine preserves_get_bind fun seen => preserves_compute_bind fun nearest found => ?_
    cases nearest with
    | nil => exact (preserves_onPage _).bind fun _ => preserves_alert _
    | cons closest more =>
        exact (preserves_fitBounds _ _).bind fun _ =>
          (preserves_addUserLocationMarker replies location).bind fun _ =>
            (preserves_updateList engine (by simp) location).bind fun _ => preserves_onPage _

theorem preserves_load (run : Run Number) : Preserves (Sound kept user) (load engine run) := by
  refine preserves_get_bind fun seen => ?_
  cases loadBathrooms engine.arithmetic run.leaflet run.server seen.page with
  | mk outcome page =>
      cases outcome with
      | finished => exact preserves_onPage _
      | failed => exact (preserves_onPage _).bind fun _ => preserves_alert _

theorem handle_sound (event : Event Number) (sound : Sound kept user screen) :
    ∃ user', Sound kept user' (event.handle engine screen) := by
  cases event with
  | load run => exact ⟨user, (preserves_load engine run).perform sound⟩
  | findNearest supported =>
      have kept : Preserves (Sound kept user) (findNearestBathroom supported) := by
        refine preserves_get_bind fun seen => ?_
        by_cases none : seen.page.allBathrooms.isEmpty = true
        · rw [if_pos none]
          exact preserves_alert _
        · rw [if_neg none]
          cases supported with
          | true => exact preserves_onPage _
          | false => exact preserves_alert _
      exact ⟨user, kept.perform sound⟩
  | located location replies =>
      refine ⟨some location, ?_⟩
      have reached := located_sound engine replies location screen sound
      simp only [Event.handle, Event.action]
      cases stopped : (located engine replies location).perform screen with
      | mk result place =>
          rw [stopped] at reached
          cases result with
          | ok value => exact reached
          | error thrown => exact reached
  | notLocated code =>
      exact ⟨user, ((preserves_onPage _).bind fun _ => preserves_alert _).perform sound⟩
  | routeClicked index replies =>
      exact ⟨user, (preserves_routeClicked replies index).perform sound⟩
  | clearRoute =>
      exact ⟨user, (removeControl_sound sound).1⟩

end Sound

theorem screenAfter_append (events : List (Event Number)) (event : Event Number) :
    screenAfter engine (events ++ [event]) =
      event.handle engine (screenAfter engine events) := by
  simp [screenAfter]

theorem screenAfter_sound (before after : List (Event Number)) :
    (∃ user, Sound [] user (screenAfter engine before)) ∧
      ∃ user, Sound (screenAfter engine before).circles user
        (screenAfter engine (before ++ after)) := by
  have start : ∃ user, Sound [] user (screenAfter engine before) := by
    induction before using List.reverseRecOn with
    | nil => exact ⟨none, sound_initial⟩
    | append_singleton earlier last ih =>
        obtain ⟨user, sound⟩ := ih
        rw [screenAfter_append]
        exact handle_sound engine last sound
  refine ⟨start, ?_⟩
  induction after using List.reverseRecOn with
  | nil =>
      obtain ⟨user, sound⟩ := start
      rw [List.append_nil]
      exact ⟨user, { sound with circles := List.prefix_refl _ }⟩
  | append_singleton earlier last ih =>
      obtain ⟨user, sound⟩ := ih
      rw [← List.append_assoc, screenAfter_append]
      exact handle_sound engine last sound

/-! ## What is listed -/

section Listed

variable {engine} {allBathrooms : List (Bathroom Number)} {user : Location Number}
  {old : List (ListItem Number)}

structure Listing (engine : Engine Number) (allBathrooms : List (Bathroom Number))
    (user : Location Number) (old : List (ListItem Number)) (screen : Screen Number) : Prop where
  page : screen.page.allBathrooms = allBathrooms
  list : screen.closestList = old ∨ ListsNearest engine allBathrooms user screen.closestList

def Listed (engine : Engine Number) (allBathrooms : List (Bathroom Number))
    (shown : List (Near Number × Nat)) (screen : Screen Number) : Prop :=
  screen.page.allBathrooms = allBathrooms ∧
    List.Forall₂ (IsItemOf engine) shown screen.closestList

theorem listing_change {f : Screen Number → Screen Number}
    (page : ∀ screen, (f screen).page.allBathrooms = screen.page.allBathrooms)
    (list : ∀ screen, (f screen).closestList = screen.closestList) :
    Preserves (Listing engine allBathrooms user old)
      (change f : ScreenAction Number Unit) := by
  refine preserves_change fun screen listing => ⟨(page screen).trans listing.page, ?_⟩
  rw [list]
  exact listing.list

theorem listing_addUserLayer (kind : LayerKind) (location : Location Number)
    (outcome : Added) :
    Preserves (Listing engine allBathrooms user old) (addUserLayer kind location outcome) := by
  intro screen listing
  cases outcome with
  | added => exact ⟨listing.page, listing.list⟩
  | refused left =>
      cases left with
      | true => exact ⟨listing.page, listing.list⟩
      | false => exact listing

theorem listing_addUserLocationMarker (replies : MapReplies Number)
    (location : Location Number) :
    Preserves (Listing engine allBathrooms user old)
      (addUserLocationMarker replies location) := by
  refine Preserves.bind ?_ fun _ => (listing_addUserLayer _ _ _).bind fun stamp => ?_
  · exact listing_change (fun _ => rfl) fun _ => rfl
  · refine Preserves.bind ?_ fun _ => (listing_addUserLayer _ _ _).bind fun _ => preserves_pure _
    exact listing_change (fun _ => rfl) fun _ => rfl

theorem listing_updateList :
    Preserves (Listing engine allBathrooms user old)
      (updateClosestBathroomsList engine user) := by
  refine triple_get_bind fun seen listing => triple_compute_bind ?_ fun closest found => ?_
  · rintro screen rfl
    exact listing
  · rw [listing.page] at found
    have lists : ∀ shown items, shown <+: closest.zipIdx →
        List.Forall₂ (IsItemOf engine) shown items → ListsNearest engine allBathrooms user items :=
      fun shown items begins made =>
        let ⟨measured, distances, first⟩ := findClosestBathrooms_first engine found
        ⟨measured, closest, shown, distances, found, first, begins, made⟩
    refine triple_change_bind (Listing engine allBathrooms user old) ?_ ?_
    · rintro screen rfl
      exact ⟨listing.page, listing.list⟩
    · by_cases none : closest.isEmpty = true
      · rw [if_pos none]
        refine preserves_change fun screen listing => ⟨listing.page, Or.inr ?_⟩
        exact lists [] [] List.nil_prefix List.Forall₂.nil
      · rw [if_neg none]
        have loop : Triple (Listed engine allBathrooms [])
            (closest.zipIdx.forM (addListItem engine))
            (fun _ => Listed engine allBathrooms closest.zipIdx)
            (Listing engine allBathrooms user old) := by
          refine triple_forM_split closest.zipIdx [] closest.zipIdx rfl ?_
          intro done entry rest split
          have begins : done <+: closest.zipIdx := ⟨entry :: rest, split.symm⟩
          refine triple_compute_bind ?_ fun item made => triple_change ?_
          · intro screen shown
            exact ⟨shown.1, Or.inr (lists done _ begins shown.2)⟩
          · intro screen shown
            exact ⟨shown.1, List.rel_append shown.2 (List.Forall₂.cons made List.Forall₂.nil)⟩
        refine triple_change_bind (Listed engine allBathrooms []) ?_ (loop.weaken ?_)
        · intro screen listing
          exact ⟨listing.page, List.Forall₂.nil⟩
        · intro _ screen shown
          exact ⟨shown.1, Or.inr (lists _ _ (List.prefix_refl _) shown.2)⟩

theorem listing_located (replies : MapReplies Number) :
    Preserves (Listing engine allBathrooms user old) (located engine replies user) := by
  have hide : Preserves (Listing engine allBathrooms user old)
      (onPage hideLoading : ScreenAction Number Unit) :=
    listing_change (fun _ => rfl) fun _ => rfl
  refine Preserves.bind ?_ fun _ =>
    preserves_get_bind fun seen => preserves_compute_bind fun nearest found => ?_
  · exact listing_change (fun _ => rfl) fun _ => rfl
  · cases nearest with
    | nil =>
        refine hide.bind fun _ => ?_
        exact listing_change (fun _ => rfl) fun _ => rfl
    | cons closest more =>
        exact (preserves_fitBounds _ _).bind fun _ =>
          (listing_addUserLocationMarker replies user).bind fun _ =>
            listing_updateList.bind fun _ => hide

end Listed

def KeepsList {α : Type} (action : ScreenAction Number α) : Prop :=
  ∀ list, Preserves (fun screen => screen.closestList = list) action

theorem keepsList_change {f : Screen Number → Screen Number}
    (same : ∀ screen, (f screen).closestList = screen.closestList) :
    KeepsList (change f : ScreenAction Number Unit) :=
  fun _ => preserves_change fun screen holds => (same screen).trans holds

theorem keepsList_load (run : Run Number) : KeepsList (load engine run) := by
  refine fun list => preserves_get_bind fun seen => ?_
  cases loadBathrooms engine.arithmetic run.leaflet run.server seen.page with
  | mk outcome page =>
      cases outcome with
      | finished => exact keepsList_change (fun _ => rfl) list
      | failed =>
          exact (keepsList_change (fun _ => rfl) list).bind fun _ =>
            keepsList_change (fun _ => rfl) list

theorem keepsList_findNearest (supported : Bool) :
    KeepsList (findNearestBathroom supported : ScreenAction Number Unit) := by
  refine fun list => preserves_get_bind fun seen => ?_
  by_cases none : seen.page.allBathrooms.isEmpty = true
  · rw [if_pos none]
    exact keepsList_change (fun _ => rfl) list
  · rw [if_neg none]
    cases supported with
    | true => exact keepsList_change (fun _ => rfl) list
    | false => exact keepsList_change (fun _ => rfl) list

theorem keepsList_addControl (start : Location Number) (destination : Bathroom Number)
    (outcome : Added) : KeepsList (addControl start destination outcome) := by
  intro list screen holds
  cases outcome with
  | added => exact holds
  | refused left =>
      cases left with
      | true => exact holds
      | false => exact holds

theorem keepsList_showRoute (replies : MapReplies Number) (bathroom : Bathroom Number) :
    KeepsList (showRouteToBathroom replies bathroom) := by
  refine fun list => preserves_get_bind fun seen => ?_
  cases seen.currentUserLocation with
  | none => exact keepsList_change (fun _ => rfl) list
  | some location =>
      refine Preserves.bind ?_ fun _ =>
        (keepsList_addControl location bathroom _ list).bind fun stamp => Preserves.bind ?_ ?_
      · exact keepsList_change (fun screen => (rfl : (removeControl screen).closestList = _)) list
      · exact keepsList_change (fun _ => rfl) list
      · exact fun _ => preserves_fitBounds _ _

theorem keepsList_routeClicked (replies : MapReplies Number) (index : Nat) :
    KeepsList (routeClicked replies index) := by
  refine fun list => preserves_get_bind fun seen => ?_
  cases seen.closestList[index]? with
  | none => exact preserves_pure _
  | some item => exact keepsList_showRoute replies item.bathroom list

theorem handle_closestList (event : Event Number) (screen : Screen Number) :
    (∃ location replies, event = .located location replies) ∨
      (event.handle engine screen).closestList = screen.closestList := by
  cases event with
  | load run => exact Or.inr ((keepsList_load engine run _).perform rfl)
  | findNearest supported => exact Or.inr ((keepsList_findNearest supported _).perform rfl)
  | located location replies => exact Or.inl ⟨location, replies, rfl⟩
  | notLocated code =>
      have kept : KeepsList (notLocated code : ScreenAction Number Unit) := fun list =>
        (keepsList_change (fun _ => rfl) list).bind fun _ => keepsList_change (fun _ => rfl) list
      exact Or.inr ((kept _).perform rfl)
  | routeClicked index replies =>
      exact Or.inr ((keepsList_routeClicked replies index _).perform rfl)
  | clearRoute => exact Or.inr rfl

/-- The list is empty, or it is what some position has made of it. -/
theorem screenAfter_list (events : List (Event Number)) :
    (screenAfter engine events).closestList = [] ∨
      ∃ before user replies after, events = before ++ .located user replies :: after ∧
        ListsNearest engine (screenAfter engine before).page.allBathrooms user
          (screenAfter engine events).closestList := by
  induction events using List.reverseRecOn with
  | nil => exact Or.inl rfl
  | append_singleton earlier last ih =>
      have later : ∀ list, list = (screenAfter engine earlier).closestList →
          list = [] ∨ ∃ before user replies after,
            earlier ++ [last] = before ++ .located user replies :: after ∧
              ListsNearest engine (screenAfter engine before).page.allBathrooms user list := by
        rintro list rfl
        rcases ih with empty | ⟨before, user, replies, after, rfl, lists⟩
        · exact Or.inl empty
        · exact Or.inr ⟨before, user, replies, after ++ [last], by simp, lists⟩
      rw [screenAfter_append]
      rcases handle_closestList engine last (screenAfter engine earlier) with
        ⟨user, replies, rfl⟩ | same
      · have start : Listing engine (screenAfter engine earlier).page.allBathrooms user
            (screenAfter engine earlier).closestList (screenAfter engine earlier) :=
          ⟨rfl, Or.inl rfl⟩
        rcases ((listing_located replies).perform start).list with old | lists
        · exact later _ old
        · exact Or.inr ⟨earlier, user, replies, [], rfl, lists⟩
      · exact later _ same

/-- Whole numbers again; of the functions only what they give at 0 and 1. -/
def wholeGeometry : Geometry (Option Int) where
  add m n := do pure ((← m) + (← n))
  subtract m n := do pure ((← m) - (← n))
  multiply m n := do pure ((← m) * (← n))
  sin m := if m = some 0 then some 0 else none
  cos m := if m = some 0 then some 1 else none
  sqrt m := if m = some 0 ∨ m = some 1 then m else none
  atan2 y x := if y = some 0 ∧ x = some 1 then some 0 else none
  pi := some 3
  sign
    | some m => compare m 0
    | none => .eq

def wholeEngine : Engine (Option Int) := ⟨wholeNumbers, wholeGeometry, .insertion⟩

def placed (name : String) : Json (Option Int) :=
  .object [("name".toList, .string name.toList), ("latitude".toList, .number (some 0)),
    ("longitude".toList, .number (some 0)), ("rating".toList, .number (some 5))]

def serverWithTwo : ServerState (Option Int) := fun path =>
  if path = bathroomsPath then .json (.array [.number (some 1), .number (some 2)])
  else if path = bathroomsPath ++ "/1".toList then .json (placed "North")
  else if path = bathroomsPath ++ "/2".toList then .json (placed "South")
  else .notOk

def repliesWith (outcome : Added) : MapReplies (Option Int) :=
  ⟨fun _ _ => true, fun _ => outcome, fun _ => outcome, fun _ _ => outcome⟩

/-- A marker and a route are refused, and stay on the map, before others are added. -/
def islandDay : List (Event (Option Int)) :=
  [.load ⟨serverWithTwo, addingAll⟩, .findNearest true,
    .located ⟨some 0, some 0, some 5⟩ (repliesWith (.refused true)), .findNearest true,
    .located ⟨some 0, some 0, some 5⟩ (repliesWith .added),
    .routeClicked 0 (repliesWith (.refused true)), .routeClicked 1 (repliesWith .added)]

/-- Equal distances leave the bathrooms in their order; what was refused stays beside what is
shown. -/
example :
    (screenAfter wholeEngine islandDay).closestList.map (fun item =>
        (toText wholeNumbers (field item.bathroom "name")).toOption) =
      [some "North".toList, some "South".toList] ∧
    ((screenAfter wholeEngine islandDay).userLayers.length,
      (screenAfter wholeEngine islandDay).shownMarkers.length) = (3, 1) ∧
    ((screenAfter wholeEngine islandDay).controls.length,
      (screenAfter wholeEngine islandDay).shownRoutes.length) = (2, 1) := by
  decide +kernel

end BathroomRatings.BathroomMap
