import BathroomRatings.BathroomMap.Page
import Mathlib.Data.List.Induction

/-!
# What the map displays

A run that finishes replaces all that the page holds, unless it finds no ids: then it
leaves everything as it was.
-/

set_option autoImplicit false

namespace BathroomRatings.BathroomMap

open BathroomRatings.Lib.Attempts BathroomRatings.Lib.JavaScript

variable {Number : Type} (arithmetic : Arithmetic Number)

/-! ## What a run should display -/

def listedIds (server : ServerState Number) : List (Json Number) :=
  match fetchIds server with
  | .ok ids => idsOf ids
  | .error _ => []

def received (server : ServerState Number) (id : Json Number) : Option (Bathroom Number) :=
  match fetchBathroom arithmetic server id with
  | .ok (some bathroom) => if hasCoordinates bathroom then some bathroom else none
  | _ => none

def fetched (server : ServerState Number) : List (Bathroom Number) :=
  (listedIds server).filterMap (received arithmetic server)

def IsPointOf (bathroom : Bathroom Number) (point : HeatPoint Number) : Prop :=
  heatPoint arithmetic bathroom = .ok point

def IsMarkerOf (bathroom : Bathroom Number) (marker : Marker Number) : Prop :=
  ∃ reading popup, readBathroom arithmetic bathroom = .ok reading ∧
    popupContent arithmetic bathroom reading = .ok popup ∧
      marker = markerOf arithmetic reading popup marker.stamp

def Page.heatPoints (page : Page Number) : List (HeatPoint Number) :=
  page.heatLayer.toList.flatMap (·.points)

/-- The stamps of the layers in which the page holds something to be seen. -/
def Page.held (page : Page Number) : List Nat :=
  (page.heatLayer.toList.filter fun layer => !layer.points.isEmpty).map (·.stamp) ++
    page.markerStamps

/-- The page holds what the server has, and nothing of what it held before. -/
structure Displays (server : ServerState Number) (before after : Page Number) : Prop where
  bathrooms : after.allBathrooms = fetched arithmetic server
  markers : List.Forall₂ (IsMarkerOf arithmetic) after.allBathrooms after.markers
  points : List.Forall₂ (IsPointOf arithmetic) after.allBathrooms after.heatPoints
  shown : ∀ stamp ∈ after.held, stamp ∈ after.onMap
  cleared : ∀ stamp ∈ before.held, stamp ∈ after.onMap → stamp ∈ after.held

structure Blank (page : Page Number) : Prop where
  bathrooms : page.allBathrooms = []
  markers : page.markers = []
  points : page.heatPoints = []

def Page.stamps (page : Page Number) : List Nat := page.heatStamps ++ page.markerStamps

/-- A new layer gets a stamp that no layer has had. -/
structure Stamped (page : Page Number) : Prop where
  held : ∀ stamp ∈ page.stamps, stamp < page.nextStamp
  onMap : ∀ stamp ∈ page.onMap, stamp < page.nextStamp

theorem held_subset {page : Page Number} {stamp : Nat} (holds : stamp ∈ page.held) :
    stamp ∈ page.stamps := by
  rcases List.mem_append.mp holds with heat | marker
  · obtain ⟨layer, member, rfl⟩ := List.mem_map.mp heat
    have there := (List.mem_filter.mp member).1
    exact List.mem_append_left _ (List.mem_map_of_mem there)
  · exact List.mem_append_right _ marker

@[simp] theorem mem_removeLayers {stamps : List Nat} {page : Page Number} {stamp : Nat} :
    stamp ∈ (removeLayers stamps page).onMap ↔ stamp ∈ page.onMap ∧ stamp ∉ stamps := by
  simp [removeLayers]

@[simp] theorem mem_stampLayer {page : Page Number} {stamp : Nat} :
    stamp ∈ (stampLayer true page).onMap ↔ stamp ∈ page.onMap ∨ stamp = page.nextStamp := by
  simp [stampLayer]

theorem Stamped.removeLayers {page : Page Number} (stamped : Stamped page) (stamps : List Nat) :
    Stamped (removeLayers stamps page) :=
  ⟨stamped.held, fun stamp member => stamped.onMap stamp (mem_removeLayers.mp member).1⟩

theorem Stamped.stampLayer {page : Page Number} (stamped : Stamped page) (kept : Bool) :
    Stamped (stampLayer kept page) := by
  refine ⟨fun stamp member => Nat.lt_succ_of_lt (stamped.held stamp member), ?_⟩
  intro stamp member
  cases kept with
  | false => exact Nat.lt_succ_of_lt (stamped.onMap stamp member)
  | true =>
      rcases mem_stampLayer.mp member with old | new
      · exact Nat.lt_succ_of_lt (stamped.onMap stamp old)
      · rw [new]
        exact Nat.lt_succ_self _

theorem addLayer_perform (outcome : Page Number → Added) (page : Page Number) :
    (addLayer outcome).perform page =
      match outcome page with
      | .added => (.ok page.nextStamp, stampLayer true page)
      | .refused kept => (.error .error, stampLayer kept page) := by
  have unfolded : (addLayer outcome).perform page =
      Id.run (match outcome page with
        | .added => pure (.ok page.nextStamp, stampLayer true page)
        | .refused kept => pure (.error .error, stampLayer kept page)) := rfl
  rw [unfolded]
  cases outcome page with
  | added => rfl
  | refused kept => rfl

theorem addLayer_triple {condition : Page Number → Prop} (outcome : Page Number → Added)
    (stamped : ∀ page, condition page → Stamped page) :
    Triple condition (addLayer outcome)
      (fun stamp reached => ∃ page, condition page ∧ stamp = page.nextStamp ∧
        reached = stampLayer true page)
      Stamped := by
  intro page holds
  rw [addLayer_perform]
  cases outcome page with
  | added => exact ⟨page, holds, rfl, rfl⟩
  | refused kept => exact (stamped page holds).stampLayer kept

/-- The page with its new heat layer and the markers of the page `before`. -/
structure Replaced (before : Page Number) (bathrooms : List (Bathroom Number))
    (points : List (HeatPoint Number)) (page : Page Number) : Prop where
  bathrooms : page.allBathrooms = bathrooms
  heat : page.heatLayer = some ⟨before.nextStamp, points⟩
  markers : page.markers = before.markers
  onMap : ∀ stamp, stamp ∈ page.onMap ↔
    (stamp ∈ before.onMap ∧ stamp ∉ before.heatStamps) ∨ stamp = before.nextStamp
  next : page.nextStamp = before.nextStamp + 1

/-- The page while the markers of the run are made.  Of what was on the map before, that
is left which the page `before` did not hold. -/
structure Filling (before : Page Number) (bathrooms : List (Bathroom Number))
    (points : List (HeatPoint Number)) (done : List (Bathroom Number)) (page : Page Number) :
    Prop where
  bathrooms : page.allBathrooms = bathrooms
  heat : ∃ stamp, page.heatLayer = some ⟨stamp, points⟩
  markers : List.Forall₂ (IsMarkerOf arithmetic) done page.markers
  onMap : ∀ stamp, stamp ∈ page.onMap ↔
    stamp ∈ page.stamps ∨ (stamp ∈ before.onMap ∧ stamp ∉ before.stamps)
  fresh : ∀ stamp ∈ page.stamps, before.nextStamp ≤ stamp ∧ stamp < page.nextStamp
  later : before.nextStamp ≤ page.nextStamp

variable {arithmetic} (leaflet : Leaflet Number) {before : Page Number}
  {bathrooms : List (Bathroom Number)} {points : List (HeatPoint Number)}

theorem Filling.stamped {done : List (Bathroom Number)} {page : Page Number}
    (filling : Filling arithmetic before bathrooms points done page) (stamped : Stamped before) :
    Stamped page := by
  refine ⟨fun stamp member => (filling.fresh stamp member).2, ?_⟩
  intro stamp member
  rcases (filling.onMap stamp).mp member with held | old
  · exact (filling.fresh stamp held).2
  · exact Nat.lt_of_lt_of_le (stamped.onMap stamp old.1) filling.later

theorem replaceHeatLayer_triple (stamped : Stamped before)
    (heatmapData : List (HeatPoint Number)) :
    Triple (fun page => page = { before with allBathrooms := bathrooms })
      (replaceHeatLayer leaflet heatmapData)
      (fun _ => Replaced before bathrooms heatmapData)
      Stamped := by
  refine triple_change_bind
    (fun page => page = removeLayers before.heatStamps { before with allBathrooms := bathrooms })
    ?_ ((addLayer_triple _ ?_).bind ?_)
  · intro page same
    rw [same]
    rfl
  · intro page same
    have filled : Stamped { before with allBathrooms := bathrooms } := ⟨stamped.held, stamped.onMap⟩
    rw [same]
    exact filled.removeLayers _
  · intro stamp
    refine triple_change ?_
    intro page added
    obtain ⟨page, rfl, rfl, rfl⟩ := added
    refine ⟨rfl, rfl, rfl, ?_, rfl⟩
    intro stamp
    exact mem_stampLayer.trans (or_congr mem_removeLayers Iff.rfl)

theorem clearMarkers_filling {page : Page Number} (stamped : Stamped before)
    (replaced : Replaced before bathrooms points page) :
    Filling arithmetic before bathrooms points [] (clearMarkers page) := by
  have stamps : (clearMarkers page).stamps = [before.nextStamp] := by
    simp [Page.stamps, Page.heatStamps, Page.markerStamps, clearMarkers, removeLayers,
      replaced.heat]
  have old : page.markerStamps = before.markerStamps :=
    congrArg (List.map Marker.stamp) replaced.markers
  have next : (clearMarkers page).nextStamp = before.nextStamp + 1 := replaced.next
  refine ⟨replaced.bathrooms, ⟨_, replaced.heat⟩, List.Forall₂.nil, ?_, ?_, by omega⟩
  · intro stamp
    have cleared : stamp ∈ (clearMarkers page).onMap ↔
        stamp ∈ page.onMap ∧ stamp ∉ page.markerStamps := mem_removeLayers
    rw [cleared, stamps, replaced.onMap, old, List.mem_singleton, Page.stamps, List.mem_append]
    by_cases new : stamp = before.nextStamp
    · -- the stamp of the new heat layer is none of the old markers'
      have unmarked : stamp ∉ before.markerStamps := by
        intro marker
        have bound := stamped.held stamp (List.mem_append_right _ marker)
        omega
      simp [new ▸ unmarked, new]
    · simp [new, and_assoc]
  · intro stamp member
    rw [stamps, List.mem_singleton] at member
    omega

theorem Filling.add {done : List (Bathroom Number)} {bathroom : Bathroom Number}
    {page : Page Number} {marker : Marker Number}
    (filling : Filling arithmetic before bathrooms points done page)
    (marks : IsMarkerOf arithmetic bathroom marker) (fresh : marker.stamp = page.nextStamp) :
    Filling arithmetic before bathrooms points (done ++ [bathroom])
      { stampLayer true page with markers := page.markers ++ [marker] } := by
  have stamps : Page.stamps { stampLayer true page with markers := page.markers ++ [marker] } =
      page.stamps ++ [page.nextStamp] := by
    simp [Page.stamps, Page.heatStamps, Page.markerStamps, stampLayer, fresh]
  refine ⟨filling.bathrooms, filling.heat,
    List.rel_append filling.markers (List.Forall₂.cons marks List.Forall₂.nil), ?_, ?_,
    Nat.le_succ_of_le filling.later⟩
  · intro stamp
    rw [stamps, List.mem_append, List.mem_singleton, or_right_comm, ← filling.onMap stamp]
    exact mem_stampLayer
  · intro stamp member
    have next : (stampLayer true page).nextStamp = page.nextStamp + 1 := rfl
    rw [stamps, List.mem_append, List.mem_singleton] at member
    have later := filling.later
    rcases member with old | new
    · have bounds := filling.fresh stamp old
      exact ⟨bounds.1, Nat.lt_succ_of_lt bounds.2⟩
    · rw [new]
      exact ⟨later, Nat.lt_succ_self _⟩

theorem addMarker_triple (stamped : Stamped before) (done : List (Bathroom Number))
    (bathroom : Bathroom Number) :
    Triple (Filling arithmetic before bathrooms points done)
      (addMarker arithmetic leaflet bathroom)
      (fun _ => Filling arithmetic before bathrooms points (done ++ [bathroom]))
      Stamped := by
  refine triple_compute_bind (fun page filling => filling.stamped stamped) ?_
  intro reading read
  refine (addLayer_triple _ fun page filling => filling.stamped stamped).bind ?_
  intro stamp
  refine triple_compute_bind ?_ ?_
  · intro reached added
    obtain ⟨page, filling, -, rfl⟩ := added
    exact (filling.stamped stamped).stampLayer true
  · intro popup made
    refine triple_change ?_
    intro reached added
    obtain ⟨page, filling, rfl, rfl⟩ := added
    exact filling.add ⟨reading, popup, read, made, rfl⟩ rfl

theorem showBathrooms_triple (stamped : Stamped before) (bathrooms : List (Bathroom Number)) :
    Triple (fun page => page = before) (showBathrooms arithmetic leaflet bathrooms)
      (fun _ page => ∃ points, List.Forall₂ (IsPointOf arithmetic) bathrooms points ∧
        Filling arithmetic before bathrooms points bathrooms page)
      Stamped := by
  refine triple_change_bind (fun page => page = { before with allBathrooms := bathrooms })
    (fun page same => by rw [same]) (triple_compute_bind ?_ ?_)
  · intro page same
    rw [same]
    exact ⟨stamped.held, stamped.onMap⟩
  · intro points computed
    refine (replaceHeatLayer_triple leaflet stamped points).bind fun _ =>
      triple_change_bind (Filling arithmetic before bathrooms points []) ?_ ?_
    · intro page replaced
      exact clearMarkers_filling stamped replaced
    · refine (triple_forM (addMarker_triple leaflet stamped) [] bathrooms).weaken ?_
      intro _ page filling
      exact ⟨points, mapM_ok_iff.mp computed, filling⟩

theorem received_of_replies {server : ServerState Number} {ids : List (Json Number)}
    {replies : List (Option (Bathroom Number))}
    (replied : ids.mapM (fetchBathroom arithmetic server) = .ok replies) :
    (replies.filterMap id).filter hasCoordinates = ids.filterMap (received arithmetic server) := by
  have each := mapM_ok_iff.mp replied
  clear replied
  induction each with
  | nil => rfl
  | @cons listed answer _ _ reply _ ih =>
      cases answer with
      | none =>
          have nothing : received arithmetic server listed = none := by simp [received, reply]
          rw [List.filterMap_cons_none nothing]
          exact ih
      | some bathroom =>
          by_cases there : hasCoordinates bathroom = true
          · have kept : received arithmetic server listed = some bathroom := by
              simp [received, reply, there]
            rw [List.filterMap_cons_some kept, ← ih]
            exact List.filter_cons_of_pos there
          · have dropped : received arithmetic server listed = none := by
              simp [received, reply, there]
            rw [List.filterMap_cons_none dropped, ← ih]
            exact List.filter_cons_of_neg there

def Refilled (arithmetic : Arithmetic Number) (server : ServerState Number)
    (before page : Page Number) : Prop :=
  ∃ points, List.Forall₂ (IsPointOf arithmetic) (fetched arithmetic server) points ∧
    Filling arithmetic before (fetched arithmetic server) points (fetched arithmetic server) page

variable (arithmetic) in
theorem tryLoad_triple (stamped : Stamped before) (server : ServerState Number) :
    Triple (fun page => page = before) (tryLoad arithmetic leaflet server)
      (fun _ page => (listedIds server = [] ∧ page = before) ∨
        (listedIds server ≠ [] ∧ Refilled arithmetic server before page))
      Stamped := by
  have spoilt : ∀ page, page = before → Stamped page := fun page same => by rw [same]; exact stamped
  refine triple_compute_bind spoilt ?_
  intro ids got
  have listed : listedIds server = idsOf ids := by simp [listedIds, got]
  rw [← listed]
  by_cases none : listedIds server = []
  · rw [if_pos (by rw [none]; rfl)]
    exact triple_pure fun page same => Or.inl ⟨none, same⟩
  · rw [if_neg (by simpa using none)]
    refine triple_compute_bind spoilt ?_
    intro replies replied
    rw [received_of_replies replied]
    refine (showBathrooms_triple leaflet stamped _).weaken ?_
    intro _ page shown
    exact Or.inr ⟨none, shown⟩

theorem displays_of_refilled {server : ServerState Number} {page : Page Number}
    (stamped : Stamped before) (refilled : Refilled arithmetic server before page) :
    Displays arithmetic server before page := by
  obtain ⟨points, drawn, filling⟩ := refilled
  obtain ⟨stamp, heat⟩ := filling.heat
  refine ⟨filling.bathrooms, ?_, ?_, ?_, ?_⟩
  · rw [filling.bathrooms]
    exact filling.markers
  · have points' : page.heatPoints = points := by simp [Page.heatPoints, heat]
    rw [filling.bathrooms, points']
    exact drawn
  · intro stamp member
    exact (filling.onMap stamp).mpr (Or.inl (held_subset member))
  · intro stamp member there
    rcases (filling.onMap stamp).mp there with new | old
    · have bounds := filling.fresh stamp new
      have bound := stamped.held stamp (held_subset member)
      omega
    · exact absurd (held_subset member) old.2

theorem held_of_blank {page : Page Number} (blank : Blank page) : page.held = [] := by
  have unmarked : page.markerStamps = [] := by simp [Page.markerStamps, blank.markers]
  have cold := blank.points
  rw [Page.heatPoints, List.flatMap_eq_nil_iff] at cold
  rw [Page.held, unmarked, List.append_nil, List.map_eq_nil_iff, List.filter_eq_nil_iff]
  intro layer member
  simp [cold layer member]

/-- A run that finds no ids shows what the server has only if nothing was shown before. -/
theorem displays_unchanged_iff {server : ServerState Number} {page : Page Number}
    (none : listedIds server = []) :
    Displays arithmetic server page (hideLoading page) ↔ Blank page := by
  have nothing : fetched arithmetic server = [] := by simp [fetched, none]
  constructor
  · intro displays
    have empty : page.allBathrooms = [] := displays.bathrooms.trans nothing
    have markers := displays.markers
    have points := displays.points
    rw [displays.bathrooms, nothing, List.forall₂_nil_left_iff] at markers points
    exact ⟨empty, markers, points⟩
  · intro blank
    have held : page.held = [] := held_of_blank blank
    have bathrooms : (hideLoading page).allBathrooms = [] := blank.bathrooms
    refine ⟨bathrooms.trans nothing.symm, ?_, ?_, ?_, ?_⟩
    · rw [bathrooms, List.forall₂_nil_left_iff]
      exact blank.markers
    · rw [bathrooms, List.forall₂_nil_left_iff]
      exact blank.points
    · intro stamp member
      have listed : stamp ∈ page.held := member
      rw [held] at listed
      exact absurd listed List.not_mem_nil
    · intro stamp member
      rw [held] at member
      exact absurd member List.not_mem_nil

theorem Displays.loading {server : ServerState Number} {page : Page Number}
    (displays : Displays arithmetic server (showLoading before) page) :
    Displays arithmetic server before (hideLoading page) :=
  ⟨displays.bathrooms, displays.markers, displays.points, displays.shown, displays.cleared⟩

structure Loaded (arithmetic : Arithmetic Number) (server : ServerState Number)
    (before : Page Number) (result : Outcome × Page Number) : Prop where
  stamped : Stamped result.2
  unchanged : result.1 = .finished → listedIds server = [] → result.2 = hideLoading before
  refilled : result.1 = .finished → listedIds server ≠ [] →
    Displays arithmetic server before result.2

variable (arithmetic) in
theorem loadBathrooms_loaded (stamped : Stamped before) (server : ServerState Number) :
    Loaded arithmetic server before (loadBathrooms arithmetic leaflet server before) := by
  have loading : Stamped (showLoading before) := ⟨stamped.held, stamped.onMap⟩
  have tried := tryLoad_triple arithmetic leaflet loading server _ rfl
  unfold loadBathrooms
  cases performed : (tryLoad arithmetic leaflet server).perform (showLoading before) with
  | mk result reached =>
      rw [performed] at tried
      cases result with
      | error thrown =>
          have kept : Stamped reached := tried
          exact ⟨⟨kept.held, kept.onMap⟩, by simp, by simp⟩
      | ok value =>
          rcases tried with kept | made
          · obtain ⟨none, rfl⟩ := kept
            exact ⟨⟨stamped.held, stamped.onMap⟩, fun _ _ => rfl,
              fun _ listed => absurd none listed⟩
          · obtain ⟨listed, refilled⟩ := made
            have displays := displays_of_refilled loading refilled
            obtain ⟨points, drawn, filling⟩ := refilled
            have kept := filling.stamped loading
            exact ⟨⟨kept.held, kept.onMap⟩, fun _ none => absurd none listed,
              fun _ _ => displays.loading⟩

/-- When a run that finishes displays what its server has. -/
theorem displays_step_iff {server : ServerState Number} (stamped : Stamped before)
    (finished : (loadBathrooms arithmetic leaflet server before).1 = .finished) :
    Displays arithmetic server before (loadBathrooms arithmetic leaflet server before).2 ↔
      listedIds server ≠ [] ∨ Blank before := by
  have loaded := loadBathrooms_loaded arithmetic leaflet stamped server
  by_cases none : listedIds server = []
  · rw [loaded.unchanged finished none, displays_unchanged_iff none]
    simp [none]
  · simp [none, loaded.refilled finished none]

/-! ## Sequences of runs -/

variable (arithmetic) (runs : List (Run Number))

theorem pageAfter_append (run : Run Number) :
    pageAfter arithmetic (runs ++ [run]) =
      (loadBathrooms arithmetic run.leaflet run.server (pageAfter arithmetic runs)).2 := by
  simp [pageAfter]

theorem pageAfter_stamped : Stamped (pageAfter arithmetic runs) := by
  induction runs using List.reverseRecOn with
  | nil => exact ⟨fun _ member => absurd member List.not_mem_nil,
      fun _ member => absurd member List.not_mem_nil⟩
  | append_singleton done run ih =>
      rw [pageAfter_append]
      exact (loadBathrooms_loaded arithmetic run.leaflet ih run.server).stamped

def Finishes (done : List (Run Number)) (run : Run Number) : Prop :=
  done ++ [run] <+: runs ∧
    (loadBathrooms arithmetic run.leaflet run.server (pageAfter arithmetic done)).1 = .finished

/-- Behind every run that finishes, the page displays what that run has fetched. -/
def DisplaysEveryRun : Prop :=
  ∀ done run, Finishes arithmetic runs done run →
    Displays arithmetic run.server (pageAfter arithmetic done)
      (pageAfter arithmetic (done ++ [run]))

/-- A run that finds no ids leaves a page as it was, so that only a blank one is right. -/
theorem displaysEveryRun_iff :
    DisplaysEveryRun arithmetic runs ↔
      ∀ done run, Finishes arithmetic runs done run →
        listedIds run.server ≠ [] ∨ Blank (pageAfter arithmetic done) := by
  have step : ∀ done run, Finishes arithmetic runs done run →
      (Displays arithmetic run.server (pageAfter arithmetic done)
          (pageAfter arithmetic (done ++ [run])) ↔
        listedIds run.server ≠ [] ∨ Blank (pageAfter arithmetic done)) := by
    intro done run finishes
    rw [pageAfter_append]
    exact displays_step_iff run.leaflet (pageAfter_stamped arithmetic done) finishes.2
  constructor
  · intro displays done run finishes
    exact (step done run finishes).mp (displays done run finishes)
  · intro condition done run finishes
    exact (step done run finishes).mpr (condition done run finishes)

def leadingDigits (text : Text) : Option Int :=
  let digits := text.takeWhile (·.isDigit)
  if digits.isEmpty then none else some (Nat.ofDigitChars 10 digits 0)

def leadingInt : Text → Option Int
  | '-' :: rest => (leadingDigits rest).map (- ·)
  | text => leadingDigits text

def wholeText : Option Int → Text
  | some value => (toString value).toList
  | none => "NaN".toList

/-- Arithmetic as far as it stays within whole numbers; the rest is `NaN`. -/
def wholeNumbers : Arithmetic (Option Int) where
  literal n := some n
  divide
    | some m, some n => if n ≠ 0 ∧ m % n = 0 then some (m / n) else none
    | _, _ => none
  minimum m n := do pure (min (← m) (← n))
  maximum m n := do pure (max (← m) (← n))
  atLeast
    | some m, some n => decide (n ≤ m)
    | _, _ => false
  equal
    | some m, some n => m == n
    | _, _ => false
  truthy
    | some m => m != 0
    | none => false
  toText := wholeText
  toFixed m places := wholeText m ++ '.' :: List.replicate places '0'
  parseFloat := leadingInt
  parseInt := leadingInt

def addingAll : Leaflet (Option Int) where
  heatLayer _ _ := .added
  circleMarker _ _ _ := .added

def powell : Json (Option Int) :=
  .object
    [("name".toList, .string "Powell Library".toList), ("latitude".toList, .number (some 34)),
      ("longitude".toList, .number (some (-118))), ("rating".toList, .number (some 5)),
      ("num_ratings".toList, .number (some 1))]

def serverWithOne : ServerState (Option Int) := fun path =>
  if path = bathroomsPath then .json (.array [.number (some 1)])
  else if path = bathroomsPath ++ "/1".toList then .json powell
  else .notOk

def serverWithNone : ServerState (Option Int) := fun path =>
  if path = bathroomsPath then .json (.array []) else .notOk

/-- The page goes on displaying a bathroom that the server has no more. -/
theorem deleted_bathroom_stays :
    ¬ DisplaysEveryRun wholeNumbers [⟨serverWithOne, addingAll⟩, ⟨serverWithNone, addingAll⟩] := by
  intro displays
  have second := displays [⟨serverWithOne, addingAll⟩] ⟨serverWithNone, addingAll⟩
    ⟨List.prefix_refl _, by decide +kernel⟩
  have stale : (pageAfter wholeNumbers
      ([⟨serverWithOne, addingAll⟩] ++ [⟨serverWithNone, addingAll⟩])).allBathrooms.length = 1 := by
    decide +kernel
  have none : (fetched wholeNumbers serverWithNone).length = 0 := by decide +kernel
  rw [second.bathrooms, none] at stale
  exact absurd stale (by decide)

end BathroomRatings.BathroomMap
