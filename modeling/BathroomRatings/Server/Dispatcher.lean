import BathroomRatings.Lib.Selection
import BathroomRatings.Lib.Strings
import BathroomRatings.Server.Config

/-!
# The request dispatcher

The dispatcher finds the location of a url among the locations it was given, and the
factory in the registry by the path of that location.  The first holds the first of
several locations with one path, the second the factory of the last; both were filled
while the configuration was read.
-/

set_option autoImplicit false

namespace BathroomRatings.Server

open BathroomRatings.Config BathroomRatings.Lib BathroomRatings.Lib.Selection
open BathroomRatings.Lib.Strings

structure RequestDispatcher where
  locations : List LocationConfig

namespace RequestDispatcher

def initFromServerConfig (serverConfig : ServerConfig) (dispatcher : RequestDispatcher) :
    Bool × RequestDispatcher :=
  if serverConfig.locations.isEmpty then (false, dispatcher)
  else (true, { dispatcher with locations := serverConfig.locations })

/-- The loop goes through the locations in order and keeps the best so far. -/
def findBestMatch (dispatcher : RequestDispatcher) (urlPath : Text) : Option LocationConfig :=
  firstLargest (fun location => find location.path urlPath == some 0)
    (fun location => location.path.length) dispatcher.locations none 0

def createHandler (registry : HandlerRegistry) (dispatcher : RequestDispatcher)
    (urlPath : Text) : CreatedHandler :=
  match dispatcher.findBestMatch urlPath with
  | none => (HandlerFactory.notFound ⟨[], "NotFoundHandler".toList, ∅⟩).create
  | some matchedLocation =>
      match registry.getFactory matchedLocation.path with
      | none => (HandlerFactory.notFound ⟨[], "NotFoundHandler".toList, ∅⟩).create
      | some factory => factory.create

theorem findBestMatch_cases (dispatcher : RequestDispatcher) (urlPath : Text) :
    (dispatcher.findBestMatch urlPath = none ∧
      ∀ location ∈ dispatcher.locations, location.path <+: urlPath → location.path = []) ∨
    ∃ location, dispatcher.findBestMatch urlPath = some location ∧
      location ∈ dispatcher.locations ∧ location.path <+: urlPath ∧
      ∀ other ∈ dispatcher.locations, other.path <+: urlPath →
        other.path.length ≤ location.path.length := by
  have eligible : ∀ location : LocationConfig,
      (find location.path urlPath == some 0) = true ↔ location.path <+: urlPath := by
    intro location
    rw [beq_iff_eq, find_eq_zero_iff]
  rcases firstLargest_cases (fun location => find location.path urlPath == some 0)
      (fun location : LocationConfig => location.path.length) dispatcher.locations none 0 with
    ⟨nothing, below⟩ | ⟨location, found, chosen⟩
  · refine Or.inl ⟨nothing, ?_⟩
    intro location member begins
    have short := below location member ((eligible location).mpr begins)
    exact List.length_eq_zero_iff.mp (by omega)
  · refine Or.inr ⟨location, found, chosen.member, (eligible location).mp chosen.fits, ?_⟩
    intro other member begins
    exact chosen.largest other member ((eligible other).mpr begins)

end RequestDispatcher

def lastAt (locations : List LocationConfig) (path : Text) : Option LocationConfig :=
  (locations.filter fun location => location.path = path).getLast?

theorem filter_entries (locations : List LocationConfig) (path : Text) :
    (locations.filterMap entry).filter (fun item => item.1 = path) =
      (locations.filter fun location => location.path = path).filterMap entry := by
  rw [List.filter_filterMap, List.filterMap_filter]
  congr 1
  funext location
  unfold entry
  cases makeFactory location with
  | none => simp
  | some factory => simp [Option.filter]

/-- The registry holds the factory of the last location with a path. -/
theorem getFactory_registered (locations : List LocationConfig)
    (known : ∀ location ∈ locations, location.handlerName ∈ knownHandlers)
    (registry : HandlerRegistry) (path : Text) :
    HandlerRegistry.getFactory (Table.insertAll (locations.filterMap entry) registry) path =
      match lastAt locations path with
      | some location => makeFactory location
      | none => registry.getFactory path := by
  have last := Table.get_insertAll (locations.filterMap entry) registry path
  rw [filter_entries] at last
  rw [HandlerRegistry.getFactory, last, lastAt]
  rcases List.eq_nil_or_concat (locations.filter fun location => location.path = path) with
    nothing | ⟨front, location, split⟩
  · rw [nothing]
    rfl
  · have present : location ∈ locations.filter fun location => location.path = path := by
      rw [split]
      simp
    obtain ⟨factory, made, _⟩ := makeFactory_known (known location (List.mem_of_mem_filter present))
    simp [split, entry, made]

theorem lastAt_spec {locations : List LocationConfig} {location : LocationConfig}
    (member : location ∈ locations) :
    ∃ last, lastAt locations location.path = some last ∧ last ∈ locations ∧
      last.path = location.path := by
  have present : location ∈ locations.filter fun other => other.path = location.path := by
    simp [member]
  cases found : lastAt locations location.path with
  | none =>
      rw [lastAt, List.getLast?_eq_none_iff] at found
      rw [found] at present
      exact absurd present (by simp)
  | some last =>
      have inside := List.mem_of_getLast? found
      rw [List.mem_filter] at inside
      exact ⟨last, rfl, inside.1, by simpa using inside.2⟩

/-! ## Dispatching -/

theorem initFromServerConfig_spec {serverConfig : ServerConfig}
    {previous dispatcher : RequestDispatcher}
    (initialised : RequestDispatcher.initFromServerConfig serverConfig previous =
      (true, dispatcher)) : dispatcher.locations = serverConfig.locations := by
  unfold RequestDispatcher.initFromServerConfig at initialised
  split at initialised
  · exact absurd initialised (by simp)
  · rw [← (Prod.mk.inj initialised).2]

theorem registered_at {tree : NginxConfig} {location : LocationConfig}
    (accepted : location ∈ acceptedLocations tree) (defaultPort : Int)
    (registry : HandlerRegistry) :
    ∃ last factory, lastAt (acceptedLocations tree) location.path = some last ∧
      (extractServerConfig tree defaultPort registry).2.getFactory location.path =
        some factory ∧ Configured last factory.create := by
  obtain ⟨last, found, member, _⟩ := lastAt_spec accepted
  obtain ⟨factory, made, configured⟩ := makeFactory_known (acceptedLocations_spec member).1
  have known : ∀ other ∈ acceptedLocations tree, other.handlerName ∈ knownHandlers :=
    fun other inside => (acceptedLocations_spec inside).1
  have registered := getFactory_registered _ known registry location.path
  rw [found] at registered
  refine ⟨last, factory, found, ?_, configured⟩
  rw [(extractServerConfig_adds tree defaultPort registry).registry, registered]
  exact made

structure LongestPath (locations : List LocationConfig) (urlPath path : Text) : Prop where
  taken : ∃ location ∈ locations, location.path = path
  begins : path <+: urlPath
  longest : ∀ location ∈ locations, location.path <+: urlPath →
    location.path.length ≤ path.length

section Dispatch

variable (input : Text) (parsed : Bool) (tree : NginxConfig)
  (returns : parse input [] = some (parsed, tree)) (defaultPort : Int)
  (registry : HandlerRegistry) (previous dispatcher : RequestDispatcher)
  (initialised : RequestDispatcher.initFromServerConfig
    (extractServerConfig tree defaultPort registry).1 previous = (true, dispatcher))
  (urlPath : Text)
include returns initialised

/-- For every url the dispatcher creates the handler of the last accepted location at
the longest accepted path that is a prefix of the url, whatever the registry held. -/
theorem createHandler_longest :
    (∀ location, dispatcher.findBestMatch urlPath = some location →
      (extractServerConfig tree defaultPort registry).2.getFactory location.path ≠ none) ∧
    ((∀ location ∈ acceptedLocations tree, ¬ location.path <+: urlPath) →
      RequestDispatcher.createHandler (extractServerConfig tree defaultPort registry).2
        dispatcher urlPath = .notFound) ∧
    ∀ path, LongestPath (acceptedLocations tree) urlPath path →
      ∃ location, lastAt (acceptedLocations tree) path = some location ∧
        Configured location
          (RequestDispatcher.createHandler (extractServerConfig tree defaultPort registry).2
            dispatcher urlPath) := by
  have locations : dispatcher.locations = acceptedLocations tree := by
    rw [initFromServerConfig_spec initialised,
      (extractServerConfig_adds tree defaultPort registry).locations, List.nil_append]
  have filled := parse_filled input parsed tree returns
  have candidates := dispatcher.findBestMatch_cases urlPath
  rw [locations] at candidates
  refine ⟨?_, ?_, ?_⟩
  · intro location found
    rcases candidates with ⟨nothing, _⟩ | ⟨best, chosen, member, _⟩
    · rw [nothing] at found
      exact absurd found (by simp)
    · obtain rfl := Option.some.inj (chosen.symm.trans found)
      obtain ⟨_, factory, _, registered, _⟩ := registered_at member defaultPort registry
      rw [registered]
      simp
  · intro outside
    rcases candidates with ⟨nothing, _⟩ | ⟨best, _, member, begins, _⟩
    · simp [RequestDispatcher.createHandler, nothing, HandlerFactory.create]
    · exact absurd begins (outside best member)
  · intro path longest
    obtain ⟨location, accepted, rfl⟩ := longest.taken
    have nonempty := filled _ (acceptedLocations_spec accepted).2
    rcases candidates with ⟨_, empty⟩ | ⟨best, chosen, member, begins, most⟩
    · exact absurd (empty location accepted longest.begins) nonempty
    · -- Two prefixes of the url of the same length are equal.
      have same : best.path = location.path := by
        have length := Nat.le_antisymm (longest.longest best member begins)
          (most location accepted longest.begins)
        exact (List.prefix_of_prefix_length_le begins longest.begins length.le).eq_of_length
          length
      obtain ⟨last, factory, found, registered, configured⟩ :=
        registered_at accepted defaultPort registry
      refine ⟨last, found, ?_⟩
      simp only [RequestDispatcher.createHandler, chosen, same, registered]
      exact configured

end Dispatch

def repeatedLocation : NginxConfig :=
  [.mk ["server".toList]
    (some [.mk ["location".toList, "/a".toList]
        (some [.mk ["handler".toList, "EchoHandler".toList] none]),
      .mk ["location".toList, "/a".toList]
        (some [.mk ["handler".toList, "HealthHandler".toList] none])])]

/-- Two locations with one path: the dispatcher finds the first, the registry creates
the handler of the second. -/
theorem createHandler_longest_repeated :
    ∃ location,
      lastAt (acceptedLocations repeatedLocation) "/a".toList = some location ∧
        Configured location
          (RequestDispatcher.createHandler (extractServerConfig repeatedLocation 8080 ∅).2
            ⟨(extractServerConfig repeatedLocation 8080 ∅).1.locations⟩ "/a/b".toList) := by
  have parsed : parse ("server\x7blocation /a\x7bhandler EchoHandler;\x7d".toList ++
      "location /a\x7bhandler HealthHandler;\x7d\x7d".toList) [] =
        some (true, repeatedLocation) := by
    decide +kernel
  have initialised : RequestDispatcher.initFromServerConfig
      (extractServerConfig repeatedLocation 8080 ∅).1 ⟨[]⟩ =
        (true, ⟨(extractServerConfig repeatedLocation 8080 ∅).1.locations⟩) := by
    rfl
  have longest : LongestPath (acceptedLocations repeatedLocation) "/a/b".toList "/a".toList :=
    ⟨by decide +kernel, by decide +kernel, by decide +kernel⟩
  exact (createHandler_longest _ true repeatedLocation parsed 8080 ∅ ⟨[]⟩ _ initialised
    "/a/b".toList).2.2 _ longest

end BathroomRatings.Server
