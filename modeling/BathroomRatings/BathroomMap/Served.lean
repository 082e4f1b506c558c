import BathroomRatings.Api.Target
import BathroomRatings.BathroomMap.Displayed
import BathroomRatings.Server.Site

/-!
# The map of a site

The page loads its bathrooms from the site that serves it.  Every `fetch` is a visit of the
site; what comes back is decoded and read as JSON.
-/

set_option autoImplicit false

namespace BathroomRatings.BathroomMap

open BathroomRatings.Api BathroomRatings.Config BathroomRatings.Http
open BathroomRatings.Http.RequestParser BathroomRatings.Lib.Decimal
open BathroomRatings.Lib.JavaScript BathroomRatings.Lib.Strings BathroomRatings.Server
open BathroomRatings.Store BathroomRatings.Store.FileSystem

variable {Number : Type}

/-- The browser: its numbers, and how it reads the body of a response as JSON. -/
structure Browser (Number : Type) where
  arithmetic : Arithmetic Number
  json : Text → Option (Json Number)

/-- Numerals are read and written in decimal. -/
structure ReadsIds (browser : Browser Number) : Prop where
  list : ∀ ids : List Int, (∀ id ∈ ids, 0 ≤ id ∧ id < 2147483648) →
    browser.json (idsJson ids) =
      some (.array (ids.map fun id => .number (browser.arithmetic.literal id.toNat)))
  text : ∀ id : Int, 0 ≤ id → id < 2147483648 →
    browser.arithmetic.toText (browser.arithmetic.literal id.toNat) = decimal id

def isOk (statusLine : Text) : Bool := "HTTP/1.1 2".toList.isPrefixOf statusLine

def readReply (browser : Browser Number) (statusLine body : Text) : Reply Number :=
  if isOk statusLine then
    match browser.json body with
    | some value => .json value
    | none => .unparsed
  else .notOk

def replyOf (browser : Browser Number) (sent : List Text) : Reply Number :=
  match sent with
  | [bytes] =>
      match decodeResponse bytes with
      | some message => readReply browser message.statusLine message.body
      | none => .rejected
  | _ => .rejected

section Site

variable (registry : HandlerRegistry) (dispatcher : RequestDispatcher) (roots : List Path)

def hostAfter (occurrences : List Occurrence) (host : Host) : Host :=
  occurrences.foldl (fun host occurrence =>
    (occur registry dispatcher roots occurrence host).2) host

/-- Visits that only get something, and what never changes an object. -/
def Quiet : Occurrence → Prop
  | .visit visit => visit.request.method = "GET".toList
  | _ => True

/-- Every path is fetched on a connection of its own from a process that runs, while nobody
else changes an object. -/
def FetchesFrom (browser : Browser Number) (host : Host) (server : ServerState Number) :
    Prop :=
  ∀ path, bathroomsPath <+: path → (∀ c ∈ path, isSpace c = false) →
    ∃ (quiet : List Occurrence) (visit : Visit), (∀ occurrence ∈ quiet, Quiet occurrence) ∧
      (hostAfter registry dispatcher roots quiet host).running = true ∧
      visit.request.method = "GET".toList ∧ visit.request.url = path ∧
      server path = replyOf browser
        (connect registry dispatcher visit.around visit.reads
          (hostAfter registry dispatcher roots quiet host)).1

end Site

def apiPath : Text := "/api".toList

/-- The API is at its path, and no longer location path takes a url of the page from it. -/
structure LocatesApi (locations : List LocationConfig) (dataPath : Text) : Prop where
  api : ∃ location, lastAt locations apiPath = some location ∧
    location.handlerName = "ApiHandler".toList ∧
    (location.args.get "data_path".toList).getD ['.'] = dataPath
  longest : ∀ location ∈ locations,
    location.path <+: bathroomsPath ∨ bathroomsPath <+: location.path →
      location.path.length ≤ apiPath.length

/-! ## What the store holds -/

def bathrooms : Text := "bathrooms".toList

/-- The bathroom of an id as the page keeps it, if its object is JSON with coordinates. -/
def storedBathroom (browser : Browser Number) (map : Objects) (id : Int) :
    Option (Bathroom Number) := do
  let data ← map bathrooms id
  let value ← browser.json data
  let bathroom := spread [("id".toList, .number (browser.arithmetic.literal id.toNat))] value
  if hasCoordinates bathroom then some bathroom else none

/-- The page displays the bathrooms of the store in the order of their ids, or is left as it
was if there are none. -/
structure DisplaysStored (browser : Browser Number) (map : Objects)
    (server : ServerState Number) (ids : List Int) (before after : Page Number) : Prop where
  sorted : ids.Pairwise (· < ·)
  all : ∀ id, id ∈ ids ↔ map bathrooms id ≠ none
  nothing : ids = [] → after = hideLoading before
  something : ids ≠ [] →
    after.allBathrooms = ids.filterMap (storedBathroom browser map) ∧
      Displays browser.arithmetic server before after

theorem segments_bathrooms : extractSegments apiPath bathroomsPath = [bathrooms] := by
  decide

theorem segments_bathroom {id : Int} (nonneg : 0 ≤ id) :
    extractSegments apiPath (bathroomsPath ++ '/' :: decimal id) =
      [bathrooms, decimal id] := by
  have digits := decimal_digits nonneg
  have slashFree : '/' ∉ decimal id := fun member => absurd (digits _ member) (by decide)
  have markFree : '?' ∉ decimal id := fun member => absurd (digits _ member) (by decide)
  have parts : apiPath ++ "/bathrooms".toList = bathroomsPath := by decide
  have located : Located apiPath ("/bathrooms".toList ++ '/' :: decimal id) []
      (bathroomsPath ++ '/' :: decimal id) := by
    refine ⟨?_, by decide, ?_, Or.inr rfl, Or.inl rfl⟩
    · rw [List.append_nil, ← List.append_assoc, parts]
    · have front : '?' ∉ "/bathrooms".toList := by decide
      simp only [List.mem_append, List.mem_cons, not_or]
      exact ⟨front, by decide, markFree⟩
  have own : pieces '/' "/bathrooms".toList = [bathrooms] := by decide
  rw [located.segments, ← pieces_eq_splitOn, pieces_append, own,
    pieces_of_free '/' (decimal id) slashFree (decimal_ne_nil id)]
  rfl

theorem fetchBathroom_number (arithmetic : Arithmetic Number) (server : ServerState Number)
    (value : Number) :
    fetchBathroom arithmetic server (.number value) =
      match server (bathroomsPath ++ '/' :: arithmetic.toText value) with
      | .json data => .ok (some (spread [("id".toList, .number value)] data))
      | _ => .ok none := rfl

theorem digit_noSpace {c : Char} (digit : c.isDigit = true) : isSpace c = false := by
  cases space : isSpace c with
  | false => rfl
  | true =>
      simp only [isSpace, Bool.or_eq_true, beq_iff_eq] at space
      rcases space with ((((rfl | rfl) | rfl) | rfl) | rfl) | rfl
      all_goals exact absurd digit (by decide)

theorem noSpace_of_all {path : Text} (all : path.all (fun c => !isSpace c) = true) :
    ∀ c ∈ path, isSpace c = false := by
  intro c member
  simpa using List.all_eq_true.mp all c member

theorem path_noSpaces : bathroomsPath.all (fun c => !isSpace c) = true := by
  decide

theorem path_noSpace {id : Int} (nonneg : 0 ≤ id) :
    ∀ c ∈ bathroomsPath ++ '/' :: decimal id, isSpace c = false := by
  intro c member
  rcases List.mem_append.mp member with here | behind
  · exact noSpace_of_all path_noSpaces c here
  · rcases List.mem_cons.mp behind with rfl | digit
    · decide
    · exact digit_noSpace (decimal_digits nonneg c digit)

theorem LocatesApi.chosen {locations : List LocationConfig} {dataPath url : Text}
    (locates : LocatesApi locations dataPath) (begins : bathroomsPath <+: url)
    {handler : CreatedHandler} (chosen : Chosen locations url handler) :
    handler = .api dataPath apiPath := by
  obtain ⟨location, found, name, argument⟩ := locates.api
  have inside : apiPath <+: url :=
    List.IsPrefix.trans (by decide : apiPath <+: bathroomsPath) begins
  have last := List.mem_of_getLast? found
  obtain ⟨member, samePath⟩ := List.mem_filter.mp last
  have atApi : location.path = apiPath := of_decide_eq_true samePath
  rcases chosen with ⟨missed, -⟩ | ⟨path, other, most, foundOther, configured⟩
  · exact absurd (atApi ▸ inside) (missed location member)
  · obtain ⟨taken, takenMember, rfl⟩ := most.taken
    have upper := locates.longest taken takenMember
      (List.prefix_or_prefix_of_prefix most.begins begins)
    have lower := most.longest location member (atApi ▸ inside)
    rw [atApi] at lower
    have same : taken.path = apiPath :=
      (List.prefix_of_prefix_length_le most.begins inside upper).eq_of_length
        (le_antisymm upper lower)
    rw [same, found] at foundOther
    obtain rfl := Option.some.inj foundOther
    cases configured with
    | api => rw [argument, atApi]
    | echo other => exact absurd (name.symm.trans other) (by decide)
    | static other => exact absurd (name.symm.trans other) (by decide)
    | health other => exact absurd (name.symm.trans other) (by decide)
    | sleep other => exact absurd (name.symm.trans other) (by decide)

theorem LocatesApi.listed {locations : List LocationConfig} {dataPath : Text}
    (locates : LocatesApi locations dataPath) : elements dataPath ∈ dataRoots locations := by
  obtain ⟨location, found, name, argument⟩ := locates.api
  have last := List.mem_of_getLast? found
  refine List.mem_filterMap.mpr ⟨location, (List.mem_filter.mp last).1, ?_⟩
  rw [if_pos name, argument]

/-! ## The site while it is used -/

theorem objectsAfter_get {isValidJson : Text → Bool} {urlPrefix : Text} {request : Request}
    (get : request.method = "GET".toList) (map : Objects) (response : Response) :
    (route isValidJson urlPrefix request).objectsAfter map response = map := by
  have routed := route_routed isValidJson urlPrefix request
  cases taken : route isValidJson urlPrefix request with
  | create entityName data =>
      rw [taken] at routed
      cases routed with
      | create entityName method => exact absurd (get.symm.trans method) (by decide)
  | update entityName id data =>
      rw [taken] at routed
      cases routed with
      | update entityName segment id method => exact absurd (get.symm.trans method) (by decide)
  | delete entityName id =>
      rw [taken] at routed
      cases routed with
      | delete entityName segment id method => exact absurd (get.symm.trans method) (by decide)
  | _ => rfl

theorem responds_get {around : Surroundings} {stored left : Stored} {request : Request}
    {handler : CreatedHandler} {response : Response}
    (responds : Responds around stored request handler response left)
    (get : request.method = "GET".toList) : left = stored := by
  cases responds with
  | api dataPath urlPrefix response serves =>
      rw [objectsAfter_get get, Function.update_eq_self]
  | _ => rfl

section Run

variable {text : Text} {tree : NginxConfig} (accepted : parse text [] = some (true, tree))
variable (defaultPort : Int) (registry : HandlerRegistry) {dispatcher : RequestDispatcher}
variable (locations : dispatcher.locations = acceptedLocations tree)
variable (apart : ApartRoots (dataRoots (acceptedLocations tree)))
variable {stored : Stored} {host : Host} {used : Finset Int}
variable (serving : Serving (dataRoots (acceptedLocations tree)) stored host.data)
variable (within : AllWithin (dataRoots (acceptedLocations tree)) stored used)
include accepted locations apart serving within

/-- The host behind an occurrence, with one id more in use at most. -/
theorem occur_serving (occurrence : Occurrence)
    (few : used.card + [occurrence].countP Occurrence.isVisit ≤ 2147483647) :
    ∃ left more,
      Serving (dataRoots (acceptedLocations tree)) left
        (occur (extractServerConfig tree defaultPort registry).2 dispatcher
          (dataRoots (acceptedLocations tree)) occurrence host).2.data ∧
      AllWithin (dataRoots (acceptedLocations tree)) left more ∧
      more.card ≤ used.card + [occurrence].countP Occurrence.isVisit ∧
      (Quiet occurrence → left = stored) := by
  obtain ⟨data, running⟩ := host
  cases occurrence with
  | restart order =>
      exact ⟨stored, used, constructStores_serving apart serving order, within,
        Nat.le_add_right _ _, fun _ => rfl⟩
  | visit visit =>
      have room : used.card + 1 ≤ 2147483647 := few
      cases running with
      | false => exact ⟨stored, used, serving, within, Nat.le_add_right _ _, fun _ => rfl⟩
      | true =>
          obtain ⟨handler, chosen, ⟨escapes, connected⟩ | ⟨returns, response, left, sent, data',
            connected, responds, decodes, serving', more, within', count⟩⟩ :=
              visit_explained accepted defaultPort registry locations apart visit serving within
                (by omega)
          · refine ⟨stored, used, ?_, within, Nat.le_add_right _ _, fun _ => rfl⟩
            simp only [occur, connected]
            exact serving
          · refine ⟨left, more, ?_, within', count, fun get => responds_get responds get⟩
            simp only [occur, connected]
            exact serving'
  | noise noise =>
      refine ⟨stored, used, ?_, within, Nat.le_add_right _ _, fun _ => rfl⟩
      cases running with
      | false => exact serving
      | true =>
          obtain ⟨sent, connected, -⟩ := noise_explained
            (extractServerConfig tree defaultPort registry).2 dispatcher noise data
          simp only [occur, connected]
          exact serving

theorem hostAfter_serving (occurrences : List Occurrence)
    (few : used.card + occurrences.countP Occurrence.isVisit ≤ 2147483647) :
    ∃ left more,
      Serving (dataRoots (acceptedLocations tree)) left
        (hostAfter (extractServerConfig tree defaultPort registry).2 dispatcher
          (dataRoots (acceptedLocations tree)) occurrences host).data ∧
      AllWithin (dataRoots (acceptedLocations tree)) left more ∧
      more.card ≤ used.card + occurrences.countP Occurrence.isVisit := by
  induction occurrences generalizing stored host used with
  | nil => exact ⟨stored, used, serving, within, Nat.le_add_right _ _⟩
  | cons occurrence rest ih =>
      have split : (occurrence :: rest).countP Occurrence.isVisit =
          [occurrence].countP Occurrence.isVisit + rest.countP Occurrence.isVisit := by
        rw [← List.countP_append]
        rfl
      rw [split] at few ⊢
      obtain ⟨left, more, serving', within', count, -⟩ := occur_serving accepted defaultPort
        registry locations apart serving within occurrence (by omega)
      obtain ⟨last, most, serving'', within'', counts⟩ := ih serving' within' (by omega)
      exact ⟨last, most, serving'', within'', by omega⟩

theorem quiet_serving (few : used.card < 2147483647) (occurrences : List Occurrence)
    (quiet : ∀ occurrence ∈ occurrences, Quiet occurrence) :
    Serving (dataRoots (acceptedLocations tree)) stored
      (hostAfter (extractServerConfig tree defaultPort registry).2 dispatcher
        (dataRoots (acceptedLocations tree)) occurrences host).data := by
  induction occurrences generalizing host with
  | nil => exact serving
  | cons occurrence rest ih =>
      obtain ⟨here, later⟩ := List.forall_mem_cons.mp quiet
      have one : [occurrence].countP Occurrence.isVisit ≤ 1 := List.countP_le_length
      obtain ⟨left, more, serving', -, -, same⟩ := occur_serving accepted defaultPort
        registry locations apart serving within occurrence (by omega)
      rw [same here] at serving'
      exact ih serving' later

variable {browser : Browser Number} {server : ServerState Number}
variable (few : used.card < 2147483647)
variable (fetches : FetchesFrom (extractServerConfig tree defaultPort registry).2 dispatcher
  (dataRoots (acceptedLocations tree)) browser host server)
variable {dataPath : Text} (locates : LocatesApi (acceptedLocations tree) dataPath)
include few fetches locates

theorem fetch_serves {path : Text} (begins : bathroomsPath <+: path)
    (noSpace : ∀ c ∈ path, isSpace c = false) :
    ∃ (isValidJson : Text → Bool) (request : Request) (response : Response),
      request.method = "GET".toList ∧ request.url = path ∧
      (route isValidJson apiPath request).Serves (stored (elements dataPath)) response ∧
      server path =
        readReply browser ("HTTP/1.1 ".toList ++ response.statusCode) response.body := by
  obtain ⟨quiet, visit, allQuiet, running, get, url, same⟩ := fetches path begins noSpace
  have still := quiet_serving accepted defaultPort registry locations apart serving within few
    quiet allQuiet
  have up : hostAfter (extractServerConfig tree defaultPort registry).2 dispatcher
      (dataRoots (acceptedLocations tree)) quiet host =
        ⟨(hostAfter (extractServerConfig tree defaultPort registry).2 dispatcher
          (dataRoots (acceptedLocations tree)) quiet host).data, true⟩ :=
    congrArg (Host.mk _) running
  rw [up] at same
  obtain ⟨handler, chosen, answered⟩ := visit_explained accepted defaultPort registry locations
    apart visit still within (by omega)
  obtain rfl := locates.chosen (by rw [url]; exact begins) chosen
  obtain ⟨escapes, -⟩ | ⟨-, response, left, sent, data, connected, responds, decodes, -⟩ :=
    answered
  · exact escapes.elim
  · obtain ⟨bytes, rfl, decoded⟩ := decodes
    rw [connected] at same
    simp only [replyOf, decoded] at same
    cases responds with
    | api dataPath urlPrefix response serves =>
        exact ⟨_, visit.request.received, response, get, url, serves, same⟩

theorem fetch_list :
    ∃ ids : List Int, ids.Pairwise (· < ·) ∧
      (∀ id, id ∈ ids ↔ stored (elements dataPath) bathrooms id ≠ none) ∧
      server bathroomsPath =
        readReply browser "HTTP/1.1 200 OK".toList (idsJson ids) := by
  obtain ⟨isValidJson, request, response, get, url, serves, same⟩ :=
    fetch_serves accepted defaultPort registry locations apart serving within few fetches locates
      (List.prefix_refl _) (noSpace_of_all path_noSpaces)
  rw [route_get (by rw [url]; exact segments_bathrooms) (by decide) get] at serves
  obtain ⟨ids, sorted, all, rfl⟩ := serves
  exact ⟨ids, sorted, all, same⟩

theorem fetch_object {id : Int} (nonneg : 0 ≤ id) (small : id < 2147483648) {data : Text}
    (held : stored (elements dataPath) bathrooms id = some data) :
    server (bathroomsPath ++ '/' :: decimal id) =
      readReply browser "HTTP/1.1 200 OK".toList data := by
  obtain ⟨isValidJson, request, response, get, url, serves, same⟩ :=
    fetch_serves accepted defaultPort registry locations apart serving within few fetches locates
      (List.prefix_append _ _) (path_noSpace nonneg)
  rw [route_get (by rw [url]; exact segments_bathroom nonneg) (by decide) get] at serves
  simp only [routeGet, Route.ofId, parseId_decimal nonneg small, Route.Serves, held] at serves
  rw [serves] at same
  exact same

variable (reads : ReadsIds browser)
include reads

theorem fetched_stored :
    ∃ ids : List Int, ids.Pairwise (· < ·) ∧
      (∀ id, id ∈ ids ↔ stored (elements dataPath) bathrooms id ≠ none) ∧
      listedIds server = ids.map (fun id => .number (browser.arithmetic.literal id.toNat)) ∧
      fetched browser.arithmetic server =
        ids.filterMap (storedBathroom browser (stored (elements dataPath))) := by
  obtain ⟨ids, sorted, all, list⟩ := fetch_list accepted defaultPort registry locations apart
    serving within few fetches locates
  have member := locates.listed
  have bounds : ∀ id ∈ ids, 0 ≤ id ∧ id < 2147483648 :=
    fun id found => keeps_bounded (serving _ member) ((all id).mp found)
  have listed : listedIds server =
      ids.map (fun id => .number (browser.arithmetic.literal id.toNat)) := by
    have ok : isOk "HTTP/1.1 200 OK".toList = true := by decide
    simp only [listedIds, fetchIds, list, readReply, ok, if_true, reads.list ids bounds, idsOf]
  refine ⟨ids, sorted, all, listed, ?_⟩
  unfold fetched
  rw [listed, List.filterMap_map]
  apply List.filterMap_congr
  intro id found
  obtain ⟨nonneg, small⟩ := bounds id found
  obtain ⟨data, held⟩ := Option.ne_none_iff_exists'.mp ((all id).mp found)
  have object := fetch_object accepted defaultPort registry locations apart serving within few
    fetches locates nonneg small held
  have ok : isOk "HTTP/1.1 200 OK".toList = true := by decide
  simp only [Function.comp_apply, received, fetchBathroom_number, reads.text id nonneg small,
    object, readReply, ok, if_true, storedBathroom, held, Option.bind_eq_bind, Option.bind_some]
  cases browser.json data with
  | none => rfl
  | some value => rfl

end Run

def LoadsStored (browser : Browser Number) (leaflet : Leaflet Number) (map : Objects)
    (server : ServerState Number) (before : Page Number) : Prop :=
  (loadBathrooms browser.arithmetic leaflet server before).1 = .finished →
    ∃ ids, DisplaysStored browser map server ids before
      (loadBathrooms browser.arithmetic leaflet server before).2

/-- Whatever a site with empty data roots of its own has been used for since it was started from
its configuration file, in fewer than 2^31 - 1 requests, a page that loads from it while it runs
and only GETs are made displays exactly what is then stored. -/
theorem page_displays_stored {readFile : Text → Option Text} {program path text : Text}
    {tree : NginxConfig} (defaultPort : Int) {dispatcher : RequestDispatcher}
    (opened : readFile path = some text) (accepted : parse text [] = some (true, tree))
    (started : (initializeFromArgs readFile [program, path] defaultPort ∅).1.dispatcher =
      some dispatcher)
    (apart : ApartRoots (dataRoots (acceptedLocations tree))) {data : FileSystem}
    (empty : ∀ root ∈ dataRoots (acceptedLocations tree), EmptyRoot root data)
    (order : IterationOrder) {dataPath : Text}
    (locates : LocatesApi (acceptedLocations tree) dataPath) (occurrences : List Occurrence)
    (few : occurrences.countP Occurrence.isVisit < 2147483647) {host : Host}
    (used : host = hostAfter (initializeFromArgs readFile [program, path] defaultPort ∅).2.2
      dispatcher (dataRoots (acceptedLocations tree)) occurrences
      ⟨constructStores order (dataRoots (acceptedLocations tree)) data, true⟩)
    {browser : Browser Number} (reads : ReadsIds browser) {server : ServerState Number}
    (fetches : FetchesFrom (initializeFromArgs readFile [program, path] defaultPort ∅).2.2
      dispatcher (dataRoots (acceptedLocations tree)) browser host server)
    (leaflet : Leaflet Number) (runs : List (Run Number)) :
    LoadsStored browser leaflet (objects (elements dataPath) host.data) server
      (pageAfter browser.arithmetic runs) := by
  obtain ⟨locations, registered⟩ := initializeFromArgs_started opened accepted started
  rw [registered] at used fetches
  have serving : Serving (dataRoots (acceptedLocations tree)) (fun _ => Objects.empty) data :=
    fun root member => ⟨(empty root member).shaped, (empty root member).objects⟩
  have within : AllWithin (dataRoots (acceptedLocations tree)) (fun _ => Objects.empty) ∅ :=
    fun _ _ _ _ stored => absurd rfl stored
  obtain ⟨stored, more, serving', within', count⟩ := @hostAfter_serving text tree accepted
    defaultPort ∅ dispatcher locations apart _
    ⟨constructStores order (dataRoots (acceptedLocations tree)) data, true⟩ ∅
    (constructStores_serving apart serving order) within occurrences
    (by rw [Finset.card_empty]; omega)
  rw [← used] at serving'
  rw [Finset.card_empty] at count
  obtain ⟨ids, sorted, all, listed, fetched⟩ := fetched_stored accepted defaultPort ∅ locations
    apart serving' within' (by omega) fetches locates reads
  have member := locates.listed
  rw [(serving' _ member).2]
  have loaded := loadBathrooms_loaded browser.arithmetic leaflet
    (pageAfter_stamped browser.arithmetic runs) server
  intro finished
  refine ⟨ids, sorted, all, ?_, ?_⟩
  · intro none
    exact loaded.unchanged finished (by rw [listed, none]; rfl)
  · intro some
    have displays := loaded.refilled finished (by rw [listed]; simpa using some)
    exact ⟨displays.bathrooms.trans fetched, displays⟩

def exampleConf : Text :=
  "server \x7b\n  listen 80; # port my server listens on\n\n".toList ++
    "  location /health \x7b\n".toList ++
    "    handler HealthHandler; # returns 200 OK with \"OK\" body\n  \x7d\n\n".toList ++
    "  location /echo \x7b\n    handler EchoHandler; # no arguments\n  \x7d\n\n".toList ++
    "  location /static \x7b\n    handler StaticHandler;\n".toList ++
    "    root /assets; # supports relative paths\n  \x7d\n\n".toList ++
    "  location /bathroom-map \x7b\n    handler StaticHandler;\n".toList ++
    "    root /assets/bathroom-map;\n  \x7d\n\n".toList ++
    "  location /api \x7b\n    handler ApiHandler;\n".toList ++
    "    data_path /mnt/crud;\n  \x7d\n\x7d\n".toList

def directive (name value : String) : NginxConfigStatement :=
  .mk [name.toList, value.toList] none

def locationBlock (path : String) (directives : NginxConfig) : NginxConfigStatement :=
  .mk ["location".toList, path.toList] (some directives)

def exampleTree : NginxConfig :=
  [.mk ["server".toList] (some
    [directive "listen" "80",
      locationBlock "/health" [directive "handler" "HealthHandler"],
      locationBlock "/echo" [directive "handler" "EchoHandler"],
      locationBlock "/static" [directive "handler" "StaticHandler", directive "root" "/assets"],
      locationBlock "/bathroom-map"
        [directive "handler" "StaticHandler", directive "root" "/assets/bathroom-map"],
      locationBlock "/api"
        [directive "handler" "ApiHandler", directive "data_path" "/mnt/crud"]])]

theorem exampleConf_accepted : parse exampleConf [] = some (true, exampleTree) := by
  decide +kernel

theorem exampleTree_locates : LocatesApi (acceptedLocations exampleTree) "/mnt/crud".toList where
  api := ⟨_, rfl, by decide +kernel, by decide +kernel⟩
  longest := by decide +kernel

def fetchRequest (path : Text) (begins : bathroomsPath <+: path)
    (noSpace : path.all (fun c => !isSpace c) = true) : ClientRequest where
  method := "GET".toList
  url := path
  headers := []
  body := []
  allowed := getShoe.allowed
  rooted := by
    obtain ⟨rest, rfl⟩ := begins
    rfl
  noSpace := noSpace_of_all noSpace

def wholeVisit (request : ClientRequest) : Visit where
  request := request
  reads := [request.text]
  around := anywhere
  whole := by simp
  before := by
    intro front back split nonempty
    have short : front = [] := by
      have length := congrArg List.length split
      have back := List.length_pos_of_ne_nil nonempty
      simp only [List.length_singleton, List.length_append] at length
      exact List.length_eq_zero_iff.mp (by omega)
    rw [short]
    rfl

def fetchNow (registry : HandlerRegistry) (dispatcher : RequestDispatcher)
    (browser : Browser Number) (host : Host) : ServerState Number := fun path =>
  if asked : bathroomsPath <+: path ∧ path.all (fun c => !isSpace c) = true then
    replyOf browser (connect registry dispatcher anywhere
      [(fetchRequest path asked.1 asked.2).text] host).1
  else .rejected

theorem fetchNow_fetches (registry : HandlerRegistry) (dispatcher : RequestDispatcher)
    (roots : List Path) (browser : Browser Number) {host : Host} (running : host.running = true) :
    FetchesFrom registry dispatcher roots browser host
      (fetchNow registry dispatcher browser host) := by
  intro path begins noSpace
  have asked : path.all (fun c => !isSpace c) = true :=
    List.all_eq_true.mpr fun c member => by simp [noSpace c member]
  refine ⟨[], wholeVisit (fetchRequest path begins asked), by simp, running, rfl, rfl, ?_⟩
  exact dif_pos (And.intro begins asked)

def powellText : Text := "\x7b\"latitude\":34,\"longitude\":-118\x7d".toList

def readIds (text : Text) : Option (Json (Option Int)) :=
  if text = [] then some (.array [])
  else ((text.splitOn ',').mapM parseId).map fun ids => .array (ids.map fun id => .number (some id))

def wholeBrowser : Browser (Option Int) where
  arithmetic := wholeNumbers
  json text :=
    if text.head? = some '[' then readIds (text.drop 1).dropLast
    else if text = powellText then
      some (.object [("latitude".toList, .number (some 34)),
        ("longitude".toList, .number (some (-118)))])
    else none

theorem mapM_parseId {ids : List Int} (bounds : ∀ id ∈ ids, 0 ≤ id ∧ id < 2147483648) :
    (ids.map decimal).mapM parseId = some ids := by
  induction ids with
  | nil => rfl
  | cons id rest ih =>
      obtain ⟨⟨nonneg, small⟩, bounds⟩ := List.forall_mem_cons.mp bounds
      simp [parseId_decimal nonneg small, ih bounds]

theorem wholeBrowser_reads : ReadsIds wholeBrowser where
  list := by
    intro ids bounds
    have inside : ((idsJson ids).drop 1).dropLast =
        List.intercalate [','] (ids.map decimal) := by
      simp [idsJson]
    have read : wholeBrowser.json (idsJson ids) = readIds ((idsJson ids).drop 1).dropLast := rfl
    rw [read, inside]
    unfold readIds
    by_cases none : ids = []
    · subst none
      rfl
    · obtain ⟨id, rest, rfl⟩ := List.exists_cons_of_ne_nil none
      have digits := decimal_ne_nil id
      have some : List.intercalate [','] ((id :: rest).map decimal) ≠ [] := by
        cases rest <;> simp [digits]
      have commaFree : ∀ numeral ∈ (id :: rest).map decimal, ',' ∉ numeral := by
        intro numeral member
        obtain ⟨other, -, rfl⟩ := List.mem_map.mp member
        exact not_mem_decimal (by decide) (by decide) other
      rw [if_neg some, List.splitOn_intercalate ',' commaFree (by simp), mapM_parseId bounds]
      have whole : ∀ other ∈ id :: rest, wholeNumbers.literal other.toNat = Option.some other := by
        intro other member
        exact congrArg Option.some (Int.toNat_of_nonneg (bounds other member).1)
      simp only [Option.map_some, wholeBrowser]
      rw [List.map_congr_left fun other member => by rw [← whole other member]]
  text := by
    intro id nonneg small
    obtain ⟨n, rfl⟩ := Int.eq_ofNat_of_zero_le nonneg
    rw [decimal_natCast]
    have text : wholeBrowser.arithmetic.toText (wholeBrowser.arithmetic.literal (n : Int).toNat) =
        (Nat.repr n).toList := rfl
    rw [text]
    simp [Nat.repr]

def postPowell : ClientRequest where
  method := "POST".toList
  url := bathroomsPath
  headers := []
  body := powellText
  allowed := postShoe.allowed
  rooted := rfl
  noSpace := noSpace_of_all path_noSpaces

def campusDispatcher : RequestDispatcher :=
  ⟨(extractServerConfig exampleTree 80 ∅).1.locations⟩

def campusRegistry : HandlerRegistry := (extractServerConfig exampleTree 80 ∅).2

theorem campus_started : (initializeFromArgs (fun _ => some exampleConf)
    ["server".toList, "example.conf".toList] 80 ∅).1.dispatcher = some campusDispatcher := by
  rw [initializeFromArgs_accepted (fun _ => some exampleConf) "server".toList
    "example.conf".toList exampleConf exampleTree 80 ∅ rfl exampleConf_accepted]
  rfl

theorem campus_registered : (initializeFromArgs (fun _ => some exampleConf)
    ["server".toList, "example.conf".toList] 80 ∅).2.2 = campusRegistry := by
  have started := @initializeFromArgs_started (fun _ => some exampleConf) "server".toList
    "example.conf".toList exampleConf exampleTree 80 ∅ campusDispatcher rfl exampleConf_accepted
    campus_started
  exact started.2

def campusHost : Host :=
  hostAfter campusRegistry campusDispatcher (dataRoots (acceptedLocations exampleTree))
    [.visit (wholeVisit postPowell)]
    ⟨constructStores Lib.Sorting.Arrangement.plain (dataRoots (acceptedLocations exampleTree)) ∅,
      true⟩

theorem campusHost_running : campusHost.running = true := by
  decide +kernel

theorem page_displays_stored_campus :
    LoadsStored wholeBrowser addingAll (objects (elements "/mnt/crud".toList) campusHost.data)
      (fetchNow campusRegistry campusDispatcher wholeBrowser campusHost)
      (pageAfter wholeNumbers []) := by
  have roots : dataRoots (acceptedLocations exampleTree) = [elements "/mnt/crud".toList] := by
    decide +kernel
  have apart : ApartRoots (dataRoots (acceptedLocations exampleTree)) := by
    rw [roots]
    intro root member other listed
    rw [List.mem_singleton.mp member, List.mem_singleton.mp listed]
    exact Or.inl rfl
  have few : [Occurrence.visit (wholeVisit postPowell)].countP Occurrence.isVisit < 2147483647 :=
    Nat.lt_of_le_of_lt List.countP_le_length (by decide)
  have used : campusHost = hostAfter (initializeFromArgs (fun _ => some exampleConf)
      ["server".toList, "example.conf".toList] 80 ∅).2.2 campusDispatcher
      (dataRoots (acceptedLocations exampleTree)) [.visit (wholeVisit postPowell)]
      ⟨constructStores Lib.Sorting.Arrangement.plain (dataRoots (acceptedLocations exampleTree)) ∅,
        true⟩ := by
    rw [campus_registered]
    rfl
  have fetches : FetchesFrom (initializeFromArgs (fun _ => some exampleConf)
      ["server".toList, "example.conf".toList] 80 ∅).2.2 campusDispatcher
      (dataRoots (acceptedLocations exampleTree)) wholeBrowser campusHost
      (fetchNow campusRegistry campusDispatcher wholeBrowser campusHost) := by
    rw [campus_registered]
    exact fetchNow_fetches _ _ _ _ campusHost_running
  exact @page_displays_stored (Option Int) (fun _ => some exampleConf) "server".toList
    "example.conf".toList exampleConf exampleTree 80 campusDispatcher rfl exampleConf_accepted
    campus_started apart ∅ (fun root _ => empty_emptyRoot root)
    Lib.Sorting.Arrangement.plain "/mnt/crud".toList exampleTree_locates
    [.visit (wholeVisit postPowell)] few campusHost used wholeBrowser wholeBrowser_reads _
    fetches addingAll []

end BathroomRatings.BathroomMap
