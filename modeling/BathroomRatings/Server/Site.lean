import BathroomRatings.Http.Visit
import BathroomRatings.Server.Handlers
import BathroomRatings.Server.Process
import BathroomRatings.Server.Startup

/-!
# The whole site

A server started from a configuration file, over whole runs: clients that send the bytes of
a request on a connection of their own, connections that never bring a valid request, and
restarts.  What every client decodes is what the configured handlers answer by what the file
system replies to them and by the objects that the requests before have left.  An exception
that the file handler lets out ends the process until it is started again.
-/

set_option autoImplicit false

namespace BathroomRatings.Server

open BathroomRatings.Config BathroomRatings.Http BathroomRatings.Http.RequestParser
open BathroomRatings.Lib BathroomRatings.Lib.Interface BathroomRatings.Store
open BathroomRatings.Store.FileSystem

structure Visit where
  request : ClientRequest
  reads : List Text
  around : Surroundings
  whole : reads.flatten = request.text
  before : ∀ front back, reads = front ++ back → back ≠ [] → isComplete front.flatten = false

structure Noise where
  reads : List Text
  around : Surroundings
  nothing : BringsNothing reads

inductive Occurrence where
  | visit (visit : Visit)
  | noise (noise : Noise)
  | restart (order : IterationOrder)

def Occurrence.isVisit : Occurrence → Bool
  | .visit _ => true
  | _ => false

def site (registry : HandlerRegistry) (dispatcher : RequestDispatcher) (around : Surroundings) :
    Http.RequestDispatcher Host where
  createHandler url :=
    ⟨fun request host =>
      (dispatcher.createHandler registry url).handleRequest around request host⟩

def dataRoots (locations : List LocationConfig) : List Path :=
  locations.filterMap fun location =>
    if location.handlerName = "ApiHandler".toList then
      some (elements ((location.args.get "data_path".toList).getD ['.']))
    else none

/-- The stores are constructed while the configuration is read. -/
def constructStores (order : IterationOrder) (roots : List Path) (data : FileSystem) :
    FileSystem :=
  roots.foldl (fun data root =>
    (((EntityStorePersistent.construct root).run (perform order) data).map Prod.snd).getD data)
    data

section Run

variable (registry : HandlerRegistry) (dispatcher : RequestDispatcher) (roots : List Path)

/-- What is sent on a connection, and the host afterwards.  None is accepted where no process
runs. -/
def connect (around : Surroundings) (reads : List Text) (host : Host) : List Text × Host :=
  if host.running then
    let (effects, host) := converse (site registry dispatcher around) Host.running reads
      (Session.fresh host)
    (responses effects, host)
  else ([], host)

def occur : Occurrence → Host → List Text × Host
  | .visit visit, host => connect registry dispatcher visit.around visit.reads host
  | .noise noise, host => connect registry dispatcher noise.around noise.reads host
  | .restart order, host => ([], ⟨constructStores order roots host.data, true⟩)

def runSite : List Occurrence → Host → List (List Text)
  | [], _ => []
  | occurrence :: rest, host =>
      (occur registry dispatcher roots occurrence host).1 ::
        runSite rest (occur registry dispatcher roots occurrence host).2

end Run

/-! ## What should happen -/

/-- The handler for a url: of the last location at the longest path that begins it. -/
def Chosen (locations : List LocationConfig) (url : Text) (handler : CreatedHandler) : Prop :=
  ((∀ location ∈ locations, ¬ location.path <+: url) ∧ handler = .notFound) ∨
    ∃ path location, LongestPath locations url path ∧ lastAt locations path = some location ∧
      Configured location handler

def Decodes (sent : List Text) (response : Response) : Prop :=
  ∃ bytes, sent = [bytes] ∧
    decodeResponse bytes = some ⟨"HTTP/1.1 ".toList ++ response.statusCode, response.headers,
      response.body⟩

/-- What is sent on every connection, as the process runs or has ended. -/
def SiteExplains (locations : List LocationConfig) :
    Bool → Stored → List Occurrence → List (List Text) → Prop
  | _, _, [], [] => True
  | true, stored, .visit visit :: rest, sent :: more =>
      ∃ handler, Chosen locations visit.request.url handler ∧
        ((Escapes visit.around visit.request.received handler ∧ sent = [] ∧
            SiteExplains locations false stored rest more) ∨
          (¬ Escapes visit.around visit.request.received handler ∧ ∃ response left,
            Responds visit.around stored visit.request.received handler response left ∧
            Decodes sent response ∧ SiteExplains locations true left rest more))
  | true, stored, .noise _ :: rest, sent :: more =>
      (∀ bytes ∈ sent, bytes = rejection) ∧ SiteExplains locations true stored rest more
  | false, stored, .visit _ :: rest, sent :: more =>
      sent = [] ∧ SiteExplains locations false stored rest more
  | false, stored, .noise _ :: rest, sent :: more =>
      sent = [] ∧ SiteExplains locations false stored rest more
  | _, stored, .restart _ :: rest, sent :: more =>
      sent = [] ∧ SiteExplains locations true stored rest more
  | _, _, _, _ => False

section Dispatch

variable {text : Text} {tree : NginxConfig} (accepted : parse text [] = some (true, tree))
variable (defaultPort : Int) (registry : HandlerRegistry) {dispatcher : RequestDispatcher}
include accepted

theorem createHandler_chosen (locations : dispatcher.locations = acceptedLocations tree)
    (url : Text) :
    Chosen (acceptedLocations tree) url
      (dispatcher.createHandler (extractServerConfig tree defaultPort registry).2 url) := by
  have filled := parse_filled text true tree accepted
  have candidates := dispatcher.findBestMatch_cases url
  rw [locations] at candidates
  rcases candidates with ⟨nothing, empty⟩ | ⟨best, chosen, member, begins, most⟩
  · left
    constructor
    · intro location member begins
      exact filled _ (acceptedLocations_spec member).2 (empty location member begins)
    · simp [RequestDispatcher.createHandler, nothing, HandlerFactory.create]
  · right
    obtain ⟨last, factory, found, registered, configured⟩ :=
      registered_at member defaultPort registry
    refine ⟨best.path, last, ⟨⟨best, member, rfl⟩, begins, most⟩, found, ?_⟩
    simp only [RequestDispatcher.createHandler, chosen, registered]
    exact configured

end Dispatch

/-- The store of a chosen handler is one of those that were constructed. -/
theorem Chosen.listed {locations : List LocationConfig} {url dataPath urlPrefix : Text}
    (chosen : Chosen locations url (.api dataPath urlPrefix)) :
    elements dataPath ∈ dataRoots locations := by
  rcases chosen with ⟨_, notFound⟩ | ⟨path, location, _, found, configured⟩
  · exact absurd notFound (by simp)
  · have member : location ∈ locations := by
      have inside := List.mem_of_getLast? found
      exact List.mem_of_mem_filter inside
    cases configured with
    | api name =>
        refine List.mem_filterMap.mpr ⟨location, member, ?_⟩
        rw [if_pos name]

theorem construct_serving {roots : List Path} (apart : ApartRoots roots) {stored : Stored}
    {data : FileSystem} (serving : Serving roots stored data) (order : IterationOrder)
    {root : Path} (member : root ∈ roots) :
    Serving roots stored
      ((((EntityStorePersistent.construct root).run (perform order) data).map
        Prod.snd).getD data) := by
  obtain ⟨made, ran, shaped, same⟩ := construct_run (serving root member).1 order
  rw [ran]
  intro other listed
  rcases apart.sideBySide member listed with rfl | aside
  · exact ⟨shaped, same.trans (serving root member).2⟩
  · exact (construct_confined root order ran).keeps aside (serving other listed)

theorem constructStores_serving {roots : List Path} (apart : ApartRoots roots)
    {stored : Stored} {data : FileSystem} (serving : Serving roots stored data)
    (order : IterationOrder) :
    Serving roots stored (constructStores order roots data) := by
  have all : ∀ some : List Path, some ⊆ roots → ∀ data, Serving roots stored data →
      Serving roots stored (constructStores order some data) := by
    intro some inside
    induction some with
    | nil => exact fun data serving => serving
    | cons root rest ih =>
        intro data serving
        exact ih (fun other member => inside (List.mem_cons_of_mem root member)) _
          (construct_serving apart serving order (inside List.mem_cons_self))
  exact all roots (fun _ member => member) data serving

theorem responses_reads (count : Nat) (more : List Effect) :
    responses (List.replicate count .asyncRead ++ more) = responses more := by
  induction count with
  | zero => rfl
  | succ count ih => exact ih

theorem noise_explained (registry : HandlerRegistry) (dispatcher : RequestDispatcher)
    (noise : Noise) (data : FileSystem) :
    ∃ sent, connect registry dispatcher noise.around noise.reads ⟨data, true⟩ =
        (sent, ⟨data, true⟩) ∧ ∀ bytes ∈ sent, bytes = rejection := by
  obtain ⟨effects, kept⟩ := noise.nothing.converse (site registry dispatcher noise.around)
    Host.running (rfl : Host.running ⟨data, true⟩ = true)
  refine ⟨_, Prod.ext rfl kept, ?_⟩
  intro bytes member
  obtain ⟨effect, inside, found⟩ := List.mem_filterMap.mp member
  rcases effects effect inside with rfl | rfl
  · exact absurd found (by simp [sentResponse])
  · exact (Option.some.inj found).symm

section Run

variable {text : Text} {tree : NginxConfig} (accepted : parse text [] = some (true, tree))
variable (defaultPort : Int) (registry : HandlerRegistry) {dispatcher : RequestDispatcher}
variable (locations : dispatcher.locations = acceptedLocations tree)
variable (apart : ApartRoots (dataRoots (acceptedLocations tree)))
include accepted locations apart

theorem visit_explained (visit : Visit) {stored : Stored} {data : FileSystem}
    {used : Finset Int}
    (serving : Serving (dataRoots (acceptedLocations tree)) stored data)
    (within : AllWithin (dataRoots (acceptedLocations tree)) stored used)
    (few : used.card < 2147483648) :
    ∃ handler, Chosen (acceptedLocations tree) visit.request.url handler ∧
      ((Escapes visit.around visit.request.received handler ∧
          connect (extractServerConfig tree defaultPort registry).2 dispatcher visit.around
            visit.reads ⟨data, true⟩ = ([], ⟨data, false⟩)) ∨
        (¬ Escapes visit.around visit.request.received handler ∧ ∃ response left sent data',
          connect (extractServerConfig tree defaultPort registry).2 dispatcher visit.around
            visit.reads ⟨data, true⟩ = (sent, ⟨data', true⟩) ∧
          Responds visit.around stored visit.request.received handler response left ∧
          Decodes sent response ∧
          Serving (dataRoots (acceptedLocations tree)) left data' ∧
          ∃ more, AllWithin (dataRoots (acceptedLocations tree)) left more ∧
            more.card ≤ used.card + 1)) := by
  have chosen := createHandler_chosen accepted defaultPort registry locations visit.request.url
  refine ⟨_, chosen, ?_⟩
  have completes : Completes visit.reads := ⟨by rw [visit.whole]; exact visit.request.text_complete,
    visit.before⟩
  have received : parsed visit.reads.flatten = visit.request.received := by
    rw [visit.whole]
    exact visit.request.parsed_text
  have conversed := completes.converse
    (site (extractServerConfig tree defaultPort registry).2 dispatcher visit.around) Host.running
    (by rw [received]; rfl) (rfl : Host.running ⟨data, true⟩ = true)
  rw [received] at conversed
  simp only [connect, if_true, conversed]
  rcases @handler_responds _ stored ⟨data, true⟩ used apart serving within few visit.around
    visit.request.received
    (dispatcher.createHandler (extractServerConfig tree defaultPort registry).2
      visit.request.url) (by
        intro dataPath urlPrefix same
        rw [same] at chosen
        exact chosen.listed) with
    ⟨escapes, handled⟩ | ⟨returns, response, left, data', handled, responds, serving', more⟩
  · have result : handlerResult
        (site (extractServerConfig tree defaultPort registry).2 dispatcher visit.around)
        visit.request.received ⟨data, true⟩ = (none, ⟨data, false⟩) := handled
    refine Or.inl ⟨escapes, ?_⟩
    rw [handledEffects, result, if_neg (by simp), responses_reads]
    rfl
  · have result : handlerResult
        (site (extractServerConfig tree defaultPort registry).2 dispatcher visit.around)
        visit.request.received ⟨data, true⟩ = (some response, ⟨data', true⟩) := handled
    refine Or.inr ⟨returns, response, left, [serializeResponse (some response)], data', ?_,
      responds, ⟨_, rfl, responds.built.decode⟩, serving', more⟩
    rw [handledEffects, result, if_pos rfl, responses_reads]
    rfl

theorem runSite_explained (occurrences : List Occurrence) {stored : Stored} {data : FileSystem}
    (running : Bool) {used : Finset Int}
    (serving : Serving (dataRoots (acceptedLocations tree)) stored data)
    (within : AllWithin (dataRoots (acceptedLocations tree)) stored used)
    (few : used.card + occurrences.countP Occurrence.isVisit ≤ 2147483647) :
    SiteExplains (acceptedLocations tree) running stored occurrences
      (runSite (extractServerConfig tree defaultPort registry).2 dispatcher
        (dataRoots (acceptedLocations tree)) occurrences ⟨data, running⟩) := by
  induction occurrences generalizing stored data running used with
  | nil => cases running <;> trivial
  | cons occurrence rest ih =>
      rw [List.countP_cons] at few
      cases occurrence with
      | restart order =>
          have serving' := constructStores_serving apart serving order
          have further := ih true serving' within (by simpa [Occurrence.isVisit] using few)
          cases running <;> exact ⟨rfl, further⟩
      | visit visit =>
          simp only [Occurrence.isVisit, if_true] at few
          cases running with
          | false => exact ⟨rfl, ih false serving within (by omega)⟩
          | true =>
              obtain ⟨handler, chosen, ⟨escapes, connected⟩ | ⟨returns, response, left, sent,
                data', connected, responds, decodes, serving', more, within', count⟩⟩ :=
                  visit_explained accepted defaultPort registry locations apart visit serving
                    within (by omega)
              · simp only [runSite, occur, connected]
                exact ⟨handler, chosen, Or.inl ⟨escapes, rfl, ih false serving within (by omega)⟩⟩
              · simp only [runSite, occur, connected]
                exact ⟨handler, chosen, Or.inr ⟨returns, response, left, responds, decodes,
                  ih true serving' within' (by omega)⟩⟩
      | noise noise =>
          have room : used.card + rest.countP Occurrence.isVisit ≤ 2147483647 := by
            simpa [Occurrence.isVisit] using few
          cases running with
          | false => exact ⟨rfl, ih false serving within room⟩
          | true =>
              obtain ⟨sent, connected, rejected⟩ := noise_explained
                (extractServerConfig tree defaultPort registry).2 dispatcher noise data
              simp only [runSite, occur, connected]
              exact ⟨rejected, ih true serving within room⟩

end Run

/-! ## The program -/

theorem initializeFromArgs_started {readFile : Text → Option Text} {program path text : Text}
    {tree : NginxConfig} {defaultPort : Int} {registry : HandlerRegistry}
    {dispatcher : RequestDispatcher} (opened : readFile path = some text)
    (accepted : parse text [] = some (true, tree))
    (started : (initializeFromArgs readFile [program, path] defaultPort registry).1.dispatcher =
      some dispatcher) :
    dispatcher.locations = acceptedLocations tree ∧
      (initializeFromArgs readFile [program, path] defaultPort registry).2.2 =
        (extractServerConfig tree defaultPort registry).2 := by
  have loaded : loadConfigFromFile (readFile path) = (true, tree) := by
    rw [opened]
    simp only [loadConfigFromFile, accepted, Option.getD_some]
  have arguments : validateArguments [program, path].length = true := rfl
  have second : [program, path].getD 1 [] = path := rfl
  have added := (extractServerConfig_adds tree defaultPort registry).locations
  rw [List.nil_append] at added
  simp only [initializeFromArgs, arguments, if_true, second, loaded, initializeDispatcher]
    at started ⊢
  cases initialised : RequestDispatcher.initFromServerConfig
      (extractServerConfig tree defaultPort registry).1 ⟨[]⟩ with
  | mk success made =>
      cases success with
      | false =>
          rw [initialised] at started
          exact absurd started (by simp [ServerInitResult.invalid])
      | true =>
          rw [initialised] at started
          obtain rfl := Option.some.inj started
          exact ⟨(initFromServerConfig_spec initialised).trans added, rfl⟩

def shopText : Text :=
  "server \x7b listen 80; location /api \x7b handler ApiHandler; data_path data; \x7d ".toList ++
    "location /static \x7b handler StaticHandler; root www; \x7d ".toList ++
    "location / \x7b handler EchoHandler; \x7d \x7d".toList

def shopTree : NginxConfig :=
  [.mk ["server".toList] (some [.mk ["listen".toList, "80".toList] none,
    .mk ["location".toList, "/api".toList]
      (some [.mk ["handler".toList, "ApiHandler".toList] none,
        .mk ["data_path".toList, "data".toList] none]),
    .mk ["location".toList, "/static".toList]
      (some [.mk ["handler".toList, "StaticHandler".toList] none,
        .mk ["root".toList, "www".toList] none]),
    .mk ["location".toList, "/".toList]
      (some [.mk ["handler".toList, "EchoHandler".toList] none])])]

def shopDispatcher : RequestDispatcher := ⟨(extractServerConfig shopTree 80 ∅).1.locations⟩

def throwing : Handler Files.Query Files.Query.Reply Nat := fun count query =>
  match query with
  | .exists _ => (.error .thrown, count)
  | .canonical _ => (.error .thrown, count)
  | .isDirectory _ => (.error .thrown, count)
  | .readFile _ => (none, count)

def anywhere : Surroundings := ⟨.plain, throwing, fun _ => true, .plain⟩

def postShoe : ClientRequest where
  method := "POST".toList
  url := "/api/Shoes".toList
  headers := []
  body := "[1,2]".toList
  allowed := by decide
  rooted := rfl
  noSpace := by simp [isSpace]

def getShoe : ClientRequest where
  method := "GET".toList
  url := "/api/Shoes/0".toList
  headers := []
  body := []
  allowed := by decide
  rooted := rfl
  noSpace := by simp [isSpace]

def getPage : ClientRequest where
  method := "GET".toList
  url := "/static/page".toList
  headers := []
  body := []
  allowed := getShoe.allowed
  rooted := rfl
  noSpace := by simp [isSpace]

def cutVisit (request : ClientRequest)
    (incomplete : ∀ count < 2, isComplete
      ([request.text.take 7, request.text.drop 7].take count).flatten = false) : Visit where
  request := request
  reads := [request.text.take 7, request.text.drop 7]
  around := anywhere
  whole := by simp
  before := before_of_take incomplete

/-- An object is stored, a page ends the process, and behind a restart the object is read. -/
def shopDay : List Occurrence :=
  [.visit (cutVisit postShoe (by decide +kernel)), .visit (cutVisit getPage (by decide +kernel)),
    .restart Sorting.Arrangement.plain, .visit (cutVisit getShoe (by decide +kernel))]

end BathroomRatings.Server
