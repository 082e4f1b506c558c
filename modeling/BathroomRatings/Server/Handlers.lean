import BathroomRatings.Api.Footprint
import BathroomRatings.Api.Service
import BathroomRatings.Files.Exceptions
import BathroomRatings.Http.RoundTrip
import BathroomRatings.Server.Dispatcher
import BathroomRatings.Store.Roots

/-!
# The handlers of the server

Every handler the dispatcher creates, on the data of the stores.  The file handler gets
whatever replies the file system gives to its queries, and an exception that it lets out
ends the process.  The calls of the stores succeed where the data permits them.
-/

set_option autoImplicit false

namespace BathroomRatings.Server

open BathroomRatings.Http BathroomRatings.Lib BathroomRatings.Lib.Interface
open BathroomRatings.Store BathroomRatings.Store.FileSystem

/-- What a request meets that is not the server's: the library for paths, the replies to the
queries of the file handler, the parser for JSON, and the way of the stores' calls. -/
structure Surroundings where
  library : Files.PathLibrary
  replies : Handler Files.Query Files.Query.Reply Nat
  isValidJson : Text → Bool
  environment : Environment

/-- The process, and the data of the stores, which stays when it has ended. -/
structure Host where
  data : FileSystem
  running : Bool

/-- A handler that throws or does not end gives no response. -/
def CreatedHandler.handleRequest (around : Surroundings) (request : Request) (host : Host) :
    CreatedHandler → Option Response × Host
  | .echo => (some (ResponseBuilder.ok request.rawRequest "text/plain".toList), host)
  | .file baseDir urlPrefix =>
      match (Files.handleRequest around.library baseDir urlPrefix request).run.run
          around.replies 0 with
      | some (.ok response, _) => (some response, host)
      | _ => (none, { host with running := false })
  | .notFound => (some ResponseBuilder.defaultNotFound, host)
  | .health => (some (ResponseBuilder.ok "OK".toList "text/plain".toList), host)
  | .sleep =>
      (some (ResponseBuilder.ok "Slept for 3 seconds.".toList "text/plain".toList), host)
  | .api dataPath urlPrefix =>
      match (Api.handleRequest
          (entityStorePersistent (elements dataPath) around.environment.buffering)
          around.isValidJson urlPrefix request).run (perform around.environment.order)
          host.data with
      | some (response, data) => (some response, { host with data })
      | none => (none, host)

abbrev Stored := Path → Objects

/-- What a handler answers, and the objects it leaves. -/
inductive Responds (around : Surroundings) (stored : Stored) (request : Request) :
    CreatedHandler → Response → Stored → Prop
  | echo : Responds around stored request .echo
      (ResponseBuilder.ok request.rawRequest "text/plain".toList) stored
  | file (baseDir urlPrefix : Text) (response : Response) (final : Nat)
      (answered : (Files.handleRequest around.library baseDir urlPrefix request).run.run
        around.replies 0 = some (.ok response, final)) :
      Responds around stored request (.file baseDir urlPrefix) response stored
  | notFound : Responds around stored request .notFound ResponseBuilder.defaultNotFound stored
  | health : Responds around stored request .health
      (ResponseBuilder.ok "OK".toList "text/plain".toList) stored
  | sleep : Responds around stored request .sleep
      (ResponseBuilder.ok "Slept for 3 seconds.".toList "text/plain".toList) stored
  | api (dataPath urlPrefix : Text) (response : Response)
      (serves : (Api.route around.isValidJson urlPrefix request).Serves
        (stored (elements dataPath)) response) :
      Responds around stored request (.api dataPath urlPrefix) response
        (Function.update stored (elements dataPath)
          ((Api.route around.isValidJson urlPrefix request).objectsAfter
            (stored (elements dataPath)) response))

def Escapes (around : Surroundings) (request : Request) : CreatedHandler → Prop
  | .file baseDir urlPrefix =>
      Files.firstReply around.library baseDir urlPrefix request around.replies 0 =
        .error .thrown
  | _ => False

theorem built_ok (body contentType : Text) (typeFree : BreakFree contentType) :
    Built (ResponseBuilder.ok body contentType) :=
  .formatted _ _ _ (by simp [BreakFree]) typeFree

theorem built_notFound (message : Text) : Built (ResponseBuilder.notFound message) :=
  .formatted _ _ _ (by simp [BreakFree]) (by simp [BreakFree])

theorem built_badRequest (message : Text) : Built (ResponseBuilder.badRequest message) :=
  .formatted _ _ _ (by simp [BreakFree]) (by simp [BreakFree])

theorem built_internalServerError (message : Text) :
    Built (ResponseBuilder.internalServerError message) :=
  .formatted _ _ _ (by simp [BreakFree]) (by simp [BreakFree])

theorem contentType_breakFree (library : Files.PathLibrary) (filepath : Text) :
    BreakFree (Files.getContentType library filepath) := by
  have known : ∀ known ∈ Files.contentTypes, '\r' ∉ known.2.toList ∧ '\n' ∉ known.2.toList := by
    decide
  unfold Files.getContentType
  split
  · rename_i extension contentType found
    exact known _ (List.mem_of_find?_eq_some found)
  · simp [BreakFree]

theorem met_built (library : Files.PathLibrary) : Files.MetByAnswers library Built where
  ok content path := built_ok content _ (contentType_breakFree library path)
  forbidden := .formatted _ _ _ (by simp [BreakFree]) (by simp [BreakFree])
  notFound := built_notFound _

theorem built_file {around : Surroundings} {request : Request} {baseDir urlPrefix : Text}
    {response : Response} {final : Nat}
    (answered : (Files.handleRequest around.library baseDir urlPrefix request).run.run
      around.replies 0 = some (.ok response, final)) : Built response := by
  cases replied : Files.firstReply around.library baseDir urlPrefix request around.replies 0 with
  | error failure =>
      cases failure
      obtain ⟨other, escaped⟩ := Files.run_of_thrown replied
      rw [answered] at escaped
      exact absurd escaped (by simp)
  | ok found =>
      obtain ⟨other, last, ran, built⟩ := Files.run_of_replied (met_built around.library) replied
      rw [answered] at ran
      obtain ⟨same, -⟩ := Prod.mk.inj (Option.some.inj ran)
      rw [Except.ok.inj same]
      exact built

def RejectsBuilt : Api.Route → Prop
  | .rejected answer => Built answer
  | _ => True

theorem rejectsBuilt_ofId {segment : Text} {next : Int → Api.Route}
    (further : ∀ id, RejectsBuilt (next id)) : RejectsBuilt (Api.Route.ofId segment next) := by
  unfold Api.Route.ofId
  split
  · exact built_badRequest _
  · exact further _

theorem rejectsBuilt_ofBody {isValidJson : Text → Bool} {body : Text} {next : Api.Route}
    (further : RejectsBuilt next) : RejectsBuilt (Api.Route.ofBody isValidJson body next) := by
  unfold Api.Route.ofBody
  split
  · exact further
  · exact built_badRequest _

theorem route_rejectsBuilt (isValidJson : Text → Bool) (urlPrefix : Text) (request : Request) :
    RejectsBuilt (Api.route isValidJson urlPrefix request) := by
  unfold Api.route
  split
  · exact built_badRequest _
  · rename_i entityName rest target
    split
    · exact built_badRequest _
    · split
      · cases rest with
        | nil => exact rejectsBuilt_ofBody trivial
        | cons segment more => exact built_badRequest _
      · split
        · cases rest with
          | nil => trivial
          | cons segment more => exact rejectsBuilt_ofId fun id => trivial
        · split
          · rcases rest with _ | ⟨segment, _ | ⟨extra, more⟩⟩
            · exact built_badRequest _
            · exact rejectsBuilt_ofId fun id => rejectsBuilt_ofBody trivial
            · exact built_badRequest _
          · split
            · rcases rest with _ | ⟨segment, _ | ⟨extra, more⟩⟩
              · exact built_badRequest _
              · exact rejectsBuilt_ofId fun id => trivial
              · exact built_badRequest _
            · exact .formatted _ _ _ (by simp [BreakFree]) (by simp [BreakFree])

theorem built_serves {taken : Api.Route} {map : Objects} {response : Response}
    (rejects : RejectsBuilt taken) (serves : taken.Serves map response) : Built response := by
  have json : ∀ body, Built (ResponseBuilder.ok body Api.jsonContentType) :=
    fun body => built_ok body Api.jsonContentType ⟨by decide, by decide⟩
  have missing : Built Api.entityNotFound := built_notFound _
  cases taken with
  | rejected answer =>
      obtain rfl : response = answer := serves
      exact rejects
  | create entityName data =>
      obtain ⟨id, _, rfl⟩ := serves
      exact json _
  | read entityName id =>
      simp only [Api.Route.Serves] at serves
      rw [serves]
      split
      · exact json _
      · exact missing
  | list entityName =>
      obtain ⟨ids, _, _, rfl⟩ := serves
      exact json _
  | update entityName id data =>
      simp only [Api.Route.Serves] at serves
      rw [serves]
      split
      · exact json _
      · exact built_internalServerError _
  | delete entityName id =>
      simp only [Api.Route.Serves] at serves
      rw [serves]
      split
      · exact json _
      · exact missing

theorem Responds.built {around : Surroundings} {stored left : Stored} {request : Request}
    {handler : CreatedHandler} {response : Response}
    (responds : Responds around stored request handler response left) : Built response := by
  cases responds with
  | echo => exact built_ok _ _ (by simp [BreakFree])
  | file baseDir urlPrefix response final answered => exact built_file answered
  | notFound => exact built_notFound _
  | health => exact built_ok _ _ (by simp [BreakFree])
  | sleep => exact built_ok _ _ (by simp [BreakFree])
  | api dataPath urlPrefix response serves =>
      exact built_serves (route_rejectsBuilt _ _ _) serves

/-! ## Stores side by side -/

theorem api_confined {isValidJson : Text → Bool} {urlPrefix : Text} {request : Request}
    {root : Path} {environment : Environment} {fs fs' : FileSystem} {response : Response}
    (ran : (Api.handleRequest (entityStorePersistent root environment.buffering) isValidJson
      urlPrefix request).run (perform environment.order) fs = some (response, fs')) :
    Confined root fs fs' := by
  refine run_related (confined_refl root) (confined_trans root) ?_ ran
  intro command member fs
  rw [Api.handleRequest_eq_serve, Api.trace_serve] at member
  cases calls : (Api.route isValidJson urlPrefix request).call with
  | none =>
      rw [calls] at member
      exact absurd member List.not_mem_nil
  | some call =>
      rw [calls] at member
      obtain ⟨_, directory | file⟩ := Api.trace_on _ _ root environment.buffering call command
        member
      · exact perform_confined environment.order fs (directory.2 ▸ List.prefix_append _ _)
      · obtain ⟨_, id, _, path⟩ := file
        exact perform_confined environment.order fs (path ▸ List.prefix_append _ _)

def Serving (roots : List Path) (stored : Stored) (data : FileSystem) : Prop :=
  ∀ root ∈ roots, Keeps root (stored root) data

/-- The ids that any of the stores uses are among some few. -/
def AllWithin (roots : List Path) (stored : Stored) (used : Finset Int) : Prop :=
  ∀ root ∈ roots, (stored root).Within used

/-- A dot leads nowhere. -/
def undotted (root : Path) : Path := root.filter (· ≠ ['.'])

/-- Wherever the working directory is, neither of two directories lies inside the other: both
paths are absolute or both are not, and neither goes up. -/
structure ApartPaths (root other : Path) : Prop where
  sideBySide : SideBySide (undotted root) (undotted other)
  down : ['.', '.'] ∉ root ++ other
  alike : root.head? = some ['/'] ↔ other.head? = some ['/']

def ApartRoots (roots : List Path) : Prop :=
  ∀ root ∈ roots, ∀ other ∈ roots, root = other ∨ ApartPaths root other

theorem ApartRoots.sideBySide {roots : List Path} (apart : ApartRoots roots) {root other : Path}
    (first : root ∈ roots) (second : other ∈ roots) : root = other ∨ SideBySide root other := by
  rcases apart root first other second with same | ⟨⟨forth, back⟩, -, -⟩
  · exact Or.inl same
  · exact Or.inr ⟨fun inside => forth (inside.filter _), fun inside => back (inside.filter _)⟩

theorem file_cases (around : Surroundings) (stored : Stored) (request : Request) (host : Host)
    (baseDir urlPrefix : Text) :
    (Escapes around request (.file baseDir urlPrefix) ∧
      CreatedHandler.handleRequest around request host (.file baseDir urlPrefix) =
        (none, { host with running := false })) ∨
    ∃ response, ¬ Escapes around request (.file baseDir urlPrefix) ∧
      CreatedHandler.handleRequest around request host (.file baseDir urlPrefix) =
        (some response, host) ∧
      Responds around stored request (.file baseDir urlPrefix) response stored := by
  cases replied : Files.firstReply around.library baseDir urlPrefix request around.replies 0 with
  | error failure =>
      cases failure
      obtain ⟨final, escaped⟩ := Files.run_of_thrown replied
      refine Or.inl ⟨replied, ?_⟩
      simp only [CreatedHandler.handleRequest, escaped]
  | ok found =>
      obtain ⟨response, final, ran, -⟩ :=
        Files.run_of_replied (met_built around.library) replied
      refine Or.inr ⟨response, ?_, ?_, .file baseDir urlPrefix response final ran⟩
      · intro escapes
        exact absurd (replied.symm.trans escapes) (by simp)
      · simp only [CreatedHandler.handleRequest, ran]

/-- What a handler answers is sent, and the stores are ready for the next request. -/
def RespondsTo (roots : List Path) (stored : Stored) (host : Host) (used : Finset Int)
    (around : Surroundings) (request : Request) (handler : CreatedHandler) : Prop :=
  ∃ response left data,
    handler.handleRequest around request host = (some response, { host with data }) ∧
    Responds around stored request handler response left ∧
    Serving roots left data ∧
    ∃ more, AllWithin roots left more ∧ more.card ≤ used.card + 1

section Respond

variable {roots : List Path} {stored : Stored} {host : Host} {used : Finset Int}
variable (apart : ApartRoots roots) (serving : Serving roots stored host.data)
variable (within : AllWithin roots stored used) (few : used.card < 2147483648)
variable (around : Surroundings) (request : Request)
include apart serving within few

/-- A store answers as its own objects ask for, and the others keep theirs. -/
theorem api_responds (dataPath urlPrefix : Text) (listed : elements dataPath ∈ roots) :
    RespondsTo roots stored host used around request (.api dataPath urlPrefix) := by
  have own := within _ listed
  obtain ⟨response, data, ran, serves, kept⟩ := Api.handle_served around.isValidJson urlPrefix
    request (serving _ listed) own few around.environment
  have confined := api_confined ran
  obtain ⟨more, grown, inside, count⟩ := Api.objectsAfter_within own
    (Api.route around.isValidJson urlPrefix request) response
  refine ⟨response, _, data, ?_, .api dataPath urlPrefix response serves, ?_, more, ?_, count⟩
  · simp only [CreatedHandler.handleRequest, ran]
  · intro root member
    rcases apart.sideBySide listed member with rfl | aside
    · rw [Function.update_self]
      exact kept
    · have differs : root ≠ elements dataPath := by
        rintro rfl
        exact aside.1 (List.prefix_refl _)
      rw [Function.update_of_ne differs]
      exact confined.keeps aside (serving root member)
  · intro root member
    by_cases same : root = elements dataPath
    · subst same
      rw [Function.update_self]
      exact inside
    · rw [Function.update_of_ne same]
      exact fun entityName id used => grown (within root member entityName id used)

theorem handler_responds (handler : CreatedHandler)
    (listed : ∀ dataPath urlPrefix, handler = .api dataPath urlPrefix →
      elements dataPath ∈ roots) :
    (Escapes around request handler ∧
      handler.handleRequest around request host = (none, { host with running := false })) ∨
    (¬ Escapes around request handler ∧
      RespondsTo roots stored host used around request handler) := by
  have ready : ∃ more, AllWithin roots stored more ∧ more.card ≤ used.card + 1 :=
    ⟨used, within, by omega⟩
  cases handler with
  | file baseDir urlPrefix =>
      rcases file_cases around stored request host baseDir urlPrefix with
        escaped | ⟨response, returns, handled, responds⟩
      · exact Or.inl escaped
      · exact Or.inr ⟨returns, response, stored, host.data, handled, responds, serving, ready⟩
  | echo => exact Or.inr ⟨id, _, stored, host.data, rfl, .echo, serving, ready⟩
  | notFound => exact Or.inr ⟨id, _, stored, host.data, rfl, .notFound, serving, ready⟩
  | health => exact Or.inr ⟨id, _, stored, host.data, rfl, .health, serving, ready⟩
  | sleep => exact Or.inr ⟨id, _, stored, host.data, rfl, .sleep, serving, ready⟩
  | api dataPath urlPrefix =>
      exact Or.inr ⟨id, api_responds apart serving within few around request dataPath urlPrefix
        (listed dataPath urlPrefix rfl)⟩

end Respond

end BathroomRatings.Server
