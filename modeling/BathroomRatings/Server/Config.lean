import BathroomRatings.Config.Words
import BathroomRatings.Http.RequestParser
import BathroomRatings.Lib.Table
import BathroomRatings.Lib.Word

/-!
# The server configuration

`ExtractServerConfig` reads the first server block of a tree.  For every location
with a known handler it registers a factory under the path of the location, in the
registry all servers of the process share, and keeps the location.
-/

set_option autoImplicit false

namespace BathroomRatings.Server

open BathroomRatings.Config BathroomRatings.Lib BathroomRatings.Lib.Decimal
open BathroomRatings.Lib.Word

structure LocationConfig where
  path : Text
  handlerName : Text
  args : Table Text Text

/-- `port` is a `short`. -/
structure ServerConfig where
  port : Int
  locations : List LocationConfig

/-- The handlers with what their constructors are given; the entity store of an API
handler is the persistent store on its data path. -/
inductive CreatedHandler where
  | echo
  | file (baseDir urlPrefix : Text)
  | notFound
  | health
  | sleep
  | api (dataPath urlPrefix : Text)
  deriving DecidableEq, Repr

inductive HandlerFactory where
  | echo (config : LocationConfig)
  | static (config : LocationConfig)
  | notFound (config : LocationConfig)
  | health (config : LocationConfig)
  | sleep (config : LocationConfig)
  | api (config : LocationConfig) (dataPath : Text)

def HandlerFactory.create : HandlerFactory → CreatedHandler
  | .echo _ => .echo
  | .static config => .file ((config.args.get "root".toList).getD ['.']) config.path
  | .notFound _ => .notFound
  | .health _ => .health
  | .sleep _ => .sleep
  | .api config dataPath => .api dataPath config.path

def makeFactory (location : LocationConfig) : Option HandlerFactory :=
  if location.handlerName = "EchoHandler".toList then some (.echo location)
  else if location.handlerName = "StaticHandler".toList then some (.static location)
  else if location.handlerName = "HealthHandler".toList then some (.health location)
  else if location.handlerName = "SleepHandler".toList then some (.sleep location)
  else if location.handlerName = "ApiHandler".toList then
    some (.api location ((location.args.get "data_path".toList).getD ['.']))
  else none

abbrev HandlerRegistry := Table Text HandlerFactory

namespace HandlerRegistry

def registerHandler (path : Text) (factory : HandlerFactory) (registry : HandlerRegistry) :
    HandlerRegistry :=
  registry.insert path factory

def getFactory (registry : HandlerRegistry) (path : Text) : Option HandlerFactory :=
  registry.get path

end HandlerRegistry

def registerHandlerForLocation (location : LocationConfig) (registry : HandlerRegistry) :
    Bool × HandlerRegistry :=
  if location.handlerName = [] then (false, registry)
  else
    match makeFactory location with
    | none => (false, registry)
    | some factory => (true, HandlerRegistry.registerHandler location.path factory registry)

/-! ## Directives -/

def atoi (text : Text) : Int :=
  match text.dropWhile Http.RequestParser.isSpace with
  | '-' :: rest => -(digitsValue (rest.takeWhile Char.isDigit))
  | '+' :: rest => digitsValue (rest.takeWhile Char.isDigit)
  | rest => digitsValue (rest.takeWhile Char.isDigit)

/-- A directive inside a location block.  One without a value has no effect. -/
def readDirective (location : LocationConfig) : NginxConfigStatement → LocationConfig
  | .mk (directive :: value :: _) _ =>
      if directive = "handler".toList then { location with handlerName := value }
      else if directive = "root".toList then
        { location with args := location.args.insert "root".toList value }
      else if directive = "data_path".toList then
        { location with args := location.args.insert "data_path".toList value }
      else { location with args := location.args.insert directive value }
  | _ => location

def readLocation (path : Text) (block : NginxConfig) : LocationConfig :=
  block.foldl readDirective ⟨path, [], ∅⟩

def readServerDirective (state : ServerConfig × HandlerRegistry) :
    NginxConfigStatement → ServerConfig × HandlerRegistry
  | .mk (directive :: value :: _) childBlock =>
      let (serverConfig, registry) := state
      if directive = "listen".toList then
        ({ serverConfig with port := wrap 16 (atoi value) }, registry)
      else if directive = "location".toList then
        match childBlock with
        | none => state
        | some block =>
            let location := readLocation value block
            if location.handlerName = [] then state
            else
              match registerHandlerForLocation location registry with
              | (true, registry) =>
                  ({ serverConfig with locations := serverConfig.locations ++ [location] },
                    registry)
              | (false, registry) => (serverConfig, registry)
      else state
  | _ => state

/-- Only the first server block is read. -/
def extractServerConfig : NginxConfig → Int → HandlerRegistry → ServerConfig × HandlerRegistry
  | [], defaultPort, registry => (⟨defaultPort, []⟩, registry)
  | .mk (name :: _) (some block) :: rest, defaultPort, registry =>
      if name = "server".toList then
        block.foldl readServerDirective (⟨defaultPort, []⟩, registry)
      else extractServerConfig rest defaultPort registry
  | _ :: rest, defaultPort, registry => extractServerConfig rest defaultPort registry

/-! ## The locations of a tree -/

def knownHandlers : List Text :=
  ["EchoHandler".toList, "StaticHandler".toList, "HealthHandler".toList,
    "SleepHandler".toList, "ApiHandler".toList]

/-- The handler a location block asks for, with its arguments and its path. -/
inductive Configured (location : LocationConfig) : CreatedHandler → Prop
  | echo (name : location.handlerName = "EchoHandler".toList) : Configured location .echo
  | static (name : location.handlerName = "StaticHandler".toList) :
      Configured location
        (.file ((location.args.get "root".toList).getD ['.']) location.path)
  | health (name : location.handlerName = "HealthHandler".toList) :
      Configured location .health
  | sleep (name : location.handlerName = "SleepHandler".toList) : Configured location .sleep
  | api (name : location.handlerName = "ApiHandler".toList) :
      Configured location
        (.api ((location.args.get "data_path".toList).getD ['.']) location.path)

def firstServerBlock : NginxConfig → NginxConfig
  | [] => []
  | .mk (name :: _) (some block) :: rest =>
      if name = "server".toList then block else firstServerBlock rest
  | _ :: rest => firstServerBlock rest

def acceptedLocation : NginxConfigStatement → Option LocationConfig
  | .mk (directive :: path :: _) (some block) =>
      if directive = "location".toList ∧
          knownHandlers.contains (readLocation path block).handlerName then
        some (readLocation path block)
      else none
  | _ => none

def acceptedLocations (config : NginxConfig) : List LocationConfig :=
  (firstServerBlock config).filterMap acceptedLocation

theorem readDirective_path (location : LocationConfig) (statement : NginxConfigStatement) :
    (readDirective location statement).path = location.path := by
  obtain ⟨tokens, childBlock⟩ := statement
  rcases tokens with _ | ⟨directive, _ | ⟨value, more⟩⟩
  · rfl
  · rfl
  · simp only [readDirective]
    split
    · rfl
    · split
      · rfl
      · split <;> rfl

theorem readLocation_path (path : Text) (block : NginxConfig) :
    (readLocation path block).path = path := by
  have kept : ∀ location : LocationConfig,
      (block.foldl readDirective location).path = location.path := by
    induction block with
    | nil => intro location; rfl
    | cons statement block ih =>
        intro location
        exact (ih _).trans (readDirective_path location statement)
  exact kept _

theorem acceptedLocation_spec {statement : NginxConfigStatement} {location : LocationConfig}
    (accepted : acceptedLocation statement = some location) :
    location.handlerName ∈ knownHandlers ∧ location.path ∈ statement.words := by
  obtain ⟨tokens, childBlock⟩ := statement
  rcases tokens with _ | ⟨directive, _ | ⟨path, more⟩⟩
  · exact absurd accepted (by simp [acceptedLocation])
  · exact absurd accepted (by simp [acceptedLocation])
  · cases childBlock with
    | none => exact absurd accepted (by simp [acceptedLocation])
    | some block =>
        simp only [acceptedLocation] at accepted
        split at accepted
        · rename_i conditions
          rw [← Option.some.inj accepted]
          refine ⟨List.contains_iff_mem.mp conditions.2, ?_⟩
          rw [readLocation_path]
          simp [NginxConfigStatement.words]
        · exact absurd accepted (by simp)

theorem words_firstServerBlock (config : NginxConfig) :
    ∀ w ∈ NginxConfig.words (firstServerBlock config), w ∈ NginxConfig.words config := by
  induction config with
  | nil => intro w member; exact member
  | cons statement rest ih =>
      have later : ∀ w ∈ NginxConfig.words (firstServerBlock rest),
          w ∈ NginxConfig.words (statement :: rest) := fun w member =>
        List.mem_append_right _ (ih w member)
      obtain ⟨tokens, childBlock⟩ := statement
      rcases tokens with _ | ⟨name, more⟩
      · exact later
      · cases childBlock with
        | none => exact later
        | some block =>
            simp only [firstServerBlock]
            split
            · intro w member
              simp [NginxConfig.words, NginxConfigStatement.words, member]
            · exact later

theorem acceptedLocations_spec {config : NginxConfig} {location : LocationConfig}
    (accepted : location ∈ acceptedLocations config) :
    location.handlerName ∈ knownHandlers ∧ location.path ∈ NginxConfig.words config := by
  obtain ⟨statement, member, found⟩ := List.mem_filterMap.mp accepted
  obtain ⟨known, inside⟩ := acceptedLocation_spec found
  exact ⟨known, words_firstServerBlock config _ (mem_words member inside)⟩

theorem makeFactory_known {location : LocationConfig}
    (known : location.handlerName ∈ knownHandlers) :
    ∃ factory, makeFactory location = some factory ∧ Configured location factory.create := by
  simp only [knownHandlers, List.mem_cons, List.not_mem_nil, or_false] at known
  unfold makeFactory
  rcases known with name | name | name | name | name
  · exact ⟨.echo location, by rw [name]; rfl, .echo name⟩
  · exact ⟨.static location, by rw [name]; rfl, .static name⟩
  · exact ⟨.health location, by rw [name]; rfl, .health name⟩
  · exact ⟨.sleep location, by rw [name]; rfl, .sleep name⟩
  · exact ⟨.api location ((location.args.get "data_path".toList).getD ['.']),
      by rw [name]; rfl, .api name⟩

theorem makeFactory_unknown {location : LocationConfig}
    (unknown : location.handlerName ∉ knownHandlers) : makeFactory location = none := by
  simp only [knownHandlers, List.mem_cons, List.not_mem_nil, or_false, not_or] at unknown
  simp only [makeFactory, unknown, if_false]

def entry (location : LocationConfig) : Option (Text × HandlerFactory) :=
  (makeFactory location).map fun factory => (location.path, factory)

theorem register_known {location : LocationConfig} (registry : HandlerRegistry)
    (known : location.handlerName ∈ knownHandlers) :
    ∃ factory, entry location = some (location.path, factory) ∧
      registerHandlerForLocation location registry =
        (true, registry.insert location.path factory) := by
  obtain ⟨factory, made, _⟩ := makeFactory_known known
  have named : location.handlerName ≠ [] := by
    intro empty
    rw [empty] at known
    exact absurd known (by decide)
  refine ⟨factory, by simp [entry, made], ?_⟩
  rw [registerHandlerForLocation, if_neg named, made]
  rfl

theorem register_unknown {location : LocationConfig} (registry : HandlerRegistry)
    (unknown : location.handlerName ∉ knownHandlers) :
    registerHandlerForLocation location registry = (false, registry) := by
  rw [registerHandlerForLocation, makeFactory_unknown unknown, ite_self]

/-- What reading has added to the locations and to the registry. -/
structure Adds (added : List LocationConfig) (before after : ServerConfig × HandlerRegistry) :
    Prop where
  locations : after.1.locations = before.1.locations ++ added
  registry : after.2 = Table.insertAll (added.filterMap entry) before.2

theorem adds_nothing {before after : ServerConfig × HandlerRegistry}
    (locations : after.1.locations = before.1.locations) (registry : after.2 = before.2) :
    Adds [] before after :=
  ⟨by simp [locations], by simp [registry, Table.insertAll]⟩

theorem Adds.trans {first second : List LocationConfig}
    {before between after : ServerConfig × HandlerRegistry} (earlier : Adds first before between)
    (later : Adds second between after) : Adds (first ++ second) before after := by
  constructor
  · rw [later.locations, earlier.locations, List.append_assoc]
  · rw [later.registry, earlier.registry, List.filterMap_append, Table.insertAll_append]

theorem location_adds (state : ServerConfig × HandlerRegistry) (path : Text)
    (more : List Text) (block : NginxConfig) :
    Adds (acceptedLocation (.mk ("location".toList :: path :: more) (some block))).toList state
      (readServerDirective state (.mk ("location".toList :: path :: more) (some block))) := by
  have notListen : ¬ "location".toList = "listen".toList := by decide
  simp only [acceptedLocation, readServerDirective, if_neg notListen, if_true, true_and,
    List.contains_iff_mem]
  by_cases known : (readLocation path block).handlerName ∈ knownHandlers
  · obtain ⟨factory, made, registered⟩ := register_known state.2 known
    have named : (readLocation path block).handlerName ≠ [] := by
      intro empty
      rw [empty] at known
      exact absurd known (by decide)
    rw [if_pos known, if_neg named, registered]
    exact ⟨rfl, by simp [made, Table.insertAll]⟩
  · rw [if_neg known, register_unknown _ known]
    split
    · exact adds_nothing rfl rfl
    · exact adds_nothing rfl rfl

theorem readServerDirective_adds (state : ServerConfig × HandlerRegistry)
    (statement : NginxConfigStatement) :
    Adds (acceptedLocation statement).toList state (readServerDirective state statement) := by
  obtain ⟨tokens, childBlock⟩ := statement
  rcases tokens with _ | ⟨directive, _ | ⟨value, more⟩⟩
  · exact adds_nothing rfl rfl
  · exact adds_nothing rfl rfl
  · by_cases isLocation : directive = "location".toList
    · cases childBlock with
      | none =>
          have notListen : ¬ directive = "listen".toList := by
            rw [isLocation]
            decide
          have same : readServerDirective state (.mk (directive :: value :: more) none) =
              state := by
            simp only [readServerDirective, if_neg notListen, if_pos isLocation]
          rw [same]
          exact adds_nothing rfl rfl
      | some block =>
          rw [isLocation]
          exact location_adds state value more block
    · have nothing : acceptedLocation (.mk (directive :: value :: more) childBlock) = none := by
        cases childBlock with
        | none => rfl
        | some block => simp only [acceptedLocation, isLocation, false_and, if_false]
      rw [nothing]
      simp only [readServerDirective, isLocation, if_false]
      split
      · exact adds_nothing rfl rfl
      · exact adds_nothing rfl rfl

theorem foldl_adds (block : NginxConfig) (state : ServerConfig × HandlerRegistry) :
    Adds (block.filterMap acceptedLocation) state (block.foldl readServerDirective state) := by
  induction block generalizing state with
  | nil => exact adds_nothing rfl rfl
  | cons statement block ih =>
      have first := readServerDirective_adds state statement
      have both := first.trans (ih (readServerDirective state statement))
      have split : (acceptedLocation statement).toList ++ block.filterMap acceptedLocation =
          (statement :: block).filterMap acceptedLocation := by
        cases found : acceptedLocation statement <;> simp [found]
      rw [← split]
      exact both

/-- Reading a tree keeps its accepted locations, and registers their factories. -/
theorem extractServerConfig_adds (config : NginxConfig) (defaultPort : Int)
    (registry : HandlerRegistry) :
    Adds (acceptedLocations config) (⟨defaultPort, []⟩, registry)
      (extractServerConfig config defaultPort registry) := by
  unfold acceptedLocations
  induction config with
  | nil => exact adds_nothing rfl rfl
  | cons statement rest ih =>
      obtain ⟨tokens, childBlock⟩ := statement
      rcases tokens with _ | ⟨name, more⟩
      · exact ih
      · cases childBlock with
        | none => exact ih
        | some block =>
            simp only [firstServerBlock, extractServerConfig]
            split
            · exact foldl_adds block _
            · exact ih

end BathroomRatings.Server
