import BathroomRatings.Config.Grammar
import BathroomRatings.Server.Dispatcher

/-!
# Starting the server

`initialize_from_args` reads the configuration, the dispatcher is made from it, and the
port goes from the last `listen` directive to the endpoint of the acceptor: through
`atoi` into a `short`, and from the `short` into an `unsigned short`.
-/

set_option autoImplicit false

namespace BathroomRatings.Server

open BathroomRatings.Config BathroomRatings.Lib BathroomRatings.Lib.Decimal
open BathroomRatings.Lib.Word

structure ServerInitResult where
  dispatcher : Option RequestDispatcher
  port : Int

namespace ServerInitResult

def invalid : ServerInitResult := ⟨none, 0⟩

def isValid (result : ServerInitResult) : Bool := result.dispatcher.isSome && result.port != 0

end ServerInitResult

def validateArguments (argc : Nat) : Bool := argc == 2

def loadConfigFromFile (file : Option Text) : Bool × NginxConfig :=
  match file with
  | none => (false, [])
  | some text => (parse text []).getD (false, [])

def initializeDispatcher (serverConfig : ServerConfig) : Option RequestDispatcher :=
  match RequestDispatcher.initFromServerConfig serverConfig ⟨[]⟩ with
  | (true, dispatcher) => some dispatcher
  | (false, _) => none

/-- The result, what is written to the error stream, and the registry of the process. -/
def initializeFromArgs (readFile : Text → Option Text) (argv : List Text) (defaultPort : Int)
    (registry : HandlerRegistry) : ServerInitResult × Text × HandlerRegistry :=
  if validateArguments argv.length then
    let path := argv.getD 1 []
    match loadConfigFromFile (readFile path) with
    | (true, config) =>
        let (serverConfig, registry) := extractServerConfig config defaultPort registry
        match initializeDispatcher serverConfig with
        | some dispatcher => (⟨some dispatcher, serverConfig.port⟩, [], registry)
        | none => (.invalid, "Error: Failed to initialize request dispatcher\n".toList, registry)
    | (false, _) =>
        (.invalid, "Error: Could not parse config file: ".toList ++ path ++ ['\n'], registry)
  else (.invalid, "Usage: async_tcp_echo_server <config_file>\n".toList, registry)

/-- The port of the endpoint that the constructor of `server` makes from a `short`. -/
def endpointPort (port : Int) : Nat := (port % 65536).toNat

def listenValue : NginxConfigStatement → Option Text
  | .mk (directive :: value :: _) _ => if directive = "listen".toList then some value else none
  | _ => none

def lastListen (config : NginxConfig) : Option Text :=
  ((firstServerBlock config).filterMap listenValue).getLast?

def PortNumeral (value : Text) : Prop :=
  value ≠ [] ∧ (∀ c ∈ value, c.isDigit = true) ∧ 1 ≤ digitsValue value ∧ digitsValue value ≤ 65535

/-- A server that comes up listens on the port that the value names. -/
def BindsListed (value : Text) (result : ServerInitResult) : Prop :=
  result.isValid = true → PortNumeral value ∧ endpointPort result.port = digitsValue value

theorem readServerDirective_port (state : ServerConfig × HandlerRegistry)
    (statement : NginxConfigStatement) :
    (readServerDirective state statement).1.port =
      match listenValue statement with
      | some value => wrap 16 (atoi value)
      | none => state.1.port := by
  obtain ⟨tokens, childBlock⟩ := statement
  rcases tokens with _ | ⟨directive, _ | ⟨value, more⟩⟩
  · rfl
  · rfl
  · by_cases listen : directive = "listen".toList
    · simp only [readServerDirective, listenValue, if_pos listen]
    · simp only [readServerDirective, listenValue, if_neg listen]
      split
      · split
        · rfl
        · split
          · rfl
          · split
            · rfl
            · rfl
      · rfl

theorem foldl_port (block : NginxConfig) (state : ServerConfig × HandlerRegistry) :
    (block.foldl readServerDirective state).1.port =
      match (block.filterMap listenValue).getLast? with
      | some value => wrap 16 (atoi value)
      | none => state.1.port := by
  induction block generalizing state with
  | nil => rfl
  | cons statement block ih =>
      rw [List.foldl_cons, ih, readServerDirective_port]
      cases value : listenValue statement with
      | none => simp [value]
      | some first =>
          rw [List.filterMap_cons_some value, List.getLast?_cons]
          cases (block.filterMap listenValue).getLast? <;> rfl

theorem extractServerConfig_port (config : NginxConfig) (defaultPort : Int)
    (registry : HandlerRegistry) :
    (extractServerConfig config defaultPort registry).1.port =
      match lastListen config with
      | some value => wrap 16 (atoi value)
      | none => defaultPort := by
  unfold lastListen
  induction config with
  | nil => rfl
  | cons statement rest ih =>
      obtain ⟨tokens, childBlock⟩ := statement
      rcases tokens with _ | ⟨name, more⟩
      · exact ih
      · cases childBlock with
        | none => exact ih
        | some block =>
            simp only [firstServerBlock, extractServerConfig]
            split
            · exact foldl_port block _
            · exact ih

theorem initializeDispatcher_isSome (serverConfig : ServerConfig) :
    (initializeDispatcher serverConfig).isSome = true ↔ serverConfig.locations ≠ [] := by
  unfold initializeDispatcher RequestDispatcher.initFromServerConfig
  cases serverConfig.locations with
  | nil => simp
  | cons location locations => simp

theorem wrap16_emod (value : Int) : wrap 16 value % 65536 = value % 65536 :=
  Int.bmod_emod

theorem wrap16_eq_zero_iff (value : Int) : wrap 16 value = 0 ↔ (65536 : Int) ∣ value := by
  have residue := wrap16_emod value
  have lower : -32768 ≤ wrap 16 value := Int.le_bmod (by decide)
  have upper : wrap 16 value < 32768 := Int.bmod_lt (by decide)
  omega

/-- Narrowed to `short` and widened to `unsigned short`. -/
theorem endpointPort_wrap (value : Int) :
    (endpointPort (wrap 16 value) : Int) = value % 65536 := by
  have residue := wrap16_emod value
  simp only [endpointPort]
  omega

theorem atoi_digits {value : Text} (digits : ∀ c ∈ value, c.isDigit = true) :
    atoi value = digitsValue value := by
  have whole : value.takeWhile Char.isDigit = value := List.takeWhile_eq_self_iff.mpr digits
  cases value with
  | nil => rfl
  | cons c rest =>
      have first := digits c List.mem_cons_self
      have notSpace : Http.RequestParser.isSpace c = false := by
        cases space : Http.RequestParser.isSpace c with
        | false => rfl
        | true =>
            simp only [Http.RequestParser.isSpace, Bool.or_eq_true, beq_iff_eq] at space
            rcases space with ((((rfl | rfl) | rfl) | rfl) | rfl) | rfl <;>
              exact absurd first (by decide)
      have minus : c ≠ '-' := by
        rintro rfl
        exact absurd first (by decide)
      have plus : c ≠ '+' := by
        rintro rfl
        exact absurd first (by decide)
      have kept : (c :: rest).dropWhile Http.RequestParser.isSpace = c :: rest :=
        List.dropWhile_cons_of_neg (by simp [notSpace])
      unfold atoi
      rw [kept]
      split
      · rename_i same
        exact absurd (List.cons.inj same).1 minus
      · rename_i same
        exact absurd (List.cons.inj same).1 plus
      · rw [whole]

theorem initializeFromArgs_accepted (readFile : Text → Option Text) (program path text : Text)
    (tree : NginxConfig) (defaultPort : Int) (registry : HandlerRegistry)
    (opened : readFile path = some text) (accepted : parse text [] = some (true, tree)) :
    (initializeFromArgs readFile [program, path] defaultPort registry).1 =
      match initializeDispatcher (extractServerConfig tree defaultPort registry).1 with
      | some dispatcher =>
          ⟨some dispatcher, (extractServerConfig tree defaultPort registry).1.port⟩
      | none => .invalid := by
  have loaded : loadConfigFromFile (readFile path) = (true, tree) := by
    rw [opened]
    simp only [loadConfigFromFile, accepted, Option.getD_some]
  have arguments : validateArguments [program, path].length = true := rfl
  have second : [program, path].getD 1 [] = path := rfl
  simp only [initializeFromArgs, arguments, if_true, second, loaded]
  cases initializeDispatcher (extractServerConfig tree defaultPort registry).1 <;> rfl

section Listening

variable {readFile : Text → Option Text} {program path text value : Text} {tree : NginxConfig}
  {defaultPort : Int} {registry : HandlerRegistry} (opened : readFile path = some text)
  (accepted : parse text [] = some (true, tree)) (listens : lastListen tree = some value)
include opened accepted listens

/-- A server is made exactly if there is a location to serve; its port is the value's. -/
theorem initializeFromArgs_listen :
    (acceptedLocations tree = [] ∧
      (initializeFromArgs readFile [program, path] defaultPort registry).1 = .invalid) ∨
    (acceptedLocations tree ≠ [] ∧ ∃ dispatcher,
      (initializeFromArgs readFile [program, path] defaultPort registry).1 =
        ⟨some dispatcher, wrap 16 (atoi value)⟩) := by
  have made := initializeDispatcher_isSome (extractServerConfig tree defaultPort registry).1
  rw [(extractServerConfig_adds tree defaultPort registry).locations, List.nil_append] at made
  have port := extractServerConfig_port tree defaultPort registry
  rw [listens] at port
  rw [initializeFromArgs_accepted readFile program path text tree defaultPort registry opened
    accepted]
  cases dispatcher : initializeDispatcher (extractServerConfig tree defaultPort registry).1 with
  | none =>
      left
      rw [dispatcher] at made
      exact ⟨by simpa using made, rfl⟩
  | some found =>
      right
      rw [dispatcher] at made
      exact ⟨by simpa using made, found, by rw [port]⟩

theorem isValid_iff :
    (initializeFromArgs readFile [program, path] defaultPort registry).1.isValid = true ↔
      acceptedLocations tree ≠ [] ∧ ¬ (65536 : Int) ∣ atoi value := by
  rcases initializeFromArgs_listen opened accepted listens with
    ⟨nothing, invalid⟩ | ⟨served, dispatcher, result⟩
  · rw [invalid]
    simp [ServerInitResult.invalid, ServerInitResult.isValid, nothing]
  · rw [result, ← wrap16_eq_zero_iff]
    simp [ServerInitResult.isValid, served]

/-- An accepted configuration binds the port that its last listen directive names, or none,
exactly if the value is a port, or its leading integer a multiple of 65536, or there is
nothing to serve. -/
theorem bindsListed_iff :
    BindsListed value (initializeFromArgs readFile [program, path] defaultPort registry).1 ↔
      PortNumeral value ∨ (65536 : Int) ∣ atoi value ∨ acceptedLocations tree = [] := by
  have valid : (initializeFromArgs readFile [program, path] defaultPort registry).1.isValid = true ↔
      _ := isValid_iff opened accepted listens
  constructor
  · intro binds
    by_cases multiple : (65536 : Int) ∣ atoi value
    · exact Or.inr (Or.inl multiple)
    · by_cases nothing : acceptedLocations tree = []
      · exact Or.inr (Or.inr nothing)
      · exact Or.inl (binds (valid.mpr ⟨nothing, multiple⟩)).1
  · intro condition up
    obtain ⟨served, apart⟩ := valid.mp up
    rcases condition with numeral | multiple | nothing
    · refine ⟨numeral, ?_⟩
      obtain ⟨-, digits, least, greatest⟩ := numeral
      rcases initializeFromArgs_listen opened accepted listens with
        ⟨nothing, -⟩ | ⟨-, dispatcher, result⟩
      · exact absurd nothing served
      · rw [result]
        have port := endpointPort_wrap (atoi value)
        rw [atoi_digits digits] at port ⊢
        dsimp only
        omega
    · exact absurd multiple apart
    · exact absurd nothing served

end Listening

def listening (value : String) : Text :=
  "server \x7b listen ".toList ++ value.toList ++
    "; location / \x7b handler EchoHandler; \x7d \x7d".toList

def listeningTree (value : String) : NginxConfig :=
  [.mk ["server".toList] (some [.mk ["listen".toList, value.toList] none,
    .mk ["location".toList, "/".toList]
      (some [.mk ["handler".toList, "EchoHandler".toList] none])])]

def started (text : Text) : ServerInitResult :=
  (initializeFromArgs (fun _ => some text) ["server".toList, "config".toList] 8080 ∅).1

theorem bindsListed_iff_greatest :
    BindsListed "65535".toList (started (listening "65535")) ↔
      PortNumeral "65535".toList ∨ (65536 : Int) ∣ atoi "65535".toList ∨
        acceptedLocations (listeningTree "65535") = [] := by
  have accepted : parse (listening "65535") [] = some (true, listeningTree "65535") := by
    decide +kernel
  exact bindsListed_iff rfl accepted (by decide +kernel)

/-- There is no port 65616; the server listens on 80. -/
theorem port_wraps :
    parse (listening "65616") [] = some (true, listeningTree "65616") ∧
      lastListen (listeningTree "65616") = some "65616".toList ∧
      endpointPort (started (listening "65616")).port = 80 ∧
      ¬ BindsListed "65616".toList (started (listening "65616")) := by
  refine ⟨by decide +kernel, by decide +kernel, by decide +kernel, ?_⟩
  intro binds
  obtain ⟨⟨-, -, -, greatest⟩, -⟩ := binds (by decide +kernel)
  exact absurd greatest (by decide)

end BathroomRatings.Server
