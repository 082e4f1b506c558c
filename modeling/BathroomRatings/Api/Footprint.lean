import BathroomRatings.Api.Calls
import BathroomRatings.Store.Layout

/-!
# The files a request touches

The file-system calls of the API handler over a persistent store, on any file system.
They stay in the directory of one entity, and operations on different objects touch
different files.  The one file with a name that is no identifier is the one `Create`
makes when every identifier is in use.
-/

set_option autoImplicit false

namespace BathroomRatings.Api

open BathroomRatings.Http BathroomRatings.Lib BathroomRatings.Lib.Decimal
open BathroomRatings.Lib.Interface BathroomRatings.Lib.Sorting BathroomRatings.Lib.Word
open BathroomRatings.Store
open EntityStorePersistent FileSystem

/-- The directory of an entity under the data root, or a file of digits in it. -/
def EntityShaped (dataRoot path : Path) : Prop :=
  ∃ entityName, entityName ≠ [] ∧
    (∀ c ∈ entityName, c.isAlphanum = true ∨ c = '_' ∨ c = '-') ∧
    (path = dataRoot ++ [entityName] ∨
      ∃ digits, digits ≠ [] ∧ (∀ c ∈ digits, c.isDigit = true) ∧
        path = dataRoot ++ [entityName, digits])

def scanned {σ : Type} (handler : Handler FileCommand FileCommand.Reply σ) (state : σ)
    (dataRoot : Path) (entityName : Text) : Option (List DirectoryEntry) :=
  let made := handler state (.createDirectories (entityDirectory dataRoot entityName))
  if made.1 then
    (handler made.2 (.directoryIterator (entityDirectory dataRoot entityName))).1
  else none

/-- The id of the object an operation works on, given to it or chosen by it. -/
inductive ActsOn {σ : Type} (handler : Handler FileCommand FileCommand.Reply σ) (state : σ)
    (dataRoot : Path) : StoreCall → Int → Prop
  | given (call : StoreCall) (id : Int) (named : call.id? = some id) :
      ActsOn handler state dataRoot call id
  | chosen (entityName data : Text) (entries : List DirectoryEntry) (id : Int)
      (listed : scanned handler state dataRoot entityName = some entries)
      (unused : lowestUnused (idsOf entries) = some id) :
      ActsOn handler state dataRoot (.create entityName data) id

section Operations

variable {σ : Type} (handler : Handler FileCommand FileCommand.Reply σ) (state : σ)
variable (dataRoot : Path) (buffering : Buffering)

/-- A call about the directory of an entity, or about the file of an object with one of
the ids. -/
def Touches (dataRoot : Path) (entityName : Text) (ids : Int → Prop)
    (command : FileCommand) : Prop :=
  command.onFile = false ∧ command.path = dataRoot ++ [entityName] ∨
    command.onFile = true ∧ ∃ id, ids id ∧ command.path = dataRoot ++ [entityName, decimal id]

variable {dataRoot} in
theorem Touches.mono {entityName : Text} {ids others : Int → Prop} {command : FileCommand}
    (touches : Touches dataRoot entityName ids command) (within : ∀ id, ids id → others id) :
    Touches dataRoot entityName others command := by
  refine touches.imp_right ?_
  intro file
  obtain ⟨onFile, id, member, here⟩ := file
  exact ⟨onFile, id, within id member, here⟩

theorem only_writePieces {allowed : FileCommand → Prop} (path : Path)
    (permitted : ∀ offset piece, allowed (.write path offset piece)) (offset : Nat)
    (pieces : List Text) : (writePieces path offset pieces).Only allowed := by
  induction pieces generalizing offset with
  | nil => trivial
  | cons piece rest ih =>
      apply only_request_bind (permitted offset piece)
      intro written
      cases written with
      | true => exact ih (offset + piece.length)
      | false => trivial

theorem only_writeFile {allowed : FileCommand → Prop} (path : Path)
    (permitted : ∀ command : FileCommand, command.onFile = true → command.path = path →
      allowed command) (pieces : List Text) :
    (writeFile path pieces).Only allowed := by
  apply only_request_bind (permitted (.openTruncated path) rfl rfl)
  intro opened
  cases opened with
  | false => trivial
  | true =>
      apply only_bind (only_writePieces path (fun _ _ => permitted _ rfl rfl) 0 pieces)
      intro written
      exact only_request_bind (permitted (.close path) rfl rfl) fun _ => trivial

theorem only_createFile (path : Path) (pieces : List Text) (nextId : Int) :
    (createFile path pieces nextId).Only fun command =>
      command.onFile = true ∧ command.path = path := by
  apply only_bind (only_writeFile path (fun _ onFile here => ⟨onFile, here⟩) pieces)
  intro written
  cases written <;> trivial

section Given

variable {dataRoot} {entityName : Text} (valid : isValidEntityName entityName = true)
include valid

theorem touches_file {ids : Int → Prop} {id : Int} (member : ids id) (command : FileCommand)
    (onFile : command.onFile = true)
    (here : command.path = entityFilePath dataRoot entityName id) :
    Touches dataRoot entityName ids command :=
  Or.inr ⟨onFile, id, member, here.trans (entityFilePath_eq dataRoot valid id)⟩

theorem touches_directory {ids : Int → Prop} (command : FileCommand)
    (onFile : command.onFile = false)
    (here : command.path = entityDirectory dataRoot entityName) :
    Touches dataRoot entityName ids command :=
  Or.inl ⟨onFile, here.trans (entityDirectory_eq dataRoot valid)⟩

end Given

theorem only_guarded {α : Type} {allowed : FileCommand → Prop} {entityName : Text} {id : Int}
    {refused : α} {program : FileProgram α}
    (behind : accepts entityName id = true → program.Only allowed) :
    (if id < 0 ∨ isValidEntityName entityName = false then pure refused
      else program).Only allowed := by
  split
  · trivial
  · rename_i notRejected
    exact behind ((not_rejected_iff entityName id).mp notRejected)

def TouchesGiven (dataRoot : Path) (entityName : Text) (id : Int) (command : FileCommand) :
    Prop :=
  accepts entityName id = true ∧ Touches dataRoot entityName (id = ·) command

theorem only_read (entityName : Text) (id : Int) (outData : Text) :
    (EntityStorePersistent.read dataRoot entityName id outData).Only
      (TouchesGiven dataRoot entityName id) := by
  apply only_guarded
  intro accepted
  have valid := ((accepts_iff _ _).mp accepted).1
  apply only_request_bind ⟨accepted, touches_file valid rfl _ rfl rfl⟩
  intro opened
  cases opened with
  | false => trivial
  | true =>
      exact only_request_bind ⟨accepted, touches_file valid rfl _ rfl rfl⟩ fun _ => trivial

theorem only_update (entityName : Text) (id : Int) (data : Text) :
    (update dataRoot buffering entityName id data).Only
      (TouchesGiven dataRoot entityName id) := by
  apply only_guarded
  intro accepted
  have valid := ((accepts_iff _ _).mp accepted).1
  apply only_request_bind ⟨accepted, touches_directory valid _ rfl rfl⟩
  intro ensured
  cases ensured with
  | false => trivial
  | true =>
      apply only_writeFile
      intro command onFile here
      exact ⟨accepted, touches_file valid rfl command onFile here⟩

theorem only_delete (entityName : Text) (id : Int) :
    (delete dataRoot entityName id).Only (TouchesGiven dataRoot entityName id) := by
  apply only_guarded
  intro accepted
  have valid := ((accepts_iff _ _).mp accepted).1
  apply only_request_bind ⟨accepted, touches_file valid rfl _ rfl rfl⟩
  intro removed
  cases removed <;> trivial

theorem only_list (entityName : Text) :
    (list dataRoot entityName).Only fun command =>
      isValidEntityName entityName = true ∧
        Touches dataRoot entityName (fun _ => False) command := by
  simp only [list]
  split
  · rename_i valid
    apply only_request_bind ⟨valid, touches_directory valid _ rfl rfl⟩
    intro there
    cases there with
    | false => trivial
    | true =>
        exact only_request_bind ⟨valid, touches_directory valid _ rfl rfl⟩ fun _ => trivial
  · trivial

theorem trace_create (entityName data : Text) :
    ∀ command ∈ (create dataRoot buffering entityName data).trace handler state,
      isValidEntityName entityName = true ∧
        Touches dataRoot entityName
          (ActsOn handler state dataRoot (.create entityName data)) command := by
  intro command member
  simp only [create] at member
  split at member
  · rename_i valid
    refine ⟨valid, ?_⟩
    simp only [ensureEntityDirectory, trace_request_bind, List.mem_cons] at member
    rcases member with rfl | member
    · exact touches_directory valid _ rfl rfl
    · split at member
      · rename_i made
        simp only [createUnused, trace_request_bind, List.mem_cons] at member
        rcases member with rfl | member
        · exact touches_directory valid _ rfl rfl
        · split at member
          · exact absurd member List.not_mem_nil
          · rename_i entries scan
            have listed : scanned handler state dataRoot entityName = some entries := by
              simp only [scanned]
              rw [if_pos made, scan]
            cases unused : lowestUnused (idsOf entries) with
            | none =>
                rw [unused] at member
                exact absurd member List.not_mem_nil
            | some id =>
                rw [unused] at member
                have only := only_createFile (entityFilePath dataRoot entityName id)
                  (buffering.pieces data) id
                have here := only_trace only handler _ command member
                exact touches_file valid (.chosen entityName data entries id listed unused)
                  command here.1 here.2
      · exact absurd member List.not_mem_nil
  · exact absurd member List.not_mem_nil

/-- A call about the entity of an operation or about a file the operation acts on.  An
id that was given is not negative. -/
def TouchesOwn (call : StoreCall) (command : FileCommand) : Prop :=
  isValidEntityName call.entityName = true ∧
    Touches dataRoot call.entityName
      (fun id => ActsOn handler state dataRoot call id ∧ (call.id? = some id → 0 ≤ id)) command

variable {dataRoot} in
theorem TouchesGiven.own (call : StoreCall) {id : Int} {command : FileCommand}
    (touches : TouchesGiven dataRoot call.entityName id command)
    (named : call.id? = some id) : TouchesOwn handler state dataRoot call command := by
  obtain ⟨valid, nonneg⟩ := (accepts_iff _ _).mp touches.1
  refine ⟨valid, touches.2.mono ?_⟩
  intro other same
  subst same
  exact ⟨.given call id named, fun _ => nonneg⟩

theorem trace_on (call : StoreCall) :
    ∀ command ∈ (call.on (entityStorePersistent dataRoot buffering)).trace handler state,
      TouchesOwn handler state dataRoot call command := by
  intro command member
  cases call with
  | create entityName data =>
      obtain ⟨valid, touches⟩ := trace_create handler state dataRoot buffering entityName data
        command member
      exact ⟨valid, touches.mono fun id chosen => ⟨chosen, by simp [StoreCall.id?]⟩⟩
  | read entityName id outData =>
      have touches := only_trace (only_read dataRoot entityName id outData) handler state
        command member
      exact TouchesGiven.own handler state (.read entityName id outData) touches rfl
  | update entityName id data =>
      have touches := only_trace (only_update dataRoot buffering entityName id data) handler
        state command member
      exact TouchesGiven.own handler state (.update entityName id data) touches rfl
  | delete entityName id =>
      have touches := only_trace (only_delete dataRoot entityName id) handler state command
        member
      exact TouchesGiven.own handler state (.delete entityName id) touches rfl
  | list entityName =>
      obtain ⟨valid, touches⟩ := only_trace (only_list dataRoot entityName) handler state
        command member
      exact ⟨valid, touches.mono fun _ none => none.elim⟩

/-! ## The shape of the paths -/

variable {dataRoot} in
theorem entityShaped_of_touches {entityName : Text} {ids : Int → Prop} {command : FileCommand}
    (valid : isValidEntityName entityName = true)
    (touches : Touches dataRoot entityName ids command) (nonneg : ∀ id, ids id → 0 ≤ id) :
    EntityShaped dataRoot command.path := by
  obtain ⟨nonempty, allowed⟩ := (isValidEntityName_iff entityName).mp valid
  refine ⟨entityName, nonempty, allowed, ?_⟩
  rcases touches with ⟨_, here⟩ | ⟨_, id, member, here⟩
  · exact Or.inl here
  · exact Or.inr ⟨decimal id, decimal_ne_nil id, decimal_digits (nonneg id member), here⟩

theorem not_entityShaped (entityName : Text) {id : Int} (negative : id < 0) :
    ¬ EntityShaped dataRoot (dataRoot ++ [entityName, decimal id]) := by
  intro shaped
  obtain ⟨other, _, _, here | ⟨digits, _, all, here⟩⟩ := shaped
  · simp at here
  · simp only [List.append_cancel_left_eq, List.cons.injEq, and_true] at here
    have sign := all '-' (by simp [← here.2, decimal, negative])
    exact absurd sign (by decide)

/-- A regular file whose name `ParseId` reads as the number. -/
def Numbered (entries : List DirectoryEntry) (id : Int) : Prop :=
  ∃ entry ∈ entries, entry.isRegularFile = true ∧ parseId entry.filename = some id

/-- Every number of the range is in use, but not every `int`. -/
def Exhausted (entries : List DirectoryEntry) : Prop :=
  (∀ id, 0 ≤ id → id < 2147483648 → Numbered entries id) ∧
    ∃ id, InRange32 id ∧ ¬ Numbered entries id

theorem chosen_nonneg {entries : List DirectoryEntry} {id : Int}
    (unused : lowestUnused (idsOf entries) = some id) (vacant : ¬ Exhausted entries) :
    0 ≤ id := by
  by_cases full : ∀ id, 0 ≤ id → id < 2147483648 → Numbered entries id
  · obtain ⟨steps, reached, free, _⟩ := lowestUnused_spec unused
    have inRange := successor_iterate_inRange 0 zero_inRange steps
    rw [reached] at inRange
    rw [mem_idsOf_iff] at free
    exact absurd ⟨full, id, inRange, free⟩ vacant
  · push Not at full
    obtain ⟨other, nonneg, small, free⟩ := full
    refine lowestUnused_nonneg unused nonneg small ?_
    rw [mem_idsOf_iff]
    exact free

theorem create_opens {entityName : Text} (data : Text)
    (valid : isValidEntityName entityName = true) {entries : List DirectoryEntry}
    (listed : scanned handler state dataRoot entityName = some entries)
    {id : Int} (unused : lowestUnused (idsOf entries) = some id) :
    .openTruncated (dataRoot ++ [entityName, decimal id]) ∈
      (create dataRoot buffering entityName data).trace handler state := by
  simp only [scanned] at listed
  split at listed
  · rename_i made
    simp only [create, ensureEntityDirectory]
    rw [if_pos valid, trace_request_bind, if_pos made]
    simp only [createUnused]
    rw [trace_request_bind, listed]
    simp only [unused, Program.ofOption]
    rw [← entityFilePath_eq dataRoot valid]
    exact List.mem_cons_of_mem _ (List.mem_cons_of_mem _ List.mem_cons_self)
  · simp at listed

end Operations

theorem ActsOn.unique {σ : Type} {handler : Handler FileCommand FileCommand.Reply σ} {state : σ}
    {dataRoot : Path} {call : StoreCall} {id other : Int}
    (acts : ActsOn handler state dataRoot call id)
    (again : ActsOn handler state dataRoot call other) : id = other := by
  cases acts with
  | given call id named =>
      cases again with
      | given _ _ otherNamed => exact Option.some.inj (named.symm.trans otherNamed)
      | chosen entityName data entries other listed unused => simp [StoreCall.id?] at named
  | chosen entityName data entries id listed unused =>
      cases again with
      | given _ _ named => simp [StoreCall.id?] at named
      | chosen _ _ otherEntries _ otherListed otherUnused =>
          obtain rfl := Option.some.inj (listed.symm.trans otherListed)
          exact Option.some.inj (unused.symm.trans otherUnused)

/-- Operations on different objects have no file in common, whatever the file system
does under either. -/
def OperationsApart (dataRoot : Path) (buffering : Buffering) : Prop :=
  ∀ (σ τ : Type) (handler : Handler FileCommand FileCommand.Reply σ) (state : σ)
    (otherHandler : Handler FileCommand FileCommand.Reply τ) (otherState : τ)
    (call other : StoreCall) (id otherId : Int),
    ActsOn handler state dataRoot call id →
    ActsOn otherHandler otherState dataRoot other otherId →
    (call.entityName, id) ≠ (other.entityName, otherId) →
    ∀ command ∈ (call.on (entityStorePersistent dataRoot buffering)).trace handler state,
    ∀ otherCommand ∈ (other.on (entityStorePersistent dataRoot buffering)).trace otherHandler
      otherState,
    command.onFile = true → otherCommand.onFile = true → command.path ≠ otherCommand.path

theorem operations_apart (dataRoot : Path) (buffering : Buffering) :
    OperationsApart dataRoot buffering := by
  intro σ τ handler state otherHandler otherState call other id otherId acts otherActs
    different command member otherCommand otherMember onFile otherOnFile same
  obtain ⟨_, here⟩ := trace_on handler state dataRoot buffering call command member
  obtain ⟨_, there⟩ := trace_on otherHandler otherState dataRoot buffering other otherCommand
    otherMember
  rcases here with ⟨directory, _⟩ | ⟨_, file, ⟨fileActs, _⟩, here⟩
  · simp [directory] at onFile
  · rcases there with ⟨directory, _⟩ | ⟨_, otherFile, ⟨otherFileActs, _⟩, there⟩
    · simp [directory] at otherOnFile
    · rw [fileActs.unique acts] at here
      rw [otherFileActs.unique otherActs] at there
      rw [here, there] at same
      refine objectPath_ne dataRoot ?_ same
      intro equal
      exact different (Prod.ext equal.1 equal.2)

/-! ## Requests -/

def Creates (isValidJson : Text → Bool) (urlPrefix : Text) (request : Request)
    (entityName : Text) : Prop :=
  request.method = "POST".toList ∧ extractSegments urlPrefix request.url = [entityName] ∧
    isValidEntityName entityName = true ∧ isValidJson request.body = true

theorem call_create_iff (isValidJson : Text → Bool) (urlPrefix : Text) (request : Request)
    (entityName data : Text) :
    (route isValidJson urlPrefix request).call = some (.create entityName data) ↔
      Creates isValidJson urlPrefix request entityName ∧ data = request.body := by
  constructor
  · intro made
    have routed := route_routed isValidJson urlPrefix request
    cases named : route isValidJson urlPrefix request with
    | create other otherData =>
        rw [named] at made routed
        cases routed with
        | create _ method segments valid json =>
            simp only [Route.call, Option.some.injEq, StoreCall.create.injEq] at made
            obtain ⟨rfl, rfl⟩ := made
            exact ⟨⟨method, segments, valid, json⟩, rfl⟩
    | _ => simp [named, Route.call] at made
  · intro creates
    obtain ⟨⟨method, segments, valid, json⟩, rfl⟩ := creates
    rw [route_post segments valid method]
    simp [routePost, Route.ofBody, json, Route.call]

/-- The requests whose paths all have the shape: those that do not have `Create` choose
an id in an exhausted directory. -/
theorem footprint_iff {σ : Type} (handler : Handler FileCommand FileCommand.Reply σ) (state : σ)
    (dataRoot : Path) (buffering : Buffering) (isValidJson : Text → Bool) (urlPrefix : Text)
    (request : Request) :
    ((∀ command ∈ (handleRequest (entityStorePersistent dataRoot buffering) isValidJson
        urlPrefix request).trace handler state, EntityShaped dataRoot command.path) ∧
        OperationsApart dataRoot buffering) ↔
      ∀ entityName entries, Creates isValidJson urlPrefix request entityName →
        scanned handler state dataRoot entityName = some entries → ¬ Exhausted entries := by
  rw [handleRequest_eq_serve, trace_serve]
  constructor
  · intro stated entityName entries creates listed exhausted
    have made := (call_create_iff isValidJson urlPrefix request entityName request.body).mpr
      ⟨creates, rfl⟩
    rw [made] at stated
    obtain ⟨full, other, inRange, free⟩ := exhausted
    obtain ⟨id, unused, negative⟩ := @lowestUnused_negative (idsOf entries) idsOf_inRange
      (fun id nonneg small => (mem_idsOf_iff entries id).mpr (full id nonneg small))
      ⟨other, inRange, fun member => free ((mem_idsOf_iff entries other).mp member)⟩
    have opened := create_opens handler state dataRoot buffering request.body creates.2.2.1
      listed unused
    exact not_entityShaped dataRoot entityName negative (stated.1 _ opened)
  · intro vacant
    refine ⟨?_, operations_apart dataRoot buffering⟩
    intro command member
    cases made : (route isValidJson urlPrefix request).call with
    | none => simp [made] at member
    | some call =>
        rw [made] at member
        obtain ⟨valid, touches⟩ := trace_on handler state dataRoot buffering call command member
        apply entityShaped_of_touches valid touches
        intro id chosen
        obtain ⟨acts, guarded⟩ := chosen
        cases acts with
        | given call id named => exact guarded named
        | chosen entityName data entries id listed unused =>
            have creates := (call_create_iff isValidJson urlPrefix request _ _).mp made
            exact chosen_nonneg unused (vacant entityName entries creates.1 listed)

def shoes : Path := ["data".toList, "Shoes".toList]

def numberedShoes (count : Nat) : FileSystem :=
  Table.insertAll
    (((List.range count).map fun n : Nat => shoes ++ [decimal n]).map fun path =>
      (path, .file ['1']))
    (Table.insertAll ([["data".toList], shoes].map fun path => (path, .directory)) ∅)

theorem numberedShoes_get (count : Nat) (path : Path) :
    (numberedShoes count).get path =
      if ∃ n : Nat, n < count ∧ shoes ++ [decimal n] = path then some (.file ['1'])
      else if path ∈ [["data".toList], shoes] then some .directory
      else none := by
  simp only [numberedShoes]
  rw [Table.get_insertAll_constant, Table.get_insertAll_constant, Table.get_empty]
  simp only [List.mem_map, List.mem_range]
  congr

theorem numberedShoes_ids {count : Nat} (few : count ≤ 2147483648) (id : Int) :
    id ∈ idsOf (children (numberedShoes count) shoes) ↔ 0 ≤ id ∧ id < count := by
  rw [mem_idsOf_iff]
  constructor
  · intro listed
    obtain ⟨entry, member, regular, parsed⟩ := listed
    obtain ⟨node, present, same⟩ := (mem_children_iff _ _ _).mp member
    rw [numberedShoes_get] at present
    split at present
    · rename_i numbered
      obtain ⟨n, small, located⟩ := numbered
      have named : decimal n = entry.filename := by simpa using located
      rw [← named, parseId_decimal (by omega) (by omega), Option.some.injEq] at parsed
      omega
    · split at present
      · rename_i directory
        simp [shoes] at directory
      · simp at present
  · intro range
    obtain ⟨nonneg, small⟩ := range
    refine ⟨⟨decimal id, true⟩, ?_, rfl, parseId_decimal nonneg (by omega)⟩
    rw [mem_children_iff]
    refine ⟨.file ['1'], ?_, rfl⟩
    rw [numberedShoes_get, if_pos ⟨id.toNat, by omega, by rw [Int.toNat_of_nonneg nonneg]⟩]

theorem numberedShoes_scanned (count : Nat) :
    scanned (perform Arrangement.plain) (numberedShoes count) ["data".toList] "Shoes".toList =
      some (children (numberedShoes count) shoes) := by
  have data : (numberedShoes count).get ["data".toList] = some .directory := by
    rw [numberedShoes_get, if_neg (by simp [shoes]), if_pos (by simp)]
  have entity : (numberedShoes count).get shoes = some .directory := by
    rw [numberedShoes_get, if_neg (by simp [shoes]), if_pos (by simp)]
  have made : makeDirectories [] shoes (numberedShoes count) = (true, numberedShoes count) := by
    have deeper : (numberedShoes count).get (["data".toList] ++ ["Shoes".toList]) =
        some .directory := entity
    simp only [shoes, makeDirectories, List.nil_append, data, deeper]
  have there : entityDirectory ["data".toList] "Shoes".toList = shoes :=
    entityDirectory_eq ["data".toList] (by decide)
  simp only [scanned, there, perform, made, isDirectory, entity]
  rfl

/-- Every number up to the largest `int` is in use, and the next one is negative. -/
theorem numberedShoes_unused :
    lowestUnused (idsOf (children (numberedShoes 2147483648) shoes)) = some (-2147483648) := by
  have ids := numberedShoes_ids (le_refl 2147483648)
  obtain ⟨id, unused, least | ⟨bottom, _⟩⟩ := lowestUnused_cases _ fun id => (ids id).mp
  · obtain ⟨small, ⟨nonneg, free⟩, _⟩ := least
    rw [ids] at free
    omega
  · rw [unused, bottom]

def postShoes : Request where
  isValid := true
  rawRequest := "POST /api/Shoes HTTP/1.1\r\n\r\n1".toList
  method := "POST".toList
  url := "/api/Shoes".toList
  httpVersion := "1.1".toList
  headers := []
  body := ['1']

theorem negative_file_opened :
    .openTruncated ["data".toList, "Shoes".toList, "-2147483648".toList] ∈
        (handleRequest (entityStorePersistent ["data".toList] Environment.plain.buffering)
          (fun body => body == ['1']) "/api".toList postShoes).trace
          (perform Arrangement.plain) (numberedShoes 2147483648) ∧
      ¬ EntityShaped ["data".toList]
        ["data".toList, "Shoes".toList, "-2147483648".toList] := by
  have creates : Creates (fun body => body == ['1']) "/api".toList postShoes
      "Shoes".toList := by
    simp only [Creates]
    decide
  have made := (call_create_iff _ _ postShoes "Shoes".toList ['1']).mpr ⟨creates, rfl⟩
  have opened := create_opens (perform Arrangement.plain) (numberedShoes 2147483648)
    ["data".toList] Environment.plain.buffering ['1'] creates.2.2.1
    (numberedShoes_scanned 2147483648) numberedShoes_unused
  constructor
  · rw [handleRequest_eq_serve, trace_serve, made]
    exact opened
  · exact not_entityShaped ["data".toList] "Shoes".toList (by decide : (-2147483648 : Int) < 0)

end BathroomRatings.Api
