import BathroomRatings.Api.Handler
import BathroomRatings.Store.Layout

/-!
# A read during an update

One thread of the pool updates an object of the persistent store, and another one reads
it.  Neither takes a lock, and the update truncates the file before it writes the new
value into it piece by piece.  What a read yields is the old value or the new one
exactly if it does not reach the file in between, or finds there what happens to be one
of the two.
-/

set_option autoImplicit false

namespace BathroomRatings.Api

open BathroomRatings.Http BathroomRatings.Lib.Decimal BathroomRatings.Lib.Interface
open BathroomRatings.Store
open BathroomRatings.Lib.Interface.Program (request)
open EntityStorePersistent FileSystem

inductive Client where
  | writer
  | reader
  deriving DecidableEq

abbrev Client.Result : Client → Type
  | .writer => Bool
  | .reader => Bool × Text

section Overlap

variable (dataRoot : Path) (entityName : Text) (id : Int) (old new outData : Text)
variable (environment : Client → Environment) (schedule : List Client) (fs : FileSystem)

def Client.program : (client : Client) → FileProgram client.Result
  | .writer => update dataRoot (environment .writer).buffering entityName id new
  | .reader => EntityStorePersistent.read dataRoot entityName id outData

def overlap : System FileCommand FileCommand.Reply FileSystem Client.Result :=
  System.follow (fun client => perform (environment client).order) schedule
    ⟨fs, Client.program dataRoot entityName id new outData environment⟩

def servedOverlap (isValidJson : Text → Bool) (urlPrefix : Text)
    (requests : Client → Request) :
    System FileCommand FileCommand.Reply FileSystem (fun _ : Client => Response) :=
  System.follow (fun client => perform (environment client).order) schedule
    ⟨fs, fun client =>
      handleRequest (entityStorePersistent dataRoot (environment client).buffering)
        isValidJson urlPrefix (requests client)⟩

/-- A read that succeeds yields one of the two values, and a `GET` during a `PUT` no
text but JSON. -/
structure ReadsWhole : Prop where
  read : ∀ data,
    (overlap dataRoot entityName id new outData environment schedule fs).result .reader =
      some (true, data) → data = old ∨ data = new
  get : ∀ isValidJson urlPrefix requests response,
    isValidJson old = true → isValidJson new = true →
    route isValidJson urlPrefix (requests .writer) = .update entityName id new →
    route isValidJson urlPrefix (requests .reader) = .read entityName id →
    (servedOverlap dataRoot environment schedule fs isValidJson urlPrefix requests).result
      .reader = some response →
    response.statusCode = "200 OK".toList → isValidJson response.body = true

/-- The reader, whose second call is the one that reads, makes it while the writer, whose
second call is the one that truncates, has not made that one, or when the pieces written
by then make up one of the values. -/
def Untorn (pieces : List Text) : Prop :=
  ∀ made, made ++ [.reader] <+: schedule → made.count .reader = 1 →
    made.count .writer < 2 ∨
      (pieces.take (made.count .writer - 2)).flatten = old ∨
      (pieces.take (made.count .writer - 2)).flatten = new

end Overlap

section Run

variable (dataRoot : Path) (buffering : Buffering) (entityName : Text) (id : Int)
variable (old new : Text)

def writerAfter : Nat → FileProgram Bool
  | 0 => update dataRoot buffering entityName id new
  | 1 => writeFile (entityFilePath dataRoot entityName id) (buffering.pieces new)
  | written + 2 =>
      if written ≤ (buffering.pieces new).length then
        finishFile (entityFilePath dataRoot entityName id)
          ((buffering.pieces new).take written).flatten.length
          ((buffering.pieces new).drop written)
      else pure true

def heldAfter (pieces : List Text) : Nat → Text
  | 0 => old
  | 1 => old
  | written + 2 => (pieces.take written).flatten

theorem heldAfter_more (pieces : List Text) {written : Nat} (more : written < pieces.length) :
    heldAfter old pieces (written + 2 + 1) =
      heldAfter old pieces (written + 2) ++ pieces[written] := by
  simp only [heldAfter]
  rw [List.take_succ_eq_append_getElem more, List.flatten_append, List.flatten_singleton]

theorem heldAfter_complete (pieces : List Text) {written : Nat}
    (complete : pieces.length ≤ written) :
    heldAfter old pieces (written + 2 + 1) = heldAfter old pieces (written + 2) := by
  simp only [heldAfter]
  rw [List.take_of_length_le complete, List.take_of_length_le (by omega)]

theorem heldAfter_whole_iff (pieces : List Text) (calls : Nat) :
    heldAfter old pieces calls = old ∨ heldAfter old pieces calls = new ↔
      calls < 2 ∨ (pieces.take (calls - 2)).flatten = old ∨
        (pieces.take (calls - 2)).flatten = new := by
  match calls with
  | 0 => simp [heldAfter]
  | 1 => simp [heldAfter]
  | written + 2 => simp [heldAfter]

variable {dataRoot buffering entityName id old new} {fs : FileSystem} {order : IterationOrder}
variable (accepted : accepts entityName id = true)
include accepted

theorem writer_starts
    (clear : ∀ front ≠ [], front <+: dataRoot ++ [entityName] → ∀ text,
      fs.get front ≠ some (.file text)) :
    ∃ fs', (update dataRoot buffering entityName id new).step (perform order) fs =
        (writeFile (entityFilePath dataRoot entityName id) (buffering.pieces new), fs') ∧
      ∀ path, content fs' path = content fs path := by
  have valid := ((accepts_iff _ _).mp accepted).1
  have notRejected := (not_rejected_iff entityName id).mpr accepted
  have made : (makeDirectories [] (dataRoot ++ [entityName]) fs).1 = true :=
    makeDirectories_succeeds [] _ fs clear
  refine ⟨(makeDirectories [] (dataRoot ++ [entityName]) fs).2, ?_,
    makeDirectories_content [] _ fs⟩
  simp only [update, ensureEntityDirectory]
  rw [if_neg notRejected, step_request_bind, entityDirectory_eq dataRoot valid]
  simp only [perform, made, if_true]

theorem writer_opens (stored : content fs (dataRoot ++ [entityName, decimal id]) = some old) :
    ∃ fs', (writeFile (entityFilePath dataRoot entityName id) (buffering.pieces new)).step
        (perform order) fs =
        (finishFile (entityFilePath dataRoot entityName id) 0 (buffering.pieces new), fs') ∧
      content fs' (dataRoot ++ [entityName, decimal id]) = some [] := by
  have valid := ((accepts_iff _ _).mp accepted).1
  have present := (content_eq_some_iff _ _ _).mp stored
  have opened : openTruncated fs (entityFilePath dataRoot entityName id) =
      (true, fs.insert (entityFilePath dataRoot entityName id) (.file [])) := by
    rw [entityFilePath_eq dataRoot valid]
    simp only [openTruncated, present]
  refine ⟨fs.insert (entityFilePath dataRoot entityName id) (.file []), ?_, ?_⟩
  · simp only [writeFile]
    rw [step_request_bind]
    simp only [perform, opened, if_true]
  · rw [entityFilePath_eq dataRoot valid, content_insert, if_pos rfl]

theorem writer_writes {written : Text}
    (stored : content fs (dataRoot ++ [entityName, decimal id]) = some written) (piece : Text)
    (rest : List Text) :
    ∃ fs', (finishFile (entityFilePath dataRoot entityName id) written.length
          (piece :: rest)).step (perform order) fs =
        (finishFile (entityFilePath dataRoot entityName id) (written ++ piece).length rest,
          fs') ∧
      content fs' (dataRoot ++ [entityName, decimal id]) = some (written ++ piece) := by
  have valid := ((accepts_iff _ _).mp accepted).1
  have present := (content_eq_some_iff _ _ _).mp stored
  refine ⟨write fs (entityFilePath dataRoot entityName id) written.length piece, ?_, ?_⟩
  · rw [List.length_append]
    rfl
  · rw [entityFilePath_eq dataRoot valid, write_end fs _ written piece present,
      content_insert, if_pos rfl]

theorem writer_step (calls : Nat)
    (clear : calls = 0 → ∀ front ≠ [], front <+: dataRoot ++ [entityName] → ∀ text,
      fs.get front ≠ some (.file text))
    (stored : content fs (dataRoot ++ [entityName, decimal id]) =
      some (heldAfter old (buffering.pieces new) calls)) :
    ∃ fs', (writerAfter dataRoot buffering entityName id new calls).step (perform order) fs =
        (writerAfter dataRoot buffering entityName id new (calls + 1), fs') ∧
      content fs' (dataRoot ++ [entityName, decimal id]) =
        some (heldAfter old (buffering.pieces new) (calls + 1)) := by
  match calls with
  | 0 =>
      obtain ⟨fs', step, same⟩ := writer_starts accepted (clear rfl)
      exact ⟨fs', step, (same _).trans stored⟩
  | 1 =>
      obtain ⟨fs', step, empty⟩ := writer_opens accepted stored
      refine ⟨fs', step.trans ?_, empty⟩
      simp [writerAfter]
  | written + 2 =>
      rcases Nat.lt_trichotomy written (buffering.pieces new).length with more | last | beyond
      · obtain ⟨fs', step, longer⟩ := writer_writes accepted stored
          ((buffering.pieces new)[written]) ((buffering.pieces new).drop (written + 1))
        refine ⟨fs', ?_, ?_⟩
        · simp only [writerAfter]
          rw [if_pos (by omega), if_pos (by omega), List.drop_eq_getElem_cons more]
          refine step.trans ?_
          rw [← heldAfter_more old _ more]
          rfl
        · rw [longer, heldAfter_more old _ more]
      · refine ⟨fs, ?_, ?_⟩
        · simp only [writerAfter]
          rw [if_pos (by omega), if_neg (by omega), List.drop_of_length_le (by omega)]
          rfl
        · rw [heldAfter_complete old _ (by omega)]
          exact stored
      · refine ⟨fs, ?_, ?_⟩
        · simp only [writerAfter]
          rw [if_neg (by omega), if_neg (by omega)]
          rfl
        · rw [heldAfter_complete old _ (by omega)]
          exact stored

end Run

section Both

variable (dataRoot : Path) (entityName : Text) (id : Int) (old new outData : Text)
variable (environment : Client → Environment) (fs : FileSystem)

def readerOpened : FileProgram (Bool × Text) := do
  let data ← request (FileCommand.readToEnd (entityFilePath dataRoot entityName id))
  pure (true, data)

/-- The reader behind the calls of a schedule; `held` is what the file holds behind some
calls of the writer. -/
inductive ReaderAt (held : Nat → Text) (made : List Client) : FileProgram (Bool × Text) → Prop
  | starting (calls : made.count .reader = 0) :
      ReaderAt held made (EntityStorePersistent.read dataRoot entityName id outData)
  | opened (calls : made.count .reader = 1) :
      ReaderAt held made (readerOpened dataRoot entityName id)
  | ended (before : List Client) (inside : before ++ [.reader] <+: made)
      (calls : before.count .reader = 1) :
      ReaderAt held made (pure (true, held (before.count .writer)))

structure Progress (made : List Client)
    (current : System FileCommand FileCommand.Reply FileSystem Client.Result) : Prop where
  writer : current.thread .writer =
    writerAfter dataRoot (environment .writer).buffering entityName id new (made.count .writer)
  untouched : made.count .writer = 0 → current.shared = fs
  stored : content current.shared (dataRoot ++ [entityName, decimal id]) =
    some (heldAfter old ((environment .writer).buffering.pieces new) (made.count .writer))
  reader : ReaderAt dataRoot entityName id outData
    (heldAfter old ((environment .writer).buffering.pieces new)) made (current.thread .reader)

variable {dataRoot entityName id old new outData environment fs}

theorem ReaderAt.snoc_writer {held : Nat → Text} {made : List Client}
    {program : FileProgram (Bool × Text)}
    (reader : ReaderAt dataRoot entityName id outData held made program) :
    ReaderAt dataRoot entityName id outData held (made ++ [.writer]) program := by
  have same : (made ++ [Client.writer]).count .reader = made.count .reader := by simp
  cases reader with
  | starting calls => exact .starting (same.trans calls)
  | opened calls => exact .opened (same.trans calls)
  | ended before inside calls =>
      exact .ended before (inside.trans (List.prefix_append _ _)) calls

theorem ReaderAt.step (accepted : accepts entityName id = true) {held : Nat → Text}
    {made : List Client} {program : FileProgram (Bool × Text)} {shared : FileSystem}
    (order : IterationOrder)
    (stored : content shared (dataRoot ++ [entityName, decimal id]) =
      some (held (made.count .writer)))
    (reader : ReaderAt dataRoot entityName id outData held made program) :
    (program.step (perform order) shared).2 = shared ∧
      ReaderAt dataRoot entityName id outData held (made ++ [.reader])
        (program.step (perform order) shared).1 := by
  have valid := ((accepts_iff _ _).mp accepted).1
  have notRejected := (not_rejected_iff entityName id).mpr accepted
  have one : (made ++ [Client.reader]).count .reader = made.count .reader + 1 := by simp
  rw [← entityFilePath_eq dataRoot valid] at stored
  cases reader with
  | starting calls =>
      simp only [EntityStorePersistent.read]
      rw [if_neg notRejected, step_request_bind]
      simp only [perform, stored, Option.isSome_some, if_true, true_and]
      exact .opened (by omega)
  | opened calls =>
      simp only [readerOpened]
      rw [step_request_bind]
      simp only [perform, stored, Option.getD_some, true_and]
      exact .ended made (List.prefix_refl _) calls
  | ended before inside calls =>
      exact ⟨rfl, .ended before (inside.trans (List.prefix_append _ _)) calls⟩

theorem Progress.turn (accepted : accepts entityName id = true)
    (clear : ∀ front ≠ [], front <+: dataRoot ++ [entityName] → ∀ text,
      fs.get front ≠ some (.file text))
    {made : List Client}
    {current : System FileCommand FileCommand.Reply FileSystem Client.Result}
    (progress : Progress dataRoot entityName id old new outData environment fs made current)
    (client : Client) :
    Progress dataRoot entityName id old new outData environment fs (made ++ [client])
      (current.turn (fun client => perform (environment client).order) client) := by
  cases client with
  | writer =>
      have one : (made ++ [Client.writer]).count .writer = made.count .writer + 1 := by simp
      obtain ⟨fs', step, stored⟩ := @writer_step dataRoot (environment .writer).buffering
        entityName id old new current.shared (environment .writer).order accepted
        (made.count .writer) (by
          intro first
          rw [progress.untouched first]
          exact clear) progress.stored
      rw [← progress.writer] at step
      refine ⟨?_, ?_, ?_, ?_⟩
      · rw [turn_own, step, one]
      · intro none
        omega
      · rw [turn_shared, step, one]
        exact stored
      · rw [turn_other _ _ _ _ (by simp)]
        exact progress.reader.snoc_writer
  | reader =>
      have same : (made ++ [Client.reader]).count .writer = made.count .writer := by simp
      obtain ⟨unchanged, reader⟩ := progress.reader.step accepted (environment .reader).order
        progress.stored
      refine ⟨?_, ?_, ?_, ?_⟩
      · rw [turn_other _ _ _ _ (by simp), same]
        exact progress.writer
      · intro none
        rw [turn_shared, unchanged]
        exact progress.untouched (same.symm.trans none)
      · rw [turn_shared, unchanged, same]
        exact progress.stored
      · rw [turn_own]
        exact reader

theorem overlap_progress (accepted : accepts entityName id = true)
    (clear : ∀ front ≠ [], front <+: dataRoot ++ [entityName] → ∀ text,
      fs.get front ≠ some (.file text))
    (stored : content fs (dataRoot ++ [entityName, decimal id]) = some old)
    (schedule : List Client) :
    Progress dataRoot entityName id old new outData environment fs schedule
      (overlap dataRoot entityName id new outData environment schedule fs) := by
  apply follow_invariant (fun client => perform (environment client).order)
  · exact ⟨rfl, fun _ => rfl, stored, .starting rfl⟩
  · intro made client current progress
    exact progress.turn accepted clear client

/-! ## What the reader gets -/

/-- A call of the schedule is known by its number. -/
theorem before_unique {made before other : List Client} (inside : before ++ [.reader] <+: made)
    (otherInside : other ++ [.reader] <+: made)
    (calls : before.count .reader = other.count .reader) : before = other := by
  have shorter : ∀ {first second : List Client}, first ++ [.reader] <+: second ++ [.reader] →
      first.count .reader = second.count .reader → first = second := by
    intro first second inside calls
    rcases List.prefix_concat_iff.mp inside with same | within
    · exact List.append_cancel_right same
    · have count := within.sublist.count_le Client.reader
      simp only [List.count_append, List.count_singleton_self] at count
      omega
  rcases List.prefix_or_prefix_of_prefix inside otherInside with first | second
  · exact shorter first calls
  · exact (shorter second calls.symm).symm

theorem Progress.result_iff (accepted : accepts entityName id = true) {schedule : List Client}
    {current : System FileCommand FileCommand.Reply FileSystem Client.Result}
    (progress : Progress dataRoot entityName id old new outData environment fs schedule current)
    (found : Bool) (data : Text) :
    current.result .reader = some (found, data) ↔
      found = true ∧ ∃ before, before ++ [.reader] <+: schedule ∧ before.count .reader = 1 ∧
        heldAfter old ((environment .writer).buffering.pieces new) (before.count .writer) =
          data := by
  have reader := progress.reader
  unfold System.result
  generalize current.thread .reader = program at reader ⊢
  -- a reader with fewer than two calls has returned nothing
  have early : schedule.count .reader < 2 → ¬ ∃ before, before ++ [.reader] <+: schedule ∧
      before.count .reader = 1 ∧
      heldAfter old ((environment .writer).buffering.pieces new) (before.count .writer) =
        data := by
    intro few reached
    obtain ⟨before, inside, calls, _⟩ := reached
    have count := inside.sublist.count_le Client.reader
    simp only [List.count_append, List.count_singleton_self] at count
    omega
  cases reader with
  | starting calls =>
      have notRejected := (not_rejected_iff entityName id).mpr accepted
      simp only [EntityStorePersistent.read]
      rw [if_neg notRejected]
      exact iff_of_false (by simp [request, bind, Program.bind]) fun both =>
        early (by omega) both.2
  | opened calls =>
      exact iff_of_false (by simp [readerOpened, request, bind, Program.bind]) fun both =>
        early (by omega) both.2
  | ended before inside calls =>
      constructor
      · intro returned
        obtain ⟨rfl, rfl⟩ := Prod.mk.inj (Option.some.inj returned)
        exact ⟨rfl, before, inside, calls, rfl⟩
      · intro reached
        obtain ⟨rfl, other, otherInside, otherCalls, rfl⟩ := reached
        rw [before_unique inside otherInside (calls.trans otherCalls.symm)]
        rfl

variable (id) in
def answer : (client : Client) → client.Result → Response
  | .writer, updated =>
      if updated then ResponseBuilder.ok (idJson id) jsonContentType
      else ResponseBuilder.internalServerError "Failed to update entity".toList
  | .reader, found =>
      if found.1 then ResponseBuilder.ok found.2 jsonContentType else entityNotFound

theorem servedOverlap_eq {isValidJson : Text → Bool} {urlPrefix : Text}
    {requests : Client → Request}
    (put : route isValidJson urlPrefix (requests .writer) = .update entityName id new)
    (get : route isValidJson urlPrefix (requests .reader) = .read entityName id)
    (schedule : List Client) :
    servedOverlap dataRoot environment schedule fs isValidJson urlPrefix requests =
      (overlap dataRoot entityName id new [] environment schedule fs).map (answer id) := by
  simp only [overlap]
  rw [← follow_map]
  simp only [servedOverlap, System.map]
  congr
  funext client
  rw [handleRequest_eq_serve]
  cases client with
  | writer =>
      rw [put]
      refine congrArg (Program.bind _) ?_
      funext updated
      cases updated <;> rfl
  | reader =>
      rw [get]
      refine congrArg (Program.bind _) ?_
      funext found
      obtain ⟨found, data⟩ := found
      cases found <;> rfl

end Both

/-- For every stored value, every new one and every schedule: a read during an update
yields one of the two exactly if the schedule does not tear it.  As on any file system,
no file stands where a directory above the object is. -/
theorem reads_whole_iff (dataRoot : Path) {entityName : Text} {id : Int} {old : Text}
    (new outData : Text) (environment : Client → Environment) (schedule : List Client)
    {fs : FileSystem} (stored : objects dataRoot fs entityName id = some old)
    (clear : ∀ front ≠ [], front <+: dataRoot ++ [entityName] → ∀ text,
      fs.get front ≠ some (.file text)) :
    ReadsWhole dataRoot entityName id old new outData environment schedule fs ↔
      Untorn old new schedule ((environment .writer).buffering.pieces new) := by
  have accepted := @accepted_of_object dataRoot fs entityName id (by simp [stored])
  rw [objects_accepted dataRoot fs accepted] at stored
  have progress : ∀ outData, Progress dataRoot entityName id old new outData environment fs
      schedule (overlap dataRoot entityName id new outData environment schedule fs) :=
    fun outData => overlap_progress accepted clear stored schedule
  constructor
  · intro whole before inside calls
    have reads := whole.read _
      (((progress outData).result_iff accepted true _).mpr ⟨rfl, before, inside, calls, rfl⟩)
    exact (heldAfter_whole_iff old new _ _).mp reads
  · intro untorn
    have reads : ∀ outData data,
        (overlap dataRoot entityName id new outData environment schedule fs).result .reader =
          some (true, data) → data = old ∨ data = new := by
      intro outData data returned
      obtain ⟨_, before, inside, calls, rfl⟩ :=
        ((progress outData).result_iff accepted true data).mp returned
      exact (heldAfter_whole_iff old new _ _).mpr (untorn before inside calls)
    refine ⟨reads outData, ?_⟩
    intro isValidJson urlPrefix requests response oldJson newJson put get returned status
    rw [servedOverlap_eq put get, result_map] at returned
    obtain ⟨⟨found, data⟩, result, rfl⟩ := Option.map_eq_some_iff.mp returned
    obtain ⟨rfl, _⟩ := ((progress []).result_iff accepted found data).mp result
    rcases reads [] data result with rfl | rfl
    · exact oldJson
    · exact newJson

def oneRating : FileSystem :=
  (((∅ : FileSystem).insert ["data".toList] .directory).insert
    ["data".toList, "Ratings".toList] .directory).insert
      ["data".toList, "Ratings".toList, ['0']] (.file ['4'])

theorem oneRating_clear (front : Path) (nonempty : front ≠ [])
    (inside : front <+: ["data".toList] ++ ["Ratings".toList]) (text : Text) :
    oneRating.get front ≠ some (.file text) := by
  have directories : oneRating.get (["data".toList] ++ ["Ratings".toList]) = some .directory ∧
      oneRating.get ([] ++ ["data".toList]) = some .directory := by
    decide +kernel
  rcases List.prefix_concat_iff.mp inside with whole | part
  · rw [whole, directories.1]
    simp
  · have root : front <+: [] ++ ["data".toList] := part
    rcases List.prefix_concat_iff.mp root with whole | nothing
    · rw [whole, directories.2]
      simp
    · exact absurd (List.prefix_nil.mp nothing) nonempty

theorem reads_whole_iff_afterwards :
    ReadsWhole ["data".toList] "Ratings".toList 0 ['4'] ['5'] [] (fun _ => .plain)
        [.writer, .writer, .writer, .writer, .reader, .reader] oneRating ↔
      Untorn ['4'] ['5'] [.writer, .writer, .writer, .writer, .reader, .reader] [['5']] :=
  reads_whole_iff ["data".toList] ['5'] [] (fun _ => .plain) _ (by decide +kernel)
    oneRating_clear

def tearing : List Client := [.writer, .writer, .reader, .reader]

def ratingRequests : Client → Request
  | .writer =>
      { Request.fresh with
        method := "PUT".toList, url := "/api/Ratings/0".toList, body := ['5'] }
  | .reader =>
      { Request.fresh with method := "GET".toList, url := "/api/Ratings/0".toList }

theorem read_torn :
    (servedOverlap ["data".toList] (fun _ => .plain) tearing oneRating
        (fun text => text == ['4'] || text == ['5']) "/api".toList ratingRequests).result
        .reader = some (ResponseBuilder.ok [] jsonContentType) ∧
      ¬ ReadsWhole ["data".toList] "Ratings".toList 0 ['4'] ['5'] [] (fun _ => .plain) tearing
        oneRating := by
  refine ⟨by decide +kernel, ?_⟩
  intro whole
  have reads := whole.read [] (by decide +kernel)
  simp at reads

end BathroomRatings.Api
