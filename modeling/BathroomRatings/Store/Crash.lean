import BathroomRatings.Lib.Crash
import BathroomRatings.Store.Independence

/-!
# Crashes of the persistent store

The process may die behind any file-system call of an operation, and come up again on the
same data path.  What the operations before it have stored is then still there, and so is
everything but the one object that was being written: of that there may be the first part
of the new data.
-/

set_option autoImplicit false

namespace BathroomRatings.Store

open BathroomRatings.Lib BathroomRatings.Lib.Crash BathroomRatings.Lib.Decimal
open BathroomRatings.Lib.Interface BathroomRatings.Lib.Word
open EntityStorePersistent FileSystem

inductive Stores (map : Objects) : Call → Text → Int → Text → Prop
  | create {entityName data : Text} {id : Int} (valid : isValidEntityName entityName = true)
      (least : IsLeast {id | 0 ≤ id ∧ map entityName id = none} id) :
      Stores map (.create entityName data) entityName id data
  | update {entityName data : Text} {id : Word32}
      (accepted : accepts entityName id.value = true) :
      Stores map (.update entityName id data) entityName id.value data

inductive Leaves (map : Objects) : Call → Objects → Prop
  | untouched (call : Call) : Leaves map call map
  | partway {call : Call} {entityName : Text} {id : Int} {data written : Text}
      (stores : Stores map call entityName id data) (begins : written <+: data) :
      Leaves map call (map.put entityName id written)
  | deleted {entityName : Text} {id : Word32} (accepted : accepts entityName id.value = true) :
      Leaves map (.delete entityName id) (map.erase entityName id.value)

/-- What the run of a store goes through: calls that end, and calls in which the process
dies behind some of the file-system calls and is started again. -/
inductive Happening where
  | called (call : Call) (environment : Environment)
  | crashed (call : Call) (environment : Environment) (calls : Nat)

def runHappenings (dataRoot : Path) :
    List Happening → FileSystem → Option (List Answer × FileSystem)
  | [], fs => some ([], fs)
  | .called call environment :: rest, fs => do
      let (answer, fs) ←
        (callProgram dataRoot environment.buffering call).run (perform environment.order) fs
      let (answers, fs) ← runHappenings dataRoot rest fs
      pure (answer :: answers, fs)
  | .crashed call environment calls :: rest, fs => do
      let fs := cutOff (perform environment.order) calls
        (callProgram dataRoot environment.buffering call) fs
      let ((), fs) ← (construct dataRoot).run (perform environment.order) fs
      runHappenings dataRoot rest fs

/-- Answers that the map explains, if a crash leaves of it what it may. -/
def Survives : Objects → List Happening → List Answer → Objects → Prop
  | map, [], [], final => final = map
  | map, .called call _ :: rest, answer :: answers, final =>
      Explains map call answer ∧ Survives (after map call answer) rest answers final
  | map, .crashed call _ _ :: rest, answers, final =>
      ∃ left, Leaves map call left ∧ Survives left rest answers final
  | _, _, _, _ => False

def Keeps (dataRoot : Path) (map : Objects) (fs : FileSystem) : Prop :=
  Shaped dataRoot fs ∧ objects dataRoot fs = map

def Leftover (dataRoot : Path) (map : Objects) (call : Call) (fs : FileSystem) : Prop :=
  Shaped dataRoot fs ∧ Leaves map call (objects dataRoot fs)

def Partway (dataRoot : Path) (map : Objects) (entityName : Text) (id : Int) (data : Text)
    (fs : FileSystem) : Prop :=
  ∃ written, written <+: data ∧ Keeps dataRoot (map.put entityName id written) fs

section CutOff

variable {dataRoot : Path} {map : Objects} {fs : FileSystem} {order : IterationOrder}

theorem Keeps.leftover (keeps : Keeps dataRoot map fs) (call : Call) :
    Leftover dataRoot map call fs := by
  refine ⟨keeps.1, ?_⟩
  rw [keeps.2]
  exact .untouched call

theorem Partway.leftover {call : Call} {entityName data : Text} {id : Int}
    (stores : Stores map call entityName id data)
    (partway : Partway dataRoot map entityName id data fs) : Leftover dataRoot map call fs := by
  obtain ⟨written, begins, shaped, held⟩ := partway
  refine ⟨shaped, ?_⟩
  rw [held]
  exact .partway stores begins

theorem Keeps.stored {entityName data : Text} {id : Int} (keeps : Keeps dataRoot map fs)
    (directory : fs.get (dataRoot ++ [entityName]) = some .directory)
    (accepted : accepts entityName id = true) (inRange : InRange32 id) {fs' : FileSystem}
    (stored : Stored fs fs' (dataRoot ++ [entityName, decimal id]) data) :
    Keeps dataRoot (map.put entityName id data) fs' ∧
      fs'.get (dataRoot ++ [entityName]) = some .directory := by
  refine ⟨⟨keeps.1.stored directory inRange stored, ?_⟩, ?_⟩
  · rw [stored.objects accepted, keeps.2]
  · rw [stored, if_neg (shorter_ne (by simp) entityName (decimal id)), directory]

section Writing

variable {entityName : Text} {id : Int} (accepted : accepts entityName id = true)
  (inRange : InRange32 id)
include accepted inRange

/-- The induction is on the pieces; those before them are in the file. -/
theorem writePieces_through (pieces : List Text) (written : Text)
    (keeps : Keeps dataRoot (map.put entityName id written) fs)
    (directory : fs.get (dataRoot ++ [entityName]) = some .directory) :
    Through (perform order)
      (Partway dataRoot map entityName id (written ++ pieces.flatten))
      (writePieces (dataRoot ++ [entityName, decimal id]) written.length pieces) fs := by
  have here : Partway dataRoot map entityName id (written ++ pieces.flatten) fs :=
    ⟨written, List.prefix_append _ _, keeps⟩
  induction pieces generalizing written fs with
  | nil => exact through_pure true here
  | cons piece rest ih =>
      have present : fs.get (dataRoot ++ [entityName, decimal id]) = some (.file written) := by
        rw [← content_eq_some_iff, ← objects_accepted dataRoot fs accepted, keeps.2]
        exact Objects.put_own _ _ _ _
      have wrote : perform order fs
          (.write (dataRoot ++ [entityName, decimal id]) written.length piece) =
          (true, fs.insert (dataRoot ++ [entityName, decimal id])
            (.file (written ++ piece))) := by
        simp only [perform]
        rw [write_end fs _ written piece present]
      obtain ⟨longer, still⟩ := keeps.stored directory accepted inRange
        (stored_insert fs _ (written ++ piece))
      rw [Objects.put_put] at longer
      refine through_request here ?_
      rw [wrote, if_pos rfl, List.flatten_cons, ← List.append_assoc, ← List.length_append]
      exact ih (written ++ piece) longer still ⟨_, List.prefix_append _ _, longer⟩

theorem writeFile_through (pieces : List Text) (keeps : Keeps dataRoot map fs)
    (directory : fs.get (dataRoot ++ [entityName]) = some .directory) :
    Through (perform order)
      (fun fs => Keeps dataRoot map fs ∨
        Partway dataRoot map entityName id pieces.flatten fs)
      (writeFile (entityFilePath dataRoot entityName id) pieces) fs := by
  have valid := ((accepts_iff _ _).mp accepted).1
  have opened : perform order fs (.openTruncated (dataRoot ++ [entityName, decimal id])) =
      (true, fs.insert (dataRoot ++ [entityName, decimal id]) (.file [])) :=
    keeps.1.opened valid directory (decimal id)
  obtain ⟨empty, still⟩ := keeps.stored directory accepted inRange (stored_insert fs _ [])
  rw [entityFilePath_eq dataRoot valid]
  refine through_request (Or.inl keeps) ?_
  rw [opened, if_pos rfl]
  refine Through.mono ?_ fun _ => Or.inr
  have pieced : Through (perform order) (Partway dataRoot map entityName id pieces.flatten)
      _ _ := writePieces_through accepted inRange pieces [] empty still
  refine pieced.bind ?_
  intro success final ran
  exact through_request (pieced.last ran) (through_pure _ (pieced.last ran))

end Writing

/-- `EnsureEntityDirectory`, in front of what is done in the directory. -/
theorem ensure_through {α : Type} {call : Call} {entityName : Text}
    {next : Bool → FileProgram α} (keeps : Keeps dataRoot map fs)
    (valid : isValidEntityName entityName = true)
    (rest : ∀ fs, Keeps dataRoot map fs → fs.get (dataRoot ++ [entityName]) = some .directory →
      Through (perform order) (Leftover dataRoot map call) (next true) fs) :
    Through (perform order) (Leftover dataRoot map call)
      (ensureEntityDirectory dataRoot entityName >>= next) fs := by
  obtain ⟨fs', ensured, prepared, directory⟩ := keeps.1.ensure valid order
  refine through_request (keeps.leftover call) ?_
  rw [ensured]
  exact rest fs' ⟨prepared.shaped, prepared.objects.trans keeps.2⟩ directory

end CutOff

/-! ## Every call -/

section Calls

variable {dataRoot : Path} {map : Objects} {fs : FileSystem}

theorem create_through (keeps : Keeps dataRoot map fs) (environment : Environment)
    (entityName data : Text) {used : Finset Int} (within : map.Within used)
    (few : used.card < 2147483648) :
    Through (perform environment.order) (Leftover dataRoot map (.create entityName data))
      (create dataRoot environment.buffering entityName data) fs := by
  simp only [create]
  cases valid : isValidEntityName entityName with
  | false => exact through_pure _ (keeps.leftover _)
  | true =>
      rw [if_pos rfl]
      refine ensure_through keeps valid ?_
      intro fs keeps directory
      rw [if_pos rfl, createUnused]
      obtain ⟨entries, id, scanned, found, cases⟩ :=
        keeps.1.scan valid directory environment.order
      refine through_request (keeps.leftover _) ?_
      rw [scanned]
      simp only [found, Program.ofOption]
      rw [keeps.2] at cases
      rcases cases with ⟨small, least⟩ | ⟨_, full⟩
      · have nonneg : 0 ≤ id := least.1.1
        have accepted : accepts entityName id = true := (accepts_iff _ _).mpr ⟨valid, nonneg⟩
        have stores : Stores map (.create entityName data) entityName id data :=
          .create valid least
        have wrote := @writeFile_through dataRoot map fs environment.order entityName id
          accepted ⟨by omega, small⟩ (environment.buffering.pieces data) keeps directory
        rw [environment.buffering.flatten_pieces] at wrote
        change Through _ _ (createFile (entityFilePath dataRoot entityName id) _ id) fs
        have left : Through _ (Leftover dataRoot map (.create entityName data)) _ _ :=
          wrote.mono fun fs held =>
            held.elim (fun kept => kept.leftover _) (Partway.leftover stores)
        refine left.bind ?_
        intro success final ran
        cases success with
        | true => exact through_pure _ (left.last ran)
        | false => exact through_pure _ (left.last ran)
      · exact absurd full (within.not_full few entityName)

theorem update_through (keeps : Keeps dataRoot map fs) (environment : Environment)
    (entityName : Text) (id : Word32) (data : Text) :
    Through (perform environment.order) (Leftover dataRoot map (.update entityName id data))
      (update dataRoot environment.buffering entityName id.value data) fs := by
  simp only [update]
  cases accepted : accepts entityName id.value with
  | false =>
      rw [if_pos ((accepts_eq_false_iff _ _).mp accepted)]
      exact through_pure _ (keeps.leftover _)
  | true =>
      rw [if_neg ((not_rejected_iff _ _).mpr accepted)]
      refine ensure_through keeps ((accepts_iff _ _).mp accepted).1 ?_
      intro fs keeps directory
      have wrote := @writeFile_through dataRoot map fs environment.order entityName id.value
        accepted id.inRange (environment.buffering.pieces data) keeps directory
      rw [environment.buffering.flatten_pieces] at wrote
      exact wrote.mono fun fs held =>
        held.elim (fun kept => kept.leftover _) (Partway.leftover (.update accepted))

theorem delete_through (keeps : Keeps dataRoot map fs) (order : IterationOrder)
    (entityName : Text) (id : Word32) :
    Through (perform order) (Leftover dataRoot map (.delete entityName id))
      (delete dataRoot entityName id.value) fs := by
  obtain ⟨fs', ran, shaped, erased⟩ := delete_run keeps.1 order entityName id.value
  simp only [delete] at ran ⊢
  cases accepted : accepts entityName id.value with
  | false =>
      rw [if_pos ((accepts_eq_false_iff _ _).mp accepted)]
      exact through_pure _ (keeps.leftover _)
  | true =>
      rw [if_neg ((not_rejected_iff _ _).mpr accepted), run_request_bind] at ran
      rw [if_neg ((not_rejected_iff _ _).mpr accepted)]
      -- the one call of the program does it all
      have there : (perform order fs
          (.remove (entityFilePath dataRoot entityName id.value))).2 = fs' := by
        split at ran
        · exact congrArg Prod.snd (Option.some.inj ran)
        · exact congrArg Prod.snd (Option.some.inj ran)
      have left : Leftover dataRoot map (.delete entityName id) fs' := by
        refine ⟨shaped, ?_⟩
        rw [erased, keeps.2]
        exact .deleted accepted
      refine through_request (keeps.leftover _) ?_
      rw [there]
      split
      · exact through_pure _ left
      · exact through_pure _ left

theorem read_through (keeps : Keeps dataRoot map fs) (order : IterationOrder)
    (entityName : Text) (id : Word32) (outData : Text) :
    Through (perform order) (Leftover dataRoot map (.read entityName id outData))
      (read dataRoot entityName id.value outData) fs := by
  have still := keeps.leftover (.read entityName id outData)
  simp only [EntityStorePersistent.read]
  split
  · exact through_pure _ still
  · refine through_request still ?_
    split
    · exact through_request still (through_pure _ still)
    · exact through_pure _ still

theorem list_through (keeps : Keeps dataRoot map fs) (order : IterationOrder)
    (entityName : Text) :
    Through (perform order) (Leftover dataRoot map (.list entityName))
      (list dataRoot entityName) fs := by
  have still := keeps.leftover (.list entityName)
  simp only [list]
  split
  · refine through_request still ?_
    split
    · exact through_request still (through_pure _ still)
    · exact through_pure _ still
  · exact through_pure _ still

theorem restart_through (keeps : Keeps dataRoot map fs) (order : IterationOrder) :
    Through (perform order) (Leftover dataRoot map .restart) (construct dataRoot) fs := by
  have prepared := keeps.1.makeDirectories dataRoot (by omega)
  refine through_request (keeps.leftover _) (through_pure _ ?_)
  exact Keeps.leftover ⟨prepared.shaped, prepared.objects.trans keeps.2⟩ _

theorem call_through (keeps : Keeps dataRoot map fs) (environment : Environment) (call : Call)
    {used : Finset Int} (within : map.Within used) (few : used.card < 2147483648) :
    Through (perform environment.order) (Leftover dataRoot map call)
      (callProgram dataRoot environment.buffering call) fs := by
  cases call with
  | create entityName data =>
      exact (create_through keeps environment entityName data within few).map _
  | read entityName id outData =>
      exact (read_through keeps environment.order entityName id outData).map _
  | update entityName id data => exact (update_through keeps environment entityName id data).map _
  | delete entityName id => exact (delete_through keeps environment.order entityName id).map _
  | list entityName => exact (list_through keeps environment.order entityName).map _
  | restart => exact (restart_through keeps environment.order).map _

end Calls

/-! ## Runs -/

/-- A call that is cut off brings at most one id into use, too. -/
theorem within_leaves {map left : Objects} {call : Call} {used : Finset Int}
    (within : map.Within used) (leaves : Leaves map call left) :
    ∃ more : Finset Int, left.Within more ∧ more.card ≤ used.card + 1 := by
  cases leaves with
  | untouched => exact ⟨used, within, by omega⟩
  | @partway _ entityName id _ written =>
      exact ⟨insert id used, within.put entityName id written, Finset.card_insert_le id used⟩
  | @deleted entityName id =>
      exact ⟨used, within.erase entityName id.value, by omega⟩

theorem runHappenings_survives (dataRoot : Path) (happenings : List Happening)
    {fs : FileSystem} {map : Objects} (keeps : Keeps dataRoot map fs) {used : Finset Int}
    (within : map.Within used) (few : used.card + happenings.length ≤ 2147483647) :
    ∃ answers fs' final, runHappenings dataRoot happenings fs = some (answers, fs') ∧
      Keeps dataRoot final fs' ∧ Survives map happenings answers final := by
  induction happenings generalizing fs map used with
  | nil => exact ⟨[], fs, map, rfl, keeps, rfl⟩
  | cons happening rest ih =>
      rw [List.length_cons] at few
      cases happening with
      | called call environment =>
          obtain ⟨answer, middle, ran, shaped, explains, kept⟩ :=
            call_run keeps.1 environment call (by rw [keeps.2]; exact within) (by omega)
          rw [keeps.2] at explains kept
          obtain ⟨more, within', count⟩ := within_after within call answer
          have bound : more.card ≤ used.card + 1 := by
            split at count <;> omega
          obtain ⟨answers, fs', final, runs, keeps', survives⟩ :=
            ih ⟨shaped, kept⟩ within' (by omega)
          exact ⟨answer :: answers, fs', final, by simp [runHappenings, ran, runs], keeps',
            explains, survives⟩
      | crashed call environment calls =>
          obtain ⟨shaped, leaves⟩ := call_through keeps environment call within (by omega) calls
          obtain ⟨more, within', count⟩ := within_leaves within leaves
          obtain ⟨middle, ran, shaped', kept⟩ := construct_run shaped environment.order
          obtain ⟨answers, fs', final, runs, keeps', survives⟩ :=
            ih ⟨shaped', kept⟩ within' (by omega)
          exact ⟨answers, fs', final, by simp [runHappenings, ran, runs], keeps', _, leaves,
            survives⟩

/-- However often the process dies, behind any file-system calls of any operations: the
store comes up again, every answer is explained by what the operations before have stored,
and a crash costs at most the object that was being written, of which there is then the
first part of the new data. -/
theorem crashes_survived (dataRoot : Path) {fs : FileSystem} (emptyRoot : EmptyRoot dataRoot fs)
    (happenings : List Happening) (few : happenings.length < 2147483648) :
    ∃ answers fs' final, runHappenings dataRoot happenings fs = some (answers, fs') ∧
      Shaped dataRoot fs' ∧ objects dataRoot fs' = final ∧
      Survives Objects.empty happenings answers final := by
  have within : Objects.empty.Within ∅ := fun _ _ stored => absurd rfl stored
  obtain ⟨answers, fs', final, ran, keeps, survives⟩ := runHappenings_survives dataRoot happenings
    ⟨emptyRoot.shaped, emptyRoot.objects⟩ within (by rw [Finset.card_empty]; omega)
  exact ⟨answers, fs', final, ran, keeps.1, keeps.2, survives⟩

/-- The process dies when the file was emptied and nothing written into it yet. -/
def overwriteCrash : List Happening :=
  [.called (.create "Shoes".toList "[1,2]".toList) .plain,
    .crashed (.update "Shoes".toList ⟨0, zero_inRange⟩ "[3]".toList) .plain 2,
    .called (.read "Shoes".toList ⟨0, zero_inRange⟩ []) .plain]

theorem crashes_survived_overwrite :
    ∃ answers fs' final, runHappenings ["data".toList] overwriteCrash ∅ = some (answers, fs') ∧
      Shaped ["data".toList] fs' ∧ objects ["data".toList] fs' = final ∧
      Survives Objects.empty overwriteCrash answers final :=
  crashes_survived ["data".toList] (empty_emptyRoot _) overwriteCrash (by decide)

example :
    (runHappenings ["data".toList] overwriteCrash ∅).map Prod.fst =
      some [.id 0, .data true []] := by
  decide +kernel

end BathroomRatings.Store
