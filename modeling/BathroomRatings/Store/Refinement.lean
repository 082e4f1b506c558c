import BathroomRatings.Store.Layout

/-!
# The persistent store refines the abstract one

The objects a data directory holds are the abstract map.  Every call leaves the
directory shaped, answers as the map allows, and changes the map as its answer
says; a restart changes nothing.
-/

set_option autoImplicit false

namespace BathroomRatings.Store

open BathroomRatings.Lib BathroomRatings.Lib.Decimal BathroomRatings.Lib.Interface
open BathroomRatings.Lib.Sorting BathroomRatings.Lib.Word FileSystem
open EntityStorePersistent

def callProgram (dataRoot : Path) (buffering : Buffering) : Call → FileProgram Answer
  | .create entityName data => .id <$> create dataRoot buffering entityName data
  | .read entityName id outData =>
      (fun result => .data result.1 result.2) <$> read dataRoot entityName id.value outData
  | .update entityName id data =>
      .success <$> update dataRoot buffering entityName id.value data
  | .delete entityName id => .success <$> delete dataRoot entityName id.value
  | .list entityName => .ids <$> list dataRoot entityName
  | .restart => (fun _ => .restarted) <$> construct dataRoot

def runCalls (dataRoot : Path) :
    List (Call × Environment) → FileSystem → Option (List Answer × FileSystem)
  | [], fs => some ([], fs)
  | (call, environment) :: calls, fs => do
      let (answer, fs) ←
        (callProgram dataRoot environment.buffering call).run (perform environment.order) fs
      let (answers, fs) ← runCalls dataRoot calls fs
      pure (answer :: answers, fs)

/-- The data root may be missing, but no file is in its place or above it, and
there is nothing below it. -/
structure EmptyRoot (dataRoot : Path) (fs : FileSystem) : Prop where
  clear : ∀ front ≠ [], front <+: dataRoot → ∀ text, fs.get front ≠ some (.file text)
  below : ∀ path ≠ [], fs.get (dataRoot ++ path) = none

section Calls

variable {dataRoot : Path} {fs : FileSystem} {entityName : Text}

theorem update_run (shaped : Shaped dataRoot fs) (environment : Environment) {id : Int}
    (accepted : accepts entityName id = true) (inRange : InRange32 id) (data : Text) :
    ∃ fs', (update dataRoot environment.buffering entityName id data).run
        (perform environment.order) fs = some (true, fs') ∧ Shaped dataRoot fs' ∧
      objects dataRoot fs' = (objects dataRoot fs).put entityName id data := by
  have written := update_written shaped environment noFaults accepted inRange data rfl
  rw [performFaulty_noFaults] at written
  exact written

/-- With fewer than 2³¹ ids in use, `Create` finds the least unused one. -/
theorem create_run (shaped : Shaped dataRoot fs) (environment : Environment)
    (valid : isValidEntityName entityName = true) (data : Text) {used : Finset Int}
    (within : (objects dataRoot fs).Within used) (few : used.card < 2147483648) :
    ∃ id fs', (create dataRoot environment.buffering entityName data).run
        (perform environment.order) fs = some (id, fs') ∧ Shaped dataRoot fs' ∧
      IsLeast {id | 0 ≤ id ∧ objects dataRoot fs entityName id = none} id ∧
      objects dataRoot fs' = (objects dataRoot fs).put entityName id data := by
  obtain ⟨id, fs', run, shaped', cases⟩ :=
    create_written shaped environment noFaults valid data rfl
  rw [performFaulty_noFaults] at run
  rcases cases with ⟨_, least, stored⟩ | ⟨_, full, _⟩
  · exact ⟨id, fs', run, shaped', least, stored⟩
  · have inside : Finset.Icc 0 2147483647 ⊆ used := by
      intro other member
      rw [Finset.mem_Icc] at member
      exact within entityName other (full other member.1 (by omega))
    have card := Finset.card_le_card inside
    rw [Int.card_Icc] at card
    omega

theorem read_run (dataRoot : Path) (fs : FileSystem) (order : IterationOrder)
    (entityName : Text) (id : Int) (outData : Text) :
    (read dataRoot entityName id outData).run (perform order) fs =
      some (match objects dataRoot fs entityName id with
        | some data => (true, data)
        | none => (false, outData), fs) := by
  simp only [EntityStorePersistent.read]
  by_cases rejected : id < 0 ∨ isValidEntityName entityName = false
  · rw [if_pos rejected,
      objects_rejected dataRoot fs ((accepts_eq_false_iff _ _).mpr rejected)]
    rfl
  · have accepted := (not_rejected_iff entityName id).mp rejected
    rw [if_neg rejected, objects_accepted dataRoot fs accepted, run_request_bind,
      entityFilePath_eq dataRoot ((accepts_iff _ _).mp accepted).1]
    cases held : content fs (dataRoot ++ [entityName, decimal id]) with
    | none => simp [perform, held]
    | some text => simp [perform, held]

theorem delete_run (shaped : Shaped dataRoot fs) (order : IterationOrder)
    (entityName : Text) (id : Int) :
    ∃ fs', (delete dataRoot entityName id).run (perform order) fs =
        some ((objects dataRoot fs entityName id).isSome, fs') ∧ Shaped dataRoot fs' ∧
      objects dataRoot fs' = (objects dataRoot fs).erase entityName id := by
  simp only [delete]
  by_cases rejected : id < 0 ∨ isValidEntityName entityName = false
  · have missing := objects_rejected dataRoot fs ((accepts_eq_false_iff _ _).mpr rejected)
    rw [if_pos rejected, missing]
    exact ⟨fs, rfl, shaped, (Objects.erase_absent missing).symm⟩
  · have accepted := (not_rejected_iff entityName id).mp rejected
    have valid := ((accepts_iff _ _).mp accepted).1
    have held := objects_accepted dataRoot fs accepted
    rw [if_neg rejected, entityFilePath_eq dataRoot valid, run_request_bind]
    cases node : fs.get (dataRoot ++ [entityName, decimal id]) with
    | none =>
        have missing : objects dataRoot fs entityName id = none := by
          rw [held]
          simp [content, node]
        refine ⟨fs, ?_, shaped, (Objects.erase_absent missing).symm⟩
        rw [missing]
        simp [perform, remove, node]
    | some node' =>
        obtain ⟨_, ⟨text, rfl⟩, _⟩ := shaped.object entityName valid _ _ node
        refine ⟨fs.erase (dataRoot ++ [entityName, decimal id]), ?_,
          shaped.erased entityName (decimal id), erased_objects accepted⟩
        rw [held]
        simp [perform, remove, content, node]

theorem list_run (shaped : Shaped dataRoot fs) (order : IterationOrder) (entityName : Text) :
    ∃ ids, (list dataRoot entityName).run (perform order) fs = some (ids, fs) ∧
      ids.Pairwise (· < ·) ∧
      ∀ id, id ∈ ids ↔ objects dataRoot fs entityName id ≠ none := by
  simp only [list]
  cases valid : isValidEntityName entityName with
  | false =>
      refine ⟨[], rfl, List.Pairwise.nil, ?_⟩
      intro id
      have rejected := (accepts_eq_false_iff entityName id).mpr (Or.inr valid)
      simp [objects_rejected dataRoot fs rejected]
  | true =>
      rw [if_pos rfl, entityDirectory_eq dataRoot valid, run_request_bind]
      cases node : fs.get (dataRoot ++ [entityName]) with
      | none =>
          refine ⟨[], by simp [perform, node], List.Pairwise.nil, ?_⟩
          intro id
          -- an object would lie in a directory that is there
          have missing : objects dataRoot fs entityName id = none := by
            by_contra stored
            rw [objects_accepted dataRoot fs (accepted_of_object stored)] at stored
            obtain ⟨text, held⟩ := Option.ne_none_iff_exists'.mp stored
            have present := (content_eq_some_iff _ _ _).mp held
            have directory := (shaped.object entityName valid _ _ present).1
            rw [node] at directory
            exact absurd directory (by simp)
          simp [missing]
      | some node' =>
          cases node' with
          | file text => exact absurd node (shaped.entity entityName valid text)
          | directory =>
              refine ⟨ascending (idsOf (order.arrange
                (children fs (dataRoot ++ [entityName])))), ?_, ?_, ?_⟩
              · simp [perform, isDirectory, node]
              · exact ascending_strict (shaped.ids_distinct valid order)
              · intro id
                rw [mem_ascending]
                exact shaped.mem_ids valid order id

theorem construct_run (shaped : Shaped dataRoot fs) (order : IterationOrder) :
    ∃ fs', (construct dataRoot).run (perform order) fs = some ((), fs') ∧
      Shaped dataRoot fs' ∧ objects dataRoot fs' = objects dataRoot fs := by
  have prepared := shaped.makeDirectories dataRoot (by omega)
  exact ⟨_, rfl, prepared.shaped, prepared.objects⟩

/-- The ids of a shaped directory are `int`s that a call may be given. -/
theorem call_run (shaped : Shaped dataRoot fs) (environment : Environment) (call : Call)
    {used : Finset Int} (within : (objects dataRoot fs).Within used)
    (few : used.card < 2147483648) :
    ∃ answer fs', (callProgram dataRoot environment.buffering call).run
        (perform environment.order) fs = some (answer, fs') ∧ Shaped dataRoot fs' ∧
      Explains (objects dataRoot fs) call answer ∧
      objects dataRoot fs' = after (objects dataRoot fs) call answer := by
  cases call with
  | create entityName data =>
      cases valid : isValidEntityName entityName with
      | false =>
          refine ⟨.id (-1), fs, ?_, shaped, ?_, ?_⟩
          · simp [callProgram, create, valid, run_map]
          · simp [Explains, valid]
          · simp [after, valid]
      | true =>
          obtain ⟨id, fs', run, shaped', least, stored⟩ :=
            create_run shaped environment valid data within few
          refine ⟨.id id, fs', ?_, shaped', ?_, ?_⟩
          · exact run_map_of_run _ run
          · simpa [Explains, valid] using least
          · simpa [after, valid] using stored
  | read entityName id outData =>
      have run := read_run dataRoot fs environment.order entityName id.value outData
      cases held : objects dataRoot fs entityName id.value with
      | none =>
          rw [held] at run
          refine ⟨.data false outData, fs, ?_, shaped, by simp [Explains, held], rfl⟩
          exact run_map_of_run _ run
      | some text =>
          have accepted : accepts entityName id.value = true :=
            accepted_of_object (by rw [held]; simp)
          rw [held] at run
          refine ⟨.data true text, fs, ?_, shaped, by simp [Explains, held, accepted], rfl⟩
          exact run_map_of_run _ run
  | update entityName id data =>
      cases accepted : accepts entityName id.value with
      | true =>
          obtain ⟨fs', run, shaped', stored⟩ :=
            update_run shaped environment accepted id.inRange data
          refine ⟨.success true, fs', ?_, shaped', by simp [Explains, accepted], ?_⟩
          · exact run_map_of_run _ run
          · simpa [after, accepted] using stored
      | false =>
          have rejected := (accepts_eq_false_iff _ _).mp accepted
          refine ⟨.success false, fs, ?_, shaped, by simp [Explains, accepted], ?_⟩
          · simp [callProgram, update, rejected, run_map]
          · simp [after, accepted]
  | delete entityName id =>
      obtain ⟨fs', run, shaped', erased⟩ :=
        delete_run shaped environment.order entityName id.value
      refine ⟨.success (objects dataRoot fs entityName id.value).isSome, fs', ?_, shaped',
        ?_, ?_⟩
      · exact run_map_of_run _ run
      · cases accepted : accepts entityName id.value with
        | true => simp [Explains, accepted]
        | false => simp [Explains, accepted, objects_rejected dataRoot fs accepted]
      · cases accepted : accepts entityName id.value with
        | true => simpa [after, accepted] using erased
        | false =>
            rw [erased, Objects.erase_absent (objects_rejected dataRoot fs accepted)]
            simp [after, accepted]
  | list entityName =>
      obtain ⟨ids, run, sorted, members⟩ := list_run shaped environment.order entityName
      refine ⟨.ids ids, fs, ?_, shaped, ?_, rfl⟩
      · exact run_map_of_run _ run
      · cases valid : isValidEntityName entityName with
        | true => simpa [Explains, valid] using ⟨sorted, members⟩
        | false =>
            have none : ids = [] := by
              apply List.eq_nil_iff_forall_not_mem.mpr
              intro id member
              have rejected := (accepts_eq_false_iff entityName id).mpr (Or.inr valid)
              exact (members id).mp member (objects_rejected dataRoot fs rejected)
            simpa [Explains, valid] using none
  | restart =>
      obtain ⟨fs', run, shaped', kept⟩ := construct_run shaped environment.order
      refine ⟨.restarted, fs', ?_, shaped', trivial, kept⟩
      exact run_map_of_run _ run

end Calls

theorem EmptyRoot.shaped {dataRoot : Path} {fs : FileSystem}
    (emptyRoot : EmptyRoot dataRoot fs) : Shaped dataRoot fs := by
  refine ⟨emptyRoot.clear, ?_, ?_⟩
  · intro entityName _ text
    rw [emptyRoot.below [entityName] (by simp)]
    simp
  · intro entityName _ name node present
    rw [emptyRoot.below [entityName, name] (by simp)] at present
    exact absurd present (by simp)

theorem EmptyRoot.objects {dataRoot : Path} {fs : FileSystem}
    (emptyRoot : EmptyRoot dataRoot fs) : objects dataRoot fs = Objects.empty := by
  funext entityName id
  simp only [Store.objects, content, Objects.empty]
  rw [emptyRoot.below [entityName, decimal id] (by simp)]
  simp

theorem runCalls_explained (dataRoot : Path) (calls : List (Call × Environment))
    (fs : FileSystem) (shaped : Shaped dataRoot fs) (used : Finset Int)
    (within : (objects dataRoot fs).Within used)
    (few : used.card + calls.countP (fun call => !call.1.isRestart) ≤ 2147483647) :
    ∃ answers fs', runCalls dataRoot calls fs = some (answers, fs') ∧
      Explained (objects dataRoot fs) (calls.map Prod.fst) answers := by
  induction calls generalizing fs used with
  | nil => exact ⟨[], fs, rfl, trivial⟩
  | cons first calls ih =>
      obtain ⟨call, environment⟩ := first
      obtain ⟨answer, middle, run, shaped', explains, kept⟩ :=
        call_run shaped environment call within (by omega)
      obtain ⟨more, within', count⟩ := within_after within call answer
      rw [← kept] at within'
      rw [List.countP_cons] at few
      obtain ⟨answers, fs', runs, explained⟩ := ih middle shaped' more within' (by
        cases restart : call.isRestart with
        | false =>
            simp only [restart, Bool.not_false, if_true] at few count
            simp only [Bool.false_eq_true, if_false] at count
            omega
        | true =>
            simp only [restart, Bool.not_true, Bool.false_eq_true, if_false, if_true] at few count
            omega)
      refine ⟨answer :: answers, fs', ?_, explains, ?_⟩
      · simp [runCalls, run, runs]
      · rw [← kept]
        exact explained

/-- Every run of fewer than 2³¹ calls of a store on an empty data root, restarted
at any points, answers as the abstract store does. -/
theorem persistent_refines (dataRoot : Path) (fs : FileSystem)
    (emptyRoot : EmptyRoot dataRoot fs) (start : Environment)
    (calls : List (Call × Environment))
    (few : calls.countP (fun call => !call.1.isRestart) < 2147483648) :
    ∃ answers fs',
      runCalls dataRoot ((.restart, start) :: calls) fs = some (.restarted :: answers, fs') ∧
        Explained Objects.empty (calls.map Prod.fst) answers := by
  obtain ⟨middle, run, shaped, kept⟩ := construct_run emptyRoot.shaped start.order
  rw [emptyRoot.objects] at kept
  have within : (objects dataRoot middle).Within ∅ := by
    intro entityName id stored
    rw [kept] at stored
    exact absurd rfl stored
  obtain ⟨answers, fs', runs, explained⟩ := runCalls_explained dataRoot calls middle shaped ∅
    within (by rw [Finset.card_empty]; omega)
  rw [kept] at explained
  refine ⟨answers, fs', ?_, explained⟩
  simp [runCalls, callProgram, run_map, run, runs]

theorem empty_emptyRoot (dataRoot : Path) : EmptyRoot dataRoot ∅ := by
  constructor
  · simp
  · simp

/-- An object created before a restart is listed behind it. -/
def createRestartList : List (Call × Environment) :=
  [(.create "Shoes".toList "\x7b\x7d".toList, .plain), (.restart, .plain),
    (.list "Shoes".toList, .plain)]

theorem persistent_refines_restart :
    ∃ answers fs', runCalls ["data".toList] ((.restart, .plain) :: createRestartList) ∅ =
        some (.restarted :: answers, fs') ∧
      Explained Objects.empty (createRestartList.map Prod.fst) answers :=
  persistent_refines ["data".toList] ∅ (empty_emptyRoot _) .plain createRestartList
    (by decide)

end BathroomRatings.Store
