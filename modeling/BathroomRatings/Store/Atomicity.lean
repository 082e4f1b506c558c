import BathroomRatings.Store.Refinement

/-!
# Failures of the persistent store

When `Create` or `Update` reports a failure, is the store as it was before?  It is,
unless the failure strikes behind the open: the file is then already truncated or
created, and nothing removes or restores it.
-/

set_option autoImplicit false

namespace BathroomRatings.Store

open BathroomRatings.Lib BathroomRatings.Lib.Decimal BathroomRatings.Lib.Interface
open BathroomRatings.Lib.Word FileSystem EntityStorePersistent

/-- The contents calls lead to from an empty data root, whether they fail or not. -/
inductive Reachable (dataRoot : Path) : FileSystem → Prop where
  | start {fs : FileSystem} (emptyRoot : EmptyRoot dataRoot fs) : Reachable dataRoot fs
  | call {fs fs' : FileSystem} (reachable : Reachable dataRoot fs) (call : Call)
      (environment : Environment) (faults : Faults) (answer : Answer)
      (run : (callProgram dataRoot environment.buffering call).run
        (performFaulty environment.order faults) fs = some (answer, fs')) :
      Reachable dataRoot fs'

structure SameView (dataRoot : Path) (fs fs' : FileSystem) : Prop where
  read : ∀ order order' entityName id outData,
    ((read dataRoot entityName id outData).run (perform order) fs).map Prod.fst =
      ((read dataRoot entityName id outData).run (perform order') fs').map Prod.fst
  list : ∀ order order' entityName,
    ((list dataRoot entityName).run (perform order) fs).map Prod.fst =
      ((list dataRoot entityName).run (perform order') fs').map Prod.fst

inductive WriteCall where
  | create (entityName data : Text)
  | update (entityName : Text) (id : Word32) (data : Text)

def WriteCall.failure (dataRoot : Path) (buffering : Buffering) :
    WriteCall → FileProgram Bool
  | .create entityName data =>
      (fun id => id == -1) <$>
        EntityStorePersistent.create dataRoot buffering entityName data
  | .update entityName id data =>
      (fun success => !success) <$>
        EntityStorePersistent.update dataRoot buffering entityName id.value data

def RestoredOnFailure (dataRoot : Path) (fs : FileSystem) (environment : Environment)
    (faults : Faults) (call : WriteCall) : Prop :=
  ∀ fs', (call.failure dataRoot environment.buffering).run
      (performFaulty environment.order faults) fs = some (true, fs') →
    SameView dataRoot fs fs'

/-- The failure strikes before the file is opened, or not at all, or what reaches the
file is what it held before.  A file that `Create` makes when all ids are in use is
never seen again. -/
def WriteCall.Spared (dataRoot : Path) (fs : FileSystem) (faults : Faults) :
    WriteCall → Prop
  | .create entityName data =>
      isValidEntityName entityName = false ∨
        (faults.createDirectories || faults.directoryIterator || faults.openTruncated) = true ∨
        (faults.transfersAll data && !faults.close) = true ∨
        ∀ id, 0 ≤ id → id < 2147483648 → objects dataRoot fs entityName id ≠ none
  | .update entityName id data =>
      accepts entityName id.value = false ∨
        (faults.createDirectories || faults.openTruncated) = true ∨
        (faults.transfersAll data && !faults.close) = true ∨
        objects dataRoot fs entityName id.value = some (faults.transferred data)

section Faulty

variable {dataRoot : Path} {fs : FileSystem}

theorem create_shaped (shaped : Shaped dataRoot fs) (environment : Environment)
    (faults : Faults) (entityName data : Text) :
    ∃ id fs', (create dataRoot environment.buffering entityName data).run
        (performFaulty environment.order faults) fs = some (id, fs') ∧
      Shaped dataRoot fs' := by
  cases valid : isValidEntityName entityName with
  | false => exact ⟨-1, fs, by simp [create, valid], shaped⟩
  | true =>
      cases struck : (faults.createDirectories || faults.directoryIterator ||
          faults.openTruncated) with
      | true =>
          obtain ⟨fs', run, shaped', _⟩ :=
            create_stopped shaped environment faults valid data struck
          exact ⟨-1, fs', run, shaped'⟩
      | false =>
          obtain ⟨id, fs', run, shaped', _⟩ :=
            create_written shaped environment faults valid data struck
          exact ⟨_, fs', run, shaped'⟩

theorem update_shaped (shaped : Shaped dataRoot fs) (environment : Environment)
    (faults : Faults) (entityName : Text) (id : Word32) (data : Text) :
    ∃ success fs', (update dataRoot environment.buffering entityName id.value data).run
        (performFaulty environment.order faults) fs = some (success, fs') ∧
      Shaped dataRoot fs' := by
  cases accepted : accepts entityName id.value with
  | false =>
      have rejected := (accepts_eq_false_iff _ _).mp accepted
      exact ⟨false, fs, by simp [update, rejected], shaped⟩
  | true =>
      cases struck : faults.createDirectories || faults.openTruncated with
      | true =>
          obtain ⟨fs', run, shaped', _⟩ :=
            update_stopped shaped environment faults accepted data struck
          exact ⟨false, fs', run, shaped'⟩
      | false =>
          obtain ⟨fs', run, shaped', _⟩ :=
            update_written shaped environment faults accepted id.inRange data struck
          exact ⟨_, fs', run, shaped'⟩

theorem read_faulty (order : IterationOrder) (faults : Faults) (entityName : Text)
    (id : Int) (outData : Text) :
    (read dataRoot entityName id outData).run (performFaulty order faults) fs =
      (read dataRoot entityName id outData).run (perform order) fs := by
  simp only [EntityStorePersistent.read]
  split
  · rfl
  · simp only [run_request_bind]
    have reply : performFaulty order faults fs
        (.openForReading (entityFilePath dataRoot entityName id)) =
          ((content fs (entityFilePath dataRoot entityName id)).isSome, fs) := rfl
    have reply' : perform order fs
        (.openForReading (entityFilePath dataRoot entityName id)) =
          ((content fs (entityFilePath dataRoot entityName id)).isSome, fs) := rfl
    rw [reply, reply']
    cases (content fs (entityFilePath dataRoot entityName id)).isSome <;> rfl

theorem delete_faulty (order : IterationOrder) (faults : Faults) (entityName : Text)
    (id : Int) :
    (delete dataRoot entityName id).run (performFaulty order faults) fs =
      (delete dataRoot entityName id).run (perform order) fs := by
  simp only [delete]
  split
  · rfl
  · rw [run_request_bind, run_request_bind]
    have reply : performFaulty order faults fs
        (.remove (entityFilePath dataRoot entityName id)) =
          perform order fs (.remove (entityFilePath dataRoot entityName id)) := rfl
    rw [reply]
    split <;> rfl

theorem list_faulty (dataRoot : Path) (fs : FileSystem) (order : IterationOrder)
    (faults : Faults) (entityName : Text) :
    ∃ ids, (list dataRoot entityName).run (performFaulty order faults) fs =
      some (ids, fs) := by
  simp only [list]
  split
  · rw [run_request_bind]
    have asked : performFaulty order faults fs
        (.exists (entityDirectory dataRoot entityName)) =
          ((fs.get (entityDirectory dataRoot entityName)).isSome, fs) := rfl
    rw [asked]
    cases (fs.get (entityDirectory dataRoot entityName)).isSome with
    | false => exact ⟨[], rfl⟩
    | true =>
        simp only [if_true]
        rw [run_request_bind]
        simp only [performFaulty]
        split <;> exact ⟨_, rfl⟩
  · exact ⟨[], rfl⟩

theorem construct_faulty (shaped : Shaped dataRoot fs) (order : IterationOrder)
    (faults : Faults) :
    ∃ fs', (construct dataRoot).run (performFaulty order faults) fs = some ((), fs') ∧
      Shaped dataRoot fs' := by
  simp only [construct]
  rw [run_request_bind]
  simp only [performFaulty]
  split
  · exact ⟨fs, rfl, shaped⟩
  · exact ⟨_, rfl, (shaped.makeDirectories dataRoot (by omega)).shaped⟩

/-- No call, whatever fails in it, leaves anything but files named by numerals. -/
theorem call_shaped (shaped : Shaped dataRoot fs) (environment : Environment)
    (faults : Faults) (call : Call) :
    ∃ answer fs', (callProgram dataRoot environment.buffering call).run
        (performFaulty environment.order faults) fs = some (answer, fs') ∧
      Shaped dataRoot fs' := by
  cases call with
  | create entityName data =>
      obtain ⟨id, fs', run, shaped'⟩ := create_shaped shaped environment faults entityName data
      exact ⟨.id id, fs', run_map_of_run _ run, shaped'⟩
  | read entityName id outData =>
      have run := read_run dataRoot fs environment.order entityName id.value outData
      rw [← read_faulty environment.order faults] at run
      exact ⟨_, fs, run_map_of_run _ run, shaped⟩
  | update entityName id data =>
      obtain ⟨success, fs', run, shaped'⟩ :=
        update_shaped shaped environment faults entityName id data
      exact ⟨.success success, fs', run_map_of_run _ run, shaped'⟩
  | delete entityName id =>
      obtain ⟨fs', run, shaped', _⟩ :=
        delete_run shaped environment.order entityName id.value
      rw [← delete_faulty environment.order faults] at run
      exact ⟨_, fs', run_map_of_run _ run, shaped'⟩
  | list entityName =>
      obtain ⟨ids, run⟩ := list_faulty dataRoot fs environment.order faults entityName
      exact ⟨.ids ids, fs, run_map_of_run _ run, shaped⟩
  | restart =>
      obtain ⟨fs', run, shaped'⟩ := construct_faulty shaped environment.order faults
      exact ⟨.restarted, fs', run_map_of_run _ run, shaped'⟩

theorem Reachable.shaped (reachable : Reachable dataRoot fs) : Shaped dataRoot fs := by
  induction reachable with
  | start emptyRoot => exact emptyRoot.shaped
  | call _ call environment faults answer run ih =>
      obtain ⟨_, _, other, shaped'⟩ := call_shaped ih environment faults call
      rw [run, Option.some.injEq, Prod.mk.injEq] at other
      rw [other.2]
      exact shaped'

theorem sameView_iff {fs' : FileSystem} (shaped : Shaped dataRoot fs)
    (shaped' : Shaped dataRoot fs') :
    SameView dataRoot fs fs' ↔ objects dataRoot fs' = objects dataRoot fs := by
  constructor
  · intro view
    funext entityName id
    have same := view.read Environment.plain.order Environment.plain.order entityName id []
    rw [read_run, read_run] at same
    cases before : objects dataRoot fs entityName id with
    | none =>
        cases behind : objects dataRoot fs' entityName id with
        | none => rfl
        | some text => simp [before, behind] at same
    | some text =>
        cases behind : objects dataRoot fs' entityName id with
        | none => simp [before, behind] at same
        | some other => simpa [before, behind, eq_comm] using same
  · intro same
    constructor
    · intro order order' entityName id outData
      rw [read_run, read_run, same]
      rfl
    · intro order order' entityName
      obtain ⟨ids, run, sorted, members⟩ := list_run shaped order entityName
      obtain ⟨others, run', sorted', members'⟩ := list_run shaped' order' entityName
      rw [run, run']
      have equal : ids = others := by
        apply List.Perm.eq_of_pairwise' (r := (· < ·)) sorted sorted'
        rw [List.perm_ext_iff_of_nodup (sorted.imp ne_of_lt) (sorted'.imp ne_of_lt)]
        intro id
        rw [members, members', same]
      rw [equal]
      rfl

end Faulty

theorem put_eq_self_iff (objects : Objects) (entityName : Text) (id : Int) (data : Text) :
    objects.put entityName id data = objects ↔ objects entityName id = some data := by
  constructor
  · intro same
    rw [← same]
    simp [Objects.put]
  · intro held
    funext other otherId
    simp only [Objects.put]
    split
    · rename_i same
      rw [same.1, same.2, held]
    · rfl

/-! ## When a failure leaves the store as it was -/

section Restored

variable {dataRoot : Path} {fs : FileSystem}

theorem restored_iff_of_run (shaped : Shaped dataRoot fs) {fs' : FileSystem}
    (shaped' : Shaped dataRoot fs') (environment : Environment) (faults : Faults)
    (call : WriteCall) (failed : Bool)
    (run : (call.failure dataRoot environment.buffering).run
      (performFaulty environment.order faults) fs = some (failed, fs')) :
    RestoredOnFailure dataRoot fs environment faults call ↔
      (failed = true → objects dataRoot fs' = objects dataRoot fs) := by
  simp only [RestoredOnFailure]
  rw [run]
  constructor
  · intro restored fails
    subst fails
    exact (sameView_iff shaped shaped').mp (restored fs' rfl)
  · intro restored other same
    rw [Option.some.injEq, Prod.mk.injEq] at same
    obtain ⟨fails, rfl⟩ := same
    exact (sameView_iff shaped shaped').mpr (restored fails)

theorem create_restored_iff (shaped : Shaped dataRoot fs) (environment : Environment)
    (faults : Faults) (entityName data : Text) :
    RestoredOnFailure dataRoot fs environment faults (.create entityName data) ↔
      (WriteCall.create entityName data).Spared dataRoot fs faults := by
  simp only [WriteCall.Spared]
  have failure : ∀ id fs', (create dataRoot environment.buffering entityName data).run
      (performFaulty environment.order faults) fs = some (id, fs') →
      ((WriteCall.create entityName data).failure dataRoot environment.buffering).run
        (performFaulty environment.order faults) fs = some (id == -1, fs') := by
    intro id fs' run
    exact run_map_of_run (fun id => id == -1) run
  cases valid : isValidEntityName entityName with
  | false =>
      have run := failure (-1) fs (by simp [create, valid])
      rw [restored_iff_of_run shaped shaped environment faults _ _ run]
      simp
  | true =>
      cases struck : (faults.createDirectories || faults.directoryIterator ||
          faults.openTruncated) with
      | true =>
          obtain ⟨fs', run, shaped', same⟩ :=
            create_stopped shaped environment faults valid data struck
          rw [restored_iff_of_run shaped shaped' environment faults _ _ (failure _ _ run)]
          simp [same]
      | false =>
          obtain ⟨id, fs', run, shaped', cases⟩ :=
            create_written shaped environment faults valid data struck
          rw [restored_iff_of_run shaped shaped' environment faults _ _ (failure _ _ run)]
          cases all : (faults.transfersAll data && !faults.close) with
          | true =>
              have success : id ≠ -1 := by
                rcases cases with ⟨_, least, _⟩ | ⟨bottom, _⟩
                · have nonneg : 0 ≤ id := least.1.1
                  omega
                · omega
              simp [success]
          | false =>
              rcases cases with ⟨small, least, stored⟩ | ⟨_, full, same⟩
              · obtain ⟨⟨nonneg, unused⟩, _⟩ := least
                have changed : objects dataRoot fs' ≠ objects dataRoot fs := by
                  rw [stored, ne_eq, put_eq_self_iff, unused]
                  simp
                have room : ¬ ∀ id, 0 ≤ id → id < 2147483648 →
                    objects dataRoot fs entityName id ≠ none := by
                  intro full
                  exact full id nonneg small unused
                simp [changed, room]
              · simp only [same, implies_true, true_iff]
                exact Or.inr (Or.inr (Or.inr full))

theorem update_restored_iff (shaped : Shaped dataRoot fs) (environment : Environment)
    (faults : Faults) (entityName : Text) (id : Word32) (data : Text) :
    RestoredOnFailure dataRoot fs environment faults (.update entityName id data) ↔
      (WriteCall.update entityName id data).Spared dataRoot fs faults := by
  simp only [WriteCall.Spared]
  have failure : ∀ success fs',
      (update dataRoot environment.buffering entityName id.value data).run
        (performFaulty environment.order faults) fs = some (success, fs') →
      ((WriteCall.update entityName id data).failure dataRoot environment.buffering).run
        (performFaulty environment.order faults) fs = some (!success, fs') := by
    intro success fs' run
    exact run_map_of_run (fun success => !success) run
  cases accepted : accepts entityName id.value with
  | false =>
      have rejected := (accepts_eq_false_iff _ _).mp accepted
      have run := failure false fs (by simp [update, rejected])
      rw [restored_iff_of_run shaped shaped environment faults _ _ run]
      simp
  | true =>
      cases struck : faults.createDirectories || faults.openTruncated with
      | true =>
          obtain ⟨fs', run, shaped', same⟩ :=
            update_stopped shaped environment faults accepted data struck
          rw [restored_iff_of_run shaped shaped' environment faults _ _ (failure _ _ run)]
          simp [same]
      | false =>
          obtain ⟨fs', run, shaped', stored⟩ :=
            update_written shaped environment faults accepted id.inRange data struck
          rw [restored_iff_of_run shaped shaped' environment faults _ _ (failure _ _ run), stored,
            put_eq_self_iff]
          cases (faults.transfersAll data && !faults.close) <;> simp

end Restored

/-- From every reachable content and for every combination of failures, a call that
reports failure leaves the store as it was exactly if it is spared. -/
theorem failure_restores_iff {dataRoot : Path} {fs : FileSystem}
    (reachable : Reachable dataRoot fs) (environment : Environment) (faults : Faults)
    (call : WriteCall) :
    RestoredOnFailure dataRoot fs environment faults call ↔
      call.Spared dataRoot fs faults := by
  cases call with
  | create entityName data =>
      exact create_restored_iff reachable.shaped environment faults entityName data
  | update entityName id data =>
      exact update_restored_iff reachable.shaped environment faults entityName id data

def oneByte : Faults := { noFaults with write := some 1 }

def shoes : Text := "Shoes".toList

def shoe : WriteCall := .update shoes ⟨0, by decide⟩ "old".toList

theorem failure_restores_iff_update :
    RestoredOnFailure ["data".toList] ∅ .plain oneByte shoe ↔
      shoe.Spared ["data".toList] ∅ oneByte :=
  failure_restores_iff (.start (empty_emptyRoot _)) .plain oneByte shoe

def oneShoe : FileSystem :=
  (((∅ : FileSystem).insert ["data".toList] .directory).insert
    ["data".toList, shoes] .directory).insert ["data".toList, shoes, ['0']]
      (.file "old".toList)

theorem oneShoe_reachable : Reachable ["data".toList] oneShoe := by
  have created : (callProgram ["data".toList] Environment.plain.buffering
      (.create shoes "old".toList)).run (performFaulty Environment.plain.order noFaults) ∅ =
        some (.id 0, oneShoe) := by rfl
  exact .call (.start (empty_emptyRoot _)) _ .plain noFaults _ created

/-- An update that fails behind its first byte has destroyed the old value. -/
theorem failed_update_destroys :
    Reachable ["data".toList] oneShoe ∧
      ¬ RestoredOnFailure ["data".toList] oneShoe .plain oneByte
        (.update shoes ⟨0, by decide⟩ "new".toList) := by
  refine ⟨oneShoe_reachable, ?_⟩
  intro restored
  have failed : ((WriteCall.update shoes ⟨0, by decide⟩ "new".toList).failure
      ["data".toList] Environment.plain.buffering).run
        (performFaulty Environment.plain.order oneByte) oneShoe =
          some (true, oneShoe.insert ["data".toList, shoes, ['0']] (.file ['n'])) := by
    rfl
  have view := restored _ failed
  have same := view.read Environment.plain.order Environment.plain.order shoes 0 []
  exact absurd same (by decide +kernel)

end BathroomRatings.Store
