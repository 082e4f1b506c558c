import BathroomRatings.Store.Atomicity

/-!
# Two concurrent creations

Two threads of the pool run `Create` on one persistent store, which takes no lock.
Each goes through stages: making the directory, scanning it, opening the file of
the lowest unused id, writing its data.  Both keep their objects exactly if one of
them opens its file before the other one scans.
-/

set_option autoImplicit false

namespace BathroomRatings.Store

open BathroomRatings.Lib BathroomRatings.Lib.Decimal BathroomRatings.Lib.Interface
open BathroomRatings.Lib.Word FileSystem EntityStorePersistent

inductive Caller where
  | first
  | second
  deriving DecidableEq

theorem Caller.either {ahead behind : Caller} (distinct : ahead ≠ behind) (j : Caller) :
    j = ahead ∨ j = behind := by
  cases ahead <;> cases behind <;> cases j <;> simp_all

theorem Caller.results_differ {id : Caller → Int} {ahead behind : Caller}
    (different : id behind ≠ id ahead) : id .first ≠ id .second := by
  intro same
  cases ahead <;> cases behind <;> simp_all

def race (dataRoot : Path) (entityName : Text) (data : Caller → Text)
    (environment : Caller → Environment) (schedule : List Caller) (fs : FileSystem) :
    System FileCommand FileCommand.Reply FileSystem (fun _ : Caller => Int) :=
  System.follow (fun i => perform (environment i).order) schedule
    ⟨fs, fun i => create dataRoot (environment i).buffering entityName (data i)⟩

/-- Two different ids were returned, and each one yields the data of its call. -/
structure BothKept (dataRoot : Path) (entityName : Text) (data : Caller → Text)
    (fs : FileSystem) (id : Caller → Int) : Prop where
  different : id .first ≠ id .second
  kept : ∀ i order outData,
    (read dataRoot entityName (id i) outData).run (perform order) fs =
      some ((true, data i), fs)

/-- At some point of the schedule one caller has made its third call, the open, and
the other one has not made its second call, the scan. -/
def Separated (schedule : List Caller) : Prop :=
  ∃ made, made <+: schedule ∧ ∃ i j, 3 ≤ made.count i ∧ made.count j < 2

section Stages

variable (dataRoot : Path) (entityName : Text)

inductive Stage where
  | starting
  | listing
  | opening (id : Int)
  | writing (id : Int) (offset : Nat) (rest : List Text)
  | ended (id : Int)
  | stuck

def Stage.rest (buffering : Buffering) (data : Text) : Stage → FileProgram Int
  | .starting => create dataRoot buffering entityName data
  | .listing => createUnused (entityDirectory dataRoot entityName) (buffering.pieces data)
  | .opening id =>
      createFile (entityFilePath dataRoot entityName id) (buffering.pieces data) id
  | .writing id offset rest => do
      if ← finishFile (entityFilePath dataRoot entityName id) offset rest then pure id
      else pure (-1)
  | .ended id => .done id
  | .stuck => .diverge

def Stage.advance (environment : Environment) (data : Text) :
    Stage → FileSystem → Stage × FileSystem
  | .starting, fs =>
      (if (makeDirectories [] (entityDirectory dataRoot entityName) fs).1 then .listing
        else .ended (-1),
        (makeDirectories [] (entityDirectory dataRoot entityName) fs).2)
  | .listing, fs =>
      if isDirectory fs (entityDirectory dataRoot entityName) then
        match lowestUnused (idsOf (environment.order.arrange
            (children fs (entityDirectory dataRoot entityName)))) with
        | some id => (.opening id, fs)
        | none => (.stuck, fs)
      else (.ended (-1), fs)
  | .opening id, fs =>
      (if (openTruncated fs (entityFilePath dataRoot entityName id)).1 then
          .writing id 0 (environment.buffering.pieces data)
        else .ended (-1),
        (openTruncated fs (entityFilePath dataRoot entityName id)).2)
  | .writing id offset (piece :: rest), fs =>
      (.writing id (offset + piece.length) rest,
        write fs (entityFilePath dataRoot entityName id) offset piece)
  | .writing id _ [], fs => (.ended id, fs)
  | .ended id, fs => (.ended id, fs)
  | .stuck, fs => (.stuck, fs)

theorem Stage.step_agrees (valid : isValidEntityName entityName = true)
    (environment : Environment) (data : Text) (stage : Stage) (fs : FileSystem) :
    (stage.rest dataRoot entityName environment.buffering data).step
        (perform environment.order) fs =
      ((stage.advance dataRoot entityName environment data fs).1.rest dataRoot entityName
          environment.buffering data,
        (stage.advance dataRoot entityName environment data fs).2) := by
  cases stage with
  | starting =>
      simp only [Stage.rest, Stage.advance, create, ensureEntityDirectory]
      rw [if_pos valid, step_request_bind]
      have reply : perform environment.order fs
          (.createDirectories (entityDirectory dataRoot entityName)) =
            makeDirectories [] (entityDirectory dataRoot entityName) fs := rfl
      rw [reply]
      cases (makeDirectories [] (entityDirectory dataRoot entityName) fs).1 <;> rfl
  | listing =>
      simp only [Stage.rest, Stage.advance, createUnused]
      rw [step_request_bind]
      cases present : isDirectory fs (entityDirectory dataRoot entityName) with
      | false => simp [perform, present]; rfl
      | true =>
          simp only [perform, present, if_true]
          cases lowestUnused (idsOf (environment.order.arrange
            (children fs (entityDirectory dataRoot entityName)))) <;> rfl
  | opening id =>
      simp only [Stage.rest, Stage.advance, createFile, writeFile]
      rw [step_request_bind_bind]
      have reply : perform environment.order fs
          (.openTruncated (entityFilePath dataRoot entityName id)) =
            openTruncated fs (entityFilePath dataRoot entityName id) := rfl
      rw [reply]
      cases (openTruncated fs (entityFilePath dataRoot entityName id)).1 <;> rfl
  | writing id offset rest =>
      cases rest with
      | nil => rfl
      | cons piece rest => rfl
  | ended id => rfl
  | stuck => rfl

/-! ## What a step keeps -/

def Stage.id : Stage → Option Int
  | .opening id => some id
  | .writing id _ _ => some id
  | .ended id => some id
  | _ => none

def Stage.Failed (stage : Stage) : Prop :=
  stage = .stuck ∨ ∃ id, stage.id = some id ∧ id < 0

def Stage.Opened (id : Int) (stage : Stage) : Prop :=
  stage = .ended id ∨ ∃ offset rest, stage = .writing id offset rest

def Stage.Holds (fs : FileSystem) (data : Text) : Stage → Prop
  | .writing id offset rest =>
      ∃ written, content fs (dataRoot ++ [entityName, decimal id]) = some written ∧
        written.length = offset ∧ written ++ rest.flatten = data
  | .ended id => 0 ≤ id → content fs (dataRoot ++ [entityName, decimal id]) = some data
  | _ => True

/-- An id is in use if a file of the entity has a name that is accepted for it. -/
def Uses (fs : FileSystem) (id : Int) : Prop :=
  ∃ name text, content fs (dataRoot ++ [entityName, name]) = some text ∧
    parseId name = some id

theorem mem_ids_iff_uses (order : IterationOrder) (fs : FileSystem) (id : Int) :
    id ∈ idsOf (order.arrange (children fs (dataRoot ++ [entityName]))) ↔
      Uses dataRoot entityName fs id := by
  rw [mem_idsOf_iff]
  constructor
  · rintro ⟨entry, member, regular, parses⟩
    have listed := (order.perm _).mem_iff.mp member
    obtain ⟨node, present, kind⟩ := (mem_children_iff _ _ _).mp listed
    rw [regular] at kind
    cases node with
    | directory => simp [Node.isRegularFile] at kind
    | file text =>
        refine ⟨entry.filename, text, ?_, parses⟩
        rw [content_eq_some_iff]
        simpa using present
  · rintro ⟨name, text, held, parses⟩
    refine ⟨⟨name, true⟩, ?_, rfl, parses⟩
    apply (order.perm _).mem_iff.mpr
    rw [mem_children_iff]
    refine ⟨.file text, ?_, rfl⟩
    rw [content_eq_some_iff] at held
    simpa using held

variable {dataRoot entityName} {environment : Environment} {data : Text}

theorem Stage.advance_content (valid : isValidEntityName entityName = true)
    (stage : Stage) (fs : FileSystem) (path : Path)
    (foreign : ∀ id, stage.id = some id → path ≠ dataRoot ++ [entityName, decimal id]) :
    content (stage.advance dataRoot entityName environment data fs).2 path =
      content fs path := by
  cases stage with
  | starting => exact makeDirectories_content [] _ fs path
  | listing =>
      simp only [Stage.advance]
      split
      · split <;> rfl
      · rfl
  | opening id =>
      have differs := foreign id rfl
      rw [← entityFilePath_eq dataRoot valid] at differs
      exact openTruncated_content fs _ path differs
  | writing id offset rest =>
      have differs := foreign id rfl
      rw [← entityFilePath_eq dataRoot valid] at differs
      cases rest with
      | nil => rfl
      | cons piece rest => exact write_content fs _ path offset piece differs
  | ended id => rfl
  | stuck => rfl

theorem Stage.advance_id (stage : Stage) (fs : FileSystem) (id : Int)
    (named : stage.id = some id) :
    (stage.advance dataRoot entityName environment data fs).1.id = some id ∨
      (stage.advance dataRoot entityName environment data fs).1 = .ended (-1) := by
  cases stage with
  | starting => simp [Stage.id] at named
  | listing => simp [Stage.id] at named
  | opening other =>
      simp only [Stage.advance]
      split
      · exact Or.inl named
      · exact Or.inr rfl
  | writing other offset rest =>
      cases rest with
      | nil => exact Or.inl named
      | cons piece rest => exact Or.inl named
  | ended other => exact Or.inl named
  | stuck => simp [Stage.id] at named

theorem Stage.failed_of_ended : (Stage.ended (-1)).Failed :=
  Or.inr ⟨-1, rfl, by omega⟩

theorem Stage.Failed.advance {stage : Stage} (failed : stage.Failed) (fs : FileSystem) :
    (stage.advance dataRoot entityName environment data fs).1.Failed := by
  rcases failed with rfl | ⟨id, named, negative⟩
  · exact Or.inl rfl
  · rcases Stage.advance_id stage fs id named with
      same | ended
    · exact Or.inr ⟨id, same, negative⟩
    · rw [ended]
      exact Stage.failed_of_ended

theorem Stage.Opened.advance {stage : Stage} {id : Int} (opened : stage.Opened id)
    (fs : FileSystem) :
    (stage.advance dataRoot entityName environment data fs).1.Opened id := by
  rcases opened with rfl | ⟨offset, rest, rfl⟩
  · exact Or.inl rfl
  · cases rest with
    | nil => exact Or.inl rfl
    | cons piece rest => exact Or.inr ⟨_, _, rfl⟩

theorem Stage.Opened.id_eq {stage : Stage} {id : Int} (opened : stage.Opened id) :
    stage.id = some id := by
  rcases opened with rfl | ⟨offset, rest, rfl⟩
  · rfl
  · rfl

theorem Stage.Opened.uses {stage : Stage} {id : Int} (opened : stage.Opened id)
    (nonneg : 0 ≤ id) (small : id < 2147483648) {fs : FileSystem}
    (holds : stage.Holds dataRoot entityName fs data) : Uses dataRoot entityName fs id := by
  have parses := parseId_decimal nonneg small
  rcases opened with rfl | ⟨offset, rest, rfl⟩
  · exact ⟨_, _, holds nonneg, parses⟩
  · obtain ⟨written, held, _⟩ := holds
    exact ⟨_, _, held, parses⟩

theorem Stage.Holds.advance (valid : isValidEntityName entityName = true) {stage : Stage}
    {fs : FileSystem} (holds : stage.Holds dataRoot entityName fs data) :
    (stage.advance dataRoot entityName environment data fs).1.Holds dataRoot entityName
      (stage.advance dataRoot entityName environment data fs).2 data := by
  have failure : ∀ fs, (Stage.ended (-1)).Holds dataRoot entityName fs data := by
    intro fs nonneg
    omega
  cases stage with
  | starting =>
      simp only [Stage.advance]
      split
      · trivial
      · exact failure _
  | listing =>
      simp only [Stage.advance]
      split
      · split <;> trivial
      · exact failure _
  | opening id =>
      simp only [Stage.advance]
      rcases openTruncated_cases fs (entityFilePath dataRoot entityName id) with
        refused | ⟨opened, _⟩
      · rw [refused]
        exact failure _
      · rw [opened]
        refine ⟨[], ?_, rfl, environment.buffering.flatten_pieces data⟩
        rw [entityFilePath_eq dataRoot valid, content_insert, if_pos rfl]
  | writing id offset rest =>
      obtain ⟨written, held, rfl, whole⟩ := holds
      cases rest with
      | nil =>
          intro _
          rw [← whole, List.flatten_nil, List.append_nil]
          exact held
      | cons piece rest =>
          refine ⟨written ++ piece, ?_, by rw [List.length_append], ?_⟩
          · simp only [Stage.advance]
            rw [entityFilePath_eq dataRoot valid,
              write_end fs _ written piece ((content_eq_some_iff _ _ _).mp held),
              content_insert, if_pos rfl]
          · rw [← whole, List.flatten_cons, List.append_assoc]
  | ended id => exact holds
  | stuck => trivial

theorem Stage.Holds.congr {stage : Stage} {fs fs' : FileSystem}
    (holds : stage.Holds dataRoot entityName fs data)
    (same : ∀ id, stage.id = some id →
      content fs' (dataRoot ++ [entityName, decimal id]) =
        content fs (dataRoot ++ [entityName, decimal id])) :
    stage.Holds dataRoot entityName fs' data := by
  cases stage with
  | writing id offset rest =>
      obtain ⟨written, held, length, whole⟩ := holds
      exact ⟨written, (same id rfl).trans held, length, whole⟩
  | ended id =>
      intro nonneg
      exact (same id rfl).trans (holds nonneg)
  | _ => trivial

def Lowest (uses : Int → Prop) (id : Int) : Prop :=
  ∃ ids, lowestUnused ids = some id ∧ ∀ other, other ∈ ids ↔ uses other

theorem Lowest.unused {uses : Int → Prop} {id : Int} (lowest : Lowest uses id) : ¬ uses id := by
  obtain ⟨ids, found, members⟩ := lowest
  obtain ⟨_, _, free, _⟩ := lowestUnused_spec found
  rw [← members]
  exact free

theorem Lowest.inRange {uses : Int → Prop} {id : Int} (lowest : Lowest uses id) :
    InRange32 id := by
  obtain ⟨ids, found, _⟩ := lowest
  obtain ⟨steps, reached, _⟩ := lowestUnused_spec found
  rw [← reached]
  exact successor_iterate_inRange 0 zero_inRange steps

theorem Lowest.unique {uses : Int → Prop} {id other : Int} (lowest : Lowest uses id)
    (otherLowest : Lowest uses other) : id = other := by
  obtain ⟨ids, found, members⟩ := lowest
  obtain ⟨others, foundOther, membersOther⟩ := otherLowest
  have same := lowestUnused_congr ids others
    (fun id => (members id).trans (membersOther id).symm)
  rw [found, foundOther, Option.some.injEq] at same
  exact same

theorem uses_congr {fs fs' : FileSystem} (same : ∀ path, content fs' path = content fs path) :
    Uses dataRoot entityName fs' = Uses dataRoot entityName fs := by
  funext id
  unfold Uses
  simp only [same]

theorem Stage.listing_cases (valid : isValidEntityName entityName = true) (fs : FileSystem) :
    (∃ id, Stage.listing.advance dataRoot entityName environment data fs = (.opening id, fs) ∧
        Lowest (Uses dataRoot entityName fs) id) ∨
      (Stage.listing.advance dataRoot entityName environment data fs).1.Failed := by
  simp only [Stage.advance]
  split
  · rw [entityDirectory_eq dataRoot valid]
    split
    · rename_i id found
      exact Or.inl ⟨id, rfl, _, found, mem_ids_iff_uses dataRoot entityName _ fs⟩
    · exact Or.inr (Or.inl rfl)
  · exact Or.inr Stage.failed_of_ended

/-- A step that gives a call its id gives it one that is not in use, or fails. -/
theorem Stage.advance_new_id (valid : isValidEntityName entityName = true) {stage : Stage}
    (unnamed : stage.id = none) (fs : FileSystem) (id : Int)
    (named : (stage.advance dataRoot entityName environment data fs).1.id = some id) :
    id = -1 ∨ ¬ Uses dataRoot entityName fs id := by
  cases stage with
  | starting =>
      simp only [Stage.advance] at named
      split at named
      · simp [Stage.id] at named
      · exact Or.inl (by simpa [Stage.id, eq_comm] using named)
  | listing =>
      simp only [Stage.advance] at named
      split at named
      · split at named
        · rename_i found
          rw [entityDirectory_eq dataRoot valid] at found
          simp only [Stage.id, Option.some.injEq] at named
          subst named
          exact Or.inr (Lowest.unused ⟨_, found, mem_ids_iff_uses dataRoot entityName _ fs⟩)
        · simp [Stage.id] at named
      · exact Or.inl (by simpa [Stage.id, eq_comm] using named)
  | opening other => simp [Stage.id] at unnamed
  | writing other offset rest => simp [Stage.id] at unnamed
  | ended other => simp [Stage.id] at unnamed
  | stuck => simp [Stage.advance, Stage.id] at named

end Stages

/-! ## Both calls -/

section Joint

variable {dataRoot : Path} {entityName : Text}
variable {data : Caller → Text} {environment : Caller → Environment}

/-- Before any file is opened, the stage tells how many calls were made. -/
def Stage.Early (uses : Int → Prop) (calls : Nat) : Stage → Prop
  | .starting => calls = 0
  | .listing => calls = 1
  | .opening id => calls = 2 ∧ 0 ≤ id ∧ Lowest uses id
  | _ => False

theorem Stage.Early.cases {uses : Int → Prop} {calls : Nat} {stage : Stage}
    (early : stage.Early uses calls) :
    stage = .starting ∧ calls = 0 ∨ stage = .listing ∧ calls = 1 ∨
      ∃ id, stage = .opening id ∧ calls = 2 ∧ 0 ≤ id ∧ Lowest uses id := by
  cases stage with
  | starting => exact Or.inl ⟨rfl, early⟩
  | listing => exact Or.inr (Or.inl ⟨rfl, early⟩)
  | opening id => exact Or.inr (Or.inr ⟨id, rfl, early⟩)
  | writing id offset rest => exact early.elim
  | ended id => exact early.elim
  | stuck => exact early.elim

theorem Stage.Early.calls_le {uses : Int → Prop} {calls : Nat} {stage : Stage}
    (early : stage.Early uses calls) : calls ≤ 2 := by
  rcases early.cases with ⟨_, count⟩ | ⟨_, count⟩ | ⟨_, _, count, _⟩ <;> omega

theorem Stage.Early.unnamed {uses : Int → Prop} {calls : Nat} {stage : Stage}
    (early : stage.Early uses calls) (few : calls < 2) : stage.id = none := by
  rcases early.cases with ⟨rfl, _⟩ | ⟨rfl, _⟩ | ⟨_, _, count, _⟩
  · rfl
  · rfl
  · omega

theorem Stage.Early.scanned {uses : Int → Prop} {calls : Nat} {stage : Stage}
    (early : stage.Early uses calls) (many : 2 ≤ calls) :
    ∃ id, stage.id = some id ∧ Lowest uses id := by
  rcases early.cases with ⟨_, count⟩ | ⟨_, count⟩ | ⟨id, rfl, _, _, lowest⟩
  · omega
  · omega
  · exact ⟨id, rfl, lowest⟩

theorem Stage.Early.holds {uses : Int → Prop} {calls : Nat} {stage : Stage}
    (early : stage.Early uses calls) (fs : FileSystem) (data : Text) :
    stage.Holds dataRoot entityName fs data := by
  rcases early.cases with ⟨rfl, _⟩ | ⟨rfl, _⟩ | ⟨_, rfl, _⟩ <;> trivial

/-- The two calls fail, or have opened no file yet, or one opens its file before the
other scans, or both have scanned before any file was opened. -/
inductive Joint (dataRoot : Path) (entityName : Text) (data : Caller → Text)
    (made : List Caller) (fs : FileSystem) (stages : Caller → Stage) : Prop where
  | failed (i : Caller) (failed : (stages i).Failed)
  | early (early : ∀ i, (stages i).Early (Uses dataRoot entityName fs) (made.count i))
  | apart (separated : Separated made) (ahead behind : Caller) (different : ahead ≠ behind)
      (id : Int) (nonneg : 0 ≤ id) (small : id < 2147483648)
      (opened : (stages ahead).Opened id)
      (holds : ∀ i, (stages i).Holds dataRoot entityName fs (data i))
      (avoids : ∀ other, (stages behind).id = some other → other ≠ id)
  | clash (notSeparated : ¬ Separated made) (scanned : ∀ i, 2 ≤ made.count i) (id : Int)
      (same : ∀ i, (stages i).id = some id)

theorem separated_snoc {made : List Caller} (separated : Separated made) (i : Caller) :
    Separated (made ++ [i]) := by
  obtain ⟨part, inside, rest⟩ := separated
  exact ⟨part, inside.trans (List.prefix_append _ _), rest⟩

theorem not_separated_snoc {made : List Caller} (notSeparated : ¬ Separated made) (i : Caller)
    (scanned : ∀ j, 2 ≤ (made ++ [i]).count j) : ¬ Separated (made ++ [i]) := by
  rintro ⟨part, inside, ahead, behind, opened, before⟩
  rcases List.prefix_concat_iff.mp inside with whole | shorter
  · rw [whole] at before
    have reached := scanned behind
    omega
  · exact notSeparated ⟨part, shorter, ahead, behind, opened, before⟩

theorem not_separated_of_few {made : List Caller} (few : ∀ i, made.count i ≤ 2) :
    ¬ Separated made := by
  rintro ⟨part, inside, ahead, behind, opened, _⟩
  have bound := inside.sublist.count_le ahead
  have atMost := few ahead
  omega

theorem count_snoc (made : List Caller) (i j : Caller) :
    (made ++ [i]).count j = made.count j + if i = j then 1 else 0 := by
  rw [List.count_append, List.count_singleton]
  by_cases same : i = j
  · simp [same]
  · simp [same]

section Turn

variable (dataRoot entityName data environment)
variable (i : Caller) (fs : FileSystem) (stages : Caller → Stage)

def turnStages : Caller → Stage :=
  Function.update stages i
    ((stages i).advance dataRoot entityName (environment i) (data i) fs).1

def turnFiles : FileSystem :=
  ((stages i).advance dataRoot entityName (environment i) (data i) fs).2

theorem turnStages_own : turnStages dataRoot entityName data environment i fs stages i =
    ((stages i).advance dataRoot entityName (environment i) (data i) fs).1 :=
  Function.update_self i _ stages

theorem turnStages_other (j : Caller) (differs : j ≠ i) :
    turnStages dataRoot entityName data environment i fs stages j = stages j :=
  Function.update_of_ne differs _ _

end Turn

section Kept

variable {made : List Caller} {fs : FileSystem} {stages : Caller → Stage}
variable (valid : isValidEntityName entityName = true) (i : Caller)

theorem failed_step (k : Caller) (failed : (stages k).Failed) :
    (turnStages dataRoot entityName data environment i fs stages k).Failed := by
  by_cases moved : k = i
  · subst moved
    rw [turnStages_own]
    exact failed.advance fs
  · rw [turnStages_other _ _ _ _ _ _ _ k moved]
    exact failed

theorem clash_step (notSeparated : ¬ Separated made) (scanned : ∀ j, 2 ≤ made.count j)
    (id : Int) (same : ∀ j, (stages j).id = some id) :
    Joint dataRoot entityName data (made ++ [i])
      (turnFiles dataRoot entityName data environment i fs stages)
      (turnStages dataRoot entityName data environment i fs stages) := by
  have step : (turnStages dataRoot entityName data environment i fs stages i).id = some id ∨
      turnStages dataRoot entityName data environment i fs stages i = .ended (-1) := by
    rw [turnStages_own]
    exact Stage.advance_id (stages i) fs id (same i)
  rcases step with kept | ended
  · have more : ∀ j, 2 ≤ (made ++ [i]).count j := by
      intro j
      have before := scanned j
      rw [count_snoc]
      omega
    apply Joint.clash (not_separated_snoc notSeparated i more) more id
    intro j
    by_cases moved : j = i
    · rw [moved, kept]
    · rw [turnStages_other _ _ _ _ _ _ _ j moved, same j]
  · apply Joint.failed i
    rw [ended]
    exact Stage.failed_of_ended

include valid

theorem holds_step (holds : ∀ j, (stages j).Holds dataRoot entityName fs (data j))
    (different : ∀ j ≠ i, ∀ id, (stages j).id = some id →
      ∀ other, (stages i).id = some other → id ≠ other) (j : Caller) :
    (turnStages dataRoot entityName data environment i fs stages j).Holds dataRoot entityName
      (turnFiles dataRoot entityName data environment i fs stages) (data j) := by
  by_cases moved : j = i
  · subst moved
    rw [turnStages_own]
    exact (holds j).advance valid
  · rw [turnStages_other _ _ _ _ _ _ _ j moved]
    apply (holds j).congr
    intro id named
    apply (stages i).advance_content valid
    intro other otherNamed
    apply objectPath_ne
    intro same
    exact different j moved id named other otherNamed same.2

theorem apart_step (separated : Separated made) (ahead behind : Caller)
    (distinct : ahead ≠ behind) (id : Int) (nonneg : 0 ≤ id) (small : id < 2147483648)
    (opened : (stages ahead).Opened id)
    (holds : ∀ j, (stages j).Holds dataRoot entityName fs (data j))
    (avoids : ∀ other, (stages behind).id = some other → other ≠ id) :
    Joint dataRoot entityName data (made ++ [i])
      (turnFiles dataRoot entityName data environment i fs stages)
      (turnStages dataRoot entityName data environment i fs stages) := by
  have different : ∀ j ≠ i, ∀ first, (stages j).id = some first →
      ∀ second, (stages i).id = some second → first ≠ second := by
    intro j moved first firstNamed second secondNamed same
    rw [same] at firstNamed
    have aheadNamed := opened.id_eq
    rcases Caller.either distinct j with rfl | rfl <;>
      rcases Caller.either distinct i with rfl | rfl
    · exact moved rfl
    · rw [aheadNamed, Option.some.injEq] at firstNamed
      exact avoids second secondNamed firstNamed.symm
    · rw [aheadNamed, Option.some.injEq] at secondNamed
      exact avoids second firstNamed secondNamed.symm
    · exact moved rfl
  refine Joint.apart (separated_snoc separated i) ahead behind distinct id nonneg small ?_
    (holds_step valid i holds different) ?_
  · by_cases moved : ahead = i
    · subst moved
      rw [turnStages_own]
      exact opened.advance fs
    · rw [turnStages_other _ _ _ _ _ _ _ ahead moved]
      exact opened
  · intro other named
    by_cases moved : behind = i
    · subst moved
      rw [turnStages_own] at named
      cases before : (stages behind).id with
      | some old =>
          rcases Stage.advance_id (stages behind) fs old before with kept | ended
          · rw [kept, Option.some.injEq] at named
            rw [← named]
            exact avoids old before
          · rw [ended] at named
            simp only [Stage.id, Option.some.injEq] at named
            omega
      | none =>
          rcases Stage.advance_new_id valid before fs other named with failed | unused
          · omega
          · rintro rfl
            exact unused (opened.uses nonneg small (holds ahead))
    · rw [turnStages_other _ _ _ _ _ _ _ behind moved] at named
      exact avoids other named

/-- The first file is opened: if the other call has not scanned yet it will see the
file, else it has found the same id. -/
theorem first_open_step
    (early : ∀ j, (stages j).Early (Uses dataRoot entityName fs) (made.count j)) (id : Int)
    (stage : stages i = .opening id)
    (opened : (turnStages dataRoot entityName data environment i fs stages i).Opened id) :
    Joint dataRoot entityName data (made ++ [i])
      (turnFiles dataRoot entityName data environment i fs stages)
      (turnStages dataRoot entityName data environment i fs stages) := by
  have own := early i
  rw [stage] at own
  obtain ⟨calls, nonneg, lowest⟩ := own
  by_cases waits : ∃ j, j ≠ i ∧ made.count j < 2
  · obtain ⟨j, different, before⟩ := waits
    have unnamed := (early j).unnamed before
    have separated : Separated (made ++ [i]) := by
      refine ⟨made ++ [i], List.prefix_refl _, i, j, ?_, ?_⟩
      · rw [count_snoc, if_pos rfl]
        omega
      · rw [count_snoc, if_neg (Ne.symm different)]
        omega
    refine Joint.apart separated i j (Ne.symm different) id nonneg lowest.inRange.2 opened
      (holds_step valid i (fun k => (early k).holds fs (data k)) ?_) ?_
    · intro k moved other otherNamed _ _ _
      have isOther : k = j := (Caller.either different k).resolve_right moved
      rw [isOther, unnamed] at otherNamed
      exact absurd otherNamed (by simp)
    · intro other named
      rw [turnStages_other _ _ _ _ _ _ _ j different, unnamed] at named
      exact absurd named (by simp)
  · have reached : ∀ j, 2 ≤ made.count j := by
      intro j
      by_contra before
      by_cases moved : j = i
      · rw [moved] at before
        omega
      · exact waits ⟨j, moved, by omega⟩
    have scanned : ∀ j, 2 ≤ (made ++ [i]).count j := by
      intro j
      have before := reached j
      rw [count_snoc]
      omega
    have few := not_separated_of_few (fun j => (early j).calls_le)
    apply Joint.clash (not_separated_snoc few i scanned) scanned id
    intro j
    by_cases moved : j = i
    · rw [moved]
      exact opened.id_eq
    · obtain ⟨other, named, otherLowest⟩ := (early j).scanned (reached j)
      rw [turnStages_other _ _ _ _ _ _ _ j moved, named, otherLowest.unique lowest]

/-- While no file is opened, a step leaves the files as they are, or fails, or opens
the first file. -/
theorem early_step (early : ∀ j, (stages j).Early (Uses dataRoot entityName fs) (made.count j)) :
    Joint dataRoot entityName data (made ++ [i])
      (turnFiles dataRoot entityName data environment i fs stages)
      (turnStages dataRoot entityName data environment i fs stages) := by
  have own := turnStages_own dataRoot entityName data environment i fs stages
  have fails : ((stages i).advance dataRoot entityName (environment i) (data i) fs).1.Failed →
      Joint dataRoot entityName data (made ++ [i])
        (turnFiles dataRoot entityName data environment i fs stages)
        (turnStages dataRoot entityName data environment i fs stages) := by
    intro failed
    apply Joint.failed i
    rw [own]
    exact failed
  -- a step that changes no file, and after which the stage of the call is early again
  have stays : (∀ path, content (turnFiles dataRoot entityName data environment i fs stages) path =
        content fs path) →
      (turnStages dataRoot entityName data environment i fs stages i).Early
        (Uses dataRoot entityName fs) (made.count i + 1) →
      Joint dataRoot entityName data (made ++ [i])
        (turnFiles dataRoot entityName data environment i fs stages)
        (turnStages dataRoot entityName data environment i fs stages) := by
    intro unchanged again
    apply Joint.early
    intro j
    rw [uses_congr unchanged, count_snoc]
    by_cases moved : j = i
    · rw [moved, if_pos rfl]
      exact again
    · rw [turnStages_other _ _ _ _ _ _ _ j moved, if_neg (Ne.symm moved)]
      exact early j
  rcases (early i).cases with ⟨stage, calls⟩ | ⟨stage, calls⟩ | ⟨id, stage, _⟩
  · rw [stage] at own fails
    by_cases success : (makeDirectories [] (entityDirectory dataRoot entityName) fs).1 = true
    · apply stays
      · intro path
        unfold turnFiles
        rw [stage]
        exact makeDirectories_content [] _ fs path
      · rw [own, calls]
        simp only [Stage.advance, if_pos success, Stage.Early]
    · apply fails
      simp only [Stage.advance, if_neg success]
      exact Stage.failed_of_ended
  · rw [stage] at own fails
    rcases Stage.listing_cases valid fs with ⟨id, scanned, lowest⟩ | failed
    · by_cases negative : id < 0
      · apply fails
        rw [scanned]
        exact Or.inr ⟨id, rfl, negative⟩
      · apply stays
        · intro path
          unfold turnFiles
          rw [stage, scanned]
        · rw [own, scanned, calls]
          exact ⟨rfl, by omega, lowest⟩
    · exact fails failed
  · rcases openTruncated_cases fs (entityFilePath dataRoot entityName id) with
      refused | ⟨opens, _⟩
    · rw [stage] at fails
      apply fails
      simp only [Stage.advance, refused]
      exact Stage.failed_of_ended
    · apply first_open_step valid i early id stage
      rw [own, stage]
      simp only [Stage.advance, opens, if_true]
      exact Or.inr ⟨_, _, rfl⟩

/-- Every step of either call keeps the invariant. -/
theorem Joint.step (joint : Joint dataRoot entityName data made fs stages) :
    Joint dataRoot entityName data (made ++ [i])
      (turnFiles dataRoot entityName data environment i fs stages)
      (turnStages dataRoot entityName data environment i fs stages) := by
  cases joint with
  | failed k failed => exact Joint.failed k (failed_step i k failed)
  | early early => exact early_step valid i early
  | apart separated ahead behind distinct id nonneg small opened holds avoids =>
      exact apart_step valid i separated ahead behind distinct id nonneg small opened holds
        avoids
  | clash notSeparated scanned id same => exact clash_step i notSeparated scanned id same

end Kept

/-- The state the calls have reached at the end of a schedule. -/
theorem race_joint (dataRoot : Path) {entityName : Text} (data : Caller → Text)
    (environment : Caller → Environment) (valid : isValidEntityName entityName = true)
    (schedule : List Caller) (fs : FileSystem) :
    ∃ reached : Caller → Stage,
      (race dataRoot entityName data environment schedule fs).thread = (fun i =>
        (reached i).rest dataRoot entityName (environment i).buffering (data i)) ∧
      Joint dataRoot entityName data schedule
        (race dataRoot entityName data environment schedule fs).shared reached := by
  apply follow_stages (fun i => perform (environment i).order)
    (fun i stage => stage.rest dataRoot entityName (environment i).buffering (data i))
    (fun i stage fs => stage.advance dataRoot entityName (environment i) (data i) fs)
    (fun i stage fs => stage.step_agrees dataRoot entityName valid (environment i) (data i) fs)
    (fun made fs stages => Joint dataRoot entityName data made fs stages)
    (fun _ => .starting) fs
  · apply Joint.early
    intro i
    simp [Stage.Early]
  · intro made i fs stages joint
    exact joint.step valid i

theorem ended_of_result {buffering : Buffering} {text : Text} {stage : Stage} {id : Int}
    (valid : isValidEntityName entityName = true)
    (returned : stage.rest dataRoot entityName buffering text = .done id) :
    stage = .ended id := by
  cases stage with
  | ended other =>
      simp only [Stage.rest, Program.done.injEq] at returned
      rw [returned]
  | starting =>
      simp only [Stage.rest, create, if_pos valid] at returned
      change Program.call _ _ = _ at returned
      simp at returned
  | listing =>
      change Program.call _ _ = _ at returned
      simp at returned
  | opening other =>
      change Program.call _ _ = _ at returned
      simp at returned
  | writing other offset rest =>
      cases rest with
      | nil =>
          change Program.call _ _ = _ at returned
          simp at returned
      | cons piece rest =>
          change Program.call _ _ = _ at returned
          simp at returned
  | stuck => simp [Stage.rest] at returned

end Joint

theorem rejected_result (dataRoot : Path) (data : Caller → Text)
    (environment : Caller → Environment) {entityName : Text}
    (invalid : ¬ isValidEntityName entityName = true) (schedule : List Caller)
    (fs : FileSystem) (i : Caller) :
    (race dataRoot entityName data environment schedule fs).result i = some (-1) := by
  have unchanged := follow_invariant (fun i => perform (environment i).order)
    (fun _ (current : System FileCommand FileCommand.Reply FileSystem fun _ : Caller => Int) =>
      ∀ j, current.thread j = .done (-1))
    ⟨fs, fun i => create dataRoot (environment i).buffering entityName (data i)⟩
    (by intro j; simp only [create, if_neg invalid]; rfl)
    (by
      intro _ k current ended j
      by_cases moved : j = k
      · rw [moved, turn_own, ended k]
        rfl
      · rw [turn_other _ _ _ _ moved]
        exact ended j)
    schedule
  unfold System.result race
  rw [unchanged i]

/-- For every content of the file system, every name and every schedule in which both
calls succeed: both objects are kept exactly if one call opens its file before the
other one scans. -/
theorem race_keeps_both_iff (dataRoot : Path) (entityName : Text) (data : Caller → Text)
    (environment : Caller → Environment) (schedule : List Caller) (fs : FileSystem)
    (id : Caller → Int)
    (returned : ∀ i, (race dataRoot entityName data environment schedule fs).result i =
      some (id i))
    (succeeded : ∀ i, 0 ≤ id i) :
    BothKept dataRoot entityName data
        (race dataRoot entityName data environment schedule fs).shared id ↔
      Separated schedule := by
  have valid : isValidEntityName entityName = true := by
    by_contra invalid
    have failure := rejected_result dataRoot data environment invalid schedule fs .first
    rw [returned .first, Option.some.injEq] at failure
    have nonneg := succeeded .first
    omega
  obtain ⟨reached, threads, joint⟩ := race_joint dataRoot data environment valid schedule fs
  have ended : ∀ i, reached i = .ended (id i) := by
    intro i
    have result := returned i
    unfold System.result at result
    rw [threads] at result
    split at result
    · rename_i value done
      rw [Option.some.injEq] at result
      rw [result] at done
      exact ended_of_result valid done
    · simp at result
  cases joint with
  | failed i failed =>
      rw [ended i] at failed
      rcases failed with stuck | ⟨other, named, negative⟩
      · simp at stuck
      · rw [Stage.id, Option.some.injEq] at named
        have nonneg := succeeded i
        omega
  | early early =>
      have first := early .first
      rw [ended .first] at first
      exact first.elim
  | apart separated ahead behind distinct other nonneg small opened holds avoids =>
      have aheadId := opened.id_eq
      rw [ended ahead, Stage.id, Option.some.injEq] at aheadId
      have behindId := avoids (id behind) (by rw [ended behind]; rfl)
      have different := @Caller.results_differ id ahead behind (by
        rw [aheadId]
        exact behindId)
      refine iff_of_true ⟨different, ?_⟩ separated
      intro i order outData
      have kept := holds i
      rw [ended i] at kept
      have accepted := (accepts_iff entityName (id i)).mpr ⟨valid, succeeded i⟩
      rw [read_run, objects_accepted _ _ accepted, kept (succeeded i)]
  | clash notSeparated scanned other same =>
      refine iff_of_false ?_ notSeparated
      intro both
      apply both.different
      have first := same .first
      have second := same .second
      rw [ended, Stage.id, Option.some.injEq] at first second
      rw [first, second]

def twoShoes : Caller → Text
  | .first => "left".toList
  | .second => "right".toList

/-- Each call makes a directory, a scan, an open, a write and a close. -/
def oneAfterTheOther : List Caller := List.replicate 5 .first ++ List.replicate 5 .second

theorem race_keeps_both_iff_sequential :
    BothKept ["data".toList] shoes twoShoes
        (race ["data".toList] shoes twoShoes (fun _ => .plain) oneAfterTheOther ∅).shared
        (fun i => if i = .first then 0 else 1) ↔
      Separated oneAfterTheOther :=
  race_keeps_both_iff ["data".toList] shoes twoShoes (fun _ => .plain) oneAfterTheOther ∅
    (fun i => if i = .first then 0 else 1) (by intro i; cases i <;> rfl)
    (by intro i; cases i <;> decide)

def alternately : List Caller :=
  [.first, .second, .first, .second, .first, .second, .first, .second, .first, .second]

theorem alternating_creations_collide :
    (∀ i, (race ["data".toList] shoes twoShoes (fun _ => .plain) alternately ∅).result i =
        some 0) ∧
      ¬ BothKept ["data".toList] shoes twoShoes
        (race ["data".toList] shoes twoShoes (fun _ => .plain) alternately ∅).shared
        (fun _ => 0) := by
  refine ⟨?_, ?_⟩
  · intro i
    cases i <;> rfl
  · intro both
    exact both.different rfl

end BathroomRatings.Store
