import BathroomRatings.Store.Persistent
import BathroomRatings.Store.Specification
import Mathlib.Data.Int.Interval

/-!
# The files of a persistent store

What the data directory looks like between two calls, and what each operation does
to it when nothing fails.
-/

set_option autoImplicit false

namespace BathroomRatings.Store

open BathroomRatings.Lib BathroomRatings.Lib.Decimal BathroomRatings.Lib.Interface
open BathroomRatings.Lib.Search BathroomRatings.Lib.Word FileSystem
open EntityStorePersistent

theorem mem_idsOf_iff (entries : List DirectoryEntry) (id : Int) :
    id ∈ idsOf entries ↔
      ∃ entry ∈ entries, entry.isRegularFile = true ∧
        parseId entry.filename = some id := by
  simp only [idsOf]
  rw [List.mem_filterMap]
  constructor
  · rintro ⟨entry, member, found⟩
    split at found
    · rename_i regular
      exact ⟨entry, member, regular, found⟩
    · simp at found
  · rintro ⟨entry, member, regular, found⟩
    exact ⟨entry, member, by simp [regular, found]⟩

theorem zero_inRange : InRange32 0 := by
  constructor <;> norm_num

theorem lowestUnused_spec {ids : List Int} {id : Int}
    (found : lowestUnused ids = some id) :
    ∃ steps : Nat, successor^[steps] 0 = id ∧ id ∉ ids ∧
      ∀ i < steps, successor^[i] 0 ∈ ids := by
  obtain ⟨steps, _, reached, free, passed⟩ := firstFree_found _ _ _ _ _ found
  refine ⟨steps, reached, by simpa using free, ?_⟩
  intro i before
  simpa using passed i before

theorem lowestUnused_congr (ids others : List Int) (same : ∀ id, id ∈ ids ↔ id ∈ others) :
    lowestUnused ids = lowestUnused others := by
  simp only [lowestUnused]
  have occupied : (fun id => ids.contains id) = fun id => others.contains id := by
    funext id
    rw [Bool.eq_iff_iff, List.contains_iff_mem, List.contains_iff_mem]
    exact same id
  have count : ids.dedup.Perm others.dedup := by
    rw [List.perm_ext_iff_of_nodup ids.nodup_dedup others.nodup_dedup]
    intro id
    rw [List.mem_dedup, List.mem_dedup]
    exact same id
  rw [occupied, count.length_eq]

theorem successor_iterate_zero {steps : Nat} (small : steps < 2147483648) :
    successor^[steps] 0 = (steps : Int) := by
  rw [successor_iterate_of_small 0 zero_inRange steps (by omega)]
  omega

theorem lowestUnused_total {ids : List Int} (few : ids.toFinset.card < 4294967296) :
    ∃ id, lowestUnused ids = some id ∧ ∃ steps ≤ ids.toFinset.card,
      successor^[steps] 0 = id ∧ id ∉ ids ∧ ∀ i < steps, successor^[i] 0 ∈ ids := by
  obtain ⟨id, steps, fewSteps, found, reached, free, passed⟩ := firstFree_total successor
    (fun id => ids.contains id) (ids.dedup.length + 1) 0 ids.toFinset
    (by rw [List.card_toFinset]; omega)
    (by intro i _ busy; simpa using busy)
    (by
      intro i iSmall j jSmall same
      exact successor_iterate_distinct 0 zero_inRange i j (by omega) (by omega) same)
  exact ⟨id, found, steps, fewSteps, reached, by simpa using free,
    fun i before => by simpa using passed i before⟩

/-- The search of nonnegative `int`s ends.  It finds the least one that is unused; if
there is none, it meets the smallest `int` behind the largest. -/
theorem lowestUnused_cases (ids : List Int)
    (small : ∀ id ∈ ids, 0 ≤ id ∧ id < 2147483648) :
    ∃ id, lowestUnused ids = some id ∧
      (id < 2147483648 ∧ IsLeast {id | 0 ≤ id ∧ id ∉ ids} id ∨
        id = -2147483648 ∧ ∀ other, 0 ≤ other → other < 2147483648 → other ∈ ids) := by
  have bound : ids.toFinset.card ≤ 2147483648 := by
    have inside : ids.toFinset ⊆ Finset.Icc 0 2147483647 := by
      intro id member
      rw [List.mem_toFinset] at member
      have range := small id member
      rw [Finset.mem_Icc]
      omega
    have card := Finset.card_le_card inside
    have size := Int.card_Icc 0 2147483647
    omega
  obtain ⟨id, found, steps, fewSteps, reached, free, passed⟩ :=
    @lowestUnused_total ids (by omega)
  -- every number below the steps was met and is in use
  have below : ∀ other : Int, 0 ≤ other → other < 2147483648 → other < steps →
      other ∈ ids := by
    intro other nonneg top before
    have occupied := passed other.toNat (by omega)
    rw [successor_iterate_zero (by omega), Int.toNat_of_nonneg nonneg] at occupied
    exact occupied
  refine ⟨id, found, ?_⟩
  by_cases top : steps < 2147483648
  · have value : id = steps := by rw [← reached, successor_iterate_zero top]
    refine Or.inl ⟨by omega, ⟨by omega, free⟩, ?_⟩
    rintro other ⟨nonneg, unused⟩
    by_contra smaller
    exact unused (below other nonneg (by omega) (by omega))
  · have last : steps = 2147483648 := by omega
    refine Or.inr ⟨?_, ?_⟩
    · rw [← reached, last, successor_iterate 0 zero_inRange]
      decide
    · intro other nonneg upper
      exact below other nonneg upper (by omega)

theorem idsOf_inRange {entries : List DirectoryEntry} :
    ∀ id ∈ idsOf entries, InRange32 id := by
  intro id member
  obtain ⟨entry, _, _, parsed⟩ := (mem_idsOf_iff entries id).mp member
  rw [((parseId_iff _ _).mp parsed).2.2]
  exact wrap32_inRange _

theorem lowestUnused_nonneg {ids : List Int} {id : Int} (found : lowestUnused ids = some id)
    {unused : Int} (nonneg : 0 ≤ unused) (small : unused < 2147483648)
    (free : unused ∉ ids) : 0 ≤ id := by
  obtain ⟨steps, reached, _, passed⟩ := lowestUnused_spec found
  have early : steps ≤ unused.toNat := by
    by_contra later
    have busy := passed unused.toNat (by omega)
    rw [successor_iterate_zero (by omega), Int.toNat_of_nonneg nonneg] at busy
    exact free busy
  rw [← reached, successor_iterate_zero (by omega)]
  omega

theorem lowestUnused_negative {ids : List Int} (inRange : ∀ id ∈ ids, InRange32 id)
    (full : ∀ id, 0 ≤ id → id < 2147483648 → id ∈ ids)
    (unused : ∃ id, InRange32 id ∧ id ∉ ids) :
    ∃ id, lowestUnused ids = some id ∧ id < 0 := by
  obtain ⟨other, otherRange, otherFree⟩ := unused
  have count : ids.toFinset.card ≤ 4294967295 := by
    have inside : ids.toFinset ⊆ (Finset.Icc (-2147483648) 2147483647).erase other := by
      intro id member
      rw [List.mem_toFinset] at member
      obtain ⟨lower, upper⟩ := inRange id member
      rw [Finset.mem_erase, Finset.mem_Icc]
      exact ⟨fun same => otherFree (same ▸ member), by omega, by omega⟩
    have card := Finset.card_le_card inside
    obtain ⟨lower, upper⟩ := otherRange
    have size := Int.card_Icc (-2147483648) 2147483647
    rw [Finset.card_erase_of_mem (Finset.mem_Icc.mpr ⟨by omega, by omega⟩)] at card
    omega
  obtain ⟨id, found, steps, _, reached, free, _⟩ := @lowestUnused_total ids (by omega)
  refine ⟨id, found, ?_⟩
  obtain ⟨_, upper⟩ := successor_iterate_inRange 0 zero_inRange steps
  rw [reached] at upper
  by_contra nonneg
  exact free (full id (by omega) upper)

/-- `fs'` differs from `fs` in the file at `path` only, which holds `data`. -/
def Stored (fs fs' : FileSystem) (path : Path) (data : Text) : Prop :=
  ∀ other, fs'.get other = if other = path then some (.file data) else fs.get other

theorem stored_insert (fs : FileSystem) (path : Path) (data : Text) :
    Stored fs (fs.insert path (.file data)) path data := by
  intro other
  exact Table.get_insert fs path other (.file data)

theorem Stored.again {fs middle fs' : FileSystem} {path : Path} {first second : Text}
    (before : Stored fs middle path first) (after : Stored middle fs' path second) :
    Stored fs fs' path second := by
  intro other
  rw [after other, before other]
  split <;> rfl

theorem Stored.content {fs fs' : FileSystem} {path : Path} {data : Text}
    (stored : Stored fs fs' path data) (other : Path) :
    content fs' other = if other = path then some data else content fs other := by
  simp only [FileSystem.content]
  rw [stored other]
  by_cases same : other = path
  · simp [same]
  · simp [same]

theorem transferred_within (faults : Faults) {data : Text}
    (all : faults.transfersAll data = true) : faults.transferred data = data := by
  simp only [Faults.transfersAll] at all
  simp only [Faults.transferred]
  split
  · rename_i limit struck
    rw [struck] at all
    exact List.take_of_length_le (by simpa using all)
  · rfl

/-- A write at the end of a file, of which everything before reached it. -/
theorem write_faulty (order : IterationOrder) (faults : Faults) (path : Path)
    (written piece : Text) (fs : FileSystem)
    (present : fs.get path = some (.file written))
    (before : faults.transfersAll written = true) :
    performFaulty order faults fs (.write path written.length piece) =
      (faults.transfersAll (written ++ piece),
        fs.insert path (.file (faults.transferred (written ++ piece)))) := by
  simp only [performFaulty, Faults.transfersAll, Faults.transferred]
  simp only [Faults.transfersAll] at before
  cases struck : faults.write with
  | none => simp [perform, write_end fs path written _ present]
  | some limit =>
      rw [struck] at before
      have reach : written.length ≤ limit := by simpa using before
      by_cases fits : written.length + piece.length ≤ limit
      · have whole : (written ++ piece).take limit = written ++ piece :=
          List.take_of_length_le (by rw [List.length_append]; exact fits)
        simp [perform, write_end fs path written _ present, fits, whole]
      · have part : (written ++ piece).take limit =
            written ++ piece.take (limit - written.length) := by
          rw [List.take_append, List.take_of_length_le reach]
        simp [write_end fs path written _ present, fits, part]

theorem transfersAll_append {faults : Faults} {data : Text} (more : Text)
    (notBefore : faults.transfersAll data = false) :
    faults.transfersAll (data ++ more) = false ∧
      faults.transferred (data ++ more) = faults.transferred data := by
  simp only [Faults.transfersAll] at notBefore ⊢
  simp only [Faults.transferred]
  cases struck : faults.write with
  | none => simp [struck] at notBefore
  | some limit =>
      rw [struck] at notBefore
      have short : limit < data.length := by simpa using notBefore
      constructor
      · simp only [decide_eq_false_iff_not, List.length_append]
        omega
      · exact List.take_append_of_le_length (by omega)

theorem writePieces_run (order : IterationOrder) (faults : Faults) (path : Path)
    (pieces : List Text) (written : Text) (fs : FileSystem)
    (present : fs.get path = some (.file written))
    (before : faults.transfersAll written = true) :
    ∃ fs', (writePieces path written.length pieces).run (performFaulty order faults) fs =
        some (faults.transfersAll (written ++ pieces.flatten), fs') ∧
      Stored fs fs' path (faults.transferred (written ++ pieces.flatten)) := by
  induction pieces generalizing written fs with
  | nil =>
      rw [List.flatten_nil, List.append_nil, before, transferred_within faults before]
      refine ⟨fs, rfl, ?_⟩
      intro other
      by_cases same : other = path
      · simp [same, present]
      · simp [same]
  | cons piece rest ih =>
      have reply := write_faulty order faults path written piece fs present before
      have first := stored_insert fs path (faults.transferred (written ++ piece))
      simp only [writePieces]
      rw [run_request_bind, reply, List.flatten_cons, ← List.append_assoc]
      cases all : faults.transfersAll (written ++ piece) with
      | false =>
          obtain ⟨struck, same⟩ := transfersAll_append rest.flatten all
          rw [struck, same]
          exact ⟨_, rfl, first⟩
      | true =>
          rw [transferred_within faults all] at first ⊢
          obtain ⟨fs', run, stored⟩ := ih (written ++ piece) _
            (by rw [first path, if_pos rfl]) all
          rw [List.length_append] at run
          exact ⟨fs', run, first.again stored⟩

theorem writeFile_run (order : IterationOrder) (faults : Faults) (path : Path)
    (pieces : List Text) (fs : FileSystem) (permitted : faults.openTruncated = false)
    (opened : openTruncated fs path = (true, fs.insert path (.file []))) :
    ∃ fs', (writeFile path pieces).run (performFaulty order faults) fs =
        some (faults.transfersAll pieces.flatten && !faults.close, fs') ∧
      Stored fs fs' path (faults.transferred pieces.flatten) := by
  have emptied := stored_insert fs path []
  have start : faults.transfersAll [] = true := by
    simp only [Faults.transfersAll]
    split <;> simp
  obtain ⟨fs', run, stored⟩ := writePieces_run order faults path pieces []
    (fs.insert path (.file [])) (by rw [emptied path, if_pos rfl]) start
  refine ⟨fs', ?_, emptied.again stored⟩
  have reply : performFaulty order faults fs (.openTruncated path) =
      (true, fs.insert path (.file [])) := by
    simp only [performFaulty, permitted]
    exact opened
  simp only [writeFile]
  rw [run_request_bind, reply]
  simp only [if_true]
  simp only [finishFile]
  rw [run_bind]
  rw [List.length_nil] at run
  rw [run]
  rfl

theorem writeFile_refused (order : IterationOrder) (faults : Faults) (path : Path)
    (pieces : List Text) (fs : FileSystem) (struck : faults.openTruncated = true) :
    (writeFile path pieces).run (performFaulty order faults) fs = some (false, fs) := by
  simp only [writeFile]
  rw [run_request_bind]
  simp [performFaulty, struck]

/-! ## The layout -/

/-- Every file of a valid entity is named by the numeral of an `int`. -/
structure Shaped (dataRoot : Path) (fs : FileSystem) : Prop where
  clear : ∀ front ≠ [], front <+: dataRoot → ∀ text, fs.get front ≠ some (.file text)
  entity : ∀ entityName, isValidEntityName entityName = true →
    ∀ text, fs.get (dataRoot ++ [entityName]) ≠ some (.file text)
  object : ∀ entityName, isValidEntityName entityName = true → ∀ name node,
    fs.get (dataRoot ++ [entityName, name]) = some node →
      fs.get (dataRoot ++ [entityName]) = some .directory ∧
      (∃ text, node = .file text) ∧ ∃ id, InRange32 id ∧ name = decimal id

def objects (dataRoot : Path) (fs : FileSystem) : Objects := fun entityName id =>
  if accepts entityName id then content fs (dataRoot ++ [entityName, decimal id])
  else none

section Paths

variable (dataRoot : Path) {entityName : Text}
variable (valid : isValidEntityName entityName = true)
include valid

theorem entityDirectory_eq : entityDirectory dataRoot entityName = dataRoot ++ [entityName] :=
  slash_of_free dataRoot (slash_not_mem_of_valid valid)
    ((isValidEntityName_iff entityName).mp valid).1

theorem entityFilePath_eq (id : Int) :
    entityFilePath dataRoot entityName id = dataRoot ++ [entityName, decimal id] := by
  have free := not_mem_decimal (c := '/') (by decide) (by decide) id
  simp only [entityFilePath]
  rw [entityDirectory_eq dataRoot valid, slash_of_free _ free (decimal_ne_nil id)]
  simp

end Paths

theorem objects_rejected (dataRoot : Path) (fs : FileSystem) {entityName : Text} {id : Int}
    (rejected : accepts entityName id = false) : objects dataRoot fs entityName id = none := by
  simp [objects, rejected]

theorem objects_accepted (dataRoot : Path) (fs : FileSystem) {entityName : Text} {id : Int}
    (accepted : accepts entityName id = true) :
    objects dataRoot fs entityName id = content fs (dataRoot ++ [entityName, decimal id]) := by
  simp [objects, accepted]

theorem accepted_of_object {dataRoot : Path} {fs : FileSystem} {entityName : Text} {id : Int}
    (stored : objects dataRoot fs entityName id ≠ none) : accepts entityName id = true := by
  by_contra rejected
  exact stored (objects_rejected dataRoot fs (by simpa using rejected))

/-- Objects with different names or ids lie at different paths. -/
theorem objectPath_ne (dataRoot : Path) {entityName other : Text} {id otherId : Int}
    (different : ¬ (other = entityName ∧ otherId = id)) :
    dataRoot ++ [other, decimal otherId] ≠ dataRoot ++ [entityName, decimal id] := by
  intro equal
  simp only [List.append_cancel_left_eq, List.cons.injEq, and_true] at equal
  exact different ⟨equal.1, decimal_injective equal.2⟩

theorem shorter_ne {dataRoot path : Path} (short : path.length ≤ dataRoot.length + 1)
    (entityName name : Text) : path ≠ dataRoot ++ [entityName, name] := by
  intro same
  have longer := congrArg List.length same
  simp only [List.length_append, List.length_cons, List.length_nil] at longer
  omega

section Operations

variable {dataRoot : Path} {fs : FileSystem} {entityName : Text}

theorem Shaped.small (shaped : Shaped dataRoot fs)
    (valid : isValidEntityName entityName = true) {id : Int} {text : Text}
    (present : fs.get (dataRoot ++ [entityName, decimal id]) = some (.file text)) :
    InRange32 id := by
  obtain ⟨_, _, other, inRange, same⟩ := shaped.object entityName valid _ _ present
  rw [decimal_injective same]
  exact inRange

theorem Shaped.named (shaped : Shaped dataRoot fs)
    (valid : isValidEntityName entityName = true) {entry : DirectoryEntry} {id : Int}
    (listed : entry ∈ children fs (dataRoot ++ [entityName]))
    (parses : parseId entry.filename = some id) :
    0 ≤ id ∧ entry.filename = decimal id ∧
      ∃ text, fs.get (dataRoot ++ [entityName, decimal id]) = some (.file text) := by
  obtain ⟨node, present, _⟩ := (mem_children_iff _ _ _).mp listed
  rw [List.append_assoc] at present
  obtain ⟨_, ⟨text, rfl⟩, other, inRange, named⟩ :=
    shaped.object entityName valid entry.filename node present
  rw [named] at parses present
  by_cases negative : other < 0
  · rw [parseId_decimal_of_neg negative] at parses
    simp at parses
  · rw [parseId_decimal (by omega) inRange.2, Option.some.injEq] at parses
    subst parses
    exact ⟨by omega, named, text, present⟩

/-- The ids a scan of an entity directory yields are those of its objects. -/
theorem Shaped.mem_ids (shaped : Shaped dataRoot fs)
    (valid : isValidEntityName entityName = true) (order : IterationOrder) (id : Int) :
    id ∈ idsOf (order.arrange (children fs (dataRoot ++ [entityName]))) ↔
      objects dataRoot fs entityName id ≠ none := by
  rw [mem_idsOf_iff]
  constructor
  · rintro ⟨entry, member, _, parses⟩
    have listed := (order.perm _).mem_iff.mp member
    obtain ⟨nonneg, _, text, present⟩ := shaped.named valid listed parses
    rw [objects_accepted _ _ ((accepts_iff _ _).mpr ⟨valid, nonneg⟩),
      (content_eq_some_iff _ _ text).mpr present]
    simp
  · intro stored
    have accepted := accepted_of_object stored
    have nonneg := ((accepts_iff _ _).mp accepted).2
    rw [objects_accepted _ _ accepted] at stored
    obtain ⟨text, held⟩ := Option.ne_none_iff_exists'.mp stored
    have present := (content_eq_some_iff _ _ _).mp held
    refine ⟨⟨decimal id, true⟩, ?_, rfl, ?_⟩
    · apply (order.perm _).mem_iff.mpr
      rw [mem_children_iff]
      refine ⟨.file text, ?_, rfl⟩
      rw [List.append_assoc]
      exact present
    · exact parseId_decimal nonneg (shaped.small valid present).2

theorem Shaped.ids_distinct (shaped : Shaped dataRoot fs)
    (valid : isValidEntityName entityName = true) (order : IterationOrder) :
    (idsOf (order.arrange (children fs (dataRoot ++ [entityName])))).Nodup := by
  have perm := (order.perm (children fs (dataRoot ++ [entityName]))).filterMap
    fun entry => if entry.isRegularFile then parseId entry.filename else none
  apply perm.nodup_iff.mpr
  apply List.pairwise_filterMap.mpr
  apply (children_distinct fs (dataRoot ++ [entityName])).imp_of_mem
  intro first second firstListed secondListed different id firstId other otherId same
  simp only [Option.ite_none_right_eq_some] at firstId otherId
  obtain ⟨_, firstName, _⟩ := shaped.named valid firstListed firstId.2
  obtain ⟨_, secondName, _⟩ := shaped.named valid secondListed otherId.2
  rw [same] at firstName
  exact different (firstName.trans secondName.symm)

structure Prepared (dataRoot : Path) (fs fs' : FileSystem) : Prop where
  shaped : Shaped dataRoot fs'
  below : ∀ other name,
    fs'.get (dataRoot ++ [other, name]) = fs.get (dataRoot ++ [other, name])

theorem Prepared.objects {fs' : FileSystem} (prepared : Prepared dataRoot fs fs') :
    objects dataRoot fs' = objects dataRoot fs := by
  funext other id
  simp only [Store.objects, FileSystem.content]
  rw [prepared.below]

theorem Shaped.makeDirectories (shaped : Shaped dataRoot fs) (path : Path)
    (short : path.length ≤ dataRoot.length + 1) :
    Prepared dataRoot fs (makeDirectories [] path fs).2 := by
  have kept := makeDirectories_lookup [] path fs
  have notFile : ∀ other, (∀ text, fs.get other ≠ some (.file text)) →
      ∀ text, (FileSystem.makeDirectories [] path fs).2.get other ≠ some (.file text) := by
    intro other noFile text
    rcases kept other with same | ⟨_, made, _⟩
    · rw [same]
      exact noFile text
    · rw [made]
      simp
  have below : ∀ other name, (FileSystem.makeDirectories [] path fs).2.get
      (dataRoot ++ [other, name]) = fs.get (dataRoot ++ [other, name]) := by
    intro other name
    rcases kept (dataRoot ++ [other, name]) with same | ⟨_, _, front, _, inside, located⟩
    · exact same
    · have longer := congrArg List.length located
      have bound := inside.length_le
      simp only [List.length_append, List.length_cons, List.length_nil] at longer
      omega
  refine ⟨⟨?_, ?_, ?_⟩, below⟩
  · intro front nonempty inside
    exact notFile front (shaped.clear front nonempty inside)
  · intro other valid
    exact notFile _ (shaped.entity other valid)
  · intro other valid name node present
    rw [below] at present
    obtain ⟨directory, isFile, named⟩ := shaped.object other valid name node present
    refine ⟨?_, isFile, named⟩
    rcases kept (dataRoot ++ [other]) with same | ⟨missing, _⟩
    · rw [same, directory]
    · rw [directory] at missing
      exact absurd missing (by simp)

/-- `EnsureEntityDirectory` -/
theorem Shaped.ensure (shaped : Shaped dataRoot fs)
    (valid : isValidEntityName entityName = true) (order : IterationOrder) :
    ∃ fs', perform order fs (.createDirectories (entityDirectory dataRoot entityName)) =
        (true, fs') ∧ Prepared dataRoot fs fs' ∧
      fs'.get (dataRoot ++ [entityName]) = some .directory := by
  rw [entityDirectory_eq dataRoot valid]
  have success : (FileSystem.makeDirectories [] (dataRoot ++ [entityName]) fs).1 = true := by
    apply makeDirectories_succeeds
    intro front nonempty inside text
    rw [List.nil_append]
    rcases List.prefix_concat_iff.mp inside with whole | part
    · rw [whole]
      exact shaped.entity entityName valid text
    · exact shaped.clear front nonempty part text
  refine ⟨(FileSystem.makeDirectories [] (dataRoot ++ [entityName]) fs).2, ?_, ?_, ?_⟩
  · exact Prod.ext success rfl
  · exact shaped.makeDirectories _ (by simp)
  · exact makeDirectories_made [] _ fs (by simp) success

/-- Only what changes below the entity directories has to be looked at. -/
theorem Shaped.below (shaped : Shaped dataRoot fs) {fs' : FileSystem}
    (elsewhere : ∀ path : Path, path.length ≤ dataRoot.length + 1 → fs'.get path = fs.get path)
    (object : ∀ entityName, isValidEntityName entityName = true → ∀ name node,
      fs'.get (dataRoot ++ [entityName, name]) = some node →
        fs.get (dataRoot ++ [entityName]) = some .directory ∧
        (∃ text, node = .file text) ∧ ∃ id, InRange32 id ∧ name = decimal id) :
    Shaped dataRoot fs' := by
  refine ⟨?_, ?_, ?_⟩
  · intro front nonempty inside
    have bound := inside.length_le
    rw [elsewhere front (by omega)]
    exact shaped.clear front nonempty inside
  · intro other valid
    rw [elsewhere _ (by simp)]
    exact shaped.entity other valid
  · intro other valid name node present
    rw [elsewhere _ (by simp)]
    exact object other valid name node present

theorem Shaped.stored (shaped : Shaped dataRoot fs)
    (directory : fs.get (dataRoot ++ [entityName]) = some .directory)
    {id : Int} (inRange : InRange32 id) {fs' : FileSystem} {data : Text}
    (stored : Stored fs fs' (dataRoot ++ [entityName, decimal id]) data) :
    Shaped dataRoot fs' := by
  refine shaped.below ?_ ?_
  · intro path short
    rw [stored path, if_neg (shorter_ne short entityName (decimal id))]
  · intro other valid name node present
    rw [stored] at present
    split at present
    · rename_i same
      simp only [List.append_cancel_left_eq, List.cons.injEq, and_true] at same
      obtain ⟨rfl, rfl⟩ := same
      rw [Option.some.injEq] at present
      exact ⟨directory, ⟨data, present.symm⟩, id, inRange, rfl⟩
    · exact shaped.object other valid name node present

/-- Nothing but a file is ever in the way of an object. -/
theorem Shaped.opened (shaped : Shaped dataRoot fs)
    (valid : isValidEntityName entityName = true)
    (directory : fs.get (dataRoot ++ [entityName]) = some .directory) (name : Text) :
    openTruncated fs (dataRoot ++ [entityName, name]) =
      (true, fs.insert (dataRoot ++ [entityName, name]) (.file [])) := by
  have noDirectory : fs.get (dataRoot ++ [entityName] ++ [name]) ≠ some .directory := by
    intro blocked
    rw [List.append_assoc] at blocked
    obtain ⟨_, ⟨text, isFile⟩, _⟩ := shaped.object entityName valid _ _ blocked
    exact absurd isFile (by simp)
  have opened := openTruncated_succeeds fs (dataRoot ++ [entityName]) name directory
    noDirectory
  rw [List.append_assoc] at opened
  exact opened

theorem Shaped.writeFile (shaped : Shaped dataRoot fs)
    (valid : isValidEntityName entityName = true)
    (directory : fs.get (dataRoot ++ [entityName]) = some .directory)
    {id : Int} (inRange : InRange32 id) (environment : Environment) (faults : Faults)
    (permitted : faults.openTruncated = false) (data : Text) :
    ∃ fs', (writeFile (entityFilePath dataRoot entityName id)
          (environment.buffering.pieces data)).run
          (performFaulty environment.order faults) fs =
        some (faults.transfersAll data && !faults.close, fs') ∧ Shaped dataRoot fs' ∧
      Stored fs fs' (dataRoot ++ [entityName, decimal id]) (faults.transferred data) := by
  obtain ⟨fs', run, stored⟩ := writeFile_run environment.order faults _
    (environment.buffering.pieces data) fs permitted
    (shaped.opened valid directory (decimal id))
  rw [environment.buffering.flatten_pieces] at run stored
  rw [entityFilePath_eq dataRoot valid]
  exact ⟨fs', run, shaped.stored directory inRange stored, stored⟩

/-- What a store shows after an object was stored. -/
theorem Stored.objects {fs' : FileSystem} {id : Int} {data : Text}
    (accepted : accepts entityName id = true)
    (stored : Stored fs fs' (dataRoot ++ [entityName, decimal id]) data) :
    objects dataRoot fs' = (objects dataRoot fs).put entityName id data := by
  funext other otherId
  simp only [Store.objects, Objects.put]
  rw [stored.content]
  by_cases same : other = entityName ∧ otherId = id
  · obtain ⟨rfl, rfl⟩ := same
    simp [accepted]
  · rw [if_neg (objectPath_ne dataRoot same), if_neg same]

/-- A file named by a negative numeral is no object. -/
theorem Stored.objects_of_negative {fs' : FileSystem} {id : Int} {data : Text}
    (negative : id < 0)
    (stored : Stored fs fs' (dataRoot ++ [entityName, decimal id]) data) :
    Store.objects dataRoot fs' = Store.objects dataRoot fs := by
  funext other otherId
  simp only [Store.objects]
  rw [stored.content]
  cases accepted : accepts other otherId with
  | false => rfl
  | true =>
      have nonneg := ((accepts_iff _ _).mp accepted).2
      rw [if_neg (objectPath_ne dataRoot (by omega))]

theorem Shaped.erased (shaped : Shaped dataRoot fs) (entityName name : Text) :
    Shaped dataRoot (fs.erase (dataRoot ++ [entityName, name])) := by
  refine shaped.below ?_ ?_
  · intro path short
    exact (Table.get_erase _ _ _).trans (if_neg (shorter_ne short entityName name))
  · intro other valid otherName node present
    have held := (Table.get_erase _ _ _).symm.trans present
    split at held
    · exact absurd held (by simp)
    · exact shaped.object other valid otherName node held

theorem erased_objects {id : Int} (accepted : accepts entityName id = true) :
    objects dataRoot (fs.erase (dataRoot ++ [entityName, decimal id])) =
      (objects dataRoot fs).erase entityName id := by
  funext other otherId
  simp only [Store.objects, Objects.erase]
  rw [content_erase]
  by_cases same : other = entityName ∧ otherId = id
  · obtain ⟨rfl, rfl⟩ := same
    simp [accepted]
  · rw [if_neg (objectPath_ne dataRoot same), if_neg same]

theorem update_stopped (shaped : Shaped dataRoot fs) (environment : Environment)
    (faults : Faults) {id : Int} (accepted : accepts entityName id = true) (data : Text)
    (struck : (faults.createDirectories || faults.openTruncated) = true) :
    ∃ fs', (update dataRoot environment.buffering entityName id data).run
        (performFaulty environment.order faults) fs = some (false, fs') ∧
      Shaped dataRoot fs' ∧ objects dataRoot fs' = objects dataRoot fs := by
  have valid := ((accepts_iff _ _).mp accepted).1
  have notRejected := (not_rejected_iff entityName id).mpr accepted
  simp only [update, ensureEntityDirectory]
  rw [if_neg notRejected, run_request_bind]
  cases blocked : faults.createDirectories with
  | true => exact ⟨fs, by simp [performFaulty, blocked], shaped, rfl⟩
  | false =>
      obtain ⟨middle, ensured, prepared, _⟩ := shaped.ensure valid environment.order
      rw [blocked, Bool.false_or] at struck
      refine ⟨middle, ?_, prepared.shaped, prepared.objects⟩
      simp only [performFaulty, blocked, Bool.false_eq_true, if_false, ensured, if_true]
      exact writeFile_refused environment.order faults _ _ middle struck

theorem update_written (shaped : Shaped dataRoot fs) (environment : Environment)
    (faults : Faults) {id : Int} (accepted : accepts entityName id = true)
    (inRange : InRange32 id) (data : Text)
    (permitted : (faults.createDirectories || faults.openTruncated) = false) :
    ∃ fs', (update dataRoot environment.buffering entityName id data).run
        (performFaulty environment.order faults) fs =
        some (faults.transfersAll data && !faults.close, fs') ∧ Shaped dataRoot fs' ∧
      objects dataRoot fs' =
        (objects dataRoot fs).put entityName id (faults.transferred data) := by
  obtain ⟨unblocked, opens⟩ := Bool.or_eq_false_iff.mp permitted
  have valid := ((accepts_iff _ _).mp accepted).1
  have notRejected := (not_rejected_iff entityName id).mpr accepted
  obtain ⟨middle, ensured, prepared, directory⟩ := shaped.ensure valid environment.order
  obtain ⟨fs', run, shaped', stored⟩ := prepared.shaped.writeFile valid directory inRange
    environment faults opens data
  refine ⟨fs', ?_, shaped', ?_⟩
  · simp only [update, ensureEntityDirectory]
    rw [if_neg notRejected, run_request_bind]
    simp only [performFaulty, unblocked, Bool.false_eq_true, if_false, ensured, if_true]
    exact run
  · rw [stored.objects accepted, prepared.objects]

/-- The scan of `Create`, with the id it leads to. -/
theorem Shaped.scan (shaped : Shaped dataRoot fs)
    (valid : isValidEntityName entityName = true)
    (directory : fs.get (dataRoot ++ [entityName]) = some .directory)
    (order : IterationOrder) :
    ∃ entries id, perform order fs (.directoryIterator (entityDirectory dataRoot entityName)) =
        (some entries, fs) ∧ lowestUnused (idsOf entries) = some id ∧
      (id < 2147483648 ∧ IsLeast {id | 0 ≤ id ∧ objects dataRoot fs entityName id = none} id ∨
        id = -2147483648 ∧ ∀ other, 0 ≤ other → other < 2147483648 →
          objects dataRoot fs entityName other ≠ none) := by
  have members := shaped.mem_ids valid order
  obtain ⟨id, found, cases⟩ := lowestUnused_cases
    (idsOf (order.arrange (children fs (dataRoot ++ [entityName])))) (by
      intro id member
      have stored := (members id).mp member
      have accepted := accepted_of_object stored
      rw [objects_accepted dataRoot fs accepted] at stored
      obtain ⟨text, held⟩ := Option.ne_none_iff_exists'.mp stored
      have present := (content_eq_some_iff _ _ _).mp held
      exact ⟨((accepts_iff _ _).mp accepted).2, (shaped.small valid present).2⟩)
  have free : {id | 0 ≤ id ∧ objects dataRoot fs entityName id = none} =
      {id | 0 ≤ id ∧ id ∉ idsOf (order.arrange
        (children fs (dataRoot ++ [entityName])))} := by
    ext other
    simp only [Set.mem_ofPred_eq, members other, not_not]
  refine ⟨_, id, ?_, found, ?_⟩
  · rw [entityDirectory_eq dataRoot valid]
    simp only [perform, isDirectory, directory]
    simp
  · rw [free]
    rcases cases with least | ⟨bottom, full⟩
    · exact Or.inl least
    · refine Or.inr ⟨bottom, ?_⟩
      intro other nonneg upper
      exact (members other).mp (full other nonneg upper)

theorem create_stopped (shaped : Shaped dataRoot fs) (environment : Environment)
    (faults : Faults) (valid : isValidEntityName entityName = true) (data : Text)
    (struck : (faults.createDirectories || faults.directoryIterator ||
      faults.openTruncated) = true) :
    ∃ fs', (create dataRoot environment.buffering entityName data).run
        (performFaulty environment.order faults) fs = some (-1, fs') ∧
      Shaped dataRoot fs' ∧ objects dataRoot fs' = objects dataRoot fs := by
  simp only [create, createUnused, ensureEntityDirectory]
  rw [if_pos valid, run_request_bind]
  cases blocked : faults.createDirectories with
  | true => exact ⟨fs, by simp [performFaulty, blocked], shaped, rfl⟩
  | false =>
      obtain ⟨middle, ensured, prepared, directory⟩ := shaped.ensure valid environment.order
      refine ⟨middle, ?_, prepared.shaped, prepared.objects⟩
      simp only [performFaulty, blocked, Bool.false_eq_true, if_false, ensured, if_true]
      rw [run_request_bind]
      cases unread : faults.directoryIterator with
      | true => simp [performFaulty, unread]
      | false =>
          obtain ⟨entries, id, scanned, found, _⟩ :=
            prepared.shaped.scan valid directory environment.order
          simp only [blocked, unread, Bool.false_or] at struck
          simp only [performFaulty, unread, Bool.false_eq_true, if_false, scanned, found,
            Program.ofOption]
          simp only [createFile]
          rw [run_bind, run_done, Option.bind_some, run_bind,
            writeFile_refused environment.order faults _ _ middle struck]
          rfl

theorem create_written (shaped : Shaped dataRoot fs) (environment : Environment)
    (faults : Faults) (valid : isValidEntityName entityName = true) (data : Text)
    (permitted : (faults.createDirectories || faults.directoryIterator ||
      faults.openTruncated) = false) :
    ∃ id fs', (create dataRoot environment.buffering entityName data).run
        (performFaulty environment.order faults) fs =
        some (if faults.transfersAll data && !faults.close then id else -1, fs') ∧
      Shaped dataRoot fs' ∧
      (id < 2147483648 ∧ IsLeast {id | 0 ≤ id ∧ objects dataRoot fs entityName id = none} id ∧
          objects dataRoot fs' =
            (objects dataRoot fs).put entityName id (faults.transferred data) ∨
        id = -2147483648 ∧
          (∀ other, 0 ≤ other → other < 2147483648 →
            objects dataRoot fs entityName other ≠ none) ∧
          objects dataRoot fs' = objects dataRoot fs) := by
  obtain ⟨before, opens⟩ := Bool.or_eq_false_iff.mp permitted
  obtain ⟨unblocked, reads⟩ := Bool.or_eq_false_iff.mp before
  obtain ⟨middle, ensured, prepared, directory⟩ := shaped.ensure valid environment.order
  obtain ⟨entries, id, scanned, found, cases⟩ :=
    prepared.shaped.scan valid directory environment.order
  have inRange : InRange32 id := by
    rcases cases with ⟨small, least⟩ | ⟨bottom, _⟩
    · have nonneg : 0 ≤ id := least.1.1
      exact ⟨by omega, small⟩
    · exact ⟨by omega, by omega⟩
  obtain ⟨fs', run, shaped', stored⟩ := prepared.shaped.writeFile valid directory inRange
    environment faults opens data
  refine ⟨id, fs', ?_, shaped', ?_⟩
  · simp only [create, createUnused, ensureEntityDirectory]
    rw [if_pos valid, run_request_bind]
    simp only [performFaulty, unblocked, Bool.false_eq_true, if_false, ensured, if_true]
    rw [run_request_bind]
    simp only [performFaulty, reads, Bool.false_eq_true, if_false, scanned, found,
      Program.ofOption]
    simp only [createFile]
    rw [run_bind, run_done, Option.bind_some, run_bind]
    simp only [entityFilePath] at run
    rw [run]
    cases faults.transfersAll data && !faults.close <;> rfl
  · rw [prepared.objects] at cases
    rcases cases with ⟨small, least⟩ | ⟨bottom, full⟩
    · have nonneg : 0 ≤ id := least.1.1
      refine Or.inl ⟨small, least, ?_⟩
      rw [stored.objects ((accepts_iff _ _).mpr ⟨valid, nonneg⟩), prepared.objects]
    · refine Or.inr ⟨bottom, full, ?_⟩
      rw [stored.objects_of_negative (by omega), prepared.objects]

end Operations

end BathroomRatings.Store
