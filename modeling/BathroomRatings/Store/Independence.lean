import BathroomRatings.Lib.Interference
import BathroomRatings.Store.Refinement

/-!
# Calls that do not disturb each other

The persistent store takes no lock.  Calls on several threads still answer as if each
were alone, as long as no call changes an object that another one is about: each relies
on the others to leave its objects and all directories where they are, and guarantees to
change nothing but its own.
-/

set_option autoImplicit false

namespace BathroomRatings.Store

open BathroomRatings.Lib BathroomRatings.Lib.Decimal BathroomRatings.Lib.Interface
open BathroomRatings.Lib.Interference BathroomRatings.Lib.Sorting BathroomRatings.Lib.Word
open EntityStorePersistent FileSystem

/-- The objects a call is about: `Create` and `List` look at all of an entity. -/
def Call.Covers : Call → Text → Int → Prop
  | .create entityName _, other, _ => other = entityName
  | .read entityName id _, other, otherId => other = entityName ∧ otherId = id.value
  | .update entityName id _, other, otherId => other = entityName ∧ otherId = id.value
  | .delete entityName id, other, otherId => other = entityName ∧ otherId = id.value
  | .list entityName, other, _ => other = entityName
  | .restart, _, _ => False

def Call.changes : Call → Bool
  | .create _ _ | .update _ _ _ | .delete _ _ => true
  | _ => false

def Call.Owns (call : Call) (entityName : Text) (id : Int) : Prop :=
  call.changes = true ∧ call.Covers entityName id

def Apart (call other : Call) : Prop :=
  ∀ entityName id, ¬ (call.Owns entityName id ∧ other.Covers entityName id) ∧
    ¬ (other.Owns entityName id ∧ call.Covers entityName id)

/-! ## Changes of the data directory -/

/-- A change keeps the layout and the directories, and all objects but some. -/
structure Touching (dataRoot : Path) (some : Text → Int → Prop) (fs fs' : FileSystem) :
    Prop where
  shaped : Shaped dataRoot fs → Shaped dataRoot fs'
  directory : ∀ entityName, fs.get (dataRoot ++ [entityName]) = .some .directory →
    fs'.get (dataRoot ++ [entityName]) = .some .directory
  others : ∀ entityName id, ¬ some entityName id →
    objects dataRoot fs' entityName id = objects dataRoot fs entityName id

/-- The layout, with the objects a call is about as a map has them. -/
structure Showing (dataRoot : Path) (covers : Text → Int → Prop) (map : Objects)
    (fs : FileSystem) : Prop where
  shaped : Shaped dataRoot fs
  held : ∀ entityName id, covers entityName id →
    objects dataRoot fs entityName id = map entityName id

section Changes

variable {dataRoot : Path} {fs fs' : FileSystem} {covers owns : Text → Int → Prop}
variable {map : Objects} {entityName : Text} {id : Int}

theorem touching_refl (dataRoot : Path) (owns : Text → Int → Prop) (fs : FileSystem) :
    Touching dataRoot owns fs fs :=
  ⟨fun shaped => shaped, fun _ there => there, fun _ _ _ => rfl⟩

theorem Touching.mono {more : Text → Int → Prop} (touching : Touching dataRoot owns fs fs')
    (within : ∀ entityName id, owns entityName id → more entityName id) :
    Touching dataRoot more fs fs' :=
  ⟨touching.shaped, touching.directory, fun entityName id outside =>
    touching.others entityName id fun inside => outside (within entityName id inside)⟩

abbrev Elsewhere (dataRoot : Path) (covers : Text → Int → Prop) : Changes FileSystem :=
  Touching dataRoot fun entityName id => ¬ covers entityName id

theorem showing_stable (dataRoot : Path) (covers : Text → Int → Prop) (map : Objects) :
    Stable (Elsewhere dataRoot covers) (Showing dataRoot covers map) := by
  intro fs later showing changed
  refine ⟨changed.shaped showing.shaped, ?_⟩
  intro entityName id covered
  rw [changed.others entityName id (fun outside => outside covered)]
  exact showing.held entityName id covered

def Ready (dataRoot : Path) (covers : Text → Int → Prop) (map : Objects) (entityName : Text)
    (fs : FileSystem) : Prop :=
  Showing dataRoot covers map fs ∧ fs.get (dataRoot ++ [entityName]) = some .directory

theorem ready_stable (dataRoot : Path) (covers : Text → Int → Prop) (map : Objects)
    (entityName : Text) :
    Stable (Elsewhere dataRoot covers) (Ready dataRoot covers map entityName) := by
  apply (showing_stable dataRoot covers map).and
  exact fun _ _ there changed => changed.directory entityName there

theorem makeDirectories_touching (dataRoot : Path) (owns : Text → Int → Prop) (path : Path)
    (fs : FileSystem) (short : path.length ≤ dataRoot.length + 1) :
    Touching dataRoot owns fs (makeDirectories [] path fs).2 := by
  have kept := makeDirectories_lookup [] path fs
  refine ⟨fun shaped => (shaped.makeDirectories path short).shaped, ?_, ?_⟩
  · intro entityName there
    rcases kept (dataRoot ++ [entityName]) with same | ⟨missing, _⟩
    · rw [same, there]
    · rw [there] at missing
      exact absurd missing (by simp)
  · intro entityName id _
    simp only [objects]
    rw [makeDirectories_content]

variable (owns) in
/-- `EnsureEntityDirectory`, with whatever the map is. -/
theorem ensure_ready (showing : Showing dataRoot covers map fs)
    (valid : isValidEntityName entityName = true) (order : IterationOrder) :
    ∃ fs', perform order fs (.createDirectories (entityDirectory dataRoot entityName)) =
        (true, fs') ∧ Touching dataRoot owns fs fs' ∧
      Ready dataRoot covers map entityName fs' := by
  obtain ⟨fs', ensured, prepared, directory⟩ := showing.shaped.ensure valid order
  refine ⟨fs', ensured, ?_, ⟨prepared.shaped, ?_⟩, directory⟩
  · have made : fs' = (makeDirectories [] (entityDirectory dataRoot entityName) fs).2 :=
      (congrArg Prod.snd ensured).symm
    rw [made]
    apply makeDirectories_touching
    rw [entityDirectory_eq dataRoot valid]
    simp
  · intro other otherId covered
    rw [prepared.objects]
    exact showing.held other otherId covered

variable (accepted : accepts entityName id = true) (inRange : InRange32 id)
include accepted

theorem Ready.stored (ready : Ready dataRoot covers map entityName fs) (inRange : InRange32 id)
    {data : Text} (stored : Stored fs fs' (dataRoot ++ [entityName, decimal id]) data)
    (own : owns entityName id) :
    Touching dataRoot owns fs fs' ∧
      Ready dataRoot covers (map.put entityName id data) entityName fs' := by
  obtain ⟨showing, directory⟩ := ready
  have shown := stored.objects accepted
  have directories : ∀ other : Text, fs'.get (dataRoot ++ [other]) =
      fs.get (dataRoot ++ [other]) := by
    intro other
    rw [stored, if_neg (shorter_ne (by simp) entityName (decimal id))]
  refine ⟨⟨fun shaped => shaped.stored directory inRange stored, ?_, ?_⟩, ⟨?_, ?_⟩, ?_⟩
  · intro other there
    rw [directories, there]
  · intro other otherId outside
    rw [shown]
    refine if_neg ?_
    intro same
    rw [same.1, same.2] at outside
    exact outside own
  · exact showing.shaped.stored directory inRange stored
  · intro other otherId covered
    rw [shown]
    simp only [Objects.put]
    rw [showing.held other otherId covered]
  · rw [directories, directory]

theorem Ready.present (ready : Ready dataRoot covers map entityName fs)
    (covered : covers entityName id) {data : Text} (mapped : map entityName id = some data) :
    fs.get (dataRoot ++ [entityName, decimal id]) = some (.file data) := by
  have held := ready.1.held entityName id covered
  rw [objects_accepted dataRoot fs accepted, mapped] at held
  exact (content_eq_some_iff _ _ _).mp held

end Changes

theorem Objects.put_put (map : Objects) (entityName : Text) (id : Int) (first second : Text) :
    (map.put entityName id first).put entityName id second = map.put entityName id second := by
  funext other otherId
  unfold Objects.put
  split <;> rfl

theorem Objects.put_own (map : Objects) (entityName : Text) (id : Int) (data : Text) :
    map.put entityName id data entityName id = some data := if_pos ⟨rfl, rfl⟩

theorem Objects.Within.not_full {map : Objects} {used : Finset Int} (within : map.Within used)
    (few : used.card < 2147483648) (entityName : Text) :
    ¬ ∀ id, 0 ≤ id → id < 2147483648 → map entityName id ≠ none := by
  intro full
  have inside : Finset.Icc 0 2147483647 ⊆ used := by
    intro id member
    rw [Finset.mem_Icc] at member
    exact within entityName id (full id member.1 (by omega))
  have card := Finset.card_le_card inside
  rw [Int.card_Icc] at card
  omega

section Writing

variable {dataRoot : Path} {covers owns : Text → Int → Prop} {map : Objects}
variable {entityName : Text} {id : Int} {order : IterationOrder} {fs : FileSystem}
variable (accepted : accepts entityName id = true) (inRange : InRange32 id)
variable (covered : covers entityName id) (own : owns entityName id)
include accepted inRange covered own

abbrev Wrote (dataRoot : Path) (covers : Text → Int → Prop) (map : Objects)
    (entityName : Text) (id : Int) (data : Text) (success : Bool) (fs : FileSystem) : Prop :=
  success = true ∧ Showing dataRoot covers (map.put entityName id data) fs

/-- The induction is on the pieces; what was written before them is in the map. -/
theorem writePieces_meets (pieces : List Text) (written : Text)
    (ready : Ready dataRoot covers (map.put entityName id written) entityName fs) :
    Meets (perform order) (Elsewhere dataRoot covers) (Touching dataRoot owns)
      (Wrote dataRoot covers map entityName id (written ++ pieces.flatten))
      (writePieces (dataRoot ++ [entityName, decimal id]) written.length pieces) fs := by
  induction pieces generalizing written fs with
  | nil =>
      rw [List.flatten_nil, List.append_nil]
      exact meets_pure (showing_stable _ _ _) ready.1 fun later showing => ⟨rfl, showing⟩
  | cons piece rest ih =>
      refine meets_request (ready_stable _ _ _ _) ready ?_
      intro later ready
      have present := ready.present accepted covered (Objects.put_own _ _ _ _)
      have wrote : perform order later
          (.write (dataRoot ++ [entityName, decimal id]) written.length piece) =
          (true, later.insert (dataRoot ++ [entityName, decimal id])
            (.file (written ++ piece))) := by
        simp only [perform]
        rw [write_end later _ written piece present]
      obtain ⟨touching, longer⟩ := ready.stored accepted inRange
        (stored_insert later _ (written ++ piece)) own
      rw [Objects.put_put] at longer
      rw [wrote, List.flatten_cons, ← List.append_assoc, ← List.length_append]
      exact ⟨touching, ih _ longer⟩

theorem writeFile_meets (pieces : List Text)
    (ready : Ready dataRoot covers map entityName fs) :
    Meets (perform order) (Elsewhere dataRoot covers) (Touching dataRoot owns)
      (Wrote dataRoot covers map entityName id pieces.flatten)
      (writeFile (entityFilePath dataRoot entityName id) pieces) fs := by
  have valid := ((accepts_iff _ _).mp accepted).1
  rw [entityFilePath_eq dataRoot valid]
  refine meets_request (ready_stable _ _ _ _) ready ?_
  intro later ready
  have opened : perform order later (.openTruncated (dataRoot ++ [entityName, decimal id])) =
      (true, later.insert (dataRoot ++ [entityName, decimal id]) (.file [])) :=
    ready.1.shaped.opened valid ready.2 (decimal id)
  obtain ⟨touching, empty⟩ := ready.stored accepted inRange (stored_insert later _ []) own
  rw [opened]
  refine ⟨touching, (writePieces_meets accepted inRange covered own pieces [] empty).bind ?_⟩
  intro success written wrote
  obtain ⟨rfl, showing⟩ := wrote
  refine meets_request (showing_stable _ _ _) showing ?_
  intro later showing
  refine ⟨touching_refl _ _ _, ?_⟩
  exact meets_pure (showing_stable _ _ _) showing fun last showing => ⟨rfl, showing⟩

end Writing

section Calls

variable {dataRoot : Path} {map : Objects} {fs : FileSystem}

/-- The answer of a call is the one its map explains, and leads to the map behind it. -/
def Answered (dataRoot : Path) (map : Objects) (call : Call) (answer : Answer)
    (fs : FileSystem) : Prop :=
  Explains map call answer ∧ Showing dataRoot call.Covers (after map call answer) fs

abbrev Independent (dataRoot : Path) (map : Objects) (environment : Environment) (call : Call)
    (fs : FileSystem) : Prop :=
  Meets (perform environment.order) (Elsewhere dataRoot call.Covers)
    (Touching dataRoot call.Owns) (Answered dataRoot map call)
    (callProgram dataRoot environment.buffering call) fs

theorem meets_answer {order : IterationOrder} {call : Call} (answer : Answer)
    (showing : Showing dataRoot call.Covers map fs) (explains : Explains map call answer)
    (same : after map call answer = map) :
    Meets (perform order) (Elsewhere dataRoot call.Covers) (Touching dataRoot call.Owns)
      (Answered dataRoot map call) (pure answer) fs := by
  refine meets_pure (showing_stable _ _ _) showing ?_
  intro later showing
  refine ⟨explains, ?_⟩
  rw [same]
  exact showing

theorem read_independent (environment : Environment) (entityName : Text) (id : Word32)
    (outData : Text)
    (showing : Showing dataRoot (Call.read entityName id outData).Covers map fs) :
    Independent dataRoot map environment (.read entityName id outData) fs := by
  simp only [Independent, callProgram, EntityStorePersistent.read]
  cases accepted : accepts entityName id.value with
  | false =>
      rw [if_pos ((accepts_eq_false_iff _ _).mp accepted)]
      exact meets_answer (.data false outData) showing (by simp [Explains, accepted])
        rfl
  | true =>
      have valid := ((accepts_iff _ _).mp accepted).1
      rw [if_neg ((not_rejected_iff _ _).mpr accepted), entityFilePath_eq dataRoot valid]
      refine meets_request (showing_stable _ _ _) showing ?_
      intro later showing
      refine ⟨touching_refl _ _ _, ?_⟩
      have held := showing.held entityName id.value ⟨rfl, rfl⟩
      rw [objects_accepted dataRoot later accepted] at held
      cases mapped : map entityName id.value with
      | none =>
          rw [mapped] at held
          simp only [perform, held, Option.isSome_none]
          exact meets_answer (.data false outData) showing
            (by simp [Explains, accepted, mapped]) rfl
      | some data =>
          rw [mapped] at held
          simp only [perform, held, Option.isSome_some]
          refine meets_request (showing_stable _ _ _) showing ?_
          intro last showing
          have still := showing.held entityName id.value ⟨rfl, rfl⟩
          rw [objects_accepted dataRoot last accepted, mapped] at still
          refine ⟨touching_refl _ _ _, ?_⟩
          simp only [perform, still, Option.getD_some]
          exact meets_answer (.data true data) showing
            (by simp [Explains, accepted, mapped]) rfl

theorem update_independent (environment : Environment) (entityName : Text) (id : Word32)
    (data : Text) (showing : Showing dataRoot (Call.update entityName id data).Covers map fs) :
    Independent dataRoot map environment (.update entityName id data) fs := by
  simp only [Independent, callProgram, update, ensureEntityDirectory]
  cases accepted : accepts entityName id.value with
  | false =>
      rw [if_pos ((accepts_eq_false_iff _ _).mp accepted)]
      exact meets_answer (.success false) showing (by simp [Explains, accepted])
        (by simp [after, accepted])
  | true =>
      have valid := ((accepts_iff _ _).mp accepted).1
      rw [if_neg ((not_rejected_iff _ _).mpr accepted)]
      refine meets_request (showing_stable _ _ _) showing ?_
      intro later showing
      obtain ⟨made, ensured, touching, ready⟩ :=
        ensure_ready (Call.update entityName id data).Owns showing valid environment.order
      rw [ensured]
      refine ⟨touching, Meets.map (writeFile_meets accepted id.inRange ⟨rfl, rfl⟩
        ⟨rfl, rfl, rfl⟩ _ ready) ?_⟩
      intro success last wrote
      obtain ⟨rfl, showing⟩ := wrote
      rw [environment.buffering.flatten_pieces] at showing
      exact ⟨by simp [Explains, accepted], by simpa [after, accepted] using showing⟩

theorem delete_independent (environment : Environment) (entityName : Text) (id : Word32)
    (showing : Showing dataRoot (Call.delete entityName id).Covers map fs) :
    Independent dataRoot map environment (.delete entityName id) fs := by
  simp only [Independent, callProgram, delete]
  cases accepted : accepts entityName id.value with
  | false =>
      rw [if_pos ((accepts_eq_false_iff _ _).mp accepted)]
      exact meets_answer (.success false) showing (by simp [Explains, accepted])
        (by simp [after, accepted])
  | true =>
      have valid := ((accepts_iff _ _).mp accepted).1
      rw [if_neg ((not_rejected_iff _ _).mpr accepted), entityFilePath_eq dataRoot valid]
      refine meets_request (showing_stable _ _ _) showing ?_
      intro later showing
      have held := showing.held entityName id.value ⟨rfl, rfl⟩
      cases node : later.get (dataRoot ++ [entityName, decimal id.value]) with
      | none =>
          have missing : map entityName id.value = none := by
            rw [← held, objects_accepted dataRoot later accepted]
            simp [content, node]
          have removed : perform environment.order later
              (.remove (dataRoot ++ [entityName, decimal id.value])) =
              (some false, later) := by
            simp [perform, remove, node]
          rw [removed]
          refine ⟨touching_refl _ _ _, ?_⟩
          exact meets_answer (.success false) showing
            (by simp [Explains, accepted, missing])
            (by simp [after, accepted, Objects.erase_absent missing])
      | some node' =>
          obtain ⟨_, ⟨text, rfl⟩, _⟩ := showing.shaped.object entityName valid _ _ node
          have stored : map entityName id.value = some text := by
            rw [← held, objects_accepted dataRoot later accepted]
            simp [content, node]
          have removed : perform environment.order later
              (.remove (dataRoot ++ [entityName, decimal id.value])) =
              (some true, later.erase (dataRoot ++ [entityName, decimal id.value])) := by
            simp [perform, remove, node]
          have erased := @erased_objects dataRoot later entityName id.value accepted
          have gone : Showing dataRoot (Call.delete entityName id).Covers
              (map.erase entityName id.value)
              (later.erase (dataRoot ++ [entityName, decimal id.value])) := by
            refine ⟨showing.shaped.erased entityName (decimal id.value), ?_⟩
            intro other otherId covered
            rw [erased]
            simp only [Objects.erase]
            rw [showing.held other otherId covered]
          rw [removed]
          refine ⟨⟨fun shaped => shaped.erased entityName (decimal id.value), ?_, ?_⟩, ?_⟩
          · intro other there
            refine (Table.get_erase _ _ _).trans ?_
            rw [if_neg (shorter_ne (by simp) entityName (decimal id.value))]
            exact there
          · intro other otherId outside
            rw [erased]
            refine if_neg ?_
            intro same
            exact outside ⟨rfl, same⟩
          · refine meets_pure (showing_stable _ _ _) gone ?_
            intro last showing
            exact ⟨by simp [Explains, accepted, stored], by simpa [after, accepted] using showing⟩

/-- `Create` behind `EnsureEntityDirectory`: no other thread can take the id it finds. -/
theorem createUnused_meets (environment : Environment) {entityName : Text} (data : Text)
    (valid : isValidEntityName entityName = true) {used : Finset Int}
    (within : map.Within used) (few : used.card < 2147483648)
    (ready : Ready dataRoot (Call.create entityName data).Covers map entityName fs) :
    Meets (perform environment.order) (Elsewhere dataRoot (Call.create entityName data).Covers)
      (Touching dataRoot (Call.create entityName data).Owns)
      (fun id fs => IsLeast {id | 0 ≤ id ∧ map entityName id = none} id ∧
        Showing dataRoot (Call.create entityName data).Covers (map.put entityName id data) fs)
      (createUnused (entityDirectory dataRoot entityName) (environment.buffering.pieces data))
      fs := by
  simp only [createUnused]
  refine meets_request (ready_stable _ _ _ _) ready ?_
  intro later ready
  obtain ⟨entries, id, scanned, found, cases⟩ :=
    ready.1.shaped.scan valid ready.2 environment.order
  have held : ∀ id, objects dataRoot later entityName id = map entityName id :=
    fun id => ready.1.held entityName id rfl
  simp only [held] at cases
  rw [scanned]
  refine ⟨touching_refl _ _ _, ?_⟩
  simp only [found, Program.ofOption]
  rcases cases with ⟨small, least⟩ | ⟨_, full⟩
  · have nonneg : 0 ≤ id := least.1.1
    have accepted : accepts entityName id = true := (accepts_iff _ _).mpr ⟨valid, nonneg⟩
    have covered : (Call.create entityName data).Covers entityName id := rfl
    have own : (Call.create entityName data).Owns entityName id := ⟨rfl, rfl⟩
    have wrote := @writeFile_meets _ _ _ _ _ _ environment.order _ accepted
      ⟨by omega, small⟩ covered own (environment.buffering.pieces data) ready
    change Meets _ _ _ _ (createFile (entityFilePath dataRoot entityName id) _ id) later
    simp only [createFile]
    refine Meets.bind wrote ?_
    intro success final wrote
    obtain ⟨rfl, showing⟩ := wrote
    rw [environment.buffering.flatten_pieces] at showing
    exact meets_pure (showing_stable _ _ _) showing fun _ showing => ⟨least, showing⟩
  · exact absurd full (within.not_full few entityName)

theorem create_independent (environment : Environment) (entityName data : Text)
    {used : Finset Int} (within : map.Within used) (few : used.card < 2147483648)
    (showing : Showing dataRoot (Call.create entityName data).Covers map fs) :
    Independent dataRoot map environment (.create entityName data) fs := by
  simp only [Independent, callProgram, create, ensureEntityDirectory]
  cases valid : isValidEntityName entityName with
  | false =>
      exact meets_answer (.id (-1)) showing (by simp [Explains, valid]) (by simp [after, valid])
  | true =>
      refine meets_request (showing_stable _ _ _) showing ?_
      intro later showing
      obtain ⟨made, ensured, touching, ready⟩ :=
        ensure_ready (Call.create entityName data).Owns showing valid environment.order
      rw [ensured]
      refine ⟨touching, Meets.map
        (createUnused_meets environment data valid within few ready) ?_⟩
      intro id last posted
      exact ⟨by simpa [Explains, valid] using posted.1, by simpa [after, valid] using posted.2⟩

theorem ready_ids {entityName : Text} (valid : isValidEntityName entityName = true)
    (ready : Ready dataRoot (Call.list entityName).Covers map entityName fs)
    (order : IterationOrder) :
    ∃ entries, perform order fs (.directoryIterator (entityDirectory dataRoot entityName)) =
        (some entries, fs) ∧
      Explains map (.list entityName) (.ids (ascending (idsOf entries))) := by
  refine ⟨order.arrange (children fs (dataRoot ++ [entityName])), ?_, ?_⟩
  · rw [entityDirectory_eq dataRoot valid]
    simp only [perform, isDirectory, ready.2]
    simp
  · simp only [Explains, valid, if_true]
    refine ⟨ascending_strict (ready.1.shaped.ids_distinct valid order), ?_⟩
    intro id
    rw [mem_ascending, ← ready.1.held entityName id rfl]
    exact ready.1.shaped.mem_ids valid order id

theorem list_independent (environment : Environment) (entityName : Text)
    (showing : Showing dataRoot (Call.list entityName).Covers map fs) :
    Independent dataRoot map environment (.list entityName) fs := by
  simp only [Independent, callProgram, list]
  cases valid : isValidEntityName entityName with
  | false =>
      exact meets_answer (.ids []) showing (by simp [Explains, valid]) rfl
  | true =>
      refine meets_request (showing_stable _ _ _) showing ?_
      intro later showing
      refine ⟨touching_refl _ _ _, ?_⟩
      have there : (perform environment.order later
          (.exists (entityDirectory dataRoot entityName))).1 =
          (later.get (dataRoot ++ [entityName])).isSome := by
        rw [entityDirectory_eq dataRoot valid]
        rfl
      cases node : later.get (dataRoot ++ [entityName]) with
      | none =>
          rw [there, node]
          refine meets_answer (.ids []) showing ?_ rfl
          simp only [Explains, valid, if_true, List.not_mem_nil, false_iff, not_not]
          refine ⟨List.Pairwise.nil, ?_⟩
          intro id
          -- an object would lie in a directory that is there
          by_contra stored
          rw [← showing.held entityName id rfl] at stored
          have accepted := accepted_of_object stored
          rw [objects_accepted dataRoot later accepted] at stored
          obtain ⟨text, held⟩ := Option.ne_none_iff_exists'.mp stored
          have present := (content_eq_some_iff _ _ _).mp held
          have directory := (showing.shaped.object entityName valid _ _ present).1
          rw [node] at directory
          exact absurd directory (by simp)
      | some node' =>
          cases node' with
          | file text => exact absurd node (showing.shaped.entity entityName valid text)
          | directory =>
              rw [there, node]
              refine meets_request (ready_stable _ _ _ _) ⟨showing, node⟩ ?_
              intro last ready
              obtain ⟨entries, iterated, explains⟩ :=
                ready_ids valid ready environment.order
              rw [iterated]
              exact ⟨touching_refl _ _ _, meets_answer _ ready.1 explains rfl⟩

theorem restart_independent (environment : Environment)
    (showing : Showing dataRoot Call.restart.Covers map fs) :
    Independent dataRoot map environment .restart fs := by
  simp only [Independent, callProgram, construct]
  refine meets_request (showing_stable _ _ _) showing ?_
  intro later showing
  have touching := makeDirectories_touching dataRoot Call.restart.Owns dataRoot later (by omega)
  refine ⟨touching, ?_⟩
  exact meets_answer .restarted
    ⟨touching.shaped showing.shaped, fun _ _ none => none.elim⟩ trivial rfl

theorem call_independent (environment : Environment) (call : Call) {used : Finset Int}
    (within : map.Within used) (few : used.card < 2147483648)
    (showing : Showing dataRoot call.Covers map fs) :
    Independent dataRoot map environment call fs := by
  cases call with
  | create entityName data =>
      exact create_independent environment entityName data within few showing
  | read entityName id outData => exact read_independent environment entityName id outData showing
  | update entityName id data => exact update_independent environment entityName id data showing
  | delete entityName id => exact delete_independent environment entityName id showing
  | list entityName => exact list_independent environment entityName showing
  | restart => exact restart_independent environment showing

end Calls

/-! ## All schedules -/

def together {ι : Type} [DecidableEq ι] (dataRoot : Path) (calls : ι → Call)
    (environment : ι → Environment) (schedule : List ι) (fs : FileSystem) :
    System FileCommand FileCommand.Reply FileSystem (fun _ : ι => Answer) :=
  System.follow (fun i => perform (environment i).order) schedule
    ⟨fs, fun i => callProgram dataRoot (environment i).buffering (calls i)⟩

/-- Calls of which none changes what another is about, in every schedule of their
file-system calls: each answers as if it were alone, its objects are then as it alone
leaves them, and objects that no call changes are as before. -/
theorem apart_calls_independent {ι : Type} [DecidableEq ι] (dataRoot : Path)
    (calls : ι → Call) (environment : ι → Environment)
    (apart : ∀ i j, i ≠ j → Apart (calls i) (calls j)) {fs : FileSystem}
    (shaped : Shaped dataRoot fs) {used : Finset Int}
    (within : (objects dataRoot fs).Within used) (few : used.card < 2147483648)
    (schedule : List ι) :
    let reached := together dataRoot calls environment schedule fs
    Shaped dataRoot reached.shared ∧
      (∀ i answer, reached.result i = some answer →
        Explains (objects dataRoot fs) (calls i) answer ∧
        ∀ entityName id, (calls i).Covers entityName id →
          objects dataRoot reached.shared entityName id =
            after (objects dataRoot fs) (calls i) answer entityName id) ∧
      ∀ entityName id, (∀ i, ¬ (calls i).Owns entityName id) →
        objects dataRoot reached.shared entityName id = objects dataRoot fs entityName id := by
  have meets : ∀ i, Independent dataRoot (objects dataRoot fs) (environment i) (calls i) fs :=
    fun i => call_independent (environment i) (calls i) within few ⟨shaped, fun _ _ _ => rfl⟩
  have compatible : ∀ i j, i ≠ j → ∀ state later,
      Touching dataRoot (calls i).Owns state later →
        Elsewhere dataRoot (calls j).Covers state later := by
    intro i j differ state later touching
    apply touching.mono
    intro entityName id owned covered
    exact (apart i j differ entityName id).1 ⟨owned, covered⟩
  let kept : FileSystem → Prop := fun state => Shaped dataRoot state ∧
    ∀ entityName id, (∀ i, ¬ (calls i).Owns entityName id) →
      objects dataRoot state entityName id = objects dataRoot fs entityName id
  have keeps : ∀ i state later, kept state → Touching dataRoot (calls i).Owns state later →
      kept later := by
    intro i state later held touching
    refine ⟨touching.shaped held.1, ?_⟩
    intro entityName id unowned
    rw [touching.others entityName id (unowned i)]
    exact held.2 entityName id unowned
  have initial : kept fs := ⟨shaped, fun _ _ _ => rfl⟩
  obtain ⟨⟨shaped', untouched⟩, results⟩ :=
    follow_meets ⟨fs, _⟩ compatible meets initial keeps schedule
  refine ⟨shaped', ?_, untouched⟩
  intro i answer ended
  obtain ⟨explains, showing⟩ := results i answer ended
  exact ⟨explains, showing.held⟩

def createBesideUpdate : Bool → Call
  | false => .create "Shoes".toList "\x7b\x7d".toList
  | true => .update "Books".toList ⟨0, zero_inRange⟩ "[]".toList

theorem apart_calls_independent_beside :
    let reached := together ["data".toList] createBesideUpdate (fun _ => .plain)
      [false, true, true, false] ∅
    Shaped ["data".toList] reached.shared ∧
      (∀ i answer, reached.result i = some answer →
        Explains (objects ["data".toList] ∅) (createBesideUpdate i) answer ∧
        ∀ entityName id, (createBesideUpdate i).Covers entityName id →
          objects ["data".toList] reached.shared entityName id =
            after (objects ["data".toList] ∅) (createBesideUpdate i) answer entityName id) ∧
      ∀ entityName id, (∀ i, ¬ (createBesideUpdate i).Owns entityName id) →
        objects ["data".toList] reached.shared entityName id =
          objects ["data".toList] ∅ entityName id := by
  have empty := empty_emptyRoot ["data".toList]
  have apart : ∀ i j, i ≠ j → Apart (createBesideUpdate i) (createBesideUpdate j) := by
    intro i j differ entityName id
    cases i with
    | false =>
        cases j with
        | false => exact absurd rfl differ
        | true =>
            constructor
            · intro both
              exact absurd (both.1.2.symm.trans both.2.1) (by decide)
            · intro both
              exact absurd (both.1.2.1.symm.trans both.2) (by decide)
    | true =>
        cases j with
        | true => exact absurd rfl differ
        | false =>
            constructor
            · intro both
              exact absurd (both.1.2.1.symm.trans both.2) (by decide)
            · intro both
              exact absurd (both.1.2.symm.trans both.2.1) (by decide)
  refine @apart_calls_independent Bool _ ["data".toList] createBesideUpdate (fun _ => .plain)
    apart ∅ empty.shaped ∅ ?_ (by decide) [false, true, true, false]
  intro entityName id stored
  rw [empty.objects] at stored
  exact absurd rfl stored
end BathroomRatings.Store
