import BathroomRatings.Api.Calls
import BathroomRatings.Api.Ledger
import BathroomRatings.Lib.Mutex
import BathroomRatings.Store.Locked
import Mathlib.Data.Fintype.Card

/-!
# Requests on many threads

Threads, fewer than 2^31, each handle a request over one store in memory, whose operations
run access by access under its mutex.  However their steps interleave, the answers are
those of the requests handled one after another in some order; a request that calls the
store has its place in that order at one of the thread's own turns.
-/

set_option autoImplicit false

namespace BathroomRatings.Api

open BathroomRatings.Http BathroomRatings.Lib.Interface BathroomRatings.Lib.Mutex
open BathroomRatings.Lib.Sorting
open BathroomRatings.Store BathroomRatings.Store.EntityStoreInMemory

section Concurrent

variable {ι : Type} [DecidableEq ι]
variable (rounds : Nat) (isValidJson : Text → Bool) (urlPrefix : Text)
variable (requests : ι → Request) (orders : ι → Arrangement Int)

def threads (store : EntityStoreInMemory) :
    System StoreCall StoreCall.Reply EntityStoreInMemory (fun _ : ι => Response) :=
  ⟨store, fun i => handleRequest callingStore isValidJson urlPrefix (requests i)⟩

def concurrently (schedule : List ι) (store : EntityStoreInMemory) :
    Guarded MemoryCommand MemoryCommand.Reply StoreCall StoreCall.Reply EntityStoreInMemory
      (fun _ : ι => Response) :=
  Guarded.follow (fun i => access (orders i)) (fun call => call.on (lockedStore rounds)) schedule
    (.start (threads isValidJson urlPrefix requests store))

def callsStore (i : ι) : Bool := (route isValidJson urlPrefix (requests i)).call.isSome

end Concurrent

theorem on_lockedStore_run {rounds : Nat} {order : Arrangement Int} (call : StoreCall)
    {store after : EntityStoreInMemory} {reply : call.Reply}
    (ran : (call.on (lockedStore rounds)).run (access order) store = some (reply, after)) :
    (call.on (entityStoreInMemory order)) store = some (reply, after) := by
  cases call with
  | create entityName data => exact createSteps_run order entityName ran
  | read entityName id outData =>
      exact (readSteps_run order entityName id outData store).symm.trans ran
  | update entityName id data =>
      exact (updateSteps_run order entityName id data store).symm.trans ran
  | delete entityName id => exact (deleteSteps_run order entityName id store).symm.trans ran
  | list entityName => exact (listSteps_run order entityName store).symm.trans ran

structure AnsweredAlone (taken : Route) (answer : Response) : Prop where
  calls : taken.call = none
  program : taken.serve callingStore = .done answer
  run : ∀ order store, taken.serve (entityStoreInMemory order) store = some (answer, store)

structure AnsweredFrom (taken : Route) (call : StoreCall) (answer : call.Reply → Response) :
    Prop where
  calls : taken.call = some call
  program : taken.serve callingStore = .call call fun reply => .done (answer reply)
  run : ∀ order store reply after,
    (call.on (entityStoreInMemory order)) store = some (reply, after) →
      taken.serve (entityStoreInMemory order) store = some (answer reply, after)

theorem serve_answered (taken : Route) :
    (∃ answer, AnsweredAlone taken answer) ∨ ∃ call answer, AnsweredFrom taken call answer := by
  cases taken with
  | rejected answer => exact Or.inl ⟨answer, rfl, rfl, fun _ _ => rfl⟩
  | create entityName data =>
      refine Or.inr ⟨.create entityName data, fun id : Int =>
        if id < 0 then
          ResponseBuilder.internalServerError "Failed to create entity".toList
        else ResponseBuilder.ok (idJson id) jsonContentType, rfl, ?_, ?_⟩
      · refine congrArg (Program.call _) (funext fun id : Int => ?_)
        exact (apply_ite Program.done _ _ _).symm
      · intro order store id after ran
        refine (bind_run ran).trans ?_
        split <;> rfl
  | read entityName id =>
      refine Or.inr ⟨.read entityName id [], fun found : Bool × Text =>
        if found.1 then ResponseBuilder.ok found.2 jsonContentType else entityNotFound,
        rfl, ?_, ?_⟩
      · refine congrArg (Program.call _) (funext fun found : Bool × Text => ?_)
        exact (apply_ite Program.done _ _ _).symm
      · intro order store found after ran
        refine (bind_run ran).trans ?_
        obtain ⟨found, data⟩ := found
        cases found <;> rfl
  | list entityName =>
      refine Or.inr ⟨.list entityName, fun ids : List Int =>
        ResponseBuilder.ok (idsJson (ascending ids)) jsonContentType, rfl, rfl, ?_⟩
      intro order store ids after ran
      exact bind_run ran
  | update entityName id data =>
      refine Or.inr ⟨.update entityName id data, fun updated : Bool =>
        if updated then ResponseBuilder.ok (idJson id) jsonContentType
        else ResponseBuilder.internalServerError "Failed to update entity".toList,
        rfl, ?_, ?_⟩
      · refine congrArg (Program.call _) (funext fun updated : Bool => ?_)
        exact (apply_ite Program.done _ _ _).symm
      · intro order store updated after ran
        refine (bind_run ran).trans ?_
        cases updated <;> rfl
  | delete entityName id =>
      refine Or.inr ⟨.delete entityName id, fun deleted : Bool =>
        if deleted then ResponseBuilder.ok deletedJson jsonContentType else entityNotFound,
        rfl, ?_, ?_⟩
      · refine congrArg (Program.call _) (funext fun deleted : Bool => ?_)
        exact (apply_ite Program.done _ _ _).symm
      · intro order store deleted after ran
        refine (bind_run ran).trans ?_
        cases deleted <;> rfl

theorem exchanges_append {isValidJson : Text → Bool} {urlPrefix : Text}
    {first second : List (Request × Arrangement Int)} {earlier later : List Exchange}
    {store middle after : EntityStoreInMemory}
    (ran : exchanges isValidJson urlPrefix first store = some (earlier, middle))
    (more : exchanges isValidJson urlPrefix second middle = some (later, after)) :
    exchanges isValidJson urlPrefix (first ++ second) store =
      some (earlier ++ later, after) := by
  induction first generalizing earlier store with
  | nil =>
      obtain ⟨rfl, rfl⟩ := Prod.mk.inj (Option.some.inj ran)
      exact more
  | cons item rest ih =>
      obtain ⟨request, order⟩ := item
      obtain ⟨⟨response, next⟩, handled, ran⟩ := Option.bind_eq_some_iff.mp ran
      obtain ⟨⟨history, last⟩, further, ran⟩ := Option.bind_eq_some_iff.mp ran
      obtain ⟨rfl, rfl⟩ := Prod.mk.inj (Option.some.inj ran)
      exact (bind_run handled).trans (bind_run (ih further))

theorem exchanges_singleton {isValidJson : Text → Bool} {urlPrefix : Text} {request : Request}
    {order : Arrangement Int} {response : Response} {store after : EntityStoreInMemory}
    (served : (route isValidJson urlPrefix request).serve (entityStoreInMemory order) store =
      some (response, after)) :
    exchanges isValidJson urlPrefix [(request, order)] store =
      some ([⟨request, response⟩], after) := by
  rw [← handleRequest_eq_serve] at served
  exact bind_run served

section Serial

variable {ι : Type} [DecidableEq ι]
variable {rounds : Nat} {isValidJson : Text → Bool} {urlPrefix : Text}
variable {requests : ι → Request} {orders : ι → Arrangement Int}

/-- What a serial run of the threads has come to. -/
structure Handled (isValidJson : Text → Bool) (urlPrefix : Text) (requests : ι → Request)
    (orders : ι → Arrangement Int) (store : EntityStoreInMemory) (order : List ι)
    (system : System StoreCall StoreCall.Reply EntityStoreInMemory (fun _ : ι => Response)) :
    Prop where
  nodup : order.Nodup
  calling : ∀ i ∈ order, callsStore isValidJson urlPrefix requests i = true
  ended : ∀ i ∈ order, ∃ response, system.thread i = .done response
  waiting : ∀ i, i ∉ order →
    system.thread i = (threads isValidJson urlPrefix requests store).thread i
  served : ∀ responses : ι → Response,
    (∀ i ∈ order, system.thread i = .done (responses i)) →
      exchanges isValidJson urlPrefix (order.map fun i => (requests i, orders i)) store =
        some (order.map fun i => ⟨requests i, responses i⟩, system.shared)

omit [DecidableEq ι] in
theorem handled_start (store : EntityStoreInMemory) :
    Handled isValidJson urlPrefix requests orders store []
      (threads isValidJson urlPrefix requests store) where
  nodup := List.nodup_nil
  calling := by simp
  ended := by simp
  waiting := fun _ _ => rfl
  served := fun _ _ => rfl

theorem Handled.call {store shared : EntityStoreInMemory} {order : List ι}
    {middle : System StoreCall StoreCall.Reply EntityStoreInMemory (fun _ : ι => Response)}
    (handled : Handled isValidJson urlPrefix requests orders store order middle) {i : ι}
    {call : StoreCall} {next : call.Reply → StoreProgram Response} {reply : call.Reply}
    (calls : middle.thread i = .call call next)
    (ran : (call.on (lockedStore rounds)).run (access (orders i)) middle.shared =
      some (reply, shared)) :
    Handled isValidJson urlPrefix requests orders store (order ++ [i])
      ⟨shared, Function.update middle.thread i (next reply)⟩ := by
  have fresh : i ∉ order := by
    intro member
    obtain ⟨response, ended⟩ := handled.ended i member
    rw [calls] at ended
    exact absurd ended (by simp)
  have program := calls.symm.trans (handled.waiting i fresh)
  simp only [threads] at program
  rw [handleRequest_eq_serve] at program
  rcases serve_answered (route isValidJson urlPrefix (requests i)) with
    ⟨answer, alone⟩ | ⟨other, answer, answered⟩
  · rw [alone.program] at program
    exact absurd program (by simp)
  · rw [answered.program] at program
    obtain ⟨rfl, sameNext⟩ := Program.call.inj program
    obtain rfl := eq_of_heq sameNext
    have served := answered.run (orders i) middle.shared reply shared (on_lockedStore_run _ ran)
    refine ⟨?_, ?_, ?_, ?_, ?_⟩
    · rw [← List.concat_eq_append]
      exact handled.nodup.concat fresh
    · intro j member
      rcases List.mem_append.mp member with old | new
      · exact handled.calling j old
      · rw [List.mem_singleton.mp new]
        simp [callsStore, answered.calls]
    · intro j member
      by_cases same : j = i
      · subst same
        exact ⟨answer reply, Function.update_self ..⟩
      · rcases List.mem_append.mp member with old | new
        · obtain ⟨response, ended⟩ := handled.ended j old
          exact ⟨response, (Function.update_of_ne same _ _).trans ended⟩
        · exact absurd (List.mem_singleton.mp new) same
    · intro j outside
      have parts := List.mem_append.not.mp outside
      push Not at parts
      have differs : j ≠ i := fun same => parts.2 (List.mem_singleton.mpr same)
      exact (Function.update_of_ne differs _ _).trans (handled.waiting j parts.1)
    · intro responses ended
      have own := ended i (List.mem_append_right _ (List.mem_singleton_self i))
      simp only [Function.update_self] at own
      rw [Program.done.inj own] at served
      have earlier := handled.served responses (by
        intro j member
        have differs : j ≠ i := fun same => fresh (same ▸ member)
        have there := ended j (List.mem_append_left _ member)
        exact (Function.update_of_ne differs _ _).symm.trans there)
      rw [List.map_append, List.map_append]
      exact exchanges_append earlier (exchanges_singleton served)

theorem handled_of_serial {store : EntityStoreInMemory} {order : List ι}
    {system : System StoreCall StoreCall.Reply EntityStoreInMemory (fun _ : ι => Response)}
    (serial : Serial (fun i => access (orders i)) (fun call => call.on (lockedStore rounds))
      (threads isValidJson urlPrefix requests store) order system) :
    Handled isValidJson urlPrefix requests orders store order system := by
  induction serial with
  | start => exact handled_start store
  | call order i middle call next reply shared before calls ran ih => exact ih.call calls ran

omit [DecidableEq ι] in
theorem exchanges_alone (orders : ι → Arrangement Int) (store : EntityStoreInMemory)
    {responses : ι → Response} (order : List ι)
    (alone : ∀ i ∈ order, AnsweredAlone (route isValidJson urlPrefix (requests i)) (responses i)) :
    exchanges isValidJson urlPrefix (order.map fun i => (requests i, orders i)) store =
      some (order.map fun i => ⟨requests i, responses i⟩, store) := by
  induction order with
  | nil => rfl
  | cons i rest ih =>
      have first := exchanges_singleton ((alone i List.mem_cons_self).run (orders i) store)
      have others := ih fun j member => alone j (List.mem_cons_of_mem _ member)
      exact exchanges_append first others

end Serial

/-- For every schedule of fewer than 2^31 threads, once all requests are answered: in some
order of the requests, in which those that call the store stand as they made a turn,
handling them one after another gives the same answers, and each answer is explained by
the ones before it. -/
theorem concurrent_answers_explained {ι : Type} [Fintype ι] [DecidableEq ι] (rounds : Nat)
    (isValidJson : Text → Bool) (urlPrefix : Text) (requests : ι → Request)
    (orders : ι → Arrangement Int) (schedule : List ι) (responses : ι → Response)
    (few : Fintype.card ι < 2147483648)
    (answered : ∀ i, (concurrently rounds isValidJson urlPrefix requests orders schedule
      construct).result i = some (responses i)) :
    ∃ order : List ι, order.Nodup ∧ (∀ i, i ∈ order) ∧
      List.Sublist (order.filter (callsStore isValidJson urlPrefix requests)) schedule ∧
      (∃ store, exchanges isValidJson urlPrefix (order.map fun i => (requests i, orders i))
        construct = some (order.map fun i => ⟨requests i, responses i⟩, store)) ∧
      ∀ before i behind, order = before ++ i :: behind →
        ExplainedBy isValidJson urlPrefix (before.map fun j => ⟨requests j, responses j⟩)
          ⟨requests i, responses i⟩ := by
  obtain ⟨called, system, within, serial, mimics⟩ := follow_serial
    (fun i => access (orders i)) (fun call => call.on (lockedStore rounds))
    (threads isValidJson urlPrefix requests construct) schedule
  have handled := handled_of_serial serial
  have ended : ∀ i, system.thread i = .done (responses i) := fun i => mimics.result (answered i)
  -- a thread that made no call has answered alone
  have alone : ∀ i, i ∉ called →
      AnsweredAlone (route isValidJson urlPrefix (requests i)) (responses i) := by
    intro i outside
    have program := (handled.waiting i outside).symm.trans (ended i)
    simp only [threads] at program
    rw [handleRequest_eq_serve] at program
    rcases serve_answered (route isValidJson urlPrefix (requests i)) with
      ⟨answer, alone⟩ | ⟨call, answer, from_⟩
    · rw [alone.program] at program
      rw [← Program.done.inj program]
      exact alone
    · rw [from_.program] at program
      exact absurd program (by simp)
  let others := (Finset.univ.filter fun i => i ∉ called).toList
  have outside : ∀ i, i ∈ others ↔ i ∉ called := by
    intro i
    simp [others]
  have nodup : (others ++ called).Nodup := by
    refine List.Nodup.append (Finset.nodup_toList _) handled.nodup ?_
    intro i other member
    exact (outside i).mp other member
  have every : ∀ i, i ∈ others ++ called := by
    intro i
    by_cases member : i ∈ called
    · exact List.mem_append_right _ member
    · exact List.mem_append_left _ ((outside i).mpr member)
  have ran := exchanges_append
    (exchanges_alone orders construct others
      fun i member => alone i ((outside i).mp member))
    (handled.served responses fun i _ => ended i)
  rw [← List.map_append, ← List.map_append] at ran
  refine ⟨others ++ called, nodup, every, ?_, ⟨_, ran⟩, ?_⟩
  · have silent : others.filter (callsStore isValidJson urlPrefix requests) = [] := by
      rw [List.filter_eq_nil_iff]
      intro i member
      simp [callsStore, (alone i ((outside i).mp member)).calls]
    have calling : called.filter (callsStore isValidJson urlPrefix requests) = called :=
      List.filter_eq_self.mpr handled.calling
    rw [List.filter_append, silent, calling]
    exact within
  · intro before i behind split
    have length : (others ++ called).length = Fintype.card ι := by
      rw [← List.toFinset_card_of_nodup nodup]
      exact congrArg Finset.card (Finset.eq_univ_iff_forall.mpr fun i =>
        List.mem_toFinset.mpr (every i))
    obtain ⟨history, store, run, _, explained⟩ := exchanges_run isValidJson
      ((others ++ called).map fun i => (requests i, orders i))
      (represents_construct urlPrefix) (by simp only [List.length_nil, List.length_map]; omega)
    obtain ⟨rfl, rfl⟩ := Prod.mk.inj (Option.some.inj (run.symm.trans ran))
    refine explained (before.map fun j => ⟨requests j, responses j⟩) _
      (behind.map fun j => ⟨requests j, responses j⟩) ?_
    rw [split, List.map_append, List.map_cons]

def twoPosts : Bool → Request
  | false => plainRequest "POST" "/api/Shoes" "1"
  | true => plainRequest "POST" "/api/Shoes" "2"

/-- The thread that comes second waits for the lock. -/
def takingTurns : List Bool := (List.replicate 24 [true, false]).flatten

def twoAnswers : Bool → Response
  | false => ResponseBuilder.ok (idJson 1) jsonContentType
  | true => ResponseBuilder.ok (idJson 0) jsonContentType

theorem concurrent_answers_explained_twoPosts :
    ∃ order : List Bool, order.Nodup ∧ (∀ i, i ∈ order) ∧
      List.Sublist (order.filter (callsStore (fun _ => true) "/api".toList twoPosts))
        takingTurns ∧
      (∃ store, exchanges (fun _ => true) "/api".toList
        (order.map fun i => (twoPosts i, Arrangement.plain)) construct =
          some (order.map fun i => ⟨twoPosts i, twoAnswers i⟩, store)) ∧
      ∀ before i behind, order = before ++ i :: behind →
        ExplainedBy (fun _ => true) "/api".toList
          (before.map fun j => ⟨twoPosts j, twoAnswers j⟩) ⟨twoPosts i, twoAnswers i⟩ :=
  concurrent_answers_explained 3 (fun _ => true) "/api".toList twoPosts
    (fun _ => Arrangement.plain) takingTurns twoAnswers (by decide) (by decide +kernel)

end BathroomRatings.Api
