import BathroomRatings.Http.Session
import BathroomRatings.Lib.Ownership

/-!
# The server process

The io_service holds the operations that were started; the threads of the pool take up
their completions, in any order and with any result, and run the callbacks bound to
them.  Sessions are allocated by `start_accept` and delete themselves, so the callbacks
hold plain addresses.  The address and port of a client are only logged and are left
out, as is what a store does inside one callback.
-/

set_option autoImplicit false

namespace BathroomRatings.Server

open BathroomRatings.Http BathroomRatings.Lib

abbrev Address := Nat

/-- The members of a session, with what its socket has received and was given to send. -/
structure Connection where
  requestBuffer : Text
  response : Text
  received : List Text
  sent : List Text
  deriving DecidableEq, Repr

def Connection.fresh : Connection := ⟨[], [], [], []⟩

inductive Operation where
  | asyncAccept (session : Address)
  | asyncReadSome (session : Address)
  | asyncWrite (session : Address)
  deriving DecidableEq, Repr

/-- A callback that a thread runs.  `startAccept` is the end of `handle_accept`, behind
the start of the session it was given. -/
inductive Callback where
  | handleAccept (session : Address) (error : Bool)
  | startAccept
  | handleRead (session : Address) (error : Bool) (data : Text)
  | handleWrite (session : Address) (error : Bool)
  deriving DecidableEq, Repr

def Operation.callback (error : Bool) (data : Text) : Operation → Callback
  | .asyncAccept session => .handleAccept session error
  | .asyncReadSome session => .handleRead session error data
  | .asyncWrite session => .handleWrite session error

structure Process (World : Type) where
  heap : Table Address Connection
  operations : List Operation
  callbacks : List Callback
  world : World
  stopped : Bool

/-- An exception that escapes a callback ends the thread, and with it the process.  The
use of an address that is not allocated has no defined behaviour. -/
inductive Execution (World : Type) where
  | running (process : Process World)
  | terminated
  | undefinedBehaviour

/-- What happens next: an operation completes, a thread runs a callback, a callback
throws, or the process is told to stop.  The allocator chooses the address. -/
inductive Event where
  | complete (operation : Operation) (error : Bool) (data : Text)
  | run (callback : Callback) (address : Address)
  | throw (callback : Callback)
  | stop
  deriving DecidableEq, Repr

def sentResponse : Effect → Option Text
  | .sent response => some response
  | _ => none

def responses (effects : List Effect) : List Text := effects.filterMap sentResponse

variable {World : Type}

namespace Process

def start (operation : Operation) (process : Process World) : Process World :=
  { process with operations := operation :: process.operations }

def startAccept (address : Address) (process : Process World) : Process World :=
  start (.asyncAccept address)
    { process with heap := process.heap.insert address Connection.fresh }

def construct (address : Address) (world : World) : Process World :=
  startAccept address ⟨∅, [], [], world, false⟩

def perform (session : Address) (process : Process World) : Effect → Process World
  | .asyncRead => start (.asyncReadSome session) process
  | .handled _ => process
  | .sent _ => start (.asyncWrite session) process
  | .deleted => { process with heap := process.heap.erase session }

def react (session : Address) (received : List Text)
    (reaction : Session World → Session World × List Effect) (process : Process World) :
    Execution World :=
  match process.heap.get session with
  | none => .undefinedBehaviour
  | some connection =>
      let (members, effects) :=
        reaction ⟨connection.requestBuffer, connection.response, process.world⟩
      let connection : Connection :=
        ⟨members.requestBuffer, members.response, connection.received ++ received,
          connection.sent ++ responses effects⟩
      .running (effects.foldl (perform session)
        { process with
          heap := process.heap.insert session connection, world := members.world })

/-- `handle_accept` up to the `start_accept` at its end. -/
def handleAccept (session : Address) (error : Bool) (process : Process World) :
    Execution World :=
  match process.heap.get session with
  | none => .undefinedBehaviour
  | some _ =>
      let process := { process with callbacks := .startAccept :: process.callbacks }
      .running (perform session process (if error then .deleted else .asyncRead))

def runCallback (dispatcher : Http.RequestDispatcher World) (process : Process World)
    (address : Address) : Callback → Execution World
  | .handleAccept session error => handleAccept session error process
  | .startAccept => .running (startAccept address process)
  | .handleRead session error data =>
      react session (if error then [] else [data]) (handleRead dispatcher error data) process
  | .handleWrite session error => react session [] (handleWrite error) process

/-- An event that is not possible changes nothing; nor does an address that is taken,
which no allocator returns. -/
def step (dispatcher : Http.RequestDispatcher World) (process : Process World) :
    Event → Execution World
  | .complete operation error data =>
      if process.stopped = false ∧ process.operations.contains operation then
        .running { process with
          operations := process.operations.erase operation,
          callbacks := operation.callback error data :: process.callbacks }
      else .running process
  | .run callback address =>
      if process.callbacks.contains callback ∧ process.heap.get address = none then
        runCallback dispatcher
          { process with callbacks := process.callbacks.erase callback } address callback
      else .running process
  | .throw callback =>
      if process.callbacks.contains callback then .terminated else .running process
  | .stop => .running { process with stopped := true }

end Process

def Execution.step (dispatcher : Http.RequestDispatcher World) (execution : Execution World)
    (event : Event) : Execution World :=
  match execution with
  | .running process => process.step dispatcher event
  | ended => ended

def Execution.run (dispatcher : Http.RequestDispatcher World) (execution : Execution World)
    (events : List Event) : Execution World :=
  events.foldl (Execution.step dispatcher) execution

/-! ## Who uses a session -/

def Operation.session : Operation → Address
  | .asyncAccept session => session
  | .asyncReadSome session => session
  | .asyncWrite session => session

def Callback.session? : Callback → Option Address
  | .handleAccept session _ => some session
  | .startAccept => none
  | .handleRead session _ _ => some session
  | .handleWrite session _ => some session

def Operation.accepts : Operation → Bool
  | .asyncAccept _ => true
  | _ => false

def Callback.accepts : Callback → Bool
  | .handleAccept _ _ => true
  | .startAccept => true
  | _ => false

namespace Process

def users (process : Process World) : List Address :=
  process.callbacks.filterMap Callback.session? ++ process.operations.map Operation.session

def acceptors (process : Process World) : Nat :=
  process.callbacks.countP Callback.accepts + process.operations.countP Operation.accepts

/-- Every session has one user, and the server one acceptor. -/
structure Sound (process : Process World) : Prop where
  owned : Owned process.users process.heap
  accepting : process.acceptors = 1

theorem users_erase_callback (process : Process World) {callback : Callback}
    (member : callback ∈ process.callbacks) :
    process.users.Perm
      (callback.session?.toList ++
        users { process with callbacks := process.callbacks.erase callback }) := by
  have front := (List.perm_cons_erase member).filterMap Callback.session?
  have whole := front.append_right (process.operations.map Operation.session)
  simp only [users]
  cases named : callback.session? with
  | none => simpa [List.filterMap_cons, named] using whole
  | some session => simpa [List.filterMap_cons, named] using whole

theorem acceptors_erase_callback (process : Process World) {callback : Callback}
    (member : callback ∈ process.callbacks) :
    process.acceptors = (if callback.accepts then 1 else 0) +
      acceptors { process with callbacks := process.callbacks.erase callback } := by
  have front := (List.perm_cons_erase member).countP_eq Callback.accepts
  rw [List.countP_cons] at front
  simp only [acceptors]
  omega

theorem sound_complete {process : Process World} (sound : process.Sound)
    {operation : Operation} (member : operation ∈ process.operations) (error : Bool)
    (data : Text) :
    Sound { process with
      operations := process.operations.erase operation,
      callbacks := operation.callback error data :: process.callbacks } := by
  have front := List.perm_cons_erase member
  have named : (operation.callback error data).session? = some operation.session := by
    cases operation <;> rfl
  have accepts : (operation.callback error data).accepts = operation.accepts := by
    cases operation <;> rfl
  constructor
  · apply sound.owned.congr
    simp only [users, List.filterMap_cons, named]
    refine (List.Perm.append_left _ (front.map Operation.session)).trans ?_
    exact List.perm_middle
  · have counted := front.countP_eq Operation.accepts
    have accepting := sound.accepting
    simp only [acceptors, List.countP_cons, accepts] at counted accepting ⊢
    omega

/-- A process in which a running callback holds a session that no one else uses. -/
structure Holding (session : Address) (process : Process World) : Prop where
  owned : Owned (session :: process.users) process.heap
  accepting : process.acceptors = 1

theorem Holding.present {session : Address} {process : Process World}
    (holding : Holding session process) :
    ∃ connection, process.heap.get session = some connection :=
  holding.owned.present List.mem_cons_self

theorem sound_start (operation : Operation) {process : Process World}
    (holding : Holding operation.session process) (served : operation.accepts = false) :
    Sound (start operation process) where
  owned := holding.owned.congr List.perm_middle.symm
  accepting := by
    have accepting := holding.accepting
    simp only [acceptors, start, List.countP_cons, served] at accepting ⊢
    simpa using accepting

theorem sound_delete {session : Address} {process : Process World}
    (holding : Holding session process) : Sound (perform session process .deleted) where
  owned := holding.owned.free
  accepting := holding.accepting

/-- What a session does at the end of a callback: it starts one operation, or deletes
itself. -/
inductive Concludes : List Effect → Prop
  | deleted : Concludes [.deleted]
  | asyncRead : Concludes [.asyncRead]
  | sent (response : Text) : Concludes [.sent response]
  | handled (request : Request) (response : Text) :
      Concludes [.handled request, .sent response]

theorem handleRead_concludes (dispatcher : Http.RequestDispatcher World) (error : Bool)
    (data : Text) (session : Session World) :
    Concludes (handleRead dispatcher error data session).2 := by
  unfold handleRead
  split
  · exact .deleted
  · simp only
    split
    · split
      · exact .handled _ _
      · exact .sent _
    · exact .asyncRead

theorem handleWrite_concludes (error : Bool) (session : Session World) :
    Concludes (handleWrite error session).2 := by
  unfold handleWrite
  split
  · exact .deleted
  · exact .asyncRead

theorem sound_perform {session : Address} {process : Process World} {effects : List Effect}
    (holding : Holding session process) (concludes : Concludes effects) :
    Sound (effects.foldl (perform session) process) := by
  cases concludes with
  | deleted => exact sound_delete holding
  | asyncRead => exact sound_start (.asyncReadSome session) holding rfl
  | sent response => exact sound_start (.asyncWrite session) holding rfl
  | handled request response =>
      exact sound_start (.asyncWrite session) holding rfl

/-- A callback of a session it holds. -/
theorem react_sound {session : Address} {process : Process World} (received : List Text)
    {reaction : Session World → Session World × List Effect}
    (holding : Holding session process)
    (concludes : ∀ members, Concludes (reaction members).2) :
    ∃ after, process.react session received reaction = .running after ∧ after.Sound := by
  obtain ⟨connection, present⟩ := holding.present
  unfold react
  rw [present]
  refine ⟨_, rfl, sound_perform ?_ (concludes _)⟩
  exact ⟨holding.owned.modify _, holding.accepting⟩

theorem sound_startAccept {process : Process World} {address : Address}
    (owned : Owned process.users process.heap) (idle : process.acceptors = 0)
    (unused : process.heap.get address = none) : Sound (startAccept address process) where
  owned := (owned.allocate unused Connection.fresh).congr List.perm_middle.symm
  accepting := by
    have one : acceptors (startAccept address process) = process.acceptors + 1 := by
      simp only [acceptors, startAccept, start, List.countP_cons, Operation.accepts, if_true]
      omega
    rw [one, idle]

theorem construct_sound (address : Address) (world : World) :
    Sound (construct address world) :=
  sound_startAccept owned_empty rfl (Table.get_empty address)

theorem runCallback_sound (dispatcher : Http.RequestDispatcher World) {process : Process World}
    {address : Address} {callback : Callback}
    (owned : Owned (callback.session?.toList ++ process.users) process.heap)
    (accepting : (if callback.accepts then 1 else 0) + process.acceptors = 1)
    (unused : process.heap.get address = none) :
    ∃ after, runCallback dispatcher process address callback = .running after ∧
      after.Sound := by
  cases callback with
  | handleAccept session error =>
      have holding : Holding session
          { process with callbacks := .startAccept :: process.callbacks } := by
        refine ⟨owned, ?_⟩
        simp only [acceptors, List.countP_cons, Callback.accepts, if_true] at accepting ⊢
        omega
      obtain ⟨connection, present⟩ := holding.present
      simp only at present
      simp only [runCallback, handleAccept, present]
      refine ⟨_, rfl, ?_⟩
      cases error with
      | true => exact sound_delete holding
      | false => exact sound_start (.asyncReadSome session) holding rfl
  | startAccept =>
      refine ⟨_, rfl, sound_startAccept owned ?_ unused⟩
      simpa [Callback.accepts] using accepting
  | handleRead session error data =>
      refine react_sound _ ⟨owned, ?_⟩ (handleRead_concludes dispatcher error data)
      simpa [Callback.accepts] using accepting
  | handleWrite session error =>
      refine react_sound _ ⟨owned, ?_⟩ (handleWrite_concludes error)
      simpa [Callback.accepts] using accepting

/-- An event keeps a process sound, unless an exception ends it. -/
theorem step_sound (dispatcher : Http.RequestDispatcher World) {process : Process World}
    (sound : process.Sound) (event : Event) :
    (∃ after, process.step dispatcher event = .running after ∧ after.Sound) ∨
      process.step dispatcher event = .terminated ∧ ∃ callback, event = .throw callback := by
  cases event with
  | complete operation error data =>
      refine Or.inl ?_
      simp only [step]
      split
      · rename_i possible
        have member := List.contains_iff_mem.mp possible.2
        exact ⟨_, rfl, sound_complete sound member error data⟩
      · exact ⟨process, rfl, sound⟩
  | run callback address =>
      refine Or.inl ?_
      simp only [step]
      split
      · rename_i possible
        have member := List.contains_iff_mem.mp possible.1
        refine runCallback_sound dispatcher ?_ ?_ possible.2
        · exact sound.owned.congr (users_erase_callback process member)
        · rw [← acceptors_erase_callback process member]
          exact sound.accepting
      · exact ⟨process, rfl, sound⟩
  | throw callback =>
      simp only [step]
      split
      · exact Or.inr ⟨rfl, callback, rfl⟩
      · exact Or.inl ⟨process, rfl, sound⟩
  | stop => exact Or.inl ⟨_, rfl, sound.owned, sound.accepting⟩

end Process

/-- What every run of a server comes to: a sound process, or the end by an exception that
escaped a callback. -/
def Execution.Orderly (events : List Event) : Execution World → Prop
  | .running process => process.Sound
  | .terminated => ∃ callback, .throw callback ∈ events
  | .undefinedBehaviour => False

theorem run_append (dispatcher : Http.RequestDispatcher World) (execution : Execution World)
    (first second : List Event) :
    execution.run dispatcher (first ++ second) =
      (execution.run dispatcher first).run dispatcher second := by
  simp [Execution.run, List.foldl_append]

/-- In whatever order operations complete and threads run their callbacks, no callback
uses a session that was deleted, no session is deleted twice, none is left without an
operation or a callback that will end it, no two threads are in one session, and exactly
one accept is under way. -/
theorem sessions_owned (dispatcher : Http.RequestDispatcher World) (address : Address)
    (world : World) (events : List Event) :
    (Execution.run dispatcher (.running (Process.construct address world)) events).Orderly
      events := by
  induction events using List.reverseRecOn with
  | nil => exact Process.construct_sound address world
  | append_singleton made event ih =>
      rw [run_append]
      cases reached : Execution.run dispatcher (.running (Process.construct address world))
          made with
      | running process =>
          rw [reached] at ih
          rcases Process.step_sound dispatcher ih event with
            ⟨after, stepped, sound⟩ | ⟨stepped, callback, thrown⟩
          · have next : Execution.run dispatcher (.running process) [event] =
                .running after := stepped
            rw [next]
            exact sound
          · have next : Execution.run dispatcher (.running process) [event] =
                .terminated := stepped
            rw [next]
            exact ⟨callback, by simp [thrown]⟩
      | terminated =>
          rw [reached] at ih
          obtain ⟨callback, member⟩ := ih
          exact ⟨callback, List.mem_append_left _ member⟩
      | undefinedBehaviour =>
          rw [reached] at ih
          exact ih.elim

end BathroomRatings.Server
