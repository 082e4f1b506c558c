import BathroomRatings.Http.Connection
import BathroomRatings.Server.Process

/-!
# Connections do not mix

Whatever the other connections do, a session has sent what it would have sent if the
pieces its own socket received had been the only traffic of the server.  Handlers may
answer from a world that all connections share; then each answer is the one for the
session's own requests in the world of its moment.
-/

set_option autoImplicit false

namespace BathroomRatings.Server

open BathroomRatings.Http BathroomRatings.Http.RequestParser BathroomRatings.Lib

variable {World : Type}

def reply (dispatcher : Http.RequestDispatcher World) (world : World) (buffer : Text) : List Text :=
  responses (exchange dispatcher buffer (Session.fresh world)).2

section Reply

variable (dispatcher : Http.RequestDispatcher World)

section Cases

variable (world : World) {buffer : Text}

theorem reply_incomplete (incomplete : isComplete buffer = false) :
    reply dispatcher world buffer = [] := by
  have effects := exchange_incomplete dispatcher buffer (Session.fresh world) incomplete
  rw [reply, effects]
  rfl

theorem reply_rejected (complete : isComplete buffer = true)
    (rejected : (parsed buffer).isValid = false) :
    reply dispatcher world buffer =
      [serializeResponse (some ResponseBuilder.defaultBadRequest)] := by
  have effects := exchange_rejected dispatcher buffer (Session.fresh world) complete rejected
  rw [reply, effects]
  rfl

theorem reply_handled (complete : isComplete buffer = true)
    (valid : (parsed buffer).isValid = true) :
    reply dispatcher world buffer =
      [serializeResponse (handlerResult dispatcher (parsed buffer) world).1] := by
  have effects := exchange_handled dispatcher buffer (Session.fresh world) complete valid
  rw [reply, effects]
  rfl

end Cases

/-- The members of a session matter by its request buffer and the world only. -/
theorem responses_exchange (data : Text) (session : Session World) :
    responses (exchange dispatcher data session).2 =
      reply dispatcher session.world (session.requestBuffer ++ data) := by
  cases complete : isComplete (session.requestBuffer ++ data) with
  | false =>
      rw [exchange_incomplete _ _ _ complete, reply_incomplete _ _ complete]
      rfl
  | true =>
      cases valid : (parsed (session.requestBuffer ++ data)).isValid with
      | false =>
          rw [exchange_rejected _ _ _ complete valid, reply_rejected _ _ complete valid]
          rfl
      | true =>
          rw [exchange_handled _ _ _ complete valid, reply_handled _ _ complete valid]
          rfl

theorem responses_append (first second : List Effect) :
    responses (first ++ second) = responses first ++ responses second :=
  List.filterMap_append

theorem responses_handleRead (data : Text) (session : Session World) :
    responses (handleRead dispatcher false data session).2 =
      reply dispatcher session.world (session.requestBuffer ++ data) := by
  rw [← responses_exchange]
  simp only [exchange]
  split
  · rw [responses_append]
    exact (List.append_nil _).symm
  · rfl

theorem handleRead_requestBuffer (data : Text) (session : Session World) :
    (handleRead dispatcher false data session).1.requestBuffer =
      session.requestBuffer ++ data := by
  unfold handleRead
  simp only [Bool.false_eq_true, if_false]
  split
  · split <;> rfl
  · rfl

end Reply

/-- Every piece received was answered from the pieces up to it, in some world. -/
inductive Served (dispatcher : Http.RequestDispatcher World) : List Text → List Text → Prop
  | fresh : Served dispatcher [] []
  | read (received sent : List Text) (data : Text) (world : World)
      (before : Served dispatcher received sent) :
      Served dispatcher (received ++ [data])
        (sent ++ reply dispatcher world (received.flatten ++ data))

theorem served_unanswered {dispatcher : Http.RequestDispatcher World} {received sent : List Text}
    (served : Served dispatcher received sent) :
    Served dispatcher (received ++ []) (sent ++ []) := by
  simpa using served

/-- A connection that nothing but its own traffic has had an influence on. -/
structure Connection.Separate (dispatcher : Http.RequestDispatcher World)
    (connection : Connection) : Prop where
  requestBuffer : connection.requestBuffer = connection.received.flatten
  served : Served dispatcher connection.received connection.sent

namespace Process

def Separate (dispatcher : Http.RequestDispatcher World) (process : Process World) : Prop :=
  ∀ address connection, process.heap.get address = some connection →
    connection.Separate dispatcher

theorem perform_heap (session : Address) (effects : List Effect) (process : Process World)
    (address : Address) (connection : Connection)
    (live : (effects.foldl (perform session) process).heap.get address = some connection) :
    process.heap.get address = some connection := by
  induction effects generalizing process with
  | nil => exact live
  | cons effect rest ih =>
      have first := ih (perform session process effect) live
      cases effect with
      | deleted =>
          change Table.get (process.heap.erase session) address = some connection at first
          rw [Table.get_erase] at first
          split at first
          · exact absurd first (by simp)
          · exact first
      | asyncRead => exact first
      | handled request => exact first
      | sent response => exact first

theorem separate_insert {dispatcher : Http.RequestDispatcher World}
    {process : Process World} (separate : process.Separate dispatcher) {session : Address}
    (connection : Connection) (own : connection.Separate dispatcher)
    (address : Address) (other : Connection)
    (live : Table.get (process.heap.insert session connection) address = some other) :
    other.Separate dispatcher := by
  rw [Table.get_insert] at live
  split at live
  · rw [← Option.some.inj live]
    exact own
  · exact separate address other live

section Callbacks

variable {dispatcher : Http.RequestDispatcher World} {process after : Process World}
  (separate : process.Separate dispatcher)
include separate

theorem react_separate {session : Address} {received : List Text}
    {reaction : Session World → Session World × List Effect}
    (buffers : ∀ members, (reaction members).1.requestBuffer =
      members.requestBuffer ++ received.flatten)
    (answers : ∀ connection : Connection, connection.Separate dispatcher →
      ∀ members : Session World, members.requestBuffer = connection.requestBuffer →
        Served dispatcher (connection.received ++ received)
          (connection.sent ++ responses (reaction members).2))
    (ran : process.react session received reaction = .running after) :
    after.Separate dispatcher := by
  unfold react at ran
  cases present : process.heap.get session with
  | none => simp [present] at ran
  | some connection =>
      rw [present] at ran
      rw [← Execution.running.inj ran]
      intro address other live
      have own := separate session connection present
      refine separate_insert separate _ (Connection.Separate.mk ?_ ?_) address other
        (perform_heap _ _ _ _ _ live)
      · simp only [buffers, own.requestBuffer, List.flatten_append]
      · exact answers connection own _ rfl

theorem handleRead_separate {session : Address} {error : Bool} {data : Text}
    (ran : process.react session (if error then [] else [data])
      (handleRead dispatcher error data) = .running after) : after.Separate dispatcher := by
  cases error with
  | true =>
      refine react_separate separate ?_ ?_ ran
      · intro members
        simp [handleRead]
      · intro connection own members _
        exact served_unanswered own.served
  | false =>
      refine react_separate separate ?_ ?_ ran
      · intro members
        simp [handleRead_requestBuffer]
      · intro connection own members same
        rw [responses_handleRead, same, own.requestBuffer]
        exact .read _ _ data members.world own.served

theorem handleWrite_separate {session : Address} {error : Bool}
    (ran : process.react session [] (handleWrite error) = .running after) :
    after.Separate dispatcher := by
  refine react_separate separate ?_ ?_ ran
  · intro members
    cases error <;> simp [handleWrite]
  · intro connection own members _
    cases error <;> exact served_unanswered own.served

theorem handleAccept_separate {session : Address} {error : Bool}
    (ran : process.handleAccept session error = .running after) :
    after.Separate dispatcher := by
  unfold handleAccept at ran
  cases present : process.heap.get session with
  | none => simp [present] at ran
  | some connection =>
      rw [present] at ran
      rw [← Execution.running.inj ran]
      intro address other live
      exact separate address other
        (perform_heap session [if error then .deleted else .asyncRead]
          { process with callbacks := .startAccept :: process.callbacks } address other live)

theorem startAccept_separate (address : Address) :
    (startAccept address process).Separate dispatcher :=
  separate_insert separate Connection.fresh ⟨rfl, .fresh⟩

theorem step_separate {event : Event} (stepped : process.step dispatcher event = .running after) :
    after.Separate dispatcher := by
  cases event with
  | complete operation error data =>
      simp only [step] at stepped
      split at stepped
      · rw [← Execution.running.inj stepped]
        exact separate
      · rw [← Execution.running.inj stepped]
        exact separate
  | run callback address =>
      simp only [step] at stepped
      split at stepped
      · have kept : Separate dispatcher
            { process with callbacks := process.callbacks.erase callback } := separate
        cases callback with
        | handleAccept session error => exact handleAccept_separate kept stepped
        | startAccept =>
            rw [← Execution.running.inj stepped]
            exact startAccept_separate kept address
        | handleRead session error data => exact handleRead_separate kept stepped
        | handleWrite session error => exact handleWrite_separate kept stepped
      · rw [← Execution.running.inj stepped]
        exact separate
  | throw callback =>
      simp only [step] at stepped
      split at stepped
      · exact absurd stepped (by simp)
      · rw [← Execution.running.inj stepped]
        exact separate
  | stop =>
      rw [← Execution.running.inj stepped]
      exact separate

end Callbacks

theorem construct_separate (dispatcher : Http.RequestDispatcher World) (address : Address)
    (world : World) : (construct address world).Separate dispatcher := by
  refine startAccept_separate ?_ address
  intro other connection live
  exact absurd live (by simp)

end Process

/-! ## Runs -/

theorem run_separate (dispatcher : Http.RequestDispatcher World) (address : Address)
    (world : World) (events : List Event) (process : Process World)
    (reached : Execution.run dispatcher (.running (Process.construct address world)) events =
      .running process) : process.Separate dispatcher := by
  induction events using List.reverseRecOn generalizing process with
  | nil =>
      rw [← Execution.running.inj reached]
      exact Process.construct_separate dispatcher address world
  | append_singleton made event ih =>
      rw [run_append] at reached
      cases before : Execution.run dispatcher (.running (Process.construct address world))
          made with
      | running earlier =>
          rw [before] at reached
          exact Process.step_separate (ih earlier before) reached
      | terminated =>
          rw [before] at reached
          exact absurd reached (by simp [Execution.run, Execution.step])
      | undefinedBehaviour =>
          rw [before] at reached
          exact absurd reached (by simp [Execution.run, Execution.step])

def Answers (dispatcher : Http.RequestDispatcher World) (respond : Request → Option Response) :
    Prop :=
  ∀ request world, (handlerResult dispatcher request world).1 = respond request

section Answers

variable {dispatcher : Http.RequestDispatcher World} {respond : Request → Option Response}
  (answers : Answers dispatcher respond)
include answers

theorem Answers.reply (world other : World) (buffer : Text) :
    reply dispatcher world buffer = reply dispatcher other buffer := by
  cases complete : isComplete buffer with
  | false => rw [reply_incomplete _ _ complete, reply_incomplete _ _ complete]
  | true =>
      cases valid : (parsed buffer).isValid with
      | false => rw [reply_rejected _ _ complete valid, reply_rejected _ _ complete valid]
      | true =>
          rw [reply_handled _ _ complete valid, reply_handled _ _ complete valid,
            answers _ world, answers _ other]

theorem Answers.deliver (world : World) (chunks : List Text) (session : Session World) :
    responses (deliver dispatcher chunks session).flatten =
      (buffersAfter session.requestBuffer chunks).flatMap (Server.reply dispatcher world) := by
  induction chunks generalizing session with
  | nil => rfl
  | cons data rest ih =>
      have later := ih (exchange dispatcher data session).1
      have here := responses_exchange dispatcher data session
      rw [exchange_buffer] at later
      rw [answers.reply session.world world] at here
      simp only [Http.deliver, buffersAfter, List.flatMap_cons, List.flatten_cons]
      rw [← later, ← here]
      exact List.filterMap_append

theorem Served.sent {received sent : List Text} (served : Served dispatcher received sent)
    (world : World) :
    sent = (buffersAfter [] received).flatMap (reply dispatcher world) := by
  induction served with
  | fresh => rfl
  | read received sent data moment before ih =>
      rw [buffersAfter_append, List.flatMap_append, ← ih, answers.reply moment world]
      simp [buffersAfter]

end Answers

/-- On a server whose handlers answer by the request alone, every connection has sent
exactly the responses that its own reads would have had on a server of its own, in every
run with any number of connections. -/
theorem connections_isolated {dispatcher : Http.RequestDispatcher World}
    {respond : Request → Option Response} (answers : Answers dispatcher respond)
    (address : Address) (world : World) (events : List Event) (process : Process World)
    (reached : Execution.run dispatcher (.running (Process.construct address world)) events =
      .running process)
    (session : Address) (connection : Connection)
    (live : process.heap.get session = some connection) :
    connection.sent =
      responses (deliver dispatcher connection.received (Session.fresh world)).flatten := by
  have separate := run_separate dispatcher address world events process reached session
    connection live
  rw [answers.deliver world, Served.sent answers separate.served world]
  rfl

theorem echo_answers : Answers (echoDispatcher : Http.RequestDispatcher Unit) fun request =>
    some (ResponseBuilder.ok request.rawRequest "text/plain".toList) :=
  fun _ _ => rfl

/-- The second connection is accepted and answered between two reads of the first. -/
def twoConnections : List Event :=
  [.complete (.asyncAccept 0) false [], .run (.handleAccept 0 false) 1, .run .startAccept 1,
    .complete (.asyncReadSome 0) false "GET /a HTTP".toList,
    .run (.handleRead 0 false "GET /a HTTP".toList) 2,
    .complete (.asyncAccept 1) false [], .run (.handleAccept 1 false) 2,
    .complete (.asyncReadSome 1) false "GET /b HTTP/1.1\r\n\r\n".toList,
    .run (.handleRead 1 false "GET /b HTTP/1.1\r\n\r\n".toList) 2, .run .startAccept 2,
    .complete (.asyncReadSome 0) false "/1.1\r\n\r\n".toList,
    .run (.handleRead 0 false "/1.1\r\n\r\n".toList) 3]

theorem connections_isolated_two :
    ∃ process connection,
      Execution.run echoDispatcher (.running (Process.construct 0 ())) twoConnections =
          .running process ∧
        process.heap.get 0 = some connection ∧
        connection.received = ["GET /a HTTP".toList, "/1.1\r\n\r\n".toList] ∧
        connection.sent = responses
          (deliver echoDispatcher connection.received (Session.fresh ())).flatten :=
  ⟨_, _, rfl, rfl, rfl,
    connections_isolated echo_answers 0 () twoConnections _ rfl 0 _ rfl⟩

end BathroomRatings.Server
