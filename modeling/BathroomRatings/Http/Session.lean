import BathroomRatings.Http.RequestParser

/-!
# Sessions

A session reacts to two completions: of a read into `data_`, and of the write of
its response.  Each reaction changes the session and starts the next operation.
Handlers act on a world of their own; the dispatcher chooses one by the url.
-/

set_option autoImplicit false

namespace BathroomRatings.Http

open RequestParser

def maxLength : Nat := 1024

/-- The bytes a successful read has put into `data_`. -/
structure Chunk where
  bytes : Text
  nonempty : bytes ≠ []
  bounded : bytes.length ≤ maxLength

structure RequestHandler (World : Type) where
  handleRequest : Request → World → Option Response × World

structure RequestDispatcher (World : Type) where
  createHandler : Text → RequestHandler World

structure Session (World : Type) where
  requestBuffer : Text
  response : Text
  world : World

def Session.fresh {World : Type} (world : World) : Session World := ⟨[], [], world⟩

inductive Effect where
  | asyncRead
  | handled (request : Request)
  | sent (response : Text)
  | deleted
  deriving DecidableEq

def crlf : Text := ['\r', '\n']

def serializeSome (response : Response) : Text :=
  "HTTP/1.1 ".toList ++ response.statusCode ++ crlf ++
    response.headers.flatMap (fun header => header ++ crlf) ++ crlf ++ response.body

/-- A null response is sent as an internal server error. -/
def serializeResponse : Option Response → Text
  | none => serializeSome ResponseBuilder.defaultInternalServerError
  | some response => serializeSome response

variable {World : Type}

def handleRead (dispatcher : RequestDispatcher World) (error : Bool) (data : Text)
    (session : Session World) : Session World × List Effect :=
  if error then (session, [.deleted])
  else
    let requestBuffer := session.requestBuffer ++ data
    let session := { session with requestBuffer }
    let (complete, request) := parse requestBuffer Request.fresh
    if complete then
      if request.isValid then
        let handler := dispatcher.createHandler request.url
        let (result, world) := handler.handleRequest request session.world
        let response := serializeResponse result
        ({ session with response, world }, [.handled request, .sent response])
      else
        let response := serializeResponse (some ResponseBuilder.defaultBadRequest)
        ({ session with response }, [.sent response])
    else (session, [.asyncRead])

def handleWrite (error : Bool) (session : Session World) :
    Session World × List Effect :=
  if error then (session, [.deleted]) else (session, [.asyncRead])

def Effect.isSent : Effect → Bool
  | .sent _ => true
  | _ => false

/-- One read, and the successful write of the response it causes. -/
def exchange (dispatcher : RequestDispatcher World) (data : Text)
    (session : Session World) : Session World × List Effect :=
  let (session, effects) := handleRead dispatcher false data session
  if effects.any Effect.isSent then
    let (session, more) := handleWrite false session
    (session, effects ++ more)
  else (session, effects)

/-- The effects of successive reads, one list for each. -/
def deliver (dispatcher : RequestDispatcher World) :
    List Text → Session World → List (List Effect)
  | [], _ => []
  | data :: rest, session =>
      (exchange dispatcher data session).2 ::
        deliver dispatcher rest (exchange dispatcher data session).1

def echoRequestHandler : RequestHandler World where
  handleRequest request world :=
    (some (ResponseBuilder.ok request.rawRequest "text/plain".toList), world)

/-- A dispatcher with one location, `/`, for the echo handler: it is a prefix of
the url of every valid request. -/
def echoDispatcher : RequestDispatcher World where
  createHandler _ := echoRequestHandler

/-! ## One exchange -/

theorem exchange_incomplete (dispatcher : RequestDispatcher World) (data : Text)
    (session : Session World)
    (incomplete : isComplete (session.requestBuffer ++ data) = false) :
    exchange dispatcher data session =
      ({ session with requestBuffer := session.requestBuffer ++ data },
        [.asyncRead]) := by
  have answer : (parse (session.requestBuffer ++ data) Request.fresh).1 = false :=
    incomplete
  simp [exchange, handleRead, answer, Effect.isSent]

theorem exchange_rejected (dispatcher : RequestDispatcher World) (data : Text)
    (session : Session World)
    (complete : isComplete (session.requestBuffer ++ data) = true)
    (rejected : (parsed (session.requestBuffer ++ data)).isValid = false) :
    exchange dispatcher data session =
      (⟨session.requestBuffer ++ data,
          serializeResponse (some ResponseBuilder.defaultBadRequest), session.world⟩,
        [.sent (serializeResponse (some ResponseBuilder.defaultBadRequest)),
          .asyncRead]) := by
  have answer : (parse (session.requestBuffer ++ data) Request.fresh).1 = true :=
    complete
  have invalid : (parse (session.requestBuffer ++ data) Request.fresh).2.isValid = false :=
    rejected
  simp [exchange, handleRead, handleWrite, answer, invalid, Effect.isSent]

def handlerResult (dispatcher : RequestDispatcher World) (request : Request)
    (world : World) : Option Response × World :=
  (dispatcher.createHandler request.url).handleRequest request world

theorem exchange_handled (dispatcher : RequestDispatcher World) (data : Text)
    (session : Session World)
    (complete : isComplete (session.requestBuffer ++ data) = true)
    (valid : (parsed (session.requestBuffer ++ data)).isValid = true) :
    exchange dispatcher data session =
      (⟨session.requestBuffer ++ data,
          serializeResponse (handlerResult dispatcher
            (parsed (session.requestBuffer ++ data)) session.world).1,
          (handlerResult dispatcher
            (parsed (session.requestBuffer ++ data)) session.world).2⟩,
        [.handled (parsed (session.requestBuffer ++ data)),
          .sent (serializeResponse (handlerResult dispatcher
            (parsed (session.requestBuffer ++ data)) session.world).1),
          .asyncRead]) := by
  have answer : (parse (session.requestBuffer ++ data) Request.fresh).1 = true :=
    complete
  have good : (parse (session.requestBuffer ++ data) Request.fresh).2.isValid = true :=
    valid
  simp [exchange, handleRead, handleWrite, handlerResult, parsed, answer, good,
    Effect.isSent]

/-- Nothing is ever taken out of the request buffer. -/
theorem exchange_buffer (dispatcher : RequestDispatcher World) (data : Text)
    (session : Session World) :
    (exchange dispatcher data session).1.requestBuffer =
      session.requestBuffer ++ data := by
  cases complete : isComplete (session.requestBuffer ++ data) with
  | false => rw [exchange_incomplete _ _ _ complete]
  | true =>
      cases valid : (parsed (session.requestBuffer ++ data)).isValid with
      | false => rw [exchange_rejected _ _ _ complete valid]
      | true => rw [exchange_handled _ _ _ complete valid]

end BathroomRatings.Http
