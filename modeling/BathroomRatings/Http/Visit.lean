import BathroomRatings.Http.RoundTrip

/-!
# A request on a connection of its own

What a session does with the reads of one request, when the last of them completes the
head, and with reads that never bring a valid request.  An exception of a handler ends the
process.
-/

set_option autoImplicit false

namespace BathroomRatings.Http

open RequestParser BathroomRatings.Lib.Framing BathroomRatings.Lib.Strings

/-- The last read completes the head of a request. -/
structure Completes (reads : List Text) : Prop where
  complete : isComplete reads.flatten = true
  before : ∀ front back, reads = front ++ back → back ≠ [] → isComplete front.flatten = false

/-- No read completes the head of a valid request. -/
def BringsNothing (reads : List Text) : Prop :=
  ∀ front, front <+: reads → isComplete front.flatten = true →
    (parsed front.flatten).isValid = false

theorem before_of_take {reads : List Text}
    (incomplete : ∀ count < reads.length, isComplete (reads.take count).flatten = false)
    (front back : List Text) (split : reads = front ++ back) (more : back ≠ []) :
    isComplete front.flatten = false := by
  have longer : 0 < back.length := List.length_pos_of_ne_nil more
  have earlier := incomplete front.length (by rw [split, List.length_append]; omega)
  rw [split, List.take_left] at earlier
  exact earlier

variable {World : Type}

section Converse

variable (dispatcher : RequestDispatcher World) (running : World → Bool)

/-- What a session does for the reads of its connection, until a handler lets out an
exception: this ends the process before anything is sent for the read. -/
def converse : List Text → Session World → List Effect × World
  | [], session => ([], session.world)
  | data :: rest, session =>
      let (next, effects) := exchange dispatcher data session
      if running next.world then
        let (further, world) := converse rest next
        (effects ++ further, world)
      else ([], next.world)

theorem converse_cons (data : Text) (rest : List Text) (session : Session World) :
    converse dispatcher running (data :: rest) session =
      if running (exchange dispatcher data session).1.world then
        ((exchange dispatcher data session).2 ++
            (converse dispatcher running rest (exchange dispatcher data session).1).1,
          (converse dispatcher running rest (exchange dispatcher data session).1).2)
      else ([], (exchange dispatcher data session).1.world) := rfl

def handledEffects (request : Request) (world : World) : List Effect :=
  if running (handlerResult dispatcher request world).2 then
    [.handled request, .sent (serializeResponse (handlerResult dispatcher request world).1),
      .asyncRead]
  else []

theorem converse_completing (reads : List Text) (nonempty : reads ≠ [])
    (session : Session World) (up : running session.world = true)
    (complete : isComplete (session.requestBuffer ++ reads.flatten) = true)
    (before : ∀ front back, reads = front ++ back → back ≠ [] →
      front ≠ [] → isComplete (session.requestBuffer ++ front.flatten) = false)
    (valid : (parsed (session.requestBuffer ++ reads.flatten)).isValid = true) :
    converse dispatcher running reads session =
      (List.replicate (reads.length - 1) .asyncRead ++
          handledEffects dispatcher running (parsed (session.requestBuffer ++ reads.flatten))
            session.world,
        (handlerResult dispatcher (parsed (session.requestBuffer ++ reads.flatten))
          session.world).2) := by
  induction reads generalizing session with
  | nil => exact absurd rfl nonempty
  | cons data rest ih =>
      by_cases last : rest = []
      · subst last
        rw [List.flatten_cons, List.flatten_nil, List.append_nil] at complete valid ⊢
        rw [converse_cons, exchange_handled dispatcher data session complete valid,
          handledEffects]
        split
        · simp [converse]
        · rfl
      · have incomplete := before [data] rest rfl last (by simp)
        rw [List.flatten_cons, List.flatten_nil, List.append_nil] at incomplete
        rw [converse_cons, exchange_incomplete dispatcher data session incomplete, if_pos up]
        rw [List.flatten_cons, ← List.append_assoc] at complete valid ⊢
        rw [ih last { session with requestBuffer := session.requestBuffer ++ data } up complete
          (by
            intro front back split more some
            have earlier := before (data :: front) back (by rw [split]; rfl) more (by simp)
            rw [List.flatten_cons, ← List.append_assoc] at earlier
            exact earlier) valid]
        obtain ⟨next, others, rfl⟩ := List.exists_cons_of_ne_nil last
        rfl

/-- The request is handled once, and its response is sent, with the last read. -/
theorem Completes.converse {reads : List Text} (completes : Completes reads)
    (valid : (parsed reads.flatten).isValid = true) {world : World}
    (up : running world = true) :
    Http.converse dispatcher running reads (Session.fresh world) =
      (List.replicate (reads.length - 1) .asyncRead ++
          handledEffects dispatcher running (parsed reads.flatten) world,
        (handlerResult dispatcher (parsed reads.flatten) world).2) := by
  have nonempty : reads ≠ [] := by
    rintro rfl
    exact absurd completes.complete (by decide)
  exact converse_completing dispatcher running reads nonempty (Session.fresh world) up
    completes.complete (fun front back split more _ => completes.before front back split more)
    valid

def rejection : Text := serializeResponse (some ResponseBuilder.defaultBadRequest)

theorem converse_noise (reads : List Text) (session : Session World)
    (up : running session.world = true)
    (nothing : ∀ front, front <+: reads →
      isComplete (session.requestBuffer ++ front.flatten) = true →
      (parsed (session.requestBuffer ++ front.flatten)).isValid = false) :
    (∀ effect ∈ (converse dispatcher running reads session).1,
      effect = .asyncRead ∨ effect = .sent rejection) ∧
      (converse dispatcher running reads session).2 = session.world := by
  induction reads generalizing session with
  | nil => exact ⟨by simp [converse], rfl⟩
  | cons data rest ih =>
      have here := nothing [data] (by simp)
      rw [List.flatten_cons, List.flatten_nil, List.append_nil] at here
      have first : (∀ effect ∈ (exchange dispatcher data session).2,
          effect = .asyncRead ∨ effect = .sent rejection) ∧
          (exchange dispatcher data session).1.world = session.world := by
        cases complete : isComplete (session.requestBuffer ++ data) with
        | false =>
            rw [exchange_incomplete dispatcher data session complete]
            exact ⟨by simp, rfl⟩
        | true =>
            rw [exchange_rejected dispatcher data session complete (here complete)]
            refine ⟨?_, rfl⟩
            intro effect member
            rcases List.mem_cons.mp member with rfl | member
            · exact Or.inr rfl
            · exact Or.inl (List.mem_singleton.mp member)
      have still : running (exchange dispatcher data session).1.world = true := by
        rw [first.2]
        exact up
      obtain ⟨further, kept⟩ := ih (exchange dispatcher data session).1 still (by
        intro front inside
        rw [exchange_buffer, List.append_assoc, ← List.flatten_cons]
        exact nothing (data :: front) ((List.prefix_cons_inj data).mpr inside))
      rw [converse_cons, if_pos still]
      constructor
      · intro effect member
        exact (List.mem_append.mp member).elim (first.1 effect) (further effect)
      · exact kept.trans first.2

/-- No handler is called, and nothing but rejections is sent. -/
theorem BringsNothing.converse {reads : List Text} (nothing : BringsNothing reads)
    {world : World} (up : running world = true) :
    (∀ effect ∈ (Http.converse dispatcher running reads (Session.fresh world)).1,
      effect = .asyncRead ∨ effect = .sent rejection) ∧
      (Http.converse dispatcher running reads (Session.fresh world)).2 = world :=
  converse_noise dispatcher running reads (Session.fresh world) up nothing

end Converse

/-! ## The request of a client -/

namespace ClientRequest

variable (request : ClientRequest)

theorem find_terminator : find headerTerminator request.text =
    some (joined '\r' '\n' request.requestLine
      (request.headers.map ClientHeader.line)).length := by
  rw [request.text_framed]
  exact find_framed (by decide) _ _ _ request.isLine_of_mem

theorem text_complete : isComplete request.text = true :=
  (isComplete_iff _).mpr ⟨_, request.find_terminator⟩

theorem parsed_text : parsed request.text = request.received := by
  have head := headLines_framed _ _ request.body request.isLine_of_mem
  rw [← request.text_framed] at head
  have body : request.text.drop ((joined '\r' '\n' request.requestLine
      (request.headers.map ClientHeader.line)).length + 4) = request.body := by
    rw [request.text_framed, framed_eq]
    exact List.drop_left' (by simp)
  rw [parsed_eq request.text _ request.find_terminator, head, request.parseHead_lines, body]
  rfl

end ClientRequest

end BathroomRatings.Http
