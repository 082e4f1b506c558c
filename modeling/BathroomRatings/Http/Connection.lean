import BathroomRatings.Http.Session

/-!
# Whole connections

Two properties of the read loop over any number of reads: that the cuts the
network makes do not matter, and that requests do not influence each other.  The
session completes a request when its head is complete and keeps everything it
has read, so each property holds only for the deliveries described here.
-/

set_option autoImplicit false

namespace BathroomRatings.Http

open RequestParser BathroomRatings.Lib.Strings BathroomRatings.Lib.Decimal

def Effect.handledRequest : Effect → Option Request
  | .handled request => some request
  | _ => none

def handledRequests (effects : List Effect) : List Request :=
  effects.filterMap Effect.handledRequest

def responseCount (effects : List Effect) : Nat :=
  effects.countP Effect.isSent

/-- A valid request text, cut behind its first CRLFCRLF, whose header section
states the length of the rest. -/
structure ValidRequestText (head body : Text) : Prop where
  headEnd : ∃ position, find headerTerminator (head ++ body) = some position ∧
    head.length = position + 4
  valid : (parsed (head ++ body)).isValid = true
  contentLength : "Content-Length: ".toList ++ decimal body.length ∈
    (parsed (head ++ body)).headers

variable {World : Type}

/-! ## One request in several reads -/

def buffersAfter (buffer : Text) : List Text → List Text
  | [] => []
  | data :: rest => (buffer ++ data) :: buffersAfter (buffer ++ data) rest

theorem ValidRequestText.head_complete {head body : Text}
    (text : ValidRequestText head body) : isComplete head = true := by
  obtain ⟨position, found, length⟩ := text.headEnd
  have inHead : position + headerTerminator.length ≤ head.length := length.ge
  exact (isComplete_iff head).mpr
    ⟨position, find_of_append headerTerminator head body position found inHead⟩

theorem ValidRequestText.head_valid {head body : Text}
    (text : ValidRequestText head body) : (parsed head).isValid = true := by
  have whole := (parse_append head body text.head_complete).2
  have valid := text.valid
  rw [whole] at valid
  exact valid

theorem ValidRequestText.head_body {head body : Text}
    (text : ValidRequestText head body) : (parsed head).body = [] := by
  obtain ⟨position, found, length⟩ := text.headEnd
  have inHead : position + headerTerminator.length ≤ head.length := length.ge
  have foundHead := find_of_append headerTerminator head body position found inHead
  rw [parsed_eq head position foundHead]
  have nothing : head.drop (position + 4) = [] := by
    rw [List.drop_eq_nil_iff]
    omega
  simp [nothing]

theorem ValidRequestText.part_complete {head body : Text}
    (text : ValidRequestText head body) (part rest : Text)
    (split : part ++ rest = head ++ body) :
    isComplete part = decide (head.length ≤ part.length) := by
  by_cases reaches : head.length ≤ part.length
  · have headPart : head <+: part :=
      List.prefix_of_prefix_length_le (split ▸ List.prefix_append head body)
        (List.prefix_append part rest) reaches
    obtain ⟨more, rfl⟩ := headPart
    simp [(parse_append head more text.head_complete).1]
  · have incomplete : ¬ isComplete part = true := by
      intro complete
      obtain ⟨position, found⟩ := (isComplete_iff part).mp complete
      obtain ⟨expected, foundWhole, length⟩ := text.headEnd
      have longer := find_append headerTerminator part rest position found
      rw [split, foundWhole] at longer
      have same : expected = position := Option.some.inj longer
      have bound : position + 4 ≤ part.length := find_bound _ _ _ found
      omega
    simpa [reaches] using incomplete

theorem ValidRequestText.part_parsed {head body : Text}
    (text : ValidRequestText head body) (part rest : Text)
    (split : part ++ rest = head ++ body) (reaches : head.length ≤ part.length) :
    (parsed part).isValid = true ∧ (parsed part).body = part.drop head.length := by
  have headPart : head <+: part :=
    List.prefix_of_prefix_length_le (split ▸ List.prefix_append head body)
      (List.prefix_append part rest) reaches
  obtain ⟨more, rfl⟩ := headPart
  have whole := (parse_append head more text.head_complete).2
  rw [whole]
  simp [text.head_valid, text.head_body]

/-- Every read that leaves the head complete passes the buffer to a handler and
sends a response. -/
theorem deliver_effects {head body : Text} (text : ValidRequestText head body)
    (dispatcher : RequestDispatcher World) (chunks : List Text) :
    ∀ session : Session World,
      session.requestBuffer ++ chunks.flatten = head ++ body →
      handledRequests (deliver dispatcher chunks session).flatten =
          ((buffersAfter session.requestBuffer chunks).filter
            fun buffer => head.length ≤ buffer.length).map parsed ∧
        responseCount (deliver dispatcher chunks session).flatten =
          ((buffersAfter session.requestBuffer chunks).filter
            fun buffer => head.length ≤ buffer.length).length := by
  induction chunks with
  | nil => intro session _; exact ⟨rfl, rfl⟩
  | cons data rest ih =>
      intro session split
      have splitNext : (session.requestBuffer ++ data) ++ rest.flatten = head ++ body := by
        simpa using split
      have further := ih (exchange dispatcher data session).1
        (by rw [exchange_buffer]; exact splitNext)
      rw [exchange_buffer] at further
      have complete := text.part_complete _ _ splitNext
      simp only [deliver, buffersAfter, List.flatten_cons, handledRequests,
        responseCount, List.filterMap_append, List.countP_append] at further ⊢
      rw [further.1, further.2]
      by_cases reaches : head.length ≤ (session.requestBuffer ++ data).length
      · have valid := (text.part_parsed _ _ splitNext reaches).1
        rw [exchange_handled dispatcher data session
          (complete.trans (decide_eq_true reaches)) valid,
          List.filter_cons_of_pos (by simpa using reaches)]
        constructor
        · rfl
        · simp [List.countP_cons, Effect.isSent, Nat.add_comm]
      · rw [exchange_incomplete dispatcher data session
          (complete.trans (decide_eq_false reaches)),
          List.filter_cons_of_neg (by simpa using reaches)]
        constructor
        · rfl
        · simp [Effect.isSent]

theorem buffersAfter_append (buffer : Text) (first rest : List Text) :
    buffersAfter buffer (first ++ rest) =
      buffersAfter buffer first ++ buffersAfter (buffer ++ first.flatten) rest := by
  induction first generalizing buffer with
  | nil => simp [buffersAfter]
  | cons data first ih => simp [buffersAfter, ih]

theorem buffersAfter_short (length : Nat) (chunks : List Text) : ∀ buffer : Text,
    (∀ after ∈ buffersAfter buffer chunks, after.length < length) ↔
      ∀ first rest, chunks = first ++ rest → first ≠ [] →
        (buffer ++ first.flatten).length < length := by
  induction chunks with
  | nil =>
      intro buffer
      simp only [buffersAfter, List.not_mem_nil, false_implies, implies_true, true_iff]
      intro first rest split nonempty
      exact absurd (List.append_eq_nil_iff.mp split.symm).1 nonempty
  | cons data chunks ih =>
      intro buffer
      simp only [buffersAfter, List.forall_mem_cons, ih]
      constructor
      · rintro ⟨here, later⟩ first rest split nonempty
        cases first with
        | nil => exact absurd rfl nonempty
        | cons head first =>
            obtain ⟨rfl, tail⟩ := List.cons_eq_cons.mp split
            cases first with
            | nil => simpa using here
            | cons next first =>
                simpa using later (next :: first) rest tail (by simp)
      · intro all
        refine ⟨by simpa using all [data] chunks rfl (by simp), ?_⟩
        intro first rest split nonempty
        simpa using all (data :: first) rest (by simp [split]) (by simp)

/-- No read but the last reaches the end of the head: the network cuts the
request inside its head only. -/
def CutInHead (head : Text) (chunks : List Chunk) : Prop :=
  ∀ first rest, chunks = first ++ rest → rest ≠ [] →
    ((first.map Chunk.bytes).flatten).length < head.length

/-- The handler is invoked once, with the whole body, and one response is sent. -/
def HandledOnce (body : Text) (effects : List Effect) : Prop :=
  (∃ request, handledRequests effects = [request] ∧ request.body = body) ∧
    responseCount effects = 1

theorem cutInHead_iff (head : Text) (nonempty : head ≠ []) (before : List Chunk)
    (last : Chunk) :
    CutInHead head (before ++ [last]) ↔
      ∀ after ∈ buffersAfter [] (before.map Chunk.bytes),
        after.length < head.length := by
  rw [buffersAfter_short]
  constructor
  · intro cuts first rest split _
    obtain ⟨left, right, rfl, rfl, rfl⟩ := List.map_eq_append_iff.mp split
    simpa using cuts left (right ++ [last]) (by simp) (by simp)
  · intro short first rest split more
    obtain ⟨rest, other, rfl⟩ := List.eq_nil_or_concat rest |>.resolve_left more
    rw [List.concat_eq_append, ← List.append_assoc] at split
    have same : before = first ++ rest := (List.append_inj' split rfl).1
    by_cases empty : first = []
    · simp [empty, List.length_pos_iff.mpr nonempty]
    · simpa using short (first.map Chunk.bytes) (rest.map Chunk.bytes)
        (by simp [same]) (by simpa using empty)

/-- A valid request is served once, with its whole body, exactly if no read ends
behind the head and before the end of the request. -/
theorem handledOnce_iff (dispatcher : RequestDispatcher World) (world : World)
    (head body : Text) (text : ValidRequestText head body) (chunks : List Chunk)
    (whole : (chunks.map Chunk.bytes).flatten = head ++ body) :
    HandledOnce body
        (deliver dispatcher (chunks.map Chunk.bytes) (Session.fresh world)).flatten ↔
      CutInHead head chunks := by
  obtain ⟨position, found, length⟩ := text.headEnd
  have nonempty : head ≠ [] := List.length_pos_iff.mp (by omega)
  have someChunk : chunks ≠ [] := by
    rintro rfl
    simp [nonempty] at whole
  obtain ⟨before, last, rfl⟩ := List.eq_nil_or_concat chunks |>.resolve_left someChunk
  rw [List.concat_eq_append] at whole ⊢
  obtain ⟨handled, count⟩ := deliver_effects text dispatcher
    ((before ++ [last]).map Chunk.bytes) (Session.fresh world) whole
  have buffers : buffersAfter (Session.fresh world).requestBuffer
      ((before ++ [last]).map Chunk.bytes) =
      buffersAfter [] (before.map Chunk.bytes) ++ [head ++ body] := by
    rw [List.map_append, buffersAfter_append]
    simp only [Session.fresh, List.map_cons, List.map_nil, buffersAfter]
    rw [← whole]
    simp
  have lastCounts : [head ++ body].filter (fun buffer => head.length ≤ buffer.length) =
      [head ++ body] := by
    simp
  rw [buffers, List.filter_append, lastCounts] at handled count
  rw [cutInHead_iff head nonempty]
  constructor
  · rintro ⟨_, one⟩ after member
    rw [one, List.length_append, List.length_singleton] at count
    have none := List.length_eq_zero_iff.mp (Nat.succ_inj.mp count.symm)
    have short := List.filter_eq_nil_iff.mp none after member
    simpa using short
  · intro short
    have none : (buffersAfter [] (before.map Chunk.bytes)).filter
        (fun buffer => head.length ≤ buffer.length) = [] := by
      rw [List.filter_eq_nil_iff]
      intro after member
      have bound := short after member
      simpa using bound
    rw [none] at handled count
    refine ⟨⟨parsed (head ++ body), handled, ?_⟩, count⟩
    have bodyPart := (text.part_parsed (head ++ body) [] (by simp) (by simp)).2
    rw [bodyPart, List.drop_left]

/-! A request with the body of an empty object, in two reads. -/

def postHead : Text :=
  "POST /api/Shoes HTTP/1.1\r\nContent-Length: 2\r\n\r\n".toList

def postBody : Text := ['\x7b', '\x7d']

theorem post_valid : ValidRequestText postHead postBody where
  headEnd := ⟨43, by decide +kernel, by decide +kernel⟩
  valid := by decide +kernel
  contentLength := by decide +kernel

def cutInHead : List Chunk :=
  [⟨"POST /api".toList, by decide, by decide⟩,
    ⟨"/Shoes HTTP/1.1\r\nContent-Length: 2\r\n\r\n".toList ++ postBody,
      by decide, by decide +kernel⟩]

def cutInBody : List Chunk :=
  [⟨postHead ++ ['\x7b'], by decide, by decide +kernel⟩,
    ⟨['\x7d'], by decide, by decide⟩]

theorem handledOnce_iff_post :
    HandledOnce postBody (deliver echoDispatcher (cutInHead.map Chunk.bytes)
        (Session.fresh ())).flatten ↔
      CutInHead postHead cutInHead :=
  handledOnce_iff echoDispatcher () postHead postBody post_valid cutInHead
    (by decide +kernel)

theorem cut_body_handled_twice :
    ValidRequestText postHead postBody ∧
      (cutInBody.map Chunk.bytes).flatten = postHead ++ postBody ∧
      ¬ HandledOnce postBody (deliver echoDispatcher (cutInBody.map Chunk.bytes)
        (Session.fresh ())).flatten := by
  refine ⟨post_valid, by decide +kernel, ?_⟩
  rintro ⟨_, once⟩
  have twice : responseCount (deliver echoDispatcher (cutInBody.map Chunk.bytes)
      (Session.fresh ())).flatten = 2 := by decide +kernel
  omega

/-! ## Several requests, one in each read -/

/-- Every read is answered as it would be on a fresh session: the same request is
passed to the handler, and the same response is sent. -/
def RespondsAlone (dispatcher : RequestDispatcher World) :
    List Text → Session World → Prop
  | [], _ => True
  | request :: rest, session =>
      (exchange dispatcher request session).2 =
          (exchange dispatcher request (Session.fresh session.world)).2 ∧
        RespondsAlone dispatcher rest (exchange dispatcher request session).1

def Rejecting (session : Session World) : Prop :=
  isComplete session.requestBuffer = true ∧
    (parsed session.requestBuffer).isValid = false

theorem isComplete_ne_nil {buffer : Text} (complete : isComplete buffer = true) :
    buffer ≠ [] := by
  rintro rfl
  exact absurd complete (by decide)

/-- The first request of a connection is passed on again with the second. -/
theorem repeated_request (dispatcher : RequestDispatcher World) (request : Text)
    (session : Session World) (complete : isComplete session.requestBuffer = true)
    (valid : (parsed session.requestBuffer).isValid = true)
    (alone : isComplete request = true) :
    (exchange dispatcher request session).2 ≠
      (exchange dispatcher request (Session.fresh session.world)).2 := by
  obtain ⟨longer, interpreted⟩ := parse_append session.requestBuffer request complete
  have stillValid : (parsed (session.requestBuffer ++ request)).isValid = true := by
    rw [interpreted]
    exact valid
  have freshComplete : isComplete
      ((Session.fresh session.world).requestBuffer ++ request) = true := alone
  rw [exchange_handled dispatcher request session longer stillValid]
  cases validAlone : (parsed request).isValid with
  | false =>
      rw [exchange_rejected dispatcher request _ freshComplete validAlone]
      simp
  | true =>
      rw [exchange_handled dispatcher request _ freshComplete validAlone]
      intro same
      simp only [List.cons.injEq, Effect.handled.injEq] at same
      have raw := congrArg Request.rawRequest same.1
      rw [parsed_rawRequest _ longer, parsed_rawRequest _ freshComplete] at raw
      have lengths := congrArg List.length raw
      have nonempty := List.length_pos_iff.mpr (isComplete_ne_nil complete)
      simp only [Session.fresh, List.length_append, List.length_nil] at lengths
      omega

theorem rejecting_exchange (dispatcher : RequestDispatcher World) (request : Text)
    (session : Session World) (rejecting : Rejecting session) :
    Rejecting (exchange dispatcher request session).1 ∧
      (exchange dispatcher request session).2 =
        [.sent (serializeResponse (some ResponseBuilder.defaultBadRequest)),
          .asyncRead] := by
  obtain ⟨complete, invalid⟩ := rejecting
  obtain ⟨longer, interpreted⟩ := parse_append session.requestBuffer request complete
  have stillInvalid : (parsed (session.requestBuffer ++ request)).isValid = false := by
    rw [interpreted]
    exact invalid
  rw [exchange_rejected dispatcher request session longer stillInvalid]
  exact ⟨⟨longer, stillInvalid⟩, rfl⟩

theorem fresh_exchange_rejected (dispatcher : RequestDispatcher World) (request : Text)
    (world : World) (complete : isComplete request = true)
    (invalid : (parsed request).isValid = false) :
    Rejecting (exchange dispatcher request (Session.fresh world)).1 ∧
      (exchange dispatcher request (Session.fresh world)).2 =
        [.sent (serializeResponse (some ResponseBuilder.defaultBadRequest)),
          .asyncRead] := by
  rw [exchange_rejected dispatcher request (Session.fresh world) complete invalid]
  exact ⟨⟨complete, invalid⟩, rfl⟩

/-- Behind a rejected request, exactly the rejected requests are answered as on a
fresh session. -/
theorem rejecting_respondsAlone_iff (dispatcher : RequestDispatcher World)
    (requests : List Text) : ∀ session : Session World, Rejecting session →
      (∀ request ∈ requests, isComplete request = true) →
      (RespondsAlone dispatcher requests session ↔
        ∀ request ∈ requests, (parsed request).isValid = false) := by
  induction requests with
  | nil => intro session _ _; simp [RespondsAlone]
  | cons request rest ih =>
      intro session rejecting complete
      obtain ⟨next, sent⟩ := rejecting_exchange dispatcher request session rejecting
      have alone := complete request (by simp)
      have further := ih _ next fun other member =>
        complete other (List.mem_cons_of_mem _ member)
      rw [RespondsAlone, further, List.forall_mem_cons, sent]
      apply and_congr_left'
      cases valid : (parsed request).isValid with
      | false =>
          simp [(fresh_exchange_rejected dispatcher request session.world alone valid).2]
      | true =>
          rw [exchange_handled dispatcher request (Session.fresh session.world) alone valid]
          simp

/-- On one connection every request is answered for itself exactly if there is at
most one, or none of them is valid. -/
theorem respondsAlone_iff (dispatcher : RequestDispatcher World) (world : World)
    (requests : List Chunk)
    (complete : ∀ request ∈ requests, isComplete request.bytes = true) :
    RespondsAlone dispatcher (requests.map Chunk.bytes) (Session.fresh world) ↔
      requests.length ≤ 1 ∨
        ∀ request ∈ requests, (parsed request.bytes).isValid = false := by
  cases requests with
  | nil => simp [RespondsAlone]
  | cons first rest =>
      have firstComplete := complete first (by simp)
      have restComplete : ∀ request ∈ rest.map Chunk.bytes, isComplete request = true := by
        intro request member
        obtain ⟨chunk, inRest, rfl⟩ := List.mem_map.mp member
        exact complete chunk (List.mem_cons_of_mem _ inRest)
      have same : (exchange dispatcher first.bytes (Session.fresh world)).2 =
          (exchange dispatcher first.bytes
            (Session.fresh (Session.fresh world).world)).2 := rfl
      simp only [List.map_cons, RespondsAlone, same, true_and]
      cases valid : (parsed first.bytes).isValid with
      | false =>
          obtain ⟨rejecting, _⟩ :=
            fresh_exchange_rejected dispatcher first.bytes world firstComplete valid
          rw [rejecting_respondsAlone_iff dispatcher _ _ rejecting restComplete]
          cases rest with
          | nil => simp
          | cons second rest => simp [valid]
      | true =>
          cases rest with
          | nil => simp [RespondsAlone]
          | cons second rest =>
              have buffer := exchange_buffer dispatcher first.bytes (Session.fresh world)
              simp only [Session.fresh, List.nil_append] at buffer
              have differs := repeated_request dispatcher second.bytes
                (exchange dispatcher first.bytes (Session.fresh world)).1
                (by simp only [Session.fresh, buffer]; exact firstComplete)
                (by simp only [Session.fresh, buffer]; exact valid)
                (restComplete second.bytes (by simp))
              constructor
              · intro alone
                exact absurd alone.1 differs
              · rintro (few | invalid)
                · simp at few
                · exact absurd (invalid first (by simp)) (by simp [valid])

def getRequests : List Chunk :=
  [⟨"GET /1 HTTP/1.1\r\n\r\n".toList, by decide, by decide⟩,
    ⟨"GET /2 HTTP/1.1\r\n\r\n".toList, by decide, by decide⟩]

theorem respondsAlone_iff_get :
    RespondsAlone echoDispatcher (getRequests.map Chunk.bytes) (Session.fresh ()) ↔
      getRequests.length ≤ 1 ∨
        ∀ request ∈ getRequests, (parsed request.bytes).isValid = false :=
  respondsAlone_iff echoDispatcher () getRequests (by decide +kernel)

/-- The second of two requests is answered as the first one with a body. -/
theorem second_request_lost :
    (∀ request ∈ getRequests, isComplete request.bytes = true) ∧
      ¬ RespondsAlone echoDispatcher (getRequests.map Chunk.bytes)
        (Session.fresh ()) := by
  refine ⟨by decide +kernel, ?_⟩
  rintro ⟨_, second, _⟩
  exact absurd second (by decide +kernel)

end BathroomRatings.Http
