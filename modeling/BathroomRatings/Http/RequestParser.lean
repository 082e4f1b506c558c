import BathroomRatings.Http.Message
import BathroomRatings.Lib.Strings

/-!
# The request parser

`RequestParser::Parse` finds the end of the head by a search for CRLFCRLF and
reads the head line by line.  `lines_head` relates the two: whatever follows the
first CRLFCRLF, the line loop reads the lines in front of it and then the line
that stops it.  So `parse` on a longer buffer interprets the head in the same
way (`parse_append`).
-/

set_option autoImplicit false

namespace BathroomRatings.Http.RequestParser

open BathroomRatings.Lib.Strings

def headerTerminator : Text := ['\r', '\n', '\r', '\n']

/-- White space of the C locale, as `>>` skips it. -/
def isSpace (c : Char) : Bool :=
  c == ' ' || c == '\t' || c == '\n' || c == '\x0b' || c == '\x0c' || c == '\r'

/-- `stream >> word`: the next word and what is left behind it. -/
def nextWord (stream : Text) : Option (Text × Text) :=
  match stream.dropWhile isSpace with
  | [] => none
  | rest => some (rest.takeWhile fun c => !isSpace c, rest.dropWhile fun c => !isSpace c)

def allowedMethods : List Text :=
  ["GET".toList, "POST".toList, "PUT".toList, "DELETE".toList]

def dropCarriageReturn (line : Text) : Text :=
  if line.getLast? = some '\r' then line.dropLast else line

def threeWords (line : Text) : Option (Text × Text × Text) := do
  let (method, rest) ← nextWord line
  let (url, rest) ← nextWord rest
  let (httpVersion, _) ← nextWord rest
  return (method, url, httpVersion)

def parseRequestLine (line : Text) (request : Request) : Bool × Request :=
  match threeWords line with
  | none => (false, { request with isValid := false })
  | some (method, url, httpVersion) =>
      if method ∉ allowedMethods then (false, { request with isValid := false })
      else if url.head? ≠ some '/' then (false, { request with isValid := false })
      else if httpVersion ≠ "HTTP/1.1".toList then
        (false, { request with isValid := false })
      else (true, { request with method, url, httpVersion := "1.1".toList })

def isBlank (c : Char) : Bool := c == ' ' || c == '\t'

/-- Whether the line has a colon, and the request with the header it gives. -/
def parseHeaderLine (line : Text) (request : Request) : Bool × Request :=
  match find [':'] line with
  | none => (false, request)
  | some colon =>
      let headerName := line.take colon
      let headerValue :=
        ((line.drop (colon + 1)).dropWhile isBlank).rdropWhile isBlank
      (true, { request with
        headers := request.headers ++ [headerName ++ ": ".toList ++ headerValue] })

def parseHeaderLines : List Text → Request → Request
  | [], request => request
  | line :: more, request =>
      if line = ['\r'] then request
      else if dropCarriageReturn line = [] then request
      else parseHeaderLines more (parseHeaderLine (dropCarriageReturn line) request).2

/-- The request line and the header lines; whether the request line is good. -/
def parseHead : List Text → Request → Bool × Request
  | [], request => (false, { request with isValid := false })
  | line :: more, request =>
      match parseRequestLine (dropCarriageReturn line) request with
      | (false, request) => (false, request)
      | (true, request) => (true, parseHeaderLines more request)

/-- Whether the buffer holds a complete request, and what is stored of it. -/
def parse (requestBuffer : Text) (request : Request) : Bool × Request :=
  match find headerTerminator requestBuffer with
  | none => (false, request)
  | some headerEnd =>
      match parseHead (lines '\n' requestBuffer)
          { request with isValid := true, rawRequest := requestBuffer } with
      | (false, request) => (true, request)
      | (true, request) =>
          let bodyStart := headerEnd + 4
          if bodyStart < requestBuffer.length then
            (true, { request with body := requestBuffer.drop bodyStart })
          else (true, request)

/-! ## The two ends of the head coincide -/

theorem parseHeaderLines_stop (first more : List Text) : ∀ request : Request,
    parseHeaderLines (first ++ ['\r'] :: more) request =
      parseHeaderLines first request := by
  induction first with
  | nil => intro request; simp [parseHeaderLines]
  | cons line first ih =>
      intro request
      simp only [List.cons_append, parseHeaderLines]
      split
      · rfl
      · split
        · rfl
        · exact ih _

theorem parseHead_stop (first more : List Text) (nonempty : first ≠ [])
    (request : Request) :
    parseHead (first ++ ['\r'] :: more) request = parseHead first request := by
  cases first with
  | nil => exact absurd rfl nonempty
  | cons line first =>
      simp only [List.cons_append, parseHead]
      split
      · rfl
      · rw [parseHeaderLines_stop]

def headLines (buffer : Text) (headerEnd : Nat) : List Text :=
  lines '\n' (buffer.take (headerEnd + 2))

theorem split_at_terminator (buffer : Text) (headerEnd : Nat)
    (found : find headerTerminator buffer = some headerEnd) :
    buffer = buffer.take headerEnd ++ headerTerminator ++ buffer.drop (headerEnd + 4) := by
  obtain ⟨⟨rest, here⟩, _⟩ := find_spec _ _ _ found
  have tail : buffer.drop (headerEnd + 4) = rest := by
    rw [← List.drop_drop, ← here]
    rfl
  rw [tail, List.append_assoc, here, List.take_append_drop]

theorem take_terminator (buffer : Text) (headerEnd : Nat)
    (found : find headerTerminator buffer = some headerEnd) :
    buffer.take (headerEnd + 2) = buffer.take headerEnd ++ ['\r', '\n'] := by
  have bound := find_bound _ _ _ found
  have whole := split_at_terminator buffer headerEnd found
  have length : (buffer.take headerEnd).length = headerEnd := by
    rw [List.length_take]
    omega
  conv_lhs => rw [whole, List.append_assoc]
  rw [List.take_append, length]
  simp [headerTerminator]

theorem lines_head (buffer : Text) (headerEnd : Nat)
    (found : find headerTerminator buffer = some headerEnd) :
    lines '\n' buffer =
      headLines buffer headerEnd ++
        ['\r'] :: lines '\n' (buffer.drop (headerEnd + 4)) := by
  have whole := split_at_terminator buffer headerEnd found
  have front := take_terminator buffer headerEnd found
  have stop : lines '\n' ('\r' :: '\n' :: buffer.drop (headerEnd + 4)) =
      ['\r'] :: lines '\n' (buffer.drop (headerEnd + 4)) :=
    lines_append_delimiter '\n' ['\r'] _ (by decide)
  have parts : buffer = (buffer.take headerEnd ++ ['\r']) ++
      '\n' :: '\r' :: '\n' :: buffer.drop (headerEnd + 4) := by
    conv_lhs => rw [whole]
    simp [headerTerminator]
  rw [headLines, front, ← stop]
  conv_lhs => rw [parts, lines_append]
  simp

theorem headLines_ne_nil (buffer : Text) (headerEnd : Nat)
    (found : find headerTerminator buffer = some headerEnd) :
    headLines buffer headerEnd ≠ [] := by
  rw [headLines, Ne, lines_eq_nil_iff, take_terminator buffer headerEnd found]
  simp

/-- What `parse` stores, in terms of the head lines and the rest. -/
theorem parse_found (buffer : Text) (headerEnd : Nat) (request : Request)
    (found : find headerTerminator buffer = some headerEnd) :
    parse buffer request =
      match parseHead (headLines buffer headerEnd)
          { request with isValid := true, rawRequest := buffer } with
      | (false, request) => (true, request)
      | (true, request) =>
          if headerEnd + 4 < buffer.length then
            (true, { request with body := buffer.drop (headerEnd + 4) })
          else (true, request) := by
  rw [parse, found]
  simp only
  rw [lines_head buffer headerEnd found,
    parseHead_stop _ _ (headLines_ne_nil buffer headerEnd found)]

theorem parse_complete_iff (buffer : Text) (request : Request) :
    (parse buffer request).1 = true ↔
      ∃ headerEnd, find headerTerminator buffer = some headerEnd := by
  cases found : find headerTerminator buffer with
  | none => simp [parse, found]
  | some headerEnd =>
      rw [parse_found buffer headerEnd request found]
      simp only [Option.some.injEq, exists_eq', iff_true]
      split
      · rfl
      · split <;> rfl

theorem parseHeaderLines_raw (raw : Text) (more : List Text) : ∀ request : Request,
    parseHeaderLines more { request with rawRequest := raw } =
      { parseHeaderLines more request with rawRequest := raw } := by
  induction more with
  | nil => intro request; rfl
  | cons line more ih =>
      intro request
      simp only [parseHeaderLines]
      split
      · rfl
      · split
        · rfl
        · rw [← ih]
          simp only [parseHeaderLine]
          split <;> rfl

/-- A request line is rejected or stores its three words, whatever the request
held before. -/
theorem parseRequestLine_cases (line : Text) :
    (∀ request, parseRequestLine line request =
      (false, { request with isValid := false })) ∨
    ∃ method url, method ∈ allowedMethods ∧ url.head? = some '/' ∧
      ∀ request, parseRequestLine line request =
        (true, { request with method, url, httpVersion := "1.1".toList }) := by
  cases words : threeWords line with
  | none => exact Or.inl fun request => by simp [parseRequestLine, words]
  | some triple =>
      obtain ⟨method, url, httpVersion⟩ := triple
      by_cases known : method ∈ allowedMethods
      · by_cases rooted : url.head? = some '/'
        · by_cases version : httpVersion = "HTTP/1.1".toList
          · exact Or.inr ⟨method, url, known, rooted, fun request => by
              simp only [parseRequestLine, words, known, rooted, version,
                not_true_eq_false, ne_eq, if_false]⟩
          · exact Or.inl fun request => by
              simp only [parseRequestLine, words, known, rooted, version,
                not_true_eq_false, not_false_eq_true, ne_eq, if_false, if_true]
        · exact Or.inl fun request => by
            simp only [parseRequestLine, words, known, rooted, not_true_eq_false,
              not_false_eq_true, ne_eq, if_false, if_true]
      · exact Or.inl fun request => by
          simp only [parseRequestLine, words, known, not_false_eq_true, if_true]

theorem parseHead_raw (raw : Text) (head : List Text) (request : Request) :
    parseHead head { request with rawRequest := raw } =
      ((parseHead head request).1,
        { (parseHead head request).2 with rawRequest := raw }) := by
  cases head with
  | nil => rfl
  | cons line more =>
      rcases parseRequestLine_cases (dropCarriageReturn line) with
        rejected | ⟨method, url, _, _, stored⟩
      · simp only [parseHead, rejected]
      · simp only [parseHead, stored, ← parseHeaderLines_raw]

theorem parseHeaderLines_keeps (more : List Text) : ∀ request : Request,
    (parseHeaderLines more request).isValid = request.isValid ∧
      (parseHeaderLines more request).body = request.body ∧
      (parseHeaderLines more request).rawRequest = request.rawRequest := by
  induction more with
  | nil => intro request; exact ⟨rfl, rfl, rfl⟩
  | cons line more ih =>
      intro request
      simp only [parseHeaderLines]
      split
      · exact ⟨rfl, rfl, rfl⟩
      · split
        · exact ⟨rfl, rfl, rfl⟩
        · have further := ih (parseHeaderLine (dropCarriageReturn line) request).2
          simp only [parseHeaderLine] at further ⊢
          split at further <;> simpa using further

/-- The head is good exactly if the request stays valid; the body is not
touched. -/
theorem parseHead_spec (head : List Text) (request : Request)
    (valid : request.isValid = true) :
    (parseHead head request).2.isValid = (parseHead head request).1 ∧
      (parseHead head request).2.body = request.body ∧
      (parseHead head request).2.rawRequest = request.rawRequest := by
  cases head with
  | nil => exact ⟨rfl, rfl, rfl⟩
  | cons line more =>
      rcases parseRequestLine_cases (dropCarriageReturn line) with
        rejected | ⟨method, url, _, _, stored⟩
      · simp only [parseHead, rejected, and_self]
      · simp only [parseHead, stored]
        exact ⟨(parseHeaderLines_keeps more _).1.trans valid,
          (parseHeaderLines_keeps more _).2⟩

def parsed (buffer : Text) : Request := (parse buffer Request.fresh).2

def isComplete (buffer : Text) : Bool := (parse buffer Request.fresh).1

theorem isComplete_iff (buffer : Text) :
    isComplete buffer = true ↔
      ∃ headerEnd, find headerTerminator buffer = some headerEnd :=
  parse_complete_iff buffer Request.fresh

/-- The request the head lines are read into, up to `raw_request`. -/
def started : Request := ⟨true, [], [], [], [], [], []⟩

theorem parsed_eq (buffer : Text) (headerEnd : Nat)
    (found : find headerTerminator buffer = some headerEnd) :
    parsed buffer =
      { (parseHead (headLines buffer headerEnd) started).2 with
        rawRequest := buffer
        body :=
          if (parseHead (headLines buffer headerEnd) started).1 then
            buffer.drop (headerEnd + 4)
          else [] } := by
  obtain ⟨_, body, _⟩ := parseHead_spec (headLines buffer headerEnd) started rfl
  have raw := parseHead_raw buffer (headLines buffer headerEnd) started
  have begin : ({ Request.fresh with isValid := true, rawRequest := buffer } : Request) =
      { started with rawRequest := buffer } := rfl
  rw [parsed, parse_found buffer headerEnd _ found, begin, raw]
  generalize parseHead (headLines buffer headerEnd) started = result at body
  obtain ⟨good, request⟩ := result
  have noBody : request.body = [] := body
  cases good with
  | false => simp [noBody]
  | true =>
      simp only [if_true]
      split
      · rfl
      · have nothing : buffer.drop (headerEnd + 4) = [] := by
          rw [List.drop_eq_nil_iff]
          omega
        simp [nothing, noBody]

theorem parsed_rawRequest (buffer : Text) (complete : isComplete buffer = true) :
    (parsed buffer).rawRequest = buffer := by
  obtain ⟨headerEnd, found⟩ := (isComplete_iff buffer).mp complete
  rw [parsed_eq buffer headerEnd found]

theorem headLines_append (buffer more : Text) (headerEnd : Nat)
    (found : find headerTerminator buffer = some headerEnd) :
    headLines (buffer ++ more) headerEnd = headLines buffer headerEnd := by
  have bound : headerEnd + 4 ≤ buffer.length := find_bound _ _ _ found
  rw [headLines, headLines, List.take_append_of_le_length (by omega)]

/-- What arrives behind a complete head does not change how the head is
interpreted, and belongs to the body. -/
theorem parse_append (buffer more : Text) (complete : isComplete buffer = true) :
    isComplete (buffer ++ more) = true ∧
      parsed (buffer ++ more) =
        { parsed buffer with
          rawRequest := buffer ++ more
          body :=
            if (parsed buffer).isValid then (parsed buffer).body ++ more else [] } := by
  obtain ⟨headerEnd, found⟩ := (isComplete_iff buffer).mp complete
  have foundLonger := find_append headerTerminator buffer more headerEnd found
  have bound : headerEnd + 4 ≤ buffer.length := find_bound _ _ _ found
  refine ⟨(isComplete_iff _).mpr ⟨headerEnd, foundLonger⟩, ?_⟩
  rw [parsed_eq _ _ foundLonger, parsed_eq _ _ found,
    headLines_append buffer more headerEnd found]
  obtain ⟨valid, _⟩ := parseHead_spec (headLines buffer headerEnd) started rfl
  simp only [valid]
  cases (parseHead (headLines buffer headerEnd) started).1 with
  | false => simp
  | true => simp [List.drop_append_of_le_length bound]

end BathroomRatings.Http.RequestParser
