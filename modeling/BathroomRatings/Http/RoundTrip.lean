import BathroomRatings.Http.HeaderSection
import BathroomRatings.Http.Session
import BathroomRatings.Lib.Framing

/-!
# Round trips

Both directions of the wire: a request as a client writes it is parsed to its parts,
and the bytes of a response are taken apart into its status, headers and body.  Both
messages are heads of lines with a body behind them.
-/

set_option autoImplicit false

namespace BathroomRatings.Http

open RequestParser BathroomRatings.Lib.Decimal BathroomRatings.Lib.Framing
open BathroomRatings.Lib.Strings

/-! ## Requests -/

structure ClientHeader where
  name : Text
  value : Text
  nameFree : ':' ∉ name ∧ '\r' ∉ name ∧ '\n' ∉ name
  valueFree : '\r' ∉ value ∧ '\n' ∉ value
  noLeading : ∀ c, value.head? = some c → isBlank c = false
  noTrailing : ∀ c, value.getLast? = some c → isBlank c = false

structure ClientRequest where
  method : Text
  url : Text
  headers : List ClientHeader
  body : Text
  allowed : method ∈ allowedMethods
  rooted : url.head? = some '/'
  noSpace : ∀ c ∈ url, isSpace c = false

def ClientHeader.line (header : ClientHeader) : Text :=
  header.name ++ ':' :: ' ' :: header.value

def ClientHeader.stored (header : ClientHeader) : Text :=
  header.name ++ ": ".toList ++ header.value

def ClientRequest.requestLine (request : ClientRequest) : Text :=
  request.method ++ ' ' :: request.url ++ " HTTP/1.1".toList

def ClientRequest.text (request : ClientRequest) : Text :=
  request.requestLine ++ crlf ++
    request.headers.flatMap (fun header => header.line ++ crlf) ++ crlf ++ request.body

theorem nextWord_space {c : Char} (rest : Text) (space : isSpace c = true) :
    nextWord (c :: rest) = nextWord rest := by
  simp [nextWord, space]

theorem nextWord_word (word rest : Text) (nonempty : word ≠ [])
    (free : ∀ c ∈ word, isSpace c = false)
    (ends : ∀ c, rest.head? = some c → isSpace c = true) :
    nextWord (word ++ rest) = some (word, rest) := by
  obtain ⟨first, others, rfl⟩ := List.exists_cons_of_ne_nil nonempty
  have solid : ∀ c ∈ first :: others, (!isSpace c) = true := by
    intro c member
    simp [free c member]
  have here : (first :: others ++ rest).dropWhile isSpace = first :: others ++ rest := by
    simp [free first List.mem_cons_self]
  have taken : rest.takeWhile (fun c => !isSpace c) = [] := by
    cases rest with
    | nil => rfl
    | cons c rest => simp [ends c rfl]
  have dropped : rest.dropWhile (fun c => !isSpace c) = rest := by
    cases rest with
    | nil => rfl
    | cons c rest => simp [ends c rfl]
  have front : (first :: others ++ rest).takeWhile (fun c => !isSpace c) =
      first :: others := by
    rw [List.takeWhile_append_of_pos solid, taken, List.append_nil]
  have back : (first :: others ++ rest).dropWhile (fun c => !isSpace c) = rest := by
    rw [List.dropWhile_append_of_pos solid, dropped]
  rw [nextWord, here]
  exact congrArg some (Prod.ext front back)

theorem threeWords_of_nextWord {line afterMethod afterUrl rest : Text}
    {method url httpVersion : Text} (first : nextWord line = some (method, afterMethod))
    (second : nextWord afterMethod = some (url, afterUrl))
    (third : nextWord afterUrl = some (httpVersion, rest)) :
    threeWords line = some (method, url, httpVersion) := by
  simp [threeWords, first, second, third]

theorem allowed_word {method : Text} (allowed : method ∈ allowedMethods) :
    method ≠ [] ∧ ∀ c ∈ method, isSpace c = false := by
  have words : ∀ word ∈ allowedMethods, word ≠ [] ∧ word.all (fun c => !isSpace c) = true := by
    decide
  obtain ⟨nonempty, all⟩ := words method allowed
  exact ⟨nonempty, by simpa using all⟩

theorem isLine_of_noSpace {word : Text} (free : ∀ c ∈ word, isSpace c = false) :
    '\r' ∉ word ∧ '\n' ∉ word :=
  ⟨fun member => absurd (free _ member) (by decide),
    fun member => absurd (free _ member) (by decide)⟩

namespace ClientRequest

variable (request : ClientRequest)

theorem url_ne_nil : request.url ≠ [] := by
  intro empty
  have rooted := request.rooted
  simp [empty] at rooted

theorem threeWords_requestLine :
    threeWords request.requestLine =
      some (request.method, request.url, "HTTP/1.1".toList) := by
  obtain ⟨nonempty, solid⟩ := allowed_word request.allowed
  have first : nextWord request.requestLine =
      some (request.method, ' ' :: request.url ++ " HTTP/1.1".toList) := by
    rw [requestLine, List.append_assoc]
    exact nextWord_word _ _ nonempty solid (by simp [isSpace])
  have second : nextWord (' ' :: request.url ++ " HTTP/1.1".toList) =
      some (request.url, " HTTP/1.1".toList) := by
    have space : isSpace ' ' = true := rfl
    rw [List.cons_append, nextWord_space _ space]
    exact nextWord_word _ _ request.url_ne_nil request.noSpace (by simp [isSpace])
  have third : nextWord " HTTP/1.1".toList = some ("HTTP/1.1".toList, []) := by decide
  exact threeWords_of_nextWord first second third

theorem parseRequestLine_requestLine (stored : Request) :
    parseRequestLine request.requestLine stored =
      (true, { stored with
        method := request.method, url := request.url, httpVersion := "1.1".toList }) := by
  simp [parseRequestLine, request.threeWords_requestLine, request.allowed, request.rooted]

theorem requestLine_isLine : IsLine '\r' '\n' request.requestLine := by
  obtain ⟨nonempty, solid⟩ := allowed_word request.allowed
  obtain ⟨methodReturn, methodFeed⟩ := isLine_of_noSpace solid
  obtain ⟨urlReturn, urlFeed⟩ := isLine_of_noSpace request.noSpace
  exact
    { nonempty := by simp [requestLine]
      noReturn := by simp [requestLine, methodReturn, urlReturn]
      noFeed := by simp [requestLine, methodFeed, urlFeed] }

end ClientRequest

namespace ClientHeader

variable (header : ClientHeader)

theorem line_isLine : IsLine '\r' '\n' header.line :=
  { nonempty := by simp [line]
    noReturn := by simp [line, header.nameFree, header.valueFree]
    noFeed := by simp [line, header.nameFree, header.valueFree] }

theorem value_trimmed :
    ((' ' :: header.value).dropWhile isBlank).rdropWhile isBlank = header.value := by
  have start : (' ' :: header.value).dropWhile isBlank = header.value := by
    have leading := header.noLeading
    cases written : header.value with
    | nil => rfl
    | cons c rest =>
        rw [written] at leading
        have blank : isBlank ' ' = true := rfl
        have solid := leading c rfl
        simp [blank, solid]
  rw [start, List.rdropWhile_eq_self_iff]
  intro nonempty
  have trailing := header.noTrailing _ (List.getLast?_eq_some_getLast nonempty)
  simp [trailing]

theorem normalised_line : normalised header.line = some header.stored := by
  have colon : find [':'] header.line = some header.name.length := by
    have here : find [':'] (':' :: ' ' :: header.value) = some 0 :=
      (find_eq_zero_iff _ _).mpr ⟨_, rfl⟩
    rw [line, find_skip _ _ _ _ header.nameFree.1, here]
    simp
  have front : header.line.take header.name.length = header.name := List.take_left
  have back : header.line.drop (header.name.length + 1) = ' ' :: header.value := by
    rw [← List.drop_drop, line, List.drop_left]
    rfl
  rw [normalised, colon, Option.map_some, front, back, header.value_trimmed]
  rfl

end ClientHeader

theorem headLines_framed (first : Text) (more : List Text) (body : Text)
    (shape : ∀ line ∈ first :: more, IsLine '\r' '\n' line) :
    headLines (framed '\r' '\n' first more body) (joined '\r' '\n' first more).length =
      (first :: more).map fun line => line ++ ['\r'] := by
  have found := find_framed (by decide) first more body shape
  have front : (framed '\r' '\n' first more body).take
      (joined '\r' '\n' first more).length = joined '\r' '\n' first more := by
    rw [framed_eq, List.append_assoc, List.take_left]
  rw [headLines, take_terminator _ _ found, front, joined_append,
    lines_ended (by decide) _ shape]

theorem not_stopLine_ended {line : Text} (nonempty : line ≠ []) :
    ¬ StopLine (line ++ ['\r']) := by
  simp [StopLine, nonempty]

theorem offered_ended (all : List Text) (nonempty : ∀ line ∈ all, line ≠ []) :
    offered (all.map fun line => line ++ ['\r']) = all := by
  have goes : ∀ line ∈ all.map (fun line => line ++ ['\r']), ¬ StopLine line := by
    intro line member
    obtain ⟨before, present, rfl⟩ := List.mem_map.mp member
    exact not_stopLine_ended (nonempty before present)
  rw [(offered_all_iff _).mpr goes, List.map_map]
  simp [Function.comp_def]

theorem ClientRequest.text_framed (request : ClientRequest) :
    request.text = framed '\r' '\n' request.requestLine
      (request.headers.map ClientHeader.line) request.body := by
  simp [text, framed, crlf, List.flatMap_map]

theorem ClientRequest.isLine_of_mem (request : ClientRequest) :
    ∀ line ∈ request.requestLine :: request.headers.map ClientHeader.line,
      IsLine '\r' '\n' line := by
  intro line member
  rcases List.mem_cons.mp member with rfl | inHeaders
  · exact request.requestLine_isLine
  · obtain ⟨header, _, rfl⟩ := List.mem_map.mp inHeaders
    exact header.line_isLine

def ClientRequest.received (request : ClientRequest) : Request where
  isValid := true
  rawRequest := request.text
  method := request.method
  url := request.url
  httpVersion := "1.1".toList
  headers := request.headers.map ClientHeader.stored
  body := request.body

theorem ClientRequest.parseHead_lines (request : ClientRequest) :
    parseHead ((request.requestLine :: request.headers.map ClientHeader.line).map
        fun line => line ++ ['\r']) started =
      (true, { started with
        method := request.method, url := request.url, httpVersion := "1.1".toList,
        headers := request.headers.map ClientHeader.stored }) := by
  have nonempty : ∀ line ∈ request.headers.map ClientHeader.line, line ≠ [] := by
    intro line member
    exact (request.isLine_of_mem line (List.mem_cons_of_mem _ member)).nonempty
  have normal : (request.headers.map ClientHeader.line).filterMap normalised =
      request.headers.map ClientHeader.stored := by
    rw [List.filterMap_map, ← List.filterMap_eq_map]
    congr 1
    funext header
    exact header.normalised_line
  rw [List.map_cons, parseHead, dropCarriageReturn_ended,
    request.parseRequestLine_requestLine]
  simp only [parseHeaderLines_eq, offered_ended _ nonempty, normal]
  rfl

/-- Parsing undoes writing. -/
theorem parse_client_request (request : ClientRequest) :
    parse request.text Request.fresh = (true, request.received) := by
  have shape := request.isLine_of_mem
  have found : find headerTerminator request.text =
      some (joined '\r' '\n' request.requestLine
        (request.headers.map ClientHeader.line)).length := by
    rw [request.text_framed]
    exact find_framed (by decide) _ _ _ shape
  have complete : isComplete request.text = true := (isComplete_iff _).mpr ⟨_, found⟩
  have head := headLines_framed _ _ request.body shape
  rw [← request.text_framed] at head
  have body : request.text.drop ((joined '\r' '\n' request.requestLine
      (request.headers.map ClientHeader.line)).length + 4) = request.body := by
    rw [request.text_framed, framed_eq]
    exact List.drop_left' (by simp)
  have stored := parsed_eq request.text _ found
  rw [head, request.parseHead_lines, body] at stored
  exact Prod.ext complete stored

/-- A header with an empty name and a colon in its value, and a body that begins with
another CRLFCRLF. -/
example :
    parse "GET / HTTP/1.1\r\n: a:b\r\n\r\n\r\n\r\n".toList Request.fresh =
      (true,
        { isValid := true
          rawRequest := "GET / HTTP/1.1\r\n: a:b\r\n\r\n\r\n\r\n".toList
          method := "GET".toList
          url := "/".toList
          httpVersion := "1.1".toList
          headers := [": a:b".toList]
          body := "\r\n\r\n".toList }) := by
  decide

/-! ## Responses -/

structure DecodedResponse where
  statusLine : Text
  headers : List Text
  body : Text

/-- What a client does with the bytes it has received. -/
def decodeResponse (bytes : Text) : Option DecodedResponse :=
  match unframed '\r' '\n' bytes with
  | some (statusLine :: headers, body) => some ⟨statusLine, headers, body⟩
  | _ => none

def headerValues (name : Text) (headers : List Text) : List Text :=
  headers.filterMap fun header =>
    if name ++ ": ".toList <+: header then some (header.drop (name.length + 2)) else none

def BreakFree (text : Text) : Prop := '\r' ∉ text ∧ '\n' ∉ text

/-- A response of `ResponseBuilder`, all of whose builders are `FormatResponse` with a
status text and a content type. -/
inductive Built : Response → Prop
  | formatted (statusCode contentType body : Text) (statusFree : BreakFree statusCode)
      (typeFree : BreakFree contentType) :
      Built (ResponseBuilder.formatResponse statusCode contentType body)

def sentResponse (result : Option Response) : Response :=
  result.getD ResponseBuilder.defaultInternalServerError

theorem serializeResponse_eq (result : Option Response) :
    serializeResponse result = serializeSome (sentResponse result) := by
  cases result <;> rfl

theorem built_sentResponse (result : Option Response)
    (built : ∀ response, result = some response → Built response) :
    Built (sentResponse result) := by
  cases result with
  | none =>
      have statusFree : BreakFree "500 Internal Server Error".toList := by simp [BreakFree]
      have typeFree : BreakFree "text/plain".toList := by simp [BreakFree]
      have built : Built (ResponseBuilder.internalServerError
          "500 Internal Server Error".toList) := .formatted _ _ _ statusFree typeFree
      exact built
  | some response => exact built response rfl

theorem serializeSome_framed (response : Response) :
    serializeSome response =
      framed '\r' '\n' ("HTTP/1.1 ".toList ++ response.statusCode) response.headers
        response.body := rfl

theorem decimal_breakFree (value : Int) : BreakFree (decimal value) :=
  ⟨not_mem_decimal rfl (by decide) value, not_mem_decimal rfl (by decide) value⟩

theorem Built.isLine {response : Response} (built : Built response) :
    ∀ line ∈ ("HTTP/1.1 ".toList ++ response.statusCode) :: response.headers,
      IsLine '\r' '\n' line := by
  obtain ⟨statusCode, contentType, body, ⟨statusReturn, statusFeed⟩,
    ⟨typeReturn, typeFeed⟩⟩ := built
  obtain ⟨lengthReturn, lengthFeed⟩ := decimal_breakFree body.length
  intro line member
  simp only [ResponseBuilder.formatResponse, List.mem_cons, List.not_mem_nil,
    or_false] at member
  rcases member with rfl | rfl | rfl | rfl
  · exact ⟨by simp, by simp [statusReturn], by simp [statusFeed]⟩
  · exact ⟨by simp, by simp [typeReturn], by simp [typeFeed]⟩
  · exact ⟨by simp, by simp [lengthReturn], by simp [lengthFeed]⟩
  · exact ⟨by simp, by decide, by decide⟩

theorem Built.decode {response : Response} (built : Built response) :
    decodeResponse (serializeSome response) =
      some ⟨"HTTP/1.1 ".toList ++ response.statusCode, response.headers,
        response.body⟩ := by
  rw [decodeResponse, serializeSome_framed,
    unframed_framed (by decide) _ _ _ built.isLine]

theorem Built.contentLength {response : Response} (built : Built response) :
    headerValues "Content-Length".toList response.headers =
      [decimal response.body.length] := by
  obtain ⟨statusCode, contentType, body, _, _⟩ := built
  have typeOther : ¬ "Content-Length".toList ++ ": ".toList <+:
      "Content-Type: ".toList ++ contentType := by simp
  have lengthHere : "Content-Length".toList ++ ": ".toList <+:
      "Content-Length: ".toList ++ decimal body.length := ⟨_, rfl⟩
  have closeOther : ¬ "Content-Length".toList ++ ": ".toList <+:
      "Connection: close".toList := by simp
  have value : ("Content-Length: ".toList ++ decimal body.length).drop
      ("Content-Length".toList.length + 2) = decimal body.length := List.drop_left' (by simp)
  simp only [headerValues, ResponseBuilder.formatResponse, List.filterMap_cons,
    List.filterMap_nil, if_neg typeOther, if_pos lengthHere, if_neg closeOther, value]

/-- A built response is determined by what a client decodes of it. -/
theorem Built.eq_of_parts {first second : Response} (firstBuilt : Built first)
    (secondBuilt : Built second) (status : first.statusCode = second.statusCode)
    (headers : first.headers = second.headers) (body : first.body = second.body) :
    first = second := by
  obtain ⟨statusCode, contentType, data, _, _⟩ := firstBuilt
  obtain ⟨otherStatus, otherType, otherData, _, _⟩ := secondBuilt
  have sameStatus : statusCode = otherStatus := status
  have sameData : data = otherData := body
  have typeHeader := (List.cons.inj headers).1
  have sameType : contentType = otherType := List.append_cancel_left typeHeader
  rw [sameStatus, sameType, sameData]

/-- The bytes of a response decode to its status, its headers and its body, whatever
the body is, and one `Content-Length` header tells the length of the body. -/
theorem serializeResponse_decodes (result : Option Response)
    (built : ∀ response, result = some response → Built response) :
    decodeResponse (serializeResponse result) =
        some ⟨"HTTP/1.1 ".toList ++ (sentResponse result).statusCode,
          (sentResponse result).headers, (sentResponse result).body⟩ ∧
      (∃ value,
        headerValues "Content-Length".toList (sentResponse result).headers = [value] ∧
          value ≠ [] ∧ (∀ c ∈ value, c.isDigit = true) ∧
          digitsValue value = (sentResponse result).body.length) ∧
      ∀ other : Option Response,
        (∀ response, other = some response → Built response) →
        serializeResponse other = serializeResponse result →
        sentResponse other = sentResponse result := by
  have sent := built_sentResponse result built
  have decoded := sent.decode
  refine ⟨by rw [serializeResponse_eq, decoded], ⟨_, sent.contentLength,
    decimal_ne_nil _, decimal_digits (by omega), ?_⟩, ?_⟩
  · exact_mod_cast digitsValue_decimal
      (show (0 : Int) ≤ (sentResponse result).body.length by omega)
  · intro other otherBuilt same
    have otherSent := built_sentResponse other otherBuilt
    have otherDecoded := otherSent.decode
    rw [← serializeResponse_eq, same, serializeResponse_eq, decoded, Option.some.injEq,
      DecodedResponse.mk.injEq] at otherDecoded
    obtain ⟨statusLine, headers, body⟩ := otherDecoded
    exact otherSent.eq_of_parts sent (List.append_cancel_left statusLine).symm headers.symm
      body.symm

theorem serializeResponse_decodes_blank_lines :
    decodeResponse (serializeResponse
        (some (ResponseBuilder.ok "a\r\n\r\nb".toList "text/plain".toList))) =
      some ⟨"HTTP/1.1 ".toList ++ "200 OK".toList,
        (ResponseBuilder.ok "a\r\n\r\nb".toList "text/plain".toList).headers,
        "a\r\n\r\nb".toList⟩ := by
  refine (serializeResponse_decodes _ ?_).1
  intro response same
  rw [Option.some.injEq] at same
  rw [← same]
  exact .formatted _ _ _ (by simp [BreakFree]) (by simp [BreakFree])

end BathroomRatings.Http
