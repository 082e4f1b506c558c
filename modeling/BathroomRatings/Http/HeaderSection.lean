import BathroomRatings.Http.RequestParser

/-!
# The header section

The line loop of `Parse` stops at a blank line; the body starts behind the first
CRLFCRLF.  `offered` and `loopReads` say what the loop does with the lines it is
given.  The two ends of the section coincide exactly if no line in front of the
CRLFCRLF is blank.
-/

set_option autoImplicit false

namespace BathroomRatings.Http.RequestParser

open BathroomRatings.Lib.Strings

/-- The lines the loop hands to `ParseHeaderLine`. -/
def offered : List Text → List Text
  | [] => []
  | line :: more =>
      if line = ['\r'] then []
      else if dropCarriageReturn line = [] then []
      else dropCarriageReturn line :: offered more

/-- The lines the loop takes from the stream, the one that stops it included. -/
def loopReads : List Text → List Text
  | [] => []
  | line :: more =>
      if line = ['\r'] then [line]
      else if dropCarriageReturn line = [] then [line]
      else line :: loopReads more

def normalised (line : Text) : Option Text :=
  (find [':'] line).map fun colon =>
    line.take colon ++ ": ".toList ++
      ((line.drop (colon + 1)).dropWhile isBlank).rdropWhile isBlank

def StopLine (line : Text) : Prop := line = [] ∨ line = ['\r']

theorem dropCarriageReturn_eq_nil_iff (line : Text) :
    dropCarriageReturn line = [] ↔ StopLine line := by
  unfold dropCarriageReturn StopLine
  split
  · rename_i ends
    obtain ⟨before, rfl⟩ := List.getLast?_eq_some_iff.mp ends
    simp
  · rename_i ends
    constructor
    · exact Or.inl
    · intro blank
      rcases blank with empty | lone
      · exact empty
      · exact absurd (by simp [lone]) ends

@[simp] theorem dropCarriageReturn_ended (line : Text) :
    dropCarriageReturn (line ++ ['\r']) = line := by
  simp [dropCarriageReturn]

theorem offered_stop {line : Text} (more : List Text) (stop : StopLine line) :
    offered (line :: more) = [] := by
  have blank := (dropCarriageReturn_eq_nil_iff line).mpr stop
  simp [offered, blank]

theorem offered_go {line : Text} (more : List Text) (goes : ¬ StopLine line) :
    offered (line :: more) = dropCarriageReturn line :: offered more := by
  have blank := mt (dropCarriageReturn_eq_nil_iff line).mp goes
  have lone : line ≠ ['\r'] := fun same => goes (Or.inr same)
  simp [offered, blank, lone]

theorem loopReads_stop {line : Text} (more : List Text) (stop : StopLine line) :
    loopReads (line :: more) = [line] := by
  have blank := (dropCarriageReturn_eq_nil_iff line).mpr stop
  simp [loopReads, blank]

theorem loopReads_go {line : Text} (more : List Text) (goes : ¬ StopLine line) :
    loopReads (line :: more) = line :: loopReads more := by
  have blank := mt (dropCarriageReturn_eq_nil_iff line).mp goes
  have lone : line ≠ ['\r'] := fun same => goes (Or.inr same)
  simp [loopReads, blank, lone]

theorem parseHeaderLine_eq (line : Text) (request : Request) :
    (parseHeaderLine line request).2 =
      { request with headers := request.headers ++ (normalised line).toList } := by
  unfold parseHeaderLine normalised
  cases find [':'] line with
  | none => simp
  | some colon => rfl

theorem parseHeaderLines_eq (headerLines : List Text) : ∀ request : Request,
    parseHeaderLines headerLines request =
      { request with
        headers := request.headers ++ (offered headerLines).filterMap normalised } := by
  induction headerLines with
  | nil => intro request; simp [parseHeaderLines, offered]
  | cons line more ih =>
      intro request
      by_cases stop : StopLine line
      · have blank := (dropCarriageReturn_eq_nil_iff line).mpr stop
        simp [parseHeaderLines, blank, offered_stop more stop]
      · have blank := mt (dropCarriageReturn_eq_nil_iff line).mp stop
        have lone : line ≠ ['\r'] := fun same => stop (Or.inr same)
        rw [offered_go more stop, parseHeaderLines, if_neg lone, if_neg blank, ih,
          parseHeaderLine_eq]
        cases stored : normalised (dropCarriageReturn line) with
        | none => simp [stored]
        | some header => simp [stored]

theorem offered_append (headerLines more : List Text) :
    offered (headerLines ++ ['\r'] :: more) = offered headerLines := by
  induction headerLines with
  | nil => exact offered_stop more (Or.inr rfl)
  | cons line rest ih =>
      rw [List.cons_append]
      by_cases stop : StopLine line
      · rw [offered_stop _ stop, offered_stop _ stop]
      · rw [offered_go _ stop, offered_go _ stop, ih]

/-- All lines of a section are offered if none of them stops the loop, and only
then. -/
theorem offered_all_iff (headerLines : List Text) :
    offered headerLines = headerLines.map dropCarriageReturn ↔
      ∀ line ∈ headerLines, ¬ StopLine line := by
  induction headerLines with
  | nil => simp [offered]
  | cons line rest ih =>
      by_cases stop : StopLine line
      · simp [offered_stop rest stop, stop]
      · simp [offered_go rest stop, stop, ih]

theorem loopReads_append (headerLines more : List Text)
    (goes : ∀ line ∈ headerLines, ¬ StopLine line) :
    loopReads (headerLines ++ ['\r'] :: more) = headerLines ++ [['\r']] := by
  induction headerLines with
  | nil => exact loopReads_stop more (Or.inr rfl)
  | cons line rest ih =>
      have first := goes line List.mem_cons_self
      have others := ih fun other member => goes other (List.mem_cons_of_mem _ member)
      rw [List.cons_append, loopReads_go _ first, others, List.cons_append]

/-! ## Both ends of the section -/

/-- All line reads: that of the request line, and those of the loop. -/
def lineReads (buffer : Text) : List Text :=
  (lines '\n' buffer).take 1 ++ loopReads (lines '\n' buffer).tail

/-- The position the line reads have reached, each having taken a line feed too. -/
def sectionEnd (buffer : Text) : Nat :=
  ((lineReads buffer).map fun line => line.length + 1).sum

/-- The loop reads the lines up to the CRLFCRLF at `headerEnd`, all of them, and the
headers and the body are what stands on either side. -/
structure SectionMatches (buffer : Text) (headerEnd : Nat) : Prop where
  ends : sectionEnd buffer = headerEnd + 4
  offers : offered (lines '\n' buffer).tail =
    (headLines buffer headerEnd).tail.map dropCarriageReturn
  headers : (parsed buffer).headers =
    ((headLines buffer headerEnd).tail.map dropCarriageReturn).filterMap normalised
  body : (parsed buffer).body = buffer.drop (headerEnd + 4)

section Found

variable (buffer : Text) (headerEnd : Nat)
  (found : find headerTerminator buffer = some headerEnd)
include found

theorem tail_lines : (lines '\n' buffer).tail =
    (headLines buffer headerEnd).tail ++
      ['\r'] :: lines '\n' (buffer.drop (headerEnd + 4)) := by
  rw [lines_head buffer headerEnd found,
    List.tail_append_of_ne_nil (headLines_ne_nil buffer headerEnd found)]

theorem parsed_valid (valid : (parsed buffer).isValid = true) :
    (parsed buffer).headers = (offered (headLines buffer headerEnd).tail).filterMap normalised ∧
      (parsed buffer).body = buffer.drop (headerEnd + 4) := by
  obtain ⟨good, _⟩ := parseHead_spec (headLines buffer headerEnd) started rfl
  rw [parsed_eq buffer headerEnd found] at valid ⊢
  rw [good] at valid
  refine ⟨?_, by simp [valid]⟩
  cases head : headLines buffer headerEnd with
  | nil => exact absurd head (headLines_ne_nil buffer headerEnd found)
  | cons line more =>
      rw [head] at valid
      rcases parseRequestLine_cases (dropCarriageReturn line) with
        rejected | ⟨method, url, _, _, stored⟩
      · simp [parseHead, rejected] at valid
      · simp [parseHead, stored, parseHeaderLines_eq, started]

theorem sectionEnd_of_goes
    (goes : ∀ line ∈ (headLines buffer headerEnd).tail, ¬ StopLine line) :
    sectionEnd buffer = headerEnd + 4 := by
  have nonempty := headLines_ne_nil buffer headerEnd found
  have reads : lineReads buffer = headLines buffer headerEnd ++ [['\r']] := by
    have first : (lines '\n' buffer).take 1 = (headLines buffer headerEnd).take 1 := by
      rw [lines_head buffer headerEnd found, List.take_append_of_le_length]
      exact List.length_pos_iff.mpr nonempty
    rw [lineReads, first, tail_lines buffer headerEnd found, loopReads_append _ _ goes,
      ← List.append_assoc, ← List.drop_one, List.take_append_drop]
  have bound := find_bound _ _ _ found
  have length : (buffer.take headerEnd).length = headerEnd := by
    rw [List.length_take]
    omega
  have front : buffer.take (headerEnd + 2) = (buffer.take headerEnd ++ ['\r']) ++ ['\n'] := by
    rw [take_terminator buffer headerEnd found]
    simp
  rw [sectionEnd, reads, List.map_append, List.sum_append, headLines, front, lines_length]
  simp [length]

theorem sectionMatches_iff (valid : (parsed buffer).isValid = true) :
    SectionMatches buffer headerEnd ↔
      ∀ line ∈ (headLines buffer headerEnd).tail, ¬ StopLine line := by
  obtain ⟨headers, body⟩ := parsed_valid buffer headerEnd found valid
  have loop : offered (lines '\n' buffer).tail = offered (headLines buffer headerEnd).tail := by
    rw [tail_lines buffer headerEnd found, offered_append]
  constructor
  · intro agrees
    exact (offered_all_iff _).mp (loop.symm.trans agrees.offers)
  · intro goes
    have all := (offered_all_iff _).mpr goes
    exact
      { ends := sectionEnd_of_goes buffer headerEnd found goes
        offers := loop.trans all
        headers := by rw [headers, all]
        body := body }

end Found

/-- The header section of a valid request ends where its body starts exactly if no
line behind the request line and in front of the first CRLFCRLF is blank. -/
theorem header_section_matches_iff (buffer : Text)
    (complete : (parse buffer Request.fresh).1 = true)
    (valid : (parse buffer Request.fresh).2.isValid = true) :
    ∃ headerEnd, find headerTerminator buffer = some headerEnd ∧
      (SectionMatches buffer headerEnd ↔
        ∀ line ∈ (headLines buffer headerEnd).tail, line ≠ [] ∧ line ≠ ['\r']) := by
  obtain ⟨headerEnd, found⟩ := (isComplete_iff buffer).mp complete
  refine ⟨headerEnd, found, ?_⟩
  rw [sectionMatches_iff buffer headerEnd found valid]
  simp only [StopLine, not_or]

theorem header_section_matches_iff_one_header :
    ∃ headerEnd,
      find headerTerminator "GET / HTTP/1.1\r\nA: 1\r\n\r\n".toList = some headerEnd ∧
      (SectionMatches "GET / HTTP/1.1\r\nA: 1\r\n\r\n".toList headerEnd ↔
        ∀ line ∈ (headLines "GET / HTTP/1.1\r\nA: 1\r\n\r\n".toList headerEnd).tail,
          line ≠ [] ∧ line ≠ ['\r']) :=
  header_section_matches_iff _ (by decide) (by decide)

/-- A bare line feed ends the headers, and the line behind it is lost. -/
theorem header_lost_behind_blank_line :
    ¬ ∀ buffer : Text, (parse buffer Request.fresh).1 = true →
      (parse buffer Request.fresh).2.isValid = true →
      ∃ headerEnd, find headerTerminator buffer = some headerEnd ∧
        SectionMatches buffer headerEnd := by
  intro stated
  obtain ⟨headerEnd, found, agrees⟩ :=
    stated "GET / HTTP/1.1\r\nA: 1\n\nB: 2\r\n\r\n".toList (by decide) (by decide)
  have position : headerEnd = 26 := by
    rw [show find headerTerminator _ = some 26 by decide] at found
    exact (Option.some.inj found).symm
  subst position
  exact absurd agrees.offers (by decide)

/-- More bytes behind a complete head change nothing but the body. -/
theorem parse_longer_buffer (buffer more : Text)
    (complete : (parse buffer Request.fresh).1 = true) :
    (parse (buffer ++ more) Request.fresh).1 = true ∧
      let first := (parse buffer Request.fresh).2
      let second := (parse (buffer ++ more) Request.fresh).2
      second.isValid = first.isValid ∧ second.method = first.method ∧
        second.url = first.url ∧ second.httpVersion = first.httpVersion ∧
        second.headers = first.headers ∧
        (first.isValid = true → second.body = first.body ++ more) := by
  obtain ⟨completeLonger, longer⟩ := parse_append buffer more complete
  refine ⟨completeLonger, ?_⟩
  simp only [parsed] at longer
  rw [longer]
  refine ⟨rfl, rfl, rfl, rfl, rfl, ?_⟩
  intro valid
  exact if_pos valid

theorem parse_longer_buffer_post :
    (parse ("POST /a HTTP/1.1\r\n\r\n1".toList ++ "2\r\n\r\n".toList) Request.fresh).1 = true ∧
      let first := (parse "POST /a HTTP/1.1\r\n\r\n1".toList Request.fresh).2
      let second :=
        (parse ("POST /a HTTP/1.1\r\n\r\n1".toList ++ "2\r\n\r\n".toList) Request.fresh).2
      second.isValid = first.isValid ∧ second.method = first.method ∧
        second.url = first.url ∧ second.httpVersion = first.httpVersion ∧
        second.headers = first.headers ∧
        (first.isValid = true → second.body = first.body ++ "2\r\n\r\n".toList) :=
  parse_longer_buffer _ _ (by decide)

end BathroomRatings.Http.RequestParser
