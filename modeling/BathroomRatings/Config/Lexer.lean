import BathroomRatings.Lib.Strings
import Mathlib.Data.List.Induction

/-!
# The configuration lexer

`NginxConfigParser::ParseToken` reads one token from the stream.  The stream is
the list of characters not yet read: `unget` puts back the character that was
read last, and reading past the end leaves the stream no longer good, which ends
the loop.  The two quote states of the source differ in their mark only.

`Reads` describes the same call without its states.  `parseToken_reads` and
`Reads.parseToken_eq` say that the two agree on every call that is not an error.
-/

set_option autoImplicit false

namespace BathroomRatings.Config.Lexer

open BathroomRatings.Lib.Strings

inductive TokenType where
  | start
  | normal
  | startBlock
  | endBlock
  | comment
  | statementEnd
  | eof
  | error
  | quotedString
  deriving DecidableEq, Repr

structure Token where
  type : TokenType
  value : Text
  deriving DecidableEq, Repr

inductive Quote where
  | single
  | double
  deriving DecidableEq, Repr

def Quote.mark : Quote → Char
  | .single => '\x27'
  | .double => '\x22'

inductive TokenParserState where
  | initialWhitespace
  | quote (kind : Quote)
  | comment
  | normal
  deriving DecidableEq, Repr

def isTokenDelimiter (c : Char) : Bool :=
  c == ' ' || c == '\t' || c == '\n' ||
    c == ';' || c == '\x7b' || c == '\x7d'

def isWhitespace (c : Char) : Bool :=
  c == ' ' || c == '\t' || c == '\n' || c == '\r'

/-- What `get` at the end of the input leaves in a `char`. -/
def endOfFile : Char := Char.ofNat 255

/-- The type returned behind the loop. -/
def endOfInput : TokenParserState → TokenType
  | .quote _ => .error
  | _ => .eof

def parseTokenLoop (state : TokenParserState) (value : Text) :
    Text → Token × Text
  | [] => (⟨endOfInput state, value⟩, [])
  | c :: rest =>
      match state with
      | .initialWhitespace =>
          if isWhitespace c then
            parseTokenLoop .initialWhitespace value rest
          else if c = '\x7b' then (⟨.startBlock, [c]⟩, rest)
          else if c = '\x7d' then (⟨.endBlock, [c]⟩, rest)
          else if c = '#' then parseTokenLoop .comment [c] rest
          else if c = '\x22' then parseTokenLoop (.quote .double) [c] rest
          else if c = '\x27' then parseTokenLoop (.quote .single) [c] rest
          else if c = ';' then (⟨.statementEnd, [c]⟩, rest)
          else parseTokenLoop .normal (value ++ [c]) rest
      | .quote kind =>
          if c = '\\' then
            match rest with
            | [] => (⟨endOfInput (.quote kind), value ++ [c, endOfFile]⟩, [])
            | next :: behind =>
                parseTokenLoop (.quote kind) (value ++ [c, next]) behind
          else if c = kind.mark then
            match rest with
            | [] => (⟨.error, value ++ [c]⟩, [])
            | next :: behind =>
                if isTokenDelimiter next then
                  (⟨.normal, value ++ [c]⟩, next :: behind)
                else (⟨.error, value ++ [c]⟩, behind)
          else parseTokenLoop (.quote kind) (value ++ [c]) rest
      | .comment =>
          if c = '\n' ∨ c = '\r' then (⟨.comment, value⟩, rest)
          else parseTokenLoop .comment (value ++ [c]) rest
      | .normal =>
          if isTokenDelimiter c then (⟨.normal, value⟩, c :: rest)
          else parseTokenLoop .normal (value ++ [c]) rest

def parseToken (input : Text) : Token × Text :=
  parseTokenLoop .initialWhitespace [] input

@[simp] theorem parseTokenLoop_nil (state : TokenParserState) (value : Text) :
    parseTokenLoop state value [] = (⟨endOfInput state, value⟩, []) := rfl

@[simp] theorem parseTokenLoop_initialWhitespace (value : Text) (c : Char) (rest : Text) :
    parseTokenLoop .initialWhitespace value (c :: rest) =
      if isWhitespace c then parseTokenLoop .initialWhitespace value rest
      else if c = '\x7b' then (⟨.startBlock, [c]⟩, rest)
      else if c = '\x7d' then (⟨.endBlock, [c]⟩, rest)
      else if c = '#' then parseTokenLoop .comment [c] rest
      else if c = '\x22' then parseTokenLoop (.quote .double) [c] rest
      else if c = '\x27' then parseTokenLoop (.quote .single) [c] rest
      else if c = ';' then (⟨.statementEnd, [c]⟩, rest)
      else parseTokenLoop .normal (value ++ [c]) rest := rfl

@[simp] theorem parseTokenLoop_comment (value : Text) (c : Char) (rest : Text) :
    parseTokenLoop .comment value (c :: rest) =
      if c = '\n' ∨ c = '\r' then (⟨.comment, value⟩, rest)
      else parseTokenLoop .comment (value ++ [c]) rest := rfl

@[simp] theorem parseTokenLoop_normal (value : Text) (c : Char) (rest : Text) :
    parseTokenLoop .normal value (c :: rest) =
      if isTokenDelimiter c then (⟨.normal, value⟩, c :: rest)
      else parseTokenLoop .normal (value ++ [c]) rest := rfl

theorem parseTokenLoop_quote (kind : Quote) (value : Text) (c : Char) (rest : Text) :
    parseTokenLoop (.quote kind) value (c :: rest) =
      if c = '\\' then
        match rest with
        | [] => (⟨endOfInput (.quote kind), value ++ [c, endOfFile]⟩, [])
        | next :: behind => parseTokenLoop (.quote kind) (value ++ [c, next]) behind
      else if c = kind.mark then
        match rest with
        | [] => (⟨.error, value ++ [c]⟩, [])
        | next :: behind =>
            if isTokenDelimiter next then (⟨.normal, value ++ [c]⟩, next :: behind)
            else (⟨.error, value ++ [c]⟩, behind)
      else parseTokenLoop (.quote kind) (value ++ [c]) rest := by
  cases rest <;> rfl

/-! ## What one call reads -/

/-- The part of a quoted string behind its opening mark. -/
inductive QuotedTail (kind : Quote) : Text → Prop where
  | close : QuotedTail kind [kind.mark]
  | escape (next : Char) {tail : Text} (more : QuotedTail kind tail) :
      QuotedTail kind ('\\' :: next :: tail)
  | char {c : Char} {tail : Text} (notEscape : c ≠ '\\')
      (notMark : c ≠ kind.mark) (more : QuotedTail kind tail) :
      QuotedTail kind (c :: tail)

def startsWord (c : Char) : Bool :=
  !isWhitespace c && !isTokenDelimiter c &&
    c != '#' && c != '\x22' && c != '\x27'

inductive Word : Text → Prop where
  | mk {c : Char} {tail : Text} (first : startsWord c)
      (free : ∀ d ∈ tail, isTokenDelimiter d = false) : Word (c :: tail)

/-- The values a `NORMAL` token can have. -/
inductive Lexeme : Text → Prop where
  | quoted (kind : Quote) {tail : Text} (closed : QuotedTail kind tail) :
      Lexeme (kind.mark :: tail)
  | word {text : Text} (bare : Word text) : Lexeme text

theorem Lexeme.length_pos {text : Text} (lexeme : Lexeme text) :
    0 < text.length := by
  cases lexeme with
  | quoted kind closed => simp
  | word bare => cases bare; simp

def LineFree (text : Text) : Prop := ∀ c ∈ text, c ≠ '\n' ∧ c ≠ '\r'

/-- `Reads input token rest`: one call on `input` returns `token` and leaves
`rest` on the stream.  What an erroneous call leaves is not described. -/
inductive Reads : Text → Token → Text → Prop where
  | blank {c : Char} {input rest : Text} {token : Token}
      (white : isWhitespace c) (reads : Reads input token rest) :
      Reads (c :: input) token rest
  | empty : Reads [] ⟨.eof, []⟩ []
  | startBlock (rest : Text) :
      Reads ('\x7b' :: rest) ⟨.startBlock, ['\x7b']⟩ rest
  | endBlock (rest : Text) : Reads ('\x7d' :: rest) ⟨.endBlock, ['\x7d']⟩ rest
  | statementEnd (rest : Text) : Reads (';' :: rest) ⟨.statementEnd, [';']⟩ rest
  | comment {text : Text} {c : Char} (rest : Text) (oneLine : LineFree text)
      (lineEnd : c = '\n' ∨ c = '\r') :
      Reads ('#' :: text ++ c :: rest) ⟨.comment, '#' :: text⟩ rest
  | openComment {text : Text} (oneLine : LineFree text) :
      Reads ('#' :: text) ⟨.eof, '#' :: text⟩ []
  | normal {text : Text} {c : Char} (rest : Text) (lexeme : Lexeme text)
      (delimiter : isTokenDelimiter c) :
      Reads (text ++ c :: rest) ⟨.normal, text⟩ (c :: rest)
  | openWord {text : Text} (bare : Word text) : Reads text ⟨.eof, text⟩ []
  | error (input value rest : Text) : Reads input ⟨.error, value⟩ rest

theorem normal_loop_word (value text rest : Text)
    (free : ∀ d ∈ text, isTokenDelimiter d = false) :
    parseTokenLoop .normal value (text ++ rest) = parseTokenLoop .normal (value ++ text) rest := by
  induction text generalizing value with
  | nil => simp
  | cons d text ih =>
      have here : isTokenDelimiter d = false := free d (by simp)
      have further := ih (value ++ [d])
        (fun e member => free e (List.mem_cons_of_mem _ member))
      simp [here, further]

theorem normal_loop_stops (value text : Text) (c : Char) (rest : Text)
    (free : ∀ d ∈ text, isTokenDelimiter d = false)
    (delimiter : isTokenDelimiter c) :
    parseTokenLoop .normal value (text ++ c :: rest) =
      (⟨.normal, value ++ text⟩, c :: rest) := by
  rw [normal_loop_word value text _ free]
  simp [delimiter]

theorem normal_loop_ends (value text : Text)
    (free : ∀ d ∈ text, isTokenDelimiter d = false) :
    parseTokenLoop .normal value text = (⟨.eof, value ++ text⟩, []) := by
  have word := normal_loop_word value text [] free
  rw [List.append_nil] at word
  rw [word]
  simp [endOfInput]

theorem comment_loop_line (value text rest : Text) (oneLine : LineFree text) :
    parseTokenLoop .comment value (text ++ rest) =
      parseTokenLoop .comment (value ++ text) rest := by
  induction text generalizing value with
  | nil => simp
  | cons d text ih =>
      have here := oneLine d (by simp)
      have further := ih (value ++ [d])
        (fun e member => oneLine e (List.mem_cons_of_mem _ member))
      simp [here, further]

theorem comment_loop_stops (value text : Text) (c : Char) (rest : Text)
    (oneLine : LineFree text) (lineEnd : c = '\n' ∨ c = '\r') :
    parseTokenLoop .comment value (text ++ c :: rest) =
      (⟨.comment, value ++ text⟩, rest) := by
  rw [comment_loop_line value text _ oneLine]
  simp [lineEnd]

theorem comment_loop_ends (value text : Text) (oneLine : LineFree text) :
    parseTokenLoop .comment value text = (⟨.eof, value ++ text⟩, []) := by
  have line := comment_loop_line value text [] oneLine
  rw [List.append_nil] at line
  rw [line]
  simp [endOfInput]

theorem quote_loop_char (kind : Quote) (value : Text) (c : Char) (rest : Text)
    (notEscape : c ≠ '\\') (notMark : c ≠ kind.mark) :
    parseTokenLoop (.quote kind) value (c :: rest) =
      parseTokenLoop (.quote kind) (value ++ [c]) rest := by
  rw [parseTokenLoop_quote, if_neg notEscape, if_neg notMark]

theorem quote_loop_closes (kind : Quote) (value : Text) {tail : Text}
    (c : Char) (rest : Text) (closed : QuotedTail kind tail)
    (delimiter : isTokenDelimiter c) :
    parseTokenLoop (.quote kind) value (tail ++ c :: rest) =
      (⟨.normal, value ++ tail⟩, c :: rest) := by
  induction closed generalizing value with
  | close =>
      have notEscape : kind.mark ≠ '\\' := by cases kind <;> decide
      simp [parseTokenLoop_quote, notEscape, delimiter]
  | escape next more ih => simp [parseTokenLoop_quote, ih]
  | char notEscape notMark more ih =>
      rw [List.cons_append, quote_loop_char kind value _ _ notEscape notMark, ih]
      simp

/-- A call inside quotes fails unless it reaches a closing mark that a
delimiter follows. -/
theorem quote_loop_cases (kind : Quote) : ∀ (input value : Text),
    (∃ failedValue rest,
      parseTokenLoop (.quote kind) value input = (⟨.error, failedValue⟩, rest)) ∨
    ∃ tail c rest, QuotedTail kind tail ∧ isTokenDelimiter c ∧
      input = tail ++ c :: rest := by
  intro input
  induction input using List.twoStepInduction with
  | nil => intro value; exact Or.inl ⟨value, [], rfl⟩
  | singleton c =>
      intro value
      left
      by_cases escape : c = '\\'
      · exact ⟨value ++ [c, endOfFile], [], by
          simp [parseTokenLoop_quote, escape, endOfInput]⟩
      · refine ⟨value ++ [c], [], ?_⟩
        by_cases mark : c = kind.mark
        · subst mark
          simp [parseTokenLoop_quote, escape]
        · simp [parseTokenLoop_quote, escape, mark, endOfInput]
  | cons_cons c next behind twoBack oneBack =>
      intro value
      by_cases escape : c = '\\'
      · subst escape
        rcases twoBack (value ++ ['\\', next]) with
          failed | ⟨tail, d, rest, closed, delimiter, split⟩
        · left
          simpa [parseTokenLoop_quote] using failed
        · exact Or.inr ⟨_, d, rest, .escape next closed, delimiter, by simp [split]⟩
      · by_cases mark : c = kind.mark
        · by_cases delimiter : isTokenDelimiter next
          · exact Or.inr ⟨[c], next, behind, mark ▸ .close, delimiter, rfl⟩
          · left
            exact ⟨value ++ [c], behind, by
              subst mark
              simp [parseTokenLoop_quote, escape, delimiter]⟩
        · rw [quote_loop_char kind value c _ escape mark]
          rcases oneBack next (value ++ [c]) with failed | ⟨tail, d, rest, closed, delimiter, split⟩
          · exact Or.inl failed
          · exact Or.inr ⟨_, d, rest, .char escape mark closed, delimiter, by simp [split]⟩

/-! ## The call and its description agree -/

theorem comment_loop_reads (text : Text) :
    Reads ('#' :: text) (parseTokenLoop .comment ['#'] text).1
      (parseTokenLoop .comment ['#'] text).2 := by
  rcases split_at_first (fun c => c = '\n' ∨ c = '\r') text with
    free | ⟨before, c, rest, split, lineEnd, free⟩
  · have oneLine : LineFree text := by simpa [LineFree] using free
    rw [comment_loop_ends _ _ oneLine]
    exact .openComment oneLine
  · have oneLine : LineFree before := by simpa [LineFree] using free
    have stop : c = '\n' ∨ c = '\r' := by simpa using lineEnd
    rw [split, comment_loop_stops _ _ _ _ oneLine stop]
    exact .comment rest oneLine stop

theorem normal_loop_reads (c : Char) (text : Text) (first : startsWord c) :
    Reads (c :: text) (parseTokenLoop .normal [c] text).1
      (parseTokenLoop .normal [c] text).2 := by
  rcases split_at_first isTokenDelimiter text with
    free | ⟨before, d, rest, split, delimiter, free⟩
  · rw [normal_loop_ends _ _ free]
    exact .openWord (.mk first free)
  · rw [split, normal_loop_stops _ _ _ _ free delimiter]
    exact .normal rest (.word (.mk first free)) delimiter

theorem quote_loop_reads (kind : Quote) (text : Text) :
    Reads (kind.mark :: text) (parseTokenLoop (.quote kind) [kind.mark] text).1
      (parseTokenLoop (.quote kind) [kind.mark] text).2 := by
  rcases quote_loop_cases kind text [kind.mark] with
    ⟨value, rest, failed⟩ | ⟨tail, c, rest, closed, delimiter, split⟩
  · rw [failed]
    exact .error _ value rest
  · rw [split, quote_loop_closes kind _ c rest closed delimiter]
    exact .normal rest (.quoted kind closed) delimiter

theorem parseToken_reads (input : Text) :
    Reads input (parseToken input).1 (parseToken input).2 := by
  induction input with
  | nil => exact .empty
  | cons c rest ih =>
      by_cases white : isWhitespace c
      · have skip : parseToken (c :: rest) = parseToken rest := by
          simp [parseToken, white]
        rw [skip]
        exact .blank white ih
      · simp only [parseToken, parseTokenLoop_initialWhitespace, white, Bool.false_eq_true,
          if_false]
        split_ifs with openBrace closeBrace hash doubleMark singleMark semicolon
        · exact openBrace ▸ .startBlock rest
        · exact closeBrace ▸ .endBlock rest
        · exact hash ▸ comment_loop_reads rest
        · exact doubleMark ▸ quote_loop_reads .double rest
        · exact singleMark ▸ quote_loop_reads .single rest
        · exact semicolon ▸ .statementEnd rest
        · apply normal_loop_reads
          simp only [isWhitespace, Bool.or_eq_true, beq_iff_eq, not_or] at white
          simp [startsWord, isWhitespace, isTokenDelimiter, openBrace, closeBrace,
            hash, doubleMark, singleMark, semicolon, white]

theorem startsWord_spec {c : Char} (first : startsWord c) :
    isWhitespace c = false ∧ isTokenDelimiter c = false ∧
      c ≠ '#' ∧ c ≠ '\x22' ∧ c ≠ '\x27' := by
  simpa [startsWord, and_assoc] using first

theorem parseToken_word (c : Char) (rest : Text) (first : startsWord c) :
    parseToken (c :: rest) = parseTokenLoop .normal [c] rest := by
  obtain ⟨notWhite, notDelimiter, hash, doubleMark, singleMark⟩ :=
    startsWord_spec first
  simp only [isTokenDelimiter, Bool.or_eq_false_iff, beq_eq_false_iff_ne]
    at notDelimiter
  simp [parseToken, notWhite, notDelimiter, hash, doubleMark,
    singleMark]

theorem parseToken_mark (kind : Quote) (rest : Text) :
    parseToken (kind.mark :: rest) =
      parseTokenLoop (.quote kind) [kind.mark] rest := by
  cases kind <;> simp [parseToken, Quote.mark, isWhitespace]

theorem parseToken_hash (rest : Text) :
    parseToken ('#' :: rest) = parseTokenLoop .comment ['#'] rest := by
  simp [parseToken, isWhitespace]

theorem Reads.parseToken_eq {input rest : Text} {token : Token}
    (reads : Reads input token rest) (fine : token.type ≠ .error) :
    parseToken input = (token, rest) := by
  induction reads with
  | blank white reads ih =>
      rw [← ih fine]
      simp [parseToken, white]
  | empty => rfl
  | startBlock rest | endBlock rest | statementEnd rest =>
      simp [parseToken, isWhitespace]
  | comment rest oneLine lineEnd =>
      rw [List.cons_append, parseToken_hash, comment_loop_stops _ _ _ _ oneLine lineEnd]
      rfl
  | openComment oneLine =>
      rw [parseToken_hash, comment_loop_ends _ _ oneLine]
      rfl
  | normal rest lexeme delimiter =>
      cases lexeme with
      | quoted kind closed =>
          rw [List.cons_append, parseToken_mark,
            quote_loop_closes kind _ _ _ closed delimiter]
          rfl
      | word bare =>
          cases bare with
          | mk first free =>
              rw [List.cons_append, parseToken_word _ _ first,
                normal_loop_stops _ _ _ _ free delimiter]
              rfl
  | openWord bare =>
      cases bare with
      | mk first free =>
          rw [parseToken_word _ _ first, normal_loop_ends _ _ free]
          rfl
  | error input value rest => exact absurd rfl fine

theorem Reads.eof_rest {input rest : Text} {token : Token}
    (reads : Reads input token rest) (eof : token.type = .eof) : rest = [] := by
  induction reads with
  | blank white reads ih => exact ih eof
  | empty | openComment _ | openWord _ => rfl
  | startBlock | endBlock | statementEnd | comment | normal | error => simp at eof

/-- Every call that neither fails nor meets the end of the input consumes at
least one character net of `unget`. -/
theorem Reads.progress {input rest : Text} {token : Token}
    (reads : Reads input token rest) (notError : token.type ≠ .error)
    (notEof : token.type ≠ .eof) : rest.length < input.length := by
  induction reads with
  | blank white reads ih =>
      have further := ih notError notEof
      simp only [List.length_cons]
      omega
  | empty | openComment _ | openWord _ => exact absurd rfl notEof
  | startBlock rest | endBlock rest | statementEnd rest => simp
  | comment rest oneLine lineEnd =>
      simp only [List.length_append, List.length_cons]
      omega
  | normal rest lexeme delimiter =>
      have nonempty := lexeme.length_pos
      simp only [List.length_append, List.length_cons]
      omega
  | error input value rest => exact absurd rfl notError

theorem parseToken_progress (input : Text)
    (notError : (parseToken input).1.type ≠ .error)
    (notEof : (parseToken input).1.type ≠ .eof) :
    (parseToken input).2.length < input.length :=
  (parseToken_reads input).progress notError notEof

end BathroomRatings.Config.Lexer
