import BathroomRatings.Config.Printer

/-!
# What an accepted text leaves out

`strip` deletes the comments and the unquoted white space of a text in one pass.
An accepted text and its tree written out agree behind `strip` except for a bare
word that the end of the input cuts off: `ParseToken` returns it as `EOF`, and
the parser looks at the type of that token only.
-/

set_option autoImplicit false

namespace BathroomRatings.Config

open Lexer

inductive ScanState where
  | between
  | word
  | quoted (kind : Quote)
  | escaped (kind : Quote)
  | comment
  deriving DecidableEq, Repr

def ScanState.advance (c : Char) : ScanState → ScanState
  | .between =>
      if isWhitespace c then .between
      else if c = '#' then .comment
      else if c = '\x22' then .quoted .double
      else if c = '\x27' then .quoted .single
      else if isTokenDelimiter c then .between
      else .word
  | .word => if isTokenDelimiter c then .between else .word
  | .quoted kind =>
      if c = '\\' then .escaped kind
      else if c = kind.mark then .between
      else .quoted kind
  | .escaped kind => .quoted kind
  | .comment => if c = '\n' ∨ c = '\r' then .between else .comment

def ScanState.keeps (c : Char) : ScanState → Bool
  | .between => !isWhitespace c && c != '#'
  | .word => !isWhitespace c
  | .quoted _ | .escaped _ => true
  | .comment => false

def scan (state : ScanState) (text : Text) : ScanState :=
  text.foldl (fun state c => state.advance c) state

def strip (state : ScanState) : Text → Text
  | [] => []
  | c :: rest =>
      if state.keeps c then c :: strip (state.advance c) rest
      else strip (state.advance c) rest

/-- The tokens of a tree in order, written out one after the other. -/
def writeOut (tree : NginxConfig) : Text :=
  (NginxConfig.flatten tree).flatMap fun token => token.value ++ [' ']

theorem scan_append (state : ScanState) (first second : Text) :
    scan state (first ++ second) = scan (scan state first) second := by
  simp [scan]

theorem scan_cons (state : ScanState) (c : Char) (rest : Text) :
    scan state (c :: rest) = scan (state.advance c) rest := rfl

theorem strip_append (state : ScanState) (first second : Text) :
    strip state (first ++ second) =
      strip state first ++ strip (scan state first) second := by
  induction first generalizing state with
  | nil => rfl
  | cons c first ih =>
      rw [List.cons_append, strip, strip, ih, scan_cons]
      split <;> rfl

theorem delimiter_spec {c : Char} (delimiter : isTokenDelimiter c) :
    c ≠ '#' ∧ c ≠ '\x22' ∧ c ≠ '\x27' := by
  simp only [isTokenDelimiter, Bool.or_eq_true, beq_iff_eq] at delimiter
  rcases delimiter with ((((rfl | rfl) | rfl) | rfl) | rfl) | rfl <;> decide

/-- Behind a delimiter it does not matter whether a word came before it. -/
theorem delimiter_ends {state : ScanState} (ended : state = .between ∨ state = .word)
    (c : Char) (rest : Text) (delimiter : isTokenDelimiter c) :
    strip state (c :: rest) = strip .between (c :: rest) ∧
      scan state (c :: rest) = scan .between (c :: rest) := by
  obtain ⟨hash, doubleMark, singleMark⟩ := delimiter_spec delimiter
  rcases ended with rfl | rfl
  · exact ⟨rfl, rfl⟩
  · have next : ScanState.advance c .between = .between := by
      simp [ScanState.advance, hash, doubleMark, singleMark, delimiter]
    simp [strip, scan_cons, ScanState.keeps, ScanState.advance, delimiter, hash,
      doubleMark, singleMark]

theorem scan_quoted (kind : Quote) {tail : Text} (closed : QuotedTail kind tail) :
    scan (.quoted kind) tail = .between := by
  have notEscape : kind.mark ≠ '\\' := by cases kind <;> decide
  induction closed with
  | close => simp [scan, ScanState.advance, notEscape]
  | escape next more ih => simpa [scan_cons, ScanState.advance] using ih
  | char plain notMark more ih =>
      simpa [scan_cons, ScanState.advance, plain, notMark] using ih

theorem advance_word {c : Char} (first : startsWord c) :
    ScanState.advance c .between = .word := by
  obtain ⟨notWhite, notDelimiter, hash, doubleMark, singleMark⟩ :=
    startsWord_spec first
  simp [ScanState.advance, notWhite, notDelimiter, hash, doubleMark, singleMark]

theorem scan_word {text : Text} (bare : Word text) : scan .between text = .word := by
  cases bare with
  | @mk c tail first free =>
      rw [scan_cons, advance_word first]
      induction tail with
      | nil => rfl
      | cons d tail ih =>
          have here : isTokenDelimiter d = false := free d (by simp)
          have stays : ScanState.advance d .word = .word := by
            simp [ScanState.advance, here]
          rw [scan_cons, stays]
          exact ih fun e member => free e (List.mem_cons_of_mem _ member)

theorem strip_word_nonempty {text : Text} (bare : Word text) :
    strip .between text ≠ [] := by
  cases bare with
  | mk first free =>
      obtain ⟨notWhite, _, hash, _, _⟩ := startsWord_spec first
      simp [strip, ScanState.keeps, notWhite, hash]

theorem scan_lexeme {text : Text} (lexeme : Lexeme text) :
    scan .between text = .between ∨ scan .between text = .word := by
  cases lexeme with
  | quoted kind closed =>
      left
      have opened : ScanState.advance kind.mark .between = .quoted kind := by
        cases kind <;> rfl
      rw [scan_cons, opened]
      exact scan_quoted kind closed
  | word bare => exact Or.inr (scan_word bare)

theorem comment_vanishes {text : Text} (oneLine : LineFree text) :
    scan .comment text = .comment ∧ strip .comment text = [] := by
  induction text with
  | nil => exact ⟨rfl, rfl⟩
  | cons c text ih =>
      have here := oneLine c (by simp)
      have stays : ScanState.advance c .comment = .comment := by
        simp [ScanState.advance, here]
      have further := ih fun d member => oneLine d (List.mem_cons_of_mem _ member)
      simpa [scan_cons, strip, ScanState.keeps, stays] using further

theorem hash_opens : ScanState.advance '#' .between = .comment := rfl

theorem strip_reads {input rest : Text} {token : Token}
    (reads : Reads input token rest) (fine : token.type ≠ .error) :
    strip .between input = strip .between token.value ++ strip .between rest := by
  induction reads with
  | blank white reads ih =>
      rw [← ih fine]
      simp [strip, ScanState.keeps, ScanState.advance, white]
  | empty => rfl
  | startBlock rest | endBlock rest | statementEnd rest => rfl
  | @comment text c rest oneLine lineEnd =>
      obtain ⟨stays, nothing⟩ := comment_vanishes oneLine
      have closed : ScanState.advance c .comment = .between := by
        simp [ScanState.advance, lineEnd]
      rw [strip_append]
      congr 1
      rw [scan_cons, hash_opens, stays, strip, closed]
      simp [ScanState.keeps]
  | openComment oneLine => simp [strip]
  | normal rest lexeme delimiter =>
      rw [strip_append, (delimiter_ends (scan_lexeme lexeme) _ _ delimiter).1]
  | openWord bare => simp [strip]
  | error input value rest => exact absurd rfl fine

theorem scan_reads {input rest : Text} {token : Token}
    (reads : Reads input token rest) (notError : token.type ≠ .error)
    (notEof : token.type ≠ .eof) : scan .between input = scan .between rest := by
  induction reads with
  | blank white reads ih =>
      rw [← ih notError notEof, scan_cons]
      simp [ScanState.advance, white]
  | empty | openComment _ | openWord _ => exact absurd rfl notEof
  | startBlock rest | endBlock rest | statementEnd rest => rfl
  | @comment text c rest oneLine lineEnd =>
      have closed : ScanState.advance c .comment = .between := by
        simp [ScanState.advance, lineEnd]
      have inside : scan .between ('#' :: text) = .comment := by
        rw [scan_cons, hash_opens, (comment_vanishes oneLine).1]
      rw [scan_append, inside, scan_cons, closed]
  | normal rest lexeme delimiter =>
      rw [scan_append, (delimiter_ends (scan_lexeme lexeme) _ _ delimiter).2]
  | error input value rest => exact absurd rfl notError

/-- The last call drops something exactly if the text ends inside a word. -/
theorem last_reads {input rest : Text} {token : Token}
    (reads : Reads input token rest) (eof : token.type = .eof) :
    strip .between token.value = [] ↔ scan .between input ≠ .word := by
  induction reads with
  | blank white reads ih =>
      rw [ih eof, scan_cons]
      simp [ScanState.advance, white]
  | empty => simp [strip, scan]
  | openComment oneLine =>
      obtain ⟨stays, nothing⟩ := comment_vanishes oneLine
      simp [strip, ScanState.keeps, scan_cons, hash_opens, stays, nothing]
  | openWord bare => simp [scan_word bare, strip_word_nonempty bare]
  | startBlock | endBlock | statementEnd | comment | normal | error => simp at eof

/-! ## Whole texts -/

def stripTokens (tokens : List Token) : Text :=
  tokens.flatMap fun token => strip .between token.value

theorem strip_tokens (input : Text) :
    (∀ token ∈ tokens input, token.type ≠ .error) →
      strip .between input = stripTokens (tokens input) ∧
      ∀ last ∈ (tokens input).getLast?,
        (strip .between last.value = [] ↔ scan .between input ≠ .word) := by
  induction length : input.length using Nat.strong_induction_on generalizing input with
  | _ _ ih =>
      intro fine
      have reads := parseToken_reads input
      rw [tokens_eq] at fine ⊢
      cases last : isLast (parseToken input).1 with
      | true =>
          simp only [last, if_true, List.mem_singleton, forall_eq] at fine ⊢
          have eof : (parseToken input).1.type = .eof := by
            simpa [isLast, fine] using last
          have nothingLeft := reads.eof_rest eof
          constructor
          · rw [strip_reads reads fine, nothingLeft]
            simp [stripTokens, strip]
          · simpa using last_reads reads eof
      | false =>
          obtain ⟨notError, notEof⟩ := isLast_eq_false last
          simp only [last, Bool.false_eq_true, if_false, List.mem_cons, forall_eq_or_imp]
            at fine ⊢
          obtain ⟨same, dropped⟩ :=
            ih _ (length ▸ parseToken_shorter input last) _ rfl fine.2
          constructor
          · rw [strip_reads reads notError, same]
            simp [stripTokens]
          · rw [scan_reads reads notError notEof]
            obtain ⟨body, final, split, _, _⟩ := tokens_shape (parseToken input).2
            rw [split] at dropped ⊢
            rw [← List.cons_append, List.getLast?_concat]
            rw [List.getLast?_concat] at dropped
            exact dropped

theorem strip_comment {token : Token} (lexed : ∃ input rest, Reads input token rest)
    (comment : isComment token = true) : strip .between token.value = [] := by
  obtain ⟨input, rest, reads⟩ := lexed
  have type : token.type = .comment := by simpa [isComment] using comment
  clear comment
  induction reads with
  | blank white reads ih => exact ih type
  | comment rest oneLine lineEnd =>
      simp [strip, ScanState.keeps, hash_opens, (comment_vanishes oneLine).2]
  | startBlock | endBlock | statementEnd | empty | openComment | openWord | normal
    | error => simp at type

theorem tokens_lexed (input : Text) :
    ∀ token ∈ tokens input, ∃ before rest, Reads before token rest := by
  induction length : input.length using Nat.strong_induction_on generalizing input with
  | _ _ ih =>
      intro token member
      rw [tokens_eq] at member
      have reads := parseToken_reads input
      cases last : isLast (parseToken input).1 with
      | true =>
          simp only [last, if_true, List.mem_singleton] at member
          exact member ▸ ⟨_, _, reads⟩
      | false =>
          simp only [last, Bool.false_eq_true, if_false, List.mem_cons] at member
          rcases member with rfl | member
          · exact ⟨_, _, reads⟩
          · exact ih _ (length ▸ parseToken_shorter input last) _ rfl token member

theorem stripTokens_filter (tokens : List Token)
    (vanish : ∀ token ∈ tokens, isComment token = true →
      strip .between token.value = []) :
    stripTokens (tokens.filter fun token => !isComment token) = stripTokens tokens := by
  induction tokens with
  | nil => rfl
  | cons token tokens ih =>
      have others := ih fun other member =>
        vanish other (List.mem_cons_of_mem _ member)
      cases comment : isComment token with
      | true =>
          have nothing := vanish token (by simp) comment
          simp only [comment, Bool.not_true, Bool.false_eq_true, not_false_eq_true,
            List.filter_cons_of_neg, others]
          simp [stripTokens, nothing]
      | false =>
          simp only [comment, Bool.not_false, List.filter_cons_of_pos]
          simpa [stripTokens] using others

theorem strip_separated {token : Token} (lexical : Lexical token)
    (written : token.type = .normal ∨ token.type = .statementEnd ∨
      token.type = .startBlock ∨ token.type = .endBlock) (rest : Text) :
    strip .between (token.value ++ ' ' :: rest) =
      strip .between token.value ++ strip .between rest := by
  have ended : scan .between token.value = .between ∨
      scan .between token.value = .word := by
    obtain ⟨type, value⟩ := token
    rcases written with rfl | rfl | rfl | rfl
    · exact scan_lexeme lexical
    · exact Or.inl (by rw [show value = [';'] from lexical]; rfl)
    · exact Or.inl (by rw [show value = ['\x7b'] from lexical]; rfl)
    · exact Or.inl (by rw [show value = ['\x7d'] from lexical]; rfl)
  rw [strip_append, (delimiter_ends ended ' ' rest rfl).1]
  rfl

mutual

theorem flatten_types : ∀ config : NginxConfig, ∀ token ∈ NginxConfig.flatten config,
    token.type = .normal ∨ token.type = .statementEnd ∨
      token.type = .startBlock ∨ token.type = .endBlock
  | [], _, member => by simp [NginxConfig.flatten] at member
  | statement :: config, token, member => by
      simp only [NginxConfig.flatten, List.mem_append] at member
      rcases member with member | member
      · exact flatten_statement_types statement token member
      · exact flatten_types config token member

theorem flatten_statement_types : ∀ statement : NginxConfigStatement,
    ∀ token ∈ NginxConfigStatement.flatten statement,
      token.type = .normal ∨ token.type = .statementEnd ∨
        token.type = .startBlock ∨ token.type = .endBlock
  | .mk words none, token, member => by
      simp only [NginxConfigStatement.flatten, List.mem_append, List.mem_map,
        List.mem_singleton] at member
      rcases member with ⟨word, _, rfl⟩ | rfl <;> simp [normalToken]
  | .mk words (some childBlock), token, member => by
      simp only [NginxConfigStatement.flatten, List.mem_append, List.mem_map,
        List.mem_singleton] at member
      rcases member with ((⟨word, _, rfl⟩ | rfl) | member) | rfl
      · simp [normalToken]
      · simp
      · exact flatten_types childBlock token member
      · simp

end

theorem strip_writeOut (tree : NginxConfig)
    (printable : Printable (NginxConfig.flatten tree)) :
    strip .between (writeOut tree) = stripTokens (NginxConfig.flatten tree) := by
  have types := flatten_types tree
  unfold writeOut stripTokens
  generalize NginxConfig.flatten tree = written at printable types
  induction written with
  | nil => rfl
  | cons token written ih =>
      have others := ih (fun other member => printable other (List.mem_cons_of_mem _ member))
        (fun other member => types other (List.mem_cons_of_mem _ member))
      simp only [List.flatMap_cons, List.append_assoc, List.cons_append, List.nil_append]
      rw [strip_separated (printable token (by simp)) (types token (by simp)), others]

/-- An accepted text and its tree written out agree behind `strip` exactly if
the text does not end inside a bare word. -/
theorem strip_accepted_iff (input : Text) (tree : NginxConfig)
    (accepted : parse input [] = some (true, tree)) :
    strip .between input = strip .between (writeOut tree) ↔
      scan .between input ≠ .word := by
  obtain ⟨⟨last, split, eof⟩, derives, printable⟩ := accepted_flatten input tree accepted
  have vanish : ∀ token ∈ tokens input, isComment token = true →
      strip .between token.value = [] := fun token member =>
    strip_comment (tokens_lexed input token member)
  obtain ⟨body, final, shape, isFinal, inner⟩ := tokens_shape input
  have sameLast : final = last := by
    have filtered := split
    rw [significantTokens, shape, List.filter_append] at filtered
    have kept : ([final].filter fun token => !isComment token) = [final] := by
      simp [isComment_of_isLast isFinal]
    rw [kept] at filtered
    exact List.singleton_inj.mp (List.append_inj' filtered rfl).2
  have fine : ∀ token ∈ tokens input, token.type ≠ .error := by
    intro token member
    rw [shape, List.mem_append, List.mem_singleton] at member
    rcases member with member | rfl
    · exact (isLast_eq_false (inner token member)).1
    · simp [sameLast, eof]
  obtain ⟨stripped, dropped⟩ := strip_tokens input fine
  have whole : strip .between input =
      strip .between (writeOut tree) ++ strip .between last.value := by
    rw [stripped, ← stripTokens_filter _ vanish, strip_writeOut tree printable]
    change stripTokens (significantTokens input) = _
    rw [split]
    simp [stripTokens]
  have lastDropped := dropped last (by simp [shape, sameLast])
  rw [← lastDropped, whole]
  simp

theorem strip_accepted_iff_listen :
    strip .between "listen 80; # port".toList =
        strip .between (writeOut [.mk ["listen".toList, "80".toList] none]) ↔
      scan .between "listen 80; # port".toList ≠ .word :=
  strip_accepted_iff _ _ (by decide +kernel)

/-- The word `root` is accepted and lost. -/
theorem unterminated_word_dropped :
    parse "listen 80;\nroot".toList [] =
        some (true, [.mk ["listen".toList, "80".toList] none]) ∧
      strip .between "listen 80;\nroot".toList ≠
        strip .between (writeOut [.mk ["listen".toList, "80".toList] none]) :=
  ⟨by decide +kernel, by decide +kernel⟩

end BathroomRatings.Config
