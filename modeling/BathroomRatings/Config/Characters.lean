import BathroomRatings.Config.Coverage
import BathroomRatings.Lib.Transducer

/-!
# The lexer, a character at a time

Between two characters the lexer is in one of the states of its source, behind an
escape or a closing mark inside one call, or it has failed.  The successive calls of
`ParseToken` return what this machine emits (`tokens_eq_emits`), so what is known of
the machine before a character holds whatever follows.
-/

set_option autoImplicit false

namespace BathroomRatings.Config

open BathroomRatings.Lib Lexer

inductive LexState where
  | reading (state : TokenParserState) (value : Text)
  /-- Behind the `\` of an escape. -/
  | escaped (kind : Quote) (value : Text)
  /-- Behind the closing mark of a quoted string. -/
  | closed (value : Text)
  | failed

namespace LexState

abbrev initial : LexState := .reading .initialWhitespace []

def start (c : Char) : LexState × List Token :=
  if isWhitespace c then (initial, [])
  else if c = '\x7b' then (initial, [⟨.startBlock, [c]⟩])
  else if c = '\x7d' then (initial, [⟨.endBlock, [c]⟩])
  else if c = '#' then (.reading .comment [c], [])
  else if c = '\x22' then (.reading (.quote .double) [c], [])
  else if c = '\x27' then (.reading (.quote .single) [c], [])
  else if c = ';' then (initial, [⟨.statementEnd, [c]⟩])
  else (.reading .normal [c], [])

/-- A delimiter ends the token before it and begins anew. -/
def endToken (value : Text) (c : Char) : LexState × List Token :=
  ((start c).1, ⟨.normal, value⟩ :: (start c).2)

def feed : LexState → Char → LexState × List Token
  | .reading .initialWhitespace _, c => start c
  | .reading (.quote kind) value, c =>
      if c = '\\' then (.escaped kind (value ++ [c]), [])
      else if c = kind.mark then (.closed (value ++ [c]), [])
      else (.reading (.quote kind) (value ++ [c]), [])
  | .reading .comment value, c =>
      if c = '\n' ∨ c = '\r' then (initial, [⟨.comment, value⟩])
      else (.reading .comment (value ++ [c]), [])
  | .reading .normal value, c =>
      if isTokenDelimiter c then endToken value c
      else (.reading .normal (value ++ [c]), [])
  | .escaped kind value, c => (.reading (.quote kind) (value ++ [c]), [])
  | .closed value, c =>
      if isTokenDelimiter c then endToken value c else (.failed, [⟨.error, value⟩])
  | .failed, _ => (.failed, [])

def finish : LexState → List Token
  | .reading state value => [⟨endOfInput state, value⟩]
  | .escaped _ value => [⟨.error, value ++ [endOfFile]⟩]
  | .closed value => [⟨.error, value⟩]
  | .failed => []

end LexState

def characters : Transducer Char LexState Token := ⟨LexState.feed, LexState.finish⟩

open LexState

theorem emits_character (state : LexState) (c : Char) (rest : Text) :
    characters.emits state (c :: rest) =
      (state.feed c).2 ++ characters.emits (state.feed c).1 rest :=
  characters.emits_cons state c rest

theorem emits_failed (input : Text) : characters.emits .failed input = [] :=
  characters.emits_of_stuck (fun _ => rfl) input

/-- What the machine emits is what a call returns, followed by what the later calls
return. -/
def resume (call : Token × Text) : List Token :=
  if isLast call.1 then [call.1] else call.1 :: characters.emits initial call.2

theorem resume_of_last {token : Token} (last : isLast token = true) (rest : Text) :
    resume (token, rest) = [token] := by
  simp [resume, last]

theorem resume_of_goesOn {token : Token} (goesOn : isLast token = false) (rest : Text) :
    resume (token, rest) = token :: characters.emits initial rest := by
  simp [resume, goesOn]

theorem emits_endToken (value : Text) (c : Char) (rest : Text) :
    (endToken value c).2 ++ characters.emits (endToken value c).1 rest =
      resume (⟨.normal, value⟩, c :: rest) := by
  rw [resume_of_goesOn rfl, emits_character]
  rfl

theorem emits_reading (state : TokenParserState) (value input : Text)
    (fresh : state = .initialWhitespace → value = []) :
    characters.emits (.reading state value) input = resume (parseTokenLoop state value input) := by
  fun_induction parseTokenLoop state value input with
  | case1 state value =>
      rw [resume_of_last (by cases state <;> rfl)]
      rfl
  | case2 value c rest white ih =>
      obtain rfl := fresh rfl
      rw [← ih fresh, emits_character]
      simp [LexState.feed, start, white]
  -- the tokens of one character
  | case3 | case4 | case8 =>
      rw [resume_of_goesOn rfl, emits_character]
      rfl
  -- the characters that open a comment or a quoted string
  | case5 value rest _ _ _ ih | case6 value rest _ _ _ _ ih | case7 value rest _ _ _ _ _ ih =>
      rw [← ih (by simp), emits_character]
      rfl
  | case9 value c rest white open' close hash double single semicolon ih =>
      obtain rfl := fresh rfl
      rw [← ih (by simp), emits_character]
      simp [LexState.feed, start, white, open', close, hash, double, single, semicolon]
  -- an escape, and a closing mark, at the end of the input
  | case10 =>
      rw [resume_of_last rfl, emits_character]
      simp [LexState.feed, LexState.finish, characters, endOfInput]
  | case11 value kind next behind ih =>
      rw [← ih (by simp), emits_character, emits_character]
      simp [LexState.feed]
  | case12 value kind notEscape =>
      rw [resume_of_last rfl, emits_character]
      simp [LexState.feed, LexState.finish, characters, notEscape]
  | case13 value kind next behind delimiter notEscape =>
      rw [← emits_endToken, emits_character, emits_character]
      simp [LexState.feed, delimiter, notEscape]
  | case14 value kind next behind delimiter notEscape =>
      rw [resume_of_last rfl, emits_character, emits_character]
      simp [LexState.feed, delimiter, notEscape, emits_failed]
  | case15 value c rest kind notEscape notMark ih =>
      rw [← ih (by simp), emits_character]
      simp [LexState.feed, notEscape, notMark]
  | case16 value c rest lineEnd =>
      rw [resume_of_goesOn rfl, emits_character]
      simp [LexState.feed, lineEnd]
  | case17 value c rest lineEnd ih =>
      rw [← ih (by simp), emits_character]
      simp [LexState.feed, lineEnd]
  | case18 value c rest delimiter =>
      rw [← emits_endToken, emits_character]
      simp [LexState.feed, delimiter]
  | case19 value c rest delimiter ih =>
      rw [← ih (by simp), emits_character]
      simp [LexState.feed, delimiter]

/-- The calls of `ParseToken` return what the machine emits. -/
theorem tokens_eq_emits (input : Text) : tokens input = characters.emits initial input := by
  induction length : input.length using Nat.strong_induction_on generalizing input with
  | _ _ ih =>
      have call : characters.emits initial input = resume (parseToken input) :=
        emits_reading .initialWhitespace [] input fun _ => rfl
      rw [tokens_eq, call]
      cases last : isLast (parseToken input).1 with
      | true => simp [resume, last]
      | false =>
          have later := ih _ (length ▸ parseToken_shorter input last) _ rfl
          simp [resume, last, later]

end BathroomRatings.Config
