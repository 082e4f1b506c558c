import BathroomRatings.Config.Characters

/-!
# White space and comments between tokens

Text that only fills the space between two tokens can be put in at every place where
the lexer is between tokens, whatever follows.
-/

set_option autoImplicit false

namespace BathroomRatings.Config

open BathroomRatings.Lib Lexer LexState

/-- White space and complete comments. -/
inductive Filler : Text → Prop where
  | nil : Filler []
  | blank {c : Char} {rest : Text} (white : isWhitespace c) (more : Filler rest) :
      Filler (c :: rest)
  | comment {text rest : Text} (oneLine : LineFree text) (more : Filler rest) :
      Filler ('#' :: text ++ '\n' :: rest)

/-- The text is empty, or it ends with a delimiter outside quotes, escapes and comments,
or with the line end that closes a comment. -/
def BetweenTokens (text : Text) : Prop :=
  text = [] ∨ ∃ front c, text = front ++ [c] ∧
    ((isTokenDelimiter c = true ∧ (scan .between front = .between ∨ scan .between front = .word)) ∨
      ((c = '\n' ∨ c = '\r') ∧ scan .between front = .comment))

def LexState.position : LexState → Option ScanState
  | .reading .initialWhitespace _ => some .between
  | .reading (.quote kind) _ => some (.quoted kind)
  | .reading .comment _ => some .comment
  | .reading .normal _ => some .word
  | .escaped kind _ => some (.escaped kind)
  | .closed _ => some .between
  | .failed => none

theorem start_position (c : Char) :
    (start c).1.position = some (ScanState.advance c .between) := by
  by_cases white : isWhitespace c = true
  · simp [start, ScanState.advance, white, LexState.position]
  · by_cases special : c ∈ ['\x7b', '\x7d', '#', '\x22', '\x27', ';']
    · simp only [List.mem_cons, List.not_mem_nil, or_false] at special
      rcases special with rfl | rfl | rfl | rfl | rfl | rfl <;> rfl
    · simp only [List.mem_cons, List.not_mem_nil, or_false, not_or] at special
      obtain ⟨openBrace, closeBrace, hash, double, single, semicolon⟩ := special
      have blanks : ¬ (((c = ' ' ∨ c = '\t') ∨ c = '\n') ∨ c = '\r') := by
        simpa [isWhitespace] using white
      have inWord : isTokenDelimiter c = false := by
        simp only [not_or] at blanks
        simp [isTokenDelimiter, blanks, openBrace, closeBrace, semicolon]
      simp [start, ScanState.advance, white, openBrace, closeBrace, hash, double, single,
        semicolon, inWord, LexState.position]

theorem advance_delimiter {c : Char} (delimiter : isTokenDelimiter c = true) :
    ScanState.advance c .between = .between := by
  obtain ⟨hash, double, single⟩ := delimiter_spec delimiter
  simp [ScanState.advance, hash, double, single, delimiter]

theorem start_delimiter {c : Char} (delimiter : isTokenDelimiter c = true) :
    (start c).1 = initial := by
  simp only [isTokenDelimiter, Bool.or_eq_true, beq_iff_eq] at delimiter
  rcases delimiter with ((((rfl | rfl) | rfl) | rfl) | rfl) | rfl <;> rfl

/-- The lexer agrees with a scan of the text until it fails. -/
theorem feed_position {state : LexState} {position : ScanState} (c : Char)
    (here : state.position = some position) :
    (state.feed c).1 = .failed ∨ (state.feed c).1.position = some (position.advance c) := by
  cases state with
  | reading state value =>
      cases state with
      | initialWhitespace =>
          obtain rfl := Option.some.inj here
          exact Or.inr (start_position c)
      | quote kind =>
          obtain rfl := Option.some.inj here
          right
          simp only [LexState.feed, ScanState.advance]
          split_ifs <;> rfl
      | comment =>
          obtain rfl := Option.some.inj here
          right
          simp only [LexState.feed, ScanState.advance]
          split_ifs <;> rfl
      | normal =>
          obtain rfl := Option.some.inj here
          right
          simp only [LexState.feed, ScanState.advance]
          split_ifs with delimiter
          · exact (start_position c).trans (congrArg some (advance_delimiter delimiter))
          · rfl
  | escaped kind value =>
      obtain rfl := Option.some.inj here
      exact Or.inr rfl
  | closed value =>
      obtain rfl := Option.some.inj here
      simp only [LexState.feed]
      split_ifs
      · exact Or.inr (start_position c)
      · exact Or.inl rfl
  | failed => exact absurd here (by simp [LexState.position])

theorem after_failed (input : Text) : characters.after .failed input = .failed := by
  induction input with
  | nil => rfl
  | cons c input ih => exact ih

theorem after_position {state : LexState} {position : ScanState} (text : Text)
    (here : state.position = some position) :
    characters.after state text = .failed ∨
      (characters.after state text).position = some (scan position text) := by
  induction text generalizing state position with
  | nil => exact Or.inr here
  | cons c text ih =>
      rcases feed_position c here with failed | next
      · left
        change characters.after (state.feed c).1 text = _
        rw [failed, after_failed]
      · exact ih next

theorem feed_delimiter {state : LexState} {c : Char} (delimiter : isTokenDelimiter c = true)
    (outside : state.position = some .between ∨ state.position = some .word) :
    (state.feed c).1 = initial := by
  cases state with
  | reading state value =>
      cases state with
      | initialWhitespace => exact start_delimiter delimiter
      | normal =>
          simp only [LexState.feed, if_pos delimiter]
          exact start_delimiter delimiter
      | comment | quote kind => simp [LexState.position] at outside
  | closed value =>
      simp only [LexState.feed, if_pos delimiter]
      exact start_delimiter delimiter
  | escaped kind value | failed => simp [LexState.position] at outside

theorem feed_lineEnd {state : LexState} {c : Char} (lineEnd : c = '\n' ∨ c = '\r')
    (inside : state.position = some .comment) : (state.feed c).1 = initial := by
  cases state with
  | reading state value =>
      cases state with
      | comment => simp only [LexState.feed, if_pos lineEnd]
      | initialWhitespace | normal | quote kind => simp [LexState.position] at inside
  | closed value | escaped kind value | failed => simp [LexState.position] at inside

theorem BetweenTokens.after {text : Text} (between : BetweenTokens text) :
    characters.after initial text = initial ∨ characters.after initial text = .failed := by
  rcases between with rfl | ⟨front, c, rfl, ends⟩
  · exact Or.inl rfl
  · rw [characters.after_append]
    change (LexState.feed _ c).1 = _ ∨ (LexState.feed _ c).1 = _
    have begun : initial.position = some .between := rfl
    rcases after_position front begun with failed | there
    · right
      rw [failed]
      rfl
    · left
      rcases ends with ⟨delimiter, between | word⟩ | ⟨lineEnd, comment⟩
      · exact feed_delimiter delimiter (Or.inl (there.trans (congrArg some between)))
      · exact feed_delimiter delimiter (Or.inr (there.trans (congrArg some word)))
      · exact feed_lineEnd lineEnd (there.trans (congrArg some comment))

theorem BetweenTokens.significant {text : Text} (between : BetweenTokens text)
    {first second : Text} (same : significantTokens first = significantTokens second) :
    significantTokens (text ++ first) = significantTokens (text ++ second) := by
  simp only [significantTokens, tokens_eq_emits, characters.emits_append] at same ⊢
  rcases between.after with fresh | failed
  · rw [fresh, List.filter_append, List.filter_append, same]
  · rw [failed, emits_failed, emits_failed]

theorem Filler.significant {filler : Text} (fills : Filler filler) (rest : Text) :
    significantTokens (filler ++ rest) = significantTokens rest := by
  induction fills with
  | nil => rfl
  | @blank c filler white more ih =>
      rw [List.cons_append, significantTokens, tokens_blank c _ white]
      exact ih
  | @comment text filler oneLine more ih =>
      have reads : Reads ('#' :: text ++ '\n' :: (filler ++ rest)) ⟨.comment, '#' :: text⟩
          (filler ++ rest) := .comment (filler ++ rest) oneLine (Or.inl rfl)
      have split : '#' :: text ++ '\n' :: filler ++ rest =
          '#' :: text ++ '\n' :: (filler ++ rest) := by simp
      rw [split, significantTokens, tokens_of_reads reads rfl]
      exact ih

/-- White space and comments between two tokens change nothing. -/
theorem parse_filler (p w q : Text) (between : BetweenTokens p) (filler : Filler w) :
    ∃ accepted tree, parse (p ++ w ++ q) [] = some (accepted, tree) ∧
      parse (p ++ q) [] = some (accepted, tree) := by
  have same : significantTokens (p ++ w ++ q) = significantTokens (p ++ q) := by
    rw [List.append_assoc]
    exact between.significant (filler.significant q)
  obtain ⟨accepted, tree, returns⟩ := parse_returns (p ++ q)
  refine ⟨accepted, tree, ?_, returns⟩
  rw [parse_eq_significant, same, ← parse_eq_significant]
  exact returns

theorem filler_comment : Filler "# it\n\r\n".toList :=
  @Filler.comment [' ', 'i', 't'] ['\r', '\n'] (by simp [LineFree])
    (.blank rfl (.blank rfl .nil))

theorem betweenTokens_server : BetweenTokens "server ".toList :=
  Or.inr ⟨"server".toList, ' ', rfl, Or.inl ⟨rfl, Or.inr rfl⟩⟩

theorem parse_filler_server :
    ∃ accepted tree,
      parse ("server ".toList ++ "# it\n\r\n".toList ++ "\x7b listen 80; \x7d".toList) [] =
          some (accepted, tree) ∧
        parse ("server ".toList ++ "\x7b listen 80; \x7d".toList) [] = some (accepted, tree) :=
  parse_filler _ _ _ betweenTokens_server filler_comment

end BathroomRatings.Config
