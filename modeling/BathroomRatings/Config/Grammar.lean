import BathroomRatings.Config.Parser

/-!
# The grammar of configurations

    config    ::= statement+
    statement ::= NORMAL+ ( ';' | '{' config '}' )

`parse_iff_derives`: the iterative parser, with its stack and one token of
memory, accepts exactly the token sequences of this grammar and builds the tree
of the derivation.
-/

set_option autoImplicit false

namespace BathroomRatings.Config

open Lexer

def normalToken (word : Text) : Token := ⟨.normal, word⟩

mutual

/-- `config ::= statement+` -/
inductive DerivesConfig : List Token → NginxConfig → Prop where
  | one {tokens : List Token} {statement : NginxConfigStatement}
      (first : DerivesStatement tokens statement) :
      DerivesConfig tokens [statement]
  | more {tokens rest : List Token} {statement : NginxConfigStatement}
      {statements : NginxConfig} (first : DerivesStatement tokens statement)
      (others : DerivesConfig rest statements) :
      DerivesConfig (tokens ++ rest) (statement :: statements)

/-- `statement ::= NORMAL+ ( ';' | '{' config '}' )` -/
inductive DerivesStatement : List Token → NginxConfigStatement → Prop where
  | plain (words : List Text) (semicolon : Text) (nonempty : words ≠ []) :
      DerivesStatement (words.map normalToken ++ [⟨.statementEnd, semicolon⟩])
        (.mk words none)
  | block (words : List Text) (openBrace closeBrace : Text) {body : List Token}
      {child : NginxConfig} (nonempty : words ≠ [])
      (inside : DerivesConfig body child) :
      DerivesStatement (words.map normalToken ++ [⟨.startBlock, openBrace⟩] ++
        body ++ [⟨.endBlock, closeBrace⟩]) (.mk words (some child))

end

/-- The token types behind which a statement can begin. -/
def Startable (type : TokenType) : Prop :=
  type = .start ∨ type = .statementEnd ∨ type = .startBlock ∨ type = .endBlock

def Complete (type : TokenType) : Prop := type = .statementEnd ∨ type = .endBlock

theorem Complete.startable {type : TokenType} (complete : Complete type) :
    Startable type := by
  rcases complete with rfl | rfl <;> simp [Startable]

theorem turn_first_word {last : TokenType} (startable : Startable last)
    (top : NginxConfig) (outer : List NginxConfig) (word : Text) :
    turn ⟨top :: outer, last⟩ (normalToken word) =
      .running ⟨(top ++ [.mk [word] none]) :: outer, .normal⟩ := by
  rcases startable with rfl | rfl | rfl | rfl <;>
    simp [turn, normalToken, onNormal, canFollowWithToken,
      NginxConfigStatement.pushToken]

theorem turn_next_word (block : NginxConfig) (words : List Text)
    (child : Option NginxConfig) (outer : List NginxConfig) (word : Text) :
    turn ⟨(block ++ [.mk words child]) :: outer, .normal⟩ (normalToken word) =
      .running ⟨(block ++ [.mk (words ++ [word]) child]) :: outer, .normal⟩ := by
  simp [turn, normalToken, onNormal, canFollowWithToken,
    NginxConfigStatement.pushToken]

theorem run_next_words (block : NginxConfig) (outer : List NginxConfig)
    (rest : List Token) : ∀ (more words : List Text),
    runTokens (more.map normalToken ++ rest)
        ⟨(block ++ [.mk words none]) :: outer, .normal⟩ =
      runTokens rest ⟨(block ++ [.mk (words ++ more) none]) :: outer, .normal⟩ := by
  intro more
  induction more with
  | nil => intro words; simp
  | cons word more ih =>
      intro words
      simp only [List.map_cons, List.cons_append, runTokens, turn_next_word, ih]
      simp

theorem run_words {last : TokenType} (startable : Startable last)
    (top : NginxConfig) (outer : List NginxConfig) (rest : List Token)
    (words : List Text) (nonempty : words ≠ []) :
    runTokens (words.map normalToken ++ rest) ⟨top :: outer, last⟩ =
      runTokens rest ⟨(top ++ [.mk words none]) :: outer, .normal⟩ := by
  cases words with
  | nil => exact absurd rfl nonempty
  | cons word more =>
      simp only [List.map_cons, List.cons_append, runTokens,
        turn_first_word startable]
      exact run_next_words top outer rest more [word]

mutual

theorem DerivesConfig.run {tokens : List Token} {statements : NginxConfig}
    (derives : DerivesConfig tokens statements) (top : NginxConfig)
    (outer : List NginxConfig) (rest : List Token) {last : TokenType}
    (startable : Startable last) :
    ∃ final, Complete final ∧
      runTokens (tokens ++ rest) ⟨top :: outer, last⟩ =
        runTokens rest ⟨(top ++ statements) :: outer, final⟩ := by
  cases derives with
  | one first => exact first.run top outer rest startable
  | @more tokens others statement statements first more =>
      obtain ⟨middle, complete, runFirst⟩ :=
        first.run top outer (others ++ rest) startable
      obtain ⟨final, completeFinal, runMore⟩ :=
        more.run (top ++ [statement]) outer rest complete.startable
      refine ⟨final, completeFinal, ?_⟩
      rw [List.append_assoc, runFirst, runMore]
      simp

theorem DerivesStatement.run {tokens : List Token}
    {statement : NginxConfigStatement}
    (derives : DerivesStatement tokens statement) (top : NginxConfig)
    (outer : List NginxConfig) (rest : List Token) {last : TokenType}
    (startable : Startable last) :
    ∃ final, Complete final ∧
      runTokens (tokens ++ rest) ⟨top :: outer, last⟩ =
        runTokens rest ⟨(top ++ [statement]) :: outer, final⟩ := by
  cases derives with
  | plain words semicolon nonempty =>
      refine ⟨.statementEnd, Or.inl rfl, ?_⟩
      rw [List.append_assoc, run_words startable _ _ _ _ nonempty]
      rfl
  | @block words openBrace closeBrace body child nonempty inside =>
      have opening : Startable .startBlock := by simp [Startable]
      obtain ⟨final, complete, runBody⟩ :=
        inside.run [] ((top ++ [.mk words (some [])]) :: outer)
          (⟨.endBlock, closeBrace⟩ :: rest) opening
      refine ⟨.endBlock, Or.inr rfl, ?_⟩
      have opened : turn ⟨(top ++ [.mk words none]) :: outer, .normal⟩
          ⟨.startBlock, openBrace⟩ =
          .running ⟨[] :: (top ++ [.mk words (some [])]) :: outer, .startBlock⟩ := by
        simp [turn, onStartBlock, isValidTokenPredecessor,
          NginxConfigStatement.resetChild]
      have closed : turn ⟨child :: (top ++ [.mk words (some [])]) :: outer, final⟩
          ⟨.endBlock, closeBrace⟩ =
          .running ⟨(top ++ [.mk words (some child)]) :: outer, .endBlock⟩ := by
        have guard : final = .statementEnd ∨ final = .endBlock := complete
        simp [turn, onEndBlock, guard, NginxConfigStatement.resetChild]
      simp only [List.append_assoc, List.cons_append, List.nil_append] at runBody ⊢
      rw [run_words startable _ _ _ _ nonempty, runTokens, opened]
      simp only [runBody, runTokens, closed]

end

/-! ## What the machine has consumed -/

inductive Statements : List Token → NginxConfig → Prop where
  | nil : Statements [] []
  | snoc {tokens more : List Token} {block : NginxConfig}
      {statement : NginxConfigStatement} (complete : Statements tokens block)
      (last : DerivesStatement more statement) :
      Statements (tokens ++ more) (block ++ [statement])

theorem DerivesConfig.snoc {tokens more : List Token} {block : NginxConfig}
    {statement : NginxConfigStatement} (derives : DerivesConfig tokens block)
    (last : DerivesStatement more statement) :
    DerivesConfig (tokens ++ more) (block ++ [statement]) := by
  cases derives with
  | one first => exact .more first (.one last)
  | more first others =>
      rw [List.append_assoc, List.cons_append]
      exact .more first (others.snoc last)

theorem Statements.tokens_nil {tokens : List Token} {block : NginxConfig}
    (complete : Statements tokens block) (empty : block = []) : tokens = [] := by
  cases complete with
  | nil => rfl
  | snoc => simp at empty

theorem Statements.derives {tokens : List Token} {block : NginxConfig}
    (complete : Statements tokens block) (nonempty : block ≠ []) :
    DerivesConfig tokens block := by
  induction complete with
  | nil => exact absurd rfl nonempty
  | @snoc tokens more block statement complete last ih =>
      cases block with
      | nil =>
          rw [complete.tokens_nil rfl]
          exact .one last
      | cons first block => exact (ih (by simp)).snoc last

/-- The innermost open block and the tokens read since it was opened. -/
inductive Innermost : TokenType → List Token → NginxConfig → Prop where
  | started : Innermost .start [] []
  | opened : Innermost .startBlock [] []
  | completed {type : TokenType} {tokens : List Token} {block : NginxConfig}
      (complete : Complete type) (statements : Statements tokens block)
      (nonempty : block ≠ []) : Innermost type tokens block
  | words {tokens : List Token} {block : NginxConfig} {words : List Text}
      (statements : Statements tokens block) (nonempty : words ≠ []) :
      Innermost .normal (tokens ++ words.map normalToken)
        (block ++ [.mk words none])

/-- The open blocks around the innermost one, each with the tokens up to the
brace that opened its last child. -/
inductive Around : List Token → List NginxConfig → Prop where
  | nil : Around [] []
  | cons {before tokens : List Token} {outer : List NginxConfig}
      {block : NginxConfig} {words : List Text} (openBrace : Text)
      (around : Around before outer) (statements : Statements tokens block)
      (nonempty : words ≠ []) :
      Around (before ++ (tokens ++ words.map normalToken ++
          [⟨.startBlock, openBrace⟩]))
        ((block ++ [.mk words (some [])]) :: outer)

/-- The loop invariant: the stack is never empty, and the tokens consumed so far
are those of the open blocks, outermost first. -/
inductive Consumed : List Token → ParserState → Prop where
  | mk {before inside : List Token} {top : NginxConfig}
      {outer : List NginxConfig} {last : TokenType} (around : Around before outer)
      (innermost : Innermost last inside top) :
      Consumed (before ++ inside) ⟨top :: outer, last⟩

theorem consumed_start : Consumed [] ⟨[[]], .start⟩ :=
  show Consumed ([] ++ []) ⟨[[]], .start⟩ from .mk .nil .started

theorem Consumed.onNormal {tokens : List Token} {state : ParserState}
    (consumed : Consumed tokens state) (word : Text) :
    ∃ next, turn state (normalToken word) = .running next ∧
      Consumed (tokens ++ [normalToken word]) next := by
  obtain @⟨before, inside, top, outer, last, around, innermost⟩ := consumed
  rw [List.append_assoc]
  have first : ∀ {type : TokenType}, Startable type → Statements inside top →
      ∃ next, turn ⟨top :: outer, type⟩ (normalToken word) = .running next ∧
        Consumed (before ++ (inside ++ [normalToken word])) next := by
    intro type startable statements
    refine ⟨_, turn_first_word startable top outer word, ?_⟩
    have innermost : Innermost .normal (inside ++ [word].map normalToken)
        (top ++ [.mk [word] none]) := .words statements (by simp)
    exact .mk around innermost
  cases innermost with
  | started => exact first (by simp [Startable]) .nil
  | opened => exact first (by simp [Startable]) .nil
  | completed complete statements nonempty => exact first complete.startable statements
  | @words tokens block words statements nonempty =>
      refine ⟨_, turn_next_word block words none outer word, ?_⟩
      have extended : Innermost .normal (tokens ++ (words ++ [word]).map normalToken)
          (block ++ [.mk (words ++ [word]) none]) := .words statements (by simp)
      simpa using Consumed.mk around extended

theorem Innermost.predecessor {last : TokenType} {inside : List Token}
    {top : NginxConfig} (innermost : Innermost last inside top)
    (valid : isValidTokenPredecessor last = true) :
    ∃ tokens block words, last = .normal ∧
      inside = tokens ++ words.map normalToken ∧
      top = block ++ [.mk words none] ∧ Statements tokens block ∧ words ≠ [] := by
  cases innermost with
  | started | opened => simp [isValidTokenPredecessor] at valid
  | completed complete statements nonempty =>
      rcases complete with rfl | rfl <;> simp [isValidTokenPredecessor] at valid
  | words statements nonempty =>
      exact ⟨_, _, _, rfl, rfl, rfl, statements, nonempty⟩

theorem Innermost.finished {last : TokenType} {inside : List Token}
    {top : NginxConfig} (innermost : Innermost last inside top)
    (complete : Complete last) : DerivesConfig inside top := by
  cases innermost with
  | started | opened => simp [Complete] at complete
  | completed _ statements nonempty => exact statements.derives nonempty
  | words statements nonempty => simp [Complete] at complete

/-- One turn on a token that is not a comment keeps the invariant, and never
looks into an empty container. -/
theorem Consumed.turn {tokens : List Token} {state : ParserState}
    (consumed : Consumed tokens state) (token : Token)
    (notComment : isComment token = false) :
    (∃ next, Config.turn state token = .running next ∧
      Consumed (tokens ++ [token]) next) ∨
    ∃ accepted, Config.turn state token = .returned accepted := by
  obtain ⟨type, value⟩ := token
  have kept := consumed
  obtain @⟨before, inside, top, outer, last, around, innermost⟩ := consumed
  cases type with
  | start | error | quotedString => exact Or.inr ⟨false, rfl⟩
  | comment => simp [isComment] at notComment
  | normal => exact Or.inl (kept.onNormal value)
  | eof =>
      right
      simp only [Config.turn, onEof]
      split <;> simp
  | statementEnd =>
      cases valid : isValidTokenPredecessor last with
      | false => exact Or.inr ⟨false, by simp [Config.turn, valid]⟩
      | true =>
          obtain ⟨tokens, block, words, rfl, rfl, rfl, statements, nonempty⟩ :=
            innermost.predecessor valid
          left
          refine ⟨_, by simp [Config.turn, valid]; rfl, ?_⟩
          have ended := Statements.snoc statements
            (.plain words value nonempty)
          have innermost : Innermost .statementEnd _ _ :=
            .completed (Or.inl rfl) ended (by simp)
          simpa [List.append_assoc] using Consumed.mk around innermost
  | startBlock =>
      cases valid : isValidTokenPredecessor last with
      | false => exact Or.inr ⟨false, by simp [Config.turn, onStartBlock, valid]⟩
      | true =>
          obtain ⟨tokens, block, words, rfl, rfl, rfl, statements, nonempty⟩ :=
            innermost.predecessor valid
          left
          refine ⟨⟨[] :: (block ++ [.mk words (some [])]) :: outer, .startBlock⟩, ?_, ?_⟩
          · simp [Config.turn, onStartBlock, valid, NginxConfigStatement.resetChild]
          · have deeper := Around.cons value around statements nonempty
            simpa [List.append_assoc] using Consumed.mk deeper .opened
  | endBlock =>
      by_cases complete : last = .statementEnd ∨ last = .endBlock
      · cases around with
        | nil => exact Or.inr ⟨false, by simp [Config.turn, onEndBlock, complete]⟩
        | @cons before tokens outer block words openBrace around statements nonempty =>
            left
            refine ⟨⟨(block ++ [.mk words (some top)]) :: outer, .endBlock⟩, ?_, ?_⟩
            · simp [Config.turn, onEndBlock, complete, NginxConfigStatement.resetChild]
            · have closed := Statements.snoc statements
                (.block words openBrace value nonempty (innermost.finished complete))
              have innermost : Innermost .endBlock _ _ :=
                .completed (Or.inr rfl) closed (by simp)
              simpa [List.append_assoc] using Consumed.mk around innermost
      · exact Or.inr ⟨false, by simp [Config.turn, onEndBlock, complete]⟩

/-! ## Whole runs -/

theorem Consumed.accepts {tokens : List Token} {state : ParserState}
    (consumed : Consumed tokens state) (token : Token)
    (accepted : Config.turn state token = .returned true) :
    token.type = .eof ∧ DerivesConfig tokens (builtConfig state.configStack) := by
  obtain ⟨type, value⟩ := token
  obtain @⟨before, inside, top, outer, last, around, innermost⟩ := consumed
  cases type with
  | eof =>
      simp only [Config.turn, onEof] at accepted
      split at accepted
      · rename_i complete
        cases around with
        | nil => exact ⟨rfl, innermost.finished complete⟩
        | cons => simp at accepted
      · simp at accepted
  | start | error | quotedString | comment => simp [Config.turn] at accepted
  | normal =>
      obtain ⟨next, running, _⟩ :=
        (Consumed.mk around innermost).onNormal value
      exact absurd (running.symm.trans accepted) (by simp)
  | statementEnd =>
      simp only [Config.turn] at accepted
      split at accepted <;> simp at accepted
  | startBlock =>
      simp only [Config.turn, onStartBlock] at accepted
      split at accepted
      · split at accepted <;> simp at accepted
      · simp at accepted
  | endBlock =>
      simp only [Config.turn, onEndBlock] at accepted
      split at accepted
      · cases outer with
        | nil => simp at accepted
        | cons below outer =>
            cases changed : modifyBack (NginxConfigStatement.resetChild top) below <;>
              simp [changed] at accepted
      · simp at accepted

theorem runTokens_derives (rest : List Token) (tree : NginxConfig) :
    ∀ (tokens : List Token) (state : ParserState), Consumed tokens state →
      (∀ token ∈ rest, isComment token = false) →
      runTokens rest state = some (true, tree) →
      ∃ body last behind, rest = body ++ last :: behind ∧ last.type = .eof ∧
        DerivesConfig (tokens ++ body) tree := by
  induction rest with
  | nil => intro tokens state consumed _ accepted; simp [runTokens] at accepted
  | cons token rest ih =>
      intro tokens state consumed noComments accepted
      rw [runTokens] at accepted
      rcases consumed.turn token (noComments token (by simp)) with
        ⟨next, running, further⟩ | ⟨answer, returned⟩
      · rw [running] at accepted
        obtain ⟨body, last, behind, split, eof, derives⟩ := ih _ next further
          (fun other member => noComments other (List.mem_cons_of_mem _ member))
          accepted
        refine ⟨token :: body, last, behind, by simp [split], eof, ?_⟩
        simpa using derives
      · rw [returned] at accepted
        simp only [Option.some.injEq, Prod.mk.injEq] at accepted
        obtain ⟨rfl, rfl⟩ := accepted
        obtain ⟨eof, derives⟩ := consumed.accepts token returned
        exact ⟨[], token, rest, rfl, eof, by simpa using derives⟩

/-- The token sequence of a text ends with its only `EOF` or `ERROR`. -/
theorem tokens_shape (input : Text) :
    ∃ body last, tokens input = body ++ [last] ∧ isLast last = true ∧
      ∀ token ∈ body, isLast token = false := by
  induction length : input.length using Nat.strong_induction_on generalizing input with
  | _ _ ih =>
      rw [tokens_eq]
      cases last : isLast (parseToken input).1 with
      | true => exact ⟨[], _, by simp, last, by simp⟩
      | false =>
          obtain ⟨body, final, split, isFinal, inner⟩ :=
            ih _ (length ▸ parseToken_shorter input last) _ rfl
          refine ⟨(parseToken input).1 :: body, final, by simp [split], isFinal, ?_⟩
          exact List.forall_mem_cons.mpr ⟨last, inner⟩

def significantTokens (input : Text) : List Token :=
  (tokens input).filter fun token => !isComment token

theorem significantTokens_shape (input : Text) :
    ∃ body last, significantTokens input = body ++ [last] ∧ isLast last = true ∧
      ∀ token ∈ body, isLast token = false ∧ isComment token = false := by
  obtain ⟨body, last, split, isFinal, inner⟩ := tokens_shape input
  have notComment : isComment last = false := by
    simp only [isLast, Bool.or_eq_true, beq_iff_eq] at isFinal
    rcases isFinal with eof | error <;> simp [isComment, *]
  refine ⟨body.filter fun token => !isComment token, last, ?_, isFinal, ?_⟩
  · simp [significantTokens, split, notComment]
  · intro token member
    obtain ⟨inBody, kept⟩ := List.mem_filter.mp member
    exact ⟨inner token inBody, by simpa using kept⟩

theorem parse_eq_significant (input : Text) (config : NginxConfig) :
    parse input config = runTokens (significantTokens input) ⟨[config], .start⟩ := by
  rw [parse_eq_runTokens, significantTokens, runTokens_drop_comments]

theorem runTokens_returns (rest : List Token) : ∀ (tokens : List Token)
    (state : ParserState) (last : Token), Consumed tokens state →
      (∀ token ∈ rest, isComment token = false) → isLast last = true →
      isComment last = false →
      ∃ accepted tree, runTokens (rest ++ [last]) state = some (accepted, tree) := by
  induction rest with
  | nil =>
      intro tokens state last consumed _ final notComment
      simp only [List.nil_append, runTokens]
      rcases consumed.turn last notComment with
        ⟨next, running, _⟩ | ⟨accepted, returned⟩
      · exact absurd running (turn_last final)
      · exact ⟨accepted, _, by rw [returned]⟩
  | cons token rest ih =>
      intro tokens state last consumed noComments final notComment
      simp only [List.cons_append, runTokens]
      rcases consumed.turn token (noComments token (by simp)) with
        ⟨next, running, further⟩ | ⟨accepted, returned⟩
      · rw [running]
        exact ih _ next last further
          (fun other member => noComments other (List.mem_cons_of_mem _ member))
          final notComment
      · exact ⟨accepted, _, by rw [returned]⟩

theorem isComment_of_isLast {token : Token} (last : isLast token = true) :
    isComment token = false := by
  simp only [isLast, Bool.or_eq_true, beq_iff_eq] at last
  rcases last with eof | error <;> simp [isComment, *]

/-- The loop ends within its bound and never calls `top`, `back` or `pop` on an
empty container. -/
theorem parse_returns (input : Text) :
    ∃ accepted tree, parse input [] = some (accepted, tree) := by
  obtain ⟨body, last, split, final, inner⟩ := significantTokens_shape input
  rw [parse_eq_significant, split]
  exact runTokens_returns body [] _ last consumed_start
    (fun token member => (inner token member).2) final (isComment_of_isLast final)

theorem parse_derives (input : Text) (tree : NginxConfig)
    (accepted : parse input [] = some (true, tree)) :
    ∃ body last, significantTokens input = body ++ [last] ∧ last.type = .eof ∧
      DerivesConfig body tree := by
  obtain ⟨body, last, split, final, inner⟩ := significantTokens_shape input
  rw [parse_eq_significant] at accepted
  have noComments : ∀ token ∈ significantTokens input, isComment token = false := by
    intro token member
    rw [split, List.mem_append, List.mem_singleton] at member
    rcases member with member | rfl
    · exact (inner token member).2
    · exact isComment_of_isLast final
  obtain ⟨before, eof, behind, parts, isEof, derives⟩ :=
    runTokens_derives _ tree [] _ consumed_start noComments accepted
  have behindNil : behind = [] := by
    by_contra more
    obtain ⟨rest, other, rfl⟩ := List.eq_nil_or_concat behind |>.resolve_left more
    have same : body = before ++ eof :: rest := by
      have whole := split.symm.trans parts
      simp only [List.concat_eq_append, ← List.cons_append, ← List.append_assoc] at whole
      exact (List.append_inj' whole rfl).1
    have notLast := (inner eof (by simp [same])).1
    simp [isLast, isEof] at notLast
  subst behindNil
  exact ⟨before, eof, parts, isEof, derives⟩

theorem derives_parse (input : Text) (tree : NginxConfig) (body : List Token)
    (last : Token) (split : significantTokens input = body ++ [last])
    (eof : last.type = .eof) (derives : DerivesConfig body tree) :
    parse input [] = some (true, tree) := by
  have starting : Startable .start := by simp [Startable]
  obtain ⟨final, complete, run⟩ := derives.run [] [] [last] starting
  have guard : final = .statementEnd ∨ final = .endBlock := complete
  rw [parse_eq_significant, split, run]
  simp [runTokens, turn, eof, onEof, guard, builtConfig, enclose]

/-- The parser accepts exactly the derivable texts, and builds the tree of the
derivation. -/
theorem parse_iff_derives (input : Text) :
    (∃ accepted tree, parse input [] = some (accepted, tree)) ∧
    ∀ tree, parse input [] = some (true, tree) ↔
      ∃ body last, significantTokens input = body ++ [last] ∧
        last.type = .eof ∧ DerivesConfig body tree := by
  refine ⟨parse_returns input, fun tree => ⟨parse_derives input tree, ?_⟩⟩
  rintro ⟨body, last, split, eof, derives⟩
  exact derives_parse input tree body last split eof derives

end BathroomRatings.Config
