import BathroomRatings.Config.Pointers

/-!
# What decides a run

Which turn follows depends on the types of the tokens and on the number of open blocks;
the values of the words reach the tree in the order in which they are read.
-/

set_option autoImplicit false

namespace BathroomRatings.Config

open Lexer

/-- The boolean that a turn returns, or the last token type and the number of open blocks
behind it. -/
def control (last : TokenType) (depth : Nat) (type : TokenType) :
    Except Bool (TokenType × Nat) :=
  match type with
  | .error | .start | .quotedString => .error false
  | .comment => .ok (last, depth)
  | .normal => if canFollowWithToken last then .ok (.normal, depth) else .error false
  | .statementEnd =>
      if isValidTokenPredecessor last then .ok (.statementEnd, depth) else .error false
  | .startBlock =>
      if isValidTokenPredecessor last then .ok (.startBlock, depth + 1) else .error false
  | .endBlock =>
      if last = .statementEnd ∨ last = .endBlock then
        if depth = 1 then .error false else .ok (.endBlock, depth - 1)
      else .error false
  | .eof =>
      if last = .statementEnd ∨ last = .endBlock then .error (depth == 1) else .error false

def ParserState.control (state : ParserState) (type : TokenType) :
    Except Bool (TokenType × Nat) :=
  Config.control state.lastTokenType state.configStack.length type

theorem turn_control {tokens : List Token} {state : ParserState}
    (consumed : Consumed tokens state) (token : Token) :
    (∃ next, turn state token = .running next ∧
      state.control token.type = .ok (next.lastTokenType, next.configStack.length)) ∨
    ∃ accepted, turn state token = .returned accepted ∧
      state.control token.type = .error accepted := by
  have kept := consumed
  obtain @⟨before, inside, top, outer, last, around, innermost⟩ := consumed
  obtain ⟨type, value⟩ := token
  cases type with
  | error | start | quotedString => exact Or.inr ⟨false, rfl, rfl⟩
  | comment => exact Or.inl ⟨_, rfl, rfl⟩
  | normal =>
      obtain ⟨next, running, further⟩ := kept.onNormal value
      left
      refine ⟨next, running, ?_⟩
      simp only [turn, normalToken, onNormal] at running
      split at running
      · rename_i follows
        split at running
        · exact absurd running (by simp)
        · obtain rfl := Turn.running.inj running
          simp only [ParserState.control, control, if_pos follows, List.length_cons]
      · exact absurd running (by simp)
  | statementEnd =>
      simp only [turn, ParserState.control, control]
      cases isValidTokenPredecessor last with
      | true => exact Or.inl ⟨_, rfl, rfl⟩
      | false => exact Or.inr ⟨false, rfl, rfl⟩
  | startBlock =>
      simp only [turn, onStartBlock, ParserState.control, control]
      cases valid : isValidTokenPredecessor last with
      | true =>
          obtain ⟨_, block, words, _, _, rfl, _, _⟩ := innermost.predecessor valid
          simp
      | false => exact Or.inr ⟨false, rfl, rfl⟩
  | endBlock =>
      simp only [turn, onEndBlock, ParserState.control, control]
      by_cases complete : last = .statementEnd ∨ last = .endBlock
      · rw [if_pos complete, if_pos complete]
        cases around with
        | nil => exact Or.inr ⟨false, rfl, rfl⟩
        | cons openBrace around statements nonempty => simp
      · rw [if_neg complete, if_neg complete]
        exact Or.inr ⟨false, rfl, rfl⟩
  | eof =>
      simp only [turn, onEof, ParserState.control, control]
      by_cases complete : last = .statementEnd ∨ last = .endBlock
      · rw [if_pos complete, if_pos complete]
        exact Or.inr ⟨_, rfl, rfl⟩
      · rw [if_neg complete, if_neg complete]
        exact Or.inr ⟨_, rfl, rfl⟩

def advance : List Token → ParserState → Option ParserState
  | [], state => some state
  | token :: rest, state =>
      match turn state token with
      | .running next => advance rest next
      | _ => none

theorem runTokens_of_advance {first : List Token} {state behind : ParserState}
    (ran : advance first state = some behind) (second : List Token) :
    runTokens (first ++ second) state = runTokens second behind := by
  induction first generalizing state with
  | nil => rw [← Option.some.inj ran, List.nil_append]
  | cons token first ih =>
      simp only [advance] at ran
      simp only [List.cons_append, runTokens]
      cases turned : turn state token with
      | running next =>
          rw [turned] at ran
          exact ih ran
      | returned accepted => simp [turned] at ran
      | undefined => simp [turned] at ran

theorem runTokens_of_stop {first : List Token} {state : ParserState}
    (stops : advance first state = none) (second : List Token) :
    runTokens (first ++ second) state = runTokens first state := by
  induction first generalizing state with
  | nil => simp [advance] at stops
  | cons token first ih =>
      simp only [advance] at stops
      simp only [List.cons_append, runTokens]
      cases turned : turn state token with
      | running next =>
          rw [turned] at stops
          exact ih stops
      | returned accepted => rfl
      | undefined => rfl

theorem advance_append (first second : List Token) (state : ParserState) :
    advance (first ++ second) state = (advance first state).bind (advance second) := by
  induction first generalizing state with
  | nil => rfl
  | cons token first ih =>
      simp only [List.cons_append, advance]
      cases turn state token with
      | running next => exact ih next
      | returned accepted | undefined => rfl

theorem advance_of_accepted {first second : List Token} {state : ParserState} {tree : NginxConfig}
    {read : List Token} (consumed : Consumed (significant read) state)
    (noEof : ∀ token ∈ first, token.type ≠ .eof)
    (accepted : runTokens (first ++ second) state = some (true, tree)) :
    ∃ behind, advance first state = some behind := by
  induction first generalizing read state with
  | nil => exact ⟨state, rfl⟩
  | cons token first ih =>
      simp only [List.cons_append, runTokens] at accepted
      simp only [advance]
      cases turned : turn state token with
      | running next =>
          rw [turned] at accepted
          exact ih (consumed.running turned)
            (fun other member => noEof other (List.mem_cons_of_mem _ member)) accepted
      | returned answer =>
          simp only [turned, Option.some.injEq, Prod.mk.injEq] at accepted
          obtain ⟨rfl, -⟩ := accepted
          exact absurd (consumed.accepts token turned).1 (noEof token List.mem_cons_self)
      | undefined => simp [turned] at accepted

theorem Consumed.advance {read first : List Token} {state behind : ParserState}
    (consumed : Consumed (significant read) state)
    (ran : Config.advance first state = some behind) :
    Consumed (significant (read ++ first)) behind := by
  induction first generalizing read state with
  | nil =>
      rw [← Option.some.inj ran, List.append_nil]
      exact consumed
  | cons token first ih =>
      simp only [Config.advance] at ran
      cases turned : Config.turn state token with
      | running next =>
          rw [turned] at ran
          have further := ih (consumed.running turned) ran
          rwa [List.append_assoc] at further
      | returned accepted => simp [turned] at ran
      | undefined => simp [turned] at ran

def SameTypes (first second : List Token) : Prop :=
  List.Forall₂ (fun token other => token.type = other.type) first second

/-- States between which no token type distinguishes. -/
structure Alike (state other : ParserState) : Prop where
  lastTokenType : state.lastTokenType = other.lastTokenType
  depth : state.configStack.length = other.configStack.length

theorem Alike.control {state other : ParserState} (alike : Alike state other)
    (type : TokenType) : state.control type = other.control type := by
  simp only [ParserState.control, alike.lastTokenType, alike.depth]

theorem Alike.turn {read read' : List Token} {state other : ParserState}
    (alike : Alike state other) (consumed : Consumed (significant read) state)
    (consumed' : Consumed (significant read') other) {token token' : Token}
    (same : token.type = token'.type) :
    (∃ next next', Config.turn state token = .running next ∧
      Config.turn other token' = .running next' ∧ Alike next next') ∨
    ∃ accepted, Config.turn state token = .returned accepted ∧
      Config.turn other token' = .returned accepted := by
  have controls := alike.control token.type
  rcases turn_control consumed token with ⟨next, ran, decided⟩ | ⟨accepted, ran, decided⟩ <;>
    rcases turn_control consumed' token' with
      ⟨next', ran', decided'⟩ | ⟨accepted', ran', decided'⟩ <;>
    rw [decided, same, decided'] at controls
  · obtain ⟨last, depth⟩ := Prod.mk.inj (Except.ok.inj controls)
    exact Or.inl ⟨next, next', ran, ran', last, depth⟩
  · exact absurd controls (by simp)
  · exact absurd controls (by simp)
  · obtain rfl := Except.error.inj controls
    exact Or.inr ⟨accepted, ran, ran'⟩

theorem Alike.advance {first second : List Token} (same : SameTypes first second)
    {read read' : List Token} {state other behind : ParserState} (alike : Alike state other)
    (consumed : Consumed (significant read) state)
    (consumed' : Consumed (significant read') other)
    (ran : Config.advance first state = some behind) :
    ∃ behind', Config.advance second other = some behind' ∧ Alike behind behind' := by
  induction same generalizing read read' state other with
  | nil => exact ⟨other, rfl, Option.some.inj ran ▸ alike⟩
  | @cons token token' first second types _ ih =>
      simp only [Config.advance] at ran ⊢
      rcases alike.turn consumed consumed' types with
        ⟨next, next', ran', ran'', alike'⟩ | ⟨accepted, ran', ran''⟩
      · rw [ran'] at ran
        rw [ran'']
        exact ih alike' (consumed.running ran') (consumed'.running ran'') ran
      · simp [ran'] at ran

/-! ## The words that are read -/

def normals (tokens : List Token) : List Text :=
  tokens.filterMap fun token => if token.type = .normal then some token.value else none

theorem normals_append (first second : List Token) :
    normals (first ++ second) = normals first ++ normals second :=
  List.filterMap_append

theorem normals_words (words : List Text) : normals (words.map normalToken) = words := by
  induction words with
  | nil => rfl
  | cons word words ih =>
      rw [List.map_cons]
      exact congrArg (word :: ·) ih

theorem normals_significant (read : List Token) : normals (significant read) = normals read := by
  induction read with
  | nil => rfl
  | cons token read ih =>
      have split : significant (token :: read) = significant [token] ++ significant read :=
        List.filter_append [token] read
      have split' : normals (token :: read) = normals [token] ++ normals read :=
        normals_append [token] read
      rw [split, normals_append, ih, split']
      congr 1
      cases comment : isComment token with
      | true =>
          have type : token.type = .comment := by simpa [isComment] using comment
          simp [significant, comment, normals, type]
      | false => simp [significant, comment]

theorem SameTypes.normals_length {first second : List Token} (same : SameTypes first second) :
    (normals first).length = (normals second).length := by
  induction same with
  | nil => rfl
  | cons types _ ih =>
      simp only [normals, List.filterMap_cons, types]
      split <;> simp_all [normals]

mutual

theorem DerivesConfig.words_eq {tokens : List Token} {config : NginxConfig}
    (derives : DerivesConfig tokens config) : NginxConfig.words config = normals tokens := by
  cases derives with
  | one first => simp [NginxConfig.words, first.words_eq]
  | more first others => simp [NginxConfig.words, first.words_eq, others.words_eq, normals_append]

theorem DerivesStatement.words_eq {tokens : List Token} {statement : NginxConfigStatement}
    (derives : DerivesStatement tokens statement) : statement.words = normals tokens := by
  cases derives with
  | plain words semicolon nonempty =>
      rw [normals_append, normals_words]
      exact (List.append_nil _).symm
  | block words openBrace closeBrace nonempty inside =>
      simp only [normals_append, normals_words, NginxConfigStatement.words, inside.words_eq]
      simp [normals]

end

theorem Statements.words_eq {tokens : List Token} {block : NginxConfig}
    (statements : Statements tokens block) : NginxConfig.words block = normals tokens := by
  induction statements with
  | nil => rfl
  | snoc complete last ih => rw [words_concat, normals_append, ih, last.words_eq]

theorem Innermost.words_eq {type : TokenType} {tokens : List Token} {block : NginxConfig}
    (innermost : Innermost type tokens block) : NginxConfig.words block = normals tokens := by
  cases innermost with
  | started | opened => rfl
  | completed complete statements nonempty => exact statements.words_eq
  | words statements nonempty =>
      rw [words_concat, normals_append, normals_words, statements.words_eq]
      rfl

theorem Around.words_eq {before : List Token} {outer : List NginxConfig}
    (around : Around before outer) (inner : NginxConfig) :
    NginxConfig.words (enclose inner outer) = normals before ++ NginxConfig.words inner := by
  induction around generalizing inner with
  | nil => rfl
  | @cons before tokens outer block words openBrace around statements nonempty ih =>
      have brace : normals [⟨.startBlock, openBrace⟩] = [] := rfl
      rw [enclose_last, ih, words_concat, statements.words_eq]
      simp only [normals_append, normals_words, brace, NginxConfigStatement.words,
        List.append_nil, List.append_assoc]

/-- The words of the tree under construction are those that were read. -/
theorem Consumed.words_eq {read : List Token} {state : ParserState}
    (consumed : Consumed (significant read) state) :
    NginxConfig.words (builtConfig state.configStack) = normals read := by
  rw [← normals_significant]
  generalize significant read = tokens at consumed
  obtain @⟨before, inside, top, outer, last, around, innermost⟩ := consumed
  exact (around.words_eq top).trans (by rw [innermost.words_eq, normals_append])

theorem runTokens_words {tokens : List Token} {read : List Token} {state : ParserState}
    (consumed : Consumed (significant read) state) {accepted : Bool} {tree : NginxConfig}
    (returns : runTokens tokens state = some (accepted, tree)) :
    ∃ more, NginxConfig.words tree = normals read ++ more := by
  induction tokens generalizing read state with
  | nil => simp [runTokens] at returns
  | cons token tokens ih =>
      simp only [runTokens] at returns
      cases turned : turn state token with
      | running next =>
          rw [turned] at returns
          obtain ⟨more, words⟩ := ih (consumed.running turned) returns
          exact ⟨normals [token] ++ more, by rw [words, normals_append, List.append_assoc]⟩
      | returned answer =>
          simp only [turned, Option.some.injEq, Prod.mk.injEq] at returns
          obtain ⟨-, rfl⟩ := returns
          exact ⟨[], by rw [consumed.words_eq, List.append_nil]⟩
      | undefined => simp [turned] at returns

/-- Behind a complete statement a closing brace for each open block ends the input. -/
theorem runTokens_close {before : List Token} {outer : List NginxConfig}
    (around : Around before outer) (top : NginxConfig) {last : TokenType}
    (complete : Complete last) :
    ∃ tree, runTokens (outer.map (fun _ => ⟨.endBlock, ['\x7d']⟩) ++ [⟨.eof, []⟩])
      ⟨top :: outer, last⟩ = some (true, tree) := by
  induction around generalizing top last with
  | nil =>
      have guard : last = .statementEnd ∨ last = .endBlock := complete
      exact ⟨_, by simp [runTokens, turn, onEof, guard]; rfl⟩
  | @cons before tokens outer block words openBrace around statements nonempty ih =>
      have guard : last = .statementEnd ∨ last = .endBlock := complete
      obtain ⟨tree, returns⟩ := ih (block ++ [.mk words (some top)]) (Or.inr rfl)
      refine ⟨tree, ?_⟩
      simpa [runTokens, turn, onEndBlock, guard, NginxConfigStatement.resetChild] using returns

end BathroomRatings.Config
