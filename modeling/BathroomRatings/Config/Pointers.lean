import BathroomRatings.Config.Words

/-!
# The loop over pointers

`Parse` keeps a stack of raw pointers into the tree that it builds.  A pointer is
the way from the caller's `NginxConfig` down to a block: the statement of each block
whose child it enters.  Here the loop is embedded with its pointers; the loop over the
contents of the open blocks takes the same turns (`loopTurn_pointing`), and from it the
pointers are at every iteration the chain of the open blocks.
-/

set_option autoImplicit false

namespace BathroomRatings.Config

open Lexer

abbrev BlockPointer := List Nat

def NginxConfigStatement.childBlock : NginxConfigStatement → Option NginxConfig
  | .mk _ childBlock => childBlock

def blockAt : BlockPointer → NginxConfig → Option NginxConfig
  | [], statements => some statements
  | index :: pointer, statements => do
      let statement ← statements[index]?
      let child ← statement.childBlock
      blockAt pointer child

def modifyAt (change : NginxConfig → Option NginxConfig) :
    BlockPointer → NginxConfig → Option NginxConfig
  | [], statements => change statements
  | index :: pointer, statements => do
      let statement ← statements[index]?
      let child ← statement.childBlock
      let child ← modifyAt change pointer child
      pure (statements.set index (statement.resetChild child))

structure LoopState where
  config : NginxConfig
  configStack : List BlockPointer
  lastTokenType : TokenType

/-- A config without statements, and a pointer to it. -/
def LoopState.fresh : LoopState := ⟨[], [[]], .start⟩

inductive LoopTurn where
  | running (state : LoopState)
  | returned (accepted : Bool)
  | undefined

namespace LoopState

/-- A change of `config_stack.top()->statements_`. -/
def modifyTop (state : LoopState) (change : NginxConfig → Option NginxConfig) :
    Option NginxConfig :=
  match state.configStack with
  | [] => none
  | top :: _ => modifyAt change top state.config

def onNormal (state : LoopState) (token : Text) : LoopTurn :=
  if canFollowWithToken state.lastTokenType then
    let pushed := state.modifyTop fun statements =>
      modifyBack (NginxConfigStatement.pushToken token)
        (if state.lastTokenType ≠ .normal then statements ++ [.mk [] none] else statements)
    match pushed with
    | none => .undefined
    | some config => .running { state with config := config, lastTokenType := .normal }
  else .returned false

/-- `reset` destroys the child the last statement had, if it had one. -/
def onStartBlock (state : LoopState) : LoopTurn :=
  if isValidTokenPredecessor state.lastTokenType then
    match state.configStack with
    | [] => .undefined
    | top :: outer =>
        match blockAt top state.config,
          state.modifyTop (modifyBack (NginxConfigStatement.resetChild [])) with
        | some statements, some config =>
            .running ⟨config, (top ++ [statements.length - 1]) :: top :: outer, .startBlock⟩
        | _, _ => .undefined
  else .returned false

def onEndBlock (state : LoopState) : LoopTurn :=
  if state.lastTokenType = .statementEnd ∨ state.lastTokenType = .endBlock then
    if state.configStack.length = 1 then .returned false
    else
      match state.configStack with
      | [] => .undefined
      | _ :: outer => .running { state with configStack := outer, lastTokenType := .endBlock }
  else .returned false

def onEof (state : LoopState) : LoopTurn :=
  if state.lastTokenType = .statementEnd ∨ state.lastTokenType = .endBlock then
    .returned (state.configStack.length == 1)
  else .returned false

end LoopState

def loopTurn (state : LoopState) (token : Token) : LoopTurn :=
  match token.type with
  | .error | .start | .quotedString => .returned false
  | .comment => .running state
  | .normal => state.onNormal token.value
  | .statementEnd =>
      if isValidTokenPredecessor state.lastTokenType then
        .running { state with lastTokenType := .statementEnd }
      else .returned false
  | .startBlock => state.onStartBlock
  | .endBlock => state.onEndBlock
  | .eof => state.onEof

def loop : Nat → Text → LoopState → Option (Bool × NginxConfig)
  | 0, _, _ => none
  | calls + 1, input, state =>
      match loopTurn state (parseToken input).1 with
      | .running next => loop calls (parseToken input).2 next
      | .returned accepted => some (accepted, state.config)
      | .undefined => none

/-- The iterations of the loop: the tokens read before one, the input it reads from and
its state. -/
inductive Iteration (input : Text) : List Token → Text → LoopState → Prop where
  | first : Iteration input [] input .fresh
  | next {read : List Token} {rest : Text} {state behind : LoopState}
      (iteration : Iteration input read rest state)
      (goesOn : loopTurn state (parseToken rest).1 = .running behind) :
      Iteration input (read ++ [(parseToken rest).1]) (parseToken rest).2 behind

theorem blockAt_append (first second : BlockPointer) (statements : NginxConfig) :
    blockAt (first ++ second) statements = (blockAt first statements).bind (blockAt second) := by
  induction first generalizing statements with
  | nil => rfl
  | cons index first ih =>
      simp only [List.cons_append, blockAt, ih]
      cases statements[index]? with
      | none => rfl
      | some statement =>
          change (statement.childBlock.bind _) = (statement.childBlock.bind _).bind _
          rw [Option.bind_assoc]

theorem modifyAt_append (change : NginxConfig → Option NginxConfig)
    (first second : BlockPointer) (statements : NginxConfig) :
    modifyAt change (first ++ second) statements =
      modifyAt (modifyAt change second) first statements := by
  induction first generalizing statements with
  | nil => rfl
  | cons index first ih => simp only [List.cons_append, modifyAt, ih]

section LastChild

variable (front : NginxConfig) (tokens : List Text) (child : NginxConfig)

theorem blockAt_last :
    blockAt [front.length] (front ++ [.mk tokens (some child)]) = some child := by
  simp [blockAt, NginxConfigStatement.childBlock]

theorem modifyAt_last (change : NginxConfig → Option NginxConfig) :
    modifyAt change [front.length] (front ++ [.mk tokens (some child)]) =
      (change child).map fun changed => front ++ [.mk tokens (some changed)] := by
  cases result : change child <;>
    simp [modifyAt, NginxConfigStatement.childBlock, NginxConfigStatement.resetChild, result]

end LastChild

/-! ## The pointers of the open blocks -/

/-- The block inside which another one is open: its last statement has a child. -/
def Enclosing (block : NginxConfig) : Prop :=
  ∃ front tokens child, block = front ++ [.mk tokens (some child)]

/-- The pointer to the block that is open inside these ones. -/
def addressOf : List NginxConfig → BlockPointer
  | [] => []
  | below :: outer => addressOf outer ++ [below.length - 1]

def addresses : List NginxConfig → List BlockPointer
  | [] => []
  | _ :: outer => addressOf outer :: addresses outer

theorem enclose_last (inner front : NginxConfig) (tokens : List Text) (child : NginxConfig)
    (outer : List NginxConfig) :
    enclose inner ((front ++ [.mk tokens (some child)]) :: outer) =
      enclose (front ++ [.mk tokens (some inner)]) outer := by
  simp [enclose, NginxConfigStatement.resetChild]

theorem addressOf_last (front : NginxConfig) (last : NginxConfigStatement)
    (outer : List NginxConfig) :
    addressOf ((front ++ [last]) :: outer) = addressOf outer ++ [front.length] := by
  simp [addressOf]

theorem blockAt_enclose (inner : NginxConfig) (outer : List NginxConfig)
    (enclosing : ∀ block ∈ outer, Enclosing block) :
    blockAt (addressOf outer) (enclose inner outer) = some inner := by
  induction outer generalizing inner with
  | nil => rfl
  | cons below outer ih =>
      obtain ⟨⟨front, tokens, child, rfl⟩, outside⟩ := List.forall_mem_cons.mp enclosing
      rw [enclose_last, addressOf_last, blockAt_append, ih _ outside]
      exact blockAt_last front tokens inner

theorem modifyAt_enclose (change : NginxConfig → Option NginxConfig) (inner : NginxConfig)
    (outer : List NginxConfig) (enclosing : ∀ block ∈ outer, Enclosing block) :
    modifyAt change (addressOf outer) (enclose inner outer) =
      (change inner).map fun changed => enclose changed outer := by
  induction outer generalizing inner change with
  | nil => simp [addressOf, enclose, modifyAt]
  | cons below outer ih =>
      obtain ⟨⟨front, tokens, child, rfl⟩, outside⟩ := List.forall_mem_cons.mp enclosing
      rw [enclose_last, addressOf_last, modifyAt_append, ih _ _ outside, modifyAt_last]
      cases change inner with
      | none => rfl
      | some changed => exact congrArg some (enclose_last changed front tokens child outer).symm

/-- Every pointer but the outermost leads to the child of the last statement of the block
that the one below it leads to; the outermost is the caller's. -/
def OpenChain (config : NginxConfig) : List BlockPointer → Prop
  | [] => False
  | [outermost] => outermost = []
  | pointer :: below :: outer =>
      (∃ front tokens child, blockAt below config = some (front ++ [.mk tokens (some child)]) ∧
        pointer = below ++ [front.length]) ∧ OpenChain config (below :: outer)

theorem openChain_enclose (inner : NginxConfig) (outer : List NginxConfig)
    (enclosing : ∀ block ∈ outer, Enclosing block) :
    OpenChain (enclose inner outer) (addresses (inner :: outer)) := by
  induction outer generalizing inner with
  | nil => rfl
  | cons below outer ih =>
      obtain ⟨⟨front, tokens, child, rfl⟩, outside⟩ := List.forall_mem_cons.mp enclosing
      rw [enclose_last]
      refine ⟨⟨front, tokens, inner, blockAt_enclose _ outer outside, ?_⟩, ih _ outside⟩
      exact addressOf_last front _ outer

def pointing (contents : ParserState) : LoopState :=
  ⟨builtConfig contents.configStack, addresses contents.configStack, contents.lastTokenType⟩

def Turn.pointing : Turn → LoopTurn
  | .running next => .running (Config.pointing next)
  | .returned accepted => .returned accepted
  | .undefined => .undefined

theorem pointing_lastTokenType (stack : List NginxConfig) (last : TokenType) :
    (pointing ⟨stack, last⟩).lastTokenType = last := rfl

theorem addresses_length (stack : List NginxConfig) : (addresses stack).length = stack.length := by
  induction stack with
  | nil => rfl
  | cons _ outer ih => simp [addresses, ih]

theorem Around.enclosing {before : List Token} {outer : List NginxConfig}
    (around : Around before outer) : ∀ block ∈ outer, Enclosing block := by
  induction around with
  | nil => simp
  | cons _ _ _ _ ih => exact List.forall_mem_cons.mpr ⟨⟨_, _, _, rfl⟩, ih⟩

theorem modifyTop_pointing {before : List Token} {outer : List NginxConfig}
    (around : Around before outer) (top : NginxConfig) (last : TokenType)
    (change : NginxConfig → Option NginxConfig) :
    (pointing ⟨top :: outer, last⟩).modifyTop change =
      (change top).map fun changed => enclose changed outer :=
  modifyAt_enclose change top outer around.enclosing

theorem onNormal_pointing {before : List Token} {outer : List NginxConfig}
    (around : Around before outer) (top : NginxConfig) (last : TokenType) (token : Text) :
    (pointing ⟨top :: outer, last⟩).onNormal token =
      (onNormal ⟨top :: outer, last⟩ token).pointing := by
  simp only [LoopState.onNormal, onNormal, modifyTop_pointing around]
  rw [pointing_lastTokenType]
  by_cases valid : canFollowWithToken last = true
  · rw [if_pos valid, if_pos valid]
    cases modifyBack (NginxConfigStatement.pushToken token)
      (if last ≠ .normal then top ++ [.mk [] none] else top) <;> rfl
  · rw [if_neg valid, if_neg valid]
    rfl

theorem onStartBlock_pointing {before : List Token} {outer : List NginxConfig}
    (around : Around before outer) (top : NginxConfig) (last : TokenType) :
    (pointing ⟨top :: outer, last⟩).onStartBlock =
      (onStartBlock ⟨top :: outer, last⟩).pointing := by
  have here : blockAt (addressOf outer) (enclose top outer) = some top :=
    blockAt_enclose top outer around.enclosing
  simp only [LoopState.onStartBlock, onStartBlock, modifyTop_pointing around]
  rw [pointing_lastTokenType]
  by_cases valid : isValidTokenPredecessor last = true
  · rw [if_pos valid, if_pos valid]
    simp only [pointing, addresses, builtConfig, here]
    cases opened : modifyBack (NginxConfigStatement.resetChild []) top with
    | none => rfl
    | some statements =>
        obtain ⟨front, statement, rfl, rfl⟩ := modifyBack_eq_some opened
        obtain ⟨tokens, child⟩ := statement
        have config := enclose_last [] front tokens [] outer
        have address := addressOf_last front (.mk tokens (some [])) outer
        simp only [Option.map_some, Turn.pointing, Config.pointing, builtConfig, addresses,
          NginxConfigStatement.resetChild, config, address, List.length_append,
          List.length_singleton, Nat.add_sub_cancel]
  · rw [if_neg valid, if_neg valid]
    rfl

theorem onEndBlock_pointing {tokens : List Token} {contents : ParserState}
    (consumed : Consumed tokens contents) :
    (pointing contents).onEndBlock = (onEndBlock contents).pointing := by
  obtain @⟨before, inside, top, outer, last, around, innermost⟩ := consumed
  simp only [LoopState.onEndBlock, onEndBlock]
  rw [pointing_lastTokenType]
  by_cases complete : last = .statementEnd ∨ last = .endBlock
  · rw [if_pos complete, if_pos complete]
    cases around with
    | nil => rfl
    | cons openBrace around statements nonempty =>
        simp [pointing, addresses, Turn.pointing, builtConfig, enclose,
          NginxConfigStatement.resetChild]
  · rw [if_neg complete, if_neg complete]
    rfl

theorem loopTurn_pointing {tokens : List Token} {contents : ParserState}
    (consumed : Consumed tokens contents) (token : Token) :
    loopTurn (pointing contents) token = (turn contents token).pointing := by
  have whole := consumed
  obtain @⟨before, inside, top, outer, last, around, innermost⟩ := consumed
  obtain ⟨type, value⟩ := token
  cases type with
  | error | start | quotedString | comment => rfl
  | normal => exact onNormal_pointing around top last value
  | startBlock => exact onStartBlock_pointing around top last
  | endBlock => exact onEndBlock_pointing whole
  | statementEnd =>
      simp only [loopTurn, turn]
      rw [pointing_lastTokenType]
      cases isValidTokenPredecessor last <;> rfl
  | eof =>
      have length : (pointing ⟨top :: outer, last⟩).configStack.length = (top :: outer).length :=
        addresses_length (top :: outer)
      simp only [loopTurn, turn, LoopState.onEof, onEof, length]
      rw [pointing_lastTokenType]
      by_cases complete : last = .statementEnd ∨ last = .endBlock
      · rw [if_pos complete, if_pos complete]
        rfl
      · rw [if_neg complete, if_neg complete]
        rfl

/-! ## Every iteration -/

def significant (read : List Token) : List Token := read.filter fun token => !isComment token

def lastType (read : List Token) : TokenType :=
  ((significant read).getLast?.map Token.type).getD .start

/-- What holds at an iteration, and of the `ParseToken` call that it makes. -/
structure SafeIteration (input : Text) (read : List Token) (rest : Text)
    (state : LoopState) : Prop where
  memory : state.lastTokenType = lastType read
  nonempty : state.configStack ≠ []
  chain : OpenChain state.config state.configStack
  /-- One entry for each brace that was opened and not closed, and one for the caller's. -/
  depth : state.configStack.length + read.countP (fun token => token.type = .endBlock) =
    read.countP (fun token => token.type = .startBlock) + 1
  /-- A last token `NORMAL` lies in the last statement of the top block. -/
  word : state.lastTokenType = .normal → ∃ top outer front tokens,
    state.configStack = top :: outer ∧
      blockAt top state.config = some (front ++ [.mk tokens none]) ∧ tokens ≠ []
  defined : loopTurn state (parseToken rest).1 ≠ .undefined
  /-- A block is opened behind a statement that has none. -/
  reset : (parseToken rest).1.type = .startBlock →
    (∃ next, loopTurn state (parseToken rest).1 = .running next) →
      ∃ top outer front tokens, state.configStack = top :: outer ∧
        blockAt top state.config = some (front ++ [.mk tokens none])
  consumes : (∃ next, loopTurn state (parseToken rest).1 = .running next) →
    (parseToken rest).2.length < rest.length
  few : read.length + rest.length ≤ input.length

theorem running_of_pointing {tokens : List Token} {contents : ParserState}
    (consumed : Consumed tokens contents) {token : Token} {next : LoopState}
    (goesOn : loopTurn (pointing contents) token = .running next) :
    ∃ contents', turn contents token = .running contents' ∧ next = pointing contents' := by
  rw [loopTurn_pointing consumed] at goesOn
  cases turned : turn contents token with
  | running contents' =>
      rw [turned] at goesOn
      exact ⟨contents', rfl, (LoopTurn.running.inj goesOn).symm⟩
  | returned accepted => exact absurd goesOn (by simp [turned, Turn.pointing])
  | undefined => exact absurd goesOn (by simp [turned, Turn.pointing])

/-- A turn that the loop goes on from keeps the invariant of the contents, also when its
token is a comment. -/
theorem Consumed.running {read : List Token} {contents contents' : ParserState} {token : Token}
    (consumed : Consumed (significant read) contents)
    (turned : Config.turn contents token = .running contents') :
    Consumed (significant (read ++ [token])) contents' := by
  cases comment : isComment token with
  | true =>
      have type : token.type = .comment := by simpa [isComment] using comment
      have same : contents = contents' := by simpa [Config.turn, type] using turned
      simpa [significant, comment, ← same] using consumed
  | false =>
      rcases consumed.turn token comment with ⟨next, running, further⟩ | ⟨accepted, returned⟩
      · obtain rfl := Turn.running.inj (running.symm.trans turned)
        simpa [significant, comment] using further
      · exact absurd (returned.symm.trans turned) (by simp)

/-- Only comments leave the last token type, and only braces change the height of the
stack. -/
theorem loopTurn_running {state next : LoopState} {token : Token}
    (goesOn : loopTurn state token = .running next) :
    next.lastTokenType = (if isComment token then state.lastTokenType else token.type) ∧
    next.configStack.length + (if token.type = .endBlock then 1 else 0) =
      state.configStack.length + (if token.type = .startBlock then 1 else 0) := by
  obtain ⟨type, value⟩ := token
  cases type with
  | error | start | quotedString => exact absurd goesOn (by simp [loopTurn])
  | comment =>
      obtain rfl := LoopTurn.running.inj goesOn
      simp [isComment]
  | normal =>
      simp only [loopTurn, LoopState.onNormal] at goesOn
      split at goesOn
      · split at goesOn
        · exact absurd goesOn (by simp)
        · obtain rfl := LoopTurn.running.inj goesOn
          simp [isComment]
      · exact absurd goesOn (by simp)
  | statementEnd =>
      simp only [loopTurn] at goesOn
      split at goesOn
      · obtain rfl := LoopTurn.running.inj goesOn
        simp [isComment]
      · exact absurd goesOn (by simp)
  | startBlock =>
      simp only [loopTurn, LoopState.onStartBlock] at goesOn
      split at goesOn
      · split at goesOn
        · exact absurd goesOn (by simp)
        · rename_i stack
          split at goesOn
          · obtain rfl := LoopTurn.running.inj goesOn
            simp [stack, isComment]
          · exact absurd goesOn (by simp)
      · exact absurd goesOn (by simp)
  | endBlock =>
      simp only [loopTurn, LoopState.onEndBlock] at goesOn
      split at goesOn
      · split at goesOn
        · exact absurd goesOn (by simp)
        · split at goesOn
          · exact absurd goesOn (by simp)
          · rename_i stack
            obtain rfl := LoopTurn.running.inj goesOn
            simp [stack, isComment]
      · exact absurd goesOn (by simp)
  | eof =>
      simp only [loopTurn, LoopState.onEof] at goesOn
      split at goesOn <;> exact absurd goesOn (by simp)

theorem loopTurn_notLast {tokens : List Token} {contents : ParserState}
    (consumed : Consumed tokens contents) {token : Token} {next : LoopState}
    (goesOn : loopTurn (pointing contents) token = .running next) : isLast token = false := by
  obtain ⟨contents', turned, -⟩ := running_of_pointing consumed goesOn
  cases last : isLast token with
  | false => rfl
  | true => exact absurd turned (turn_last last)

theorem lastType_append (read : List Token) (token : Token) :
    lastType (read ++ [token]) = if isComment token then lastType read else token.type := by
  cases comment : isComment token <;> simp [lastType, significant, comment]

theorem Iteration.contents {input rest : Text} {read : List Token} {state : LoopState}
    (iteration : Iteration input read rest state) :
    read.length + rest.length ≤ input.length ∧ state.lastTokenType = lastType read ∧
      state.configStack.length + read.countP (fun token => token.type = .endBlock) =
        read.countP (fun token => token.type = .startBlock) + 1 ∧
      ∃ contents, state = pointing contents ∧ Consumed (significant read) contents := by
  induction iteration with
  | first => exact ⟨by simp, rfl, rfl, ⟨[[]], .start⟩, rfl, consumed_start⟩
  | @next read rest state behind iteration goesOn ih =>
      obtain ⟨few, memory, depth, contents, rfl, consumed⟩ := ih
      have shorter := parseToken_shorter rest (loopTurn_notLast consumed goesOn)
      obtain ⟨type, height⟩ := loopTurn_running goesOn
      obtain ⟨contents', turned, rfl⟩ := running_of_pointing consumed goesOn
      refine ⟨?_, ?_, ?_, contents', rfl, consumed.running turned⟩
      · rw [List.length_append, List.length_singleton]
        omega
      · rw [type, lastType_append, memory]
      · simp only [List.countP_append, List.countP_singleton, decide_eq_true_eq]
        omega

theorem Iteration.safe {input rest : Text} {read : List Token} {state : LoopState}
    (iteration : Iteration input read rest state) : SafeIteration input read rest state := by
  obtain ⟨few, memory, depth, contents, rfl, consumed⟩ := iteration.contents
  have kept := consumed
  generalize significant read = tokens at consumed kept
  obtain @⟨before, inside, top, outer, last, around, innermost⟩ := consumed
  have here : blockAt (addressOf outer) (enclose top outer) = some top :=
    blockAt_enclose top outer around.enclosing
  have word : isValidTokenPredecessor last = true → ∃ front tokens,
      top = front ++ [.mk tokens none] ∧ tokens ≠ [] := by
    intro valid
    obtain ⟨_, front, words, _, _, rfl, _, nonempty⟩ := innermost.predecessor valid
    exact ⟨front, words, rfl, nonempty⟩
  refine ⟨memory, by simp [pointing, addresses], openChain_enclose top outer around.enclosing,
    depth, ?_, ?_, ?_, ?_, few⟩
  · intro normal
    obtain ⟨front, words, rfl, nonempty⟩ := word (by
      have same : last = .normal := normal
      simp [same, isValidTokenPredecessor])
    exact ⟨addressOf outer, addresses outer, front, words, rfl, here, nonempty⟩
  · rw [loopTurn_pointing kept]
    cases comment : isComment (parseToken rest).1 with
    | true =>
        have type : (parseToken rest).1.type = .comment := by simpa [isComment] using comment
        simp [turn, type, Turn.pointing]
    | false =>
        rcases kept.turn (parseToken rest).1 comment with
          ⟨next, running, _⟩ | ⟨accepted, returned⟩
        · simp [running, Turn.pointing]
        · simp [returned, Turn.pointing]
  · intro opens goesOn
    obtain ⟨next, goesOn⟩ := goesOn
    have valid : isValidTokenPredecessor last = true := by
      by_contra invalid
      simp only [loopTurn, opens, LoopState.onStartBlock] at goesOn
      rw [pointing_lastTokenType, if_neg invalid] at goesOn
      exact absurd goesOn (by simp)
    obtain ⟨front, words, rfl, _⟩ := word valid
    exact ⟨addressOf outer, addresses outer, front, words, rfl, here⟩
  · intro goesOn
    obtain ⟨next, goesOn⟩ := goesOn
    exact parseToken_shorter rest (loopTurn_notLast kept goesOn)

/-- With one call of `ParseToken` more than there are characters. -/
def loopParse (input : Text) : Option (Bool × NginxConfig) :=
  loop (input.length + 1) input .fresh

theorem loop_pointing (calls : Nat) (input : Text) (read : List Token) (contents : ParserState)
    (consumed : Consumed (significant read) contents) :
    loop calls input (pointing contents) = parseLoop calls input contents := by
  induction calls generalizing input read contents with
  | zero => rfl
  | succ calls ih =>
      rw [loop, parseLoop, loopTurn_pointing consumed]
      cases turned : turn contents (parseToken input).1 with
      | running contents' => exact ih _ _ contents' (consumed.running turned)
      | returned accepted => rfl
      | undefined => rfl

/-- The loop over pointers returns what the one over contents returns. -/
theorem loopParse_eq_parse (input : Text) : loopParse input = parse input [] :=
  loop_pointing _ input [] ⟨[[]], .start⟩ consumed_start

/-- The loop over pointers is safe at every iteration and ends. -/
theorem loop_safe (input : Text) :
    (∀ read rest state, Iteration input read rest state → SafeIteration input read rest state) ∧
      ∃ accepted tree, loopParse input = some (accepted, tree) := by
  refine ⟨fun read rest state iteration => iteration.safe, ?_⟩
  rw [loopParse_eq_parse]
  exact parse_returns input

end BathroomRatings.Config
