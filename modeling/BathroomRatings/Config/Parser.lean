import BathroomRatings.Config.Lexer

/-!
# The configuration parser

`NginxConfigParser::Parse` keeps a stack of pointers to the blocks that are still
open.  Here the stack holds their contents, innermost block first: the entry of
an open block stands for the child of the last statement of the entry below it,
and is stored there when the block is closed.

A call of `top` or `back` on an empty container has no defined result.  It and a
loop that outlives its bound are the two ways in which `parse` could return
nothing; neither happens (`parse_returns`).
-/

set_option autoImplicit false

namespace BathroomRatings.Config

open Lexer

inductive NginxConfigStatement where
  | mk (tokens : List Text) (childBlock : Option (List NginxConfigStatement))

abbrev NginxConfig := List NginxConfigStatement

mutual

def NginxConfigStatement.decEq : (first second : NginxConfigStatement) →
    Decidable (first = second)
  | .mk tokens none, .mk others none =>
      decidable_of_iff (tokens = others) (by simp)
  | .mk tokens (some child), .mk others (some otherChild) =>
      match NginxConfig.decEq child otherChild with
      | isTrue same => decidable_of_iff (tokens = others) (by simp [same])
      | isFalse differ => isFalse (by simp [differ])
  | .mk _ none, .mk _ (some _) => isFalse (by simp)
  | .mk _ (some _), .mk _ none => isFalse (by simp)

def NginxConfig.decEq : (first second : List NginxConfigStatement) →
    Decidable (first = second)
  | [], [] => isTrue rfl
  | [], _ :: _ => isFalse (by simp)
  | _ :: _, [] => isFalse (by simp)
  | statement :: rest, other :: others =>
      match NginxConfigStatement.decEq statement other with
      | isTrue same =>
          match NginxConfig.decEq rest others with
          | isTrue sameRest => isTrue (by rw [same, sameRest])
          | isFalse differ => isFalse (by simp [differ])
      | isFalse differ => isFalse (by simp [differ])

end

instance : DecidableEq NginxConfigStatement := NginxConfigStatement.decEq

namespace NginxConfigStatement

def pushToken (token : Text) : NginxConfigStatement → NginxConfigStatement
  | mk tokens childBlock => mk (tokens ++ [token]) childBlock

def resetChild (block : NginxConfig) : NginxConfigStatement → NginxConfigStatement
  | mk tokens _ => mk tokens (some block)

end NginxConfigStatement

def modifyBack {α : Type*} (change : α → α) (items : List α) : Option (List α) :=
  match items.getLast? with
  | none => none
  | some last => some (items.dropLast ++ [change last])

@[simp] theorem modifyBack_append {α : Type*} (change : α → α) (items : List α)
    (last : α) :
    modifyBack change (items ++ [last]) = some (items ++ [change last]) := by
  simp [modifyBack]

def isValidTokenPredecessor (type : TokenType) : Bool :=
  type == .normal || type == .quotedString

def canFollowWithToken (type : TokenType) : Bool :=
  type == .start || type == .statementEnd || type == .startBlock ||
    type == .endBlock || type == .normal || type == .quotedString

structure ParserState where
  configStack : List NginxConfig
  lastTokenType : TokenType

/-- One turn of the loop either goes on, returns, or calls `top` or `back` on an
empty container. -/
inductive Turn where
  | running (state : ParserState)
  | returned (accepted : Bool)
  | undefined

def onNormal (state : ParserState) (token : Text) : Turn :=
  if canFollowWithToken state.lastTokenType then
    match state.configStack with
    | [] => .undefined
    | top :: outer =>
        let statements :=
          if state.lastTokenType ≠ .normal then top ++ [.mk [] none] else top
        match modifyBack (NginxConfigStatement.pushToken token) statements with
        | none => .undefined
        | some statements => .running ⟨statements :: outer, .normal⟩
  else .returned false

def onStartBlock (state : ParserState) : Turn :=
  if isValidTokenPredecessor state.lastTokenType then
    match state.configStack with
    | [] => .undefined
    | top :: outer =>
        match modifyBack (NginxConfigStatement.resetChild []) top with
        | none => .undefined
        | some statements => .running ⟨[] :: statements :: outer, .startBlock⟩
  else .returned false

def onEndBlock (state : ParserState) : Turn :=
  if state.lastTokenType = .statementEnd ∨ state.lastTokenType = .endBlock then
    match state.configStack with
    | [] => .undefined
    | [_] => .returned false
    | block :: below :: outer =>
        match modifyBack (NginxConfigStatement.resetChild block) below with
        | none => .undefined
        | some statements => .running ⟨statements :: outer, .endBlock⟩
  else .returned false

def onEof (state : ParserState) : Turn :=
  if state.lastTokenType = .statementEnd ∨ state.lastTokenType = .endBlock then
    .returned (state.configStack.length == 1)
  else .returned false

def turn (state : ParserState) (token : Token) : Turn :=
  match token.type with
  | .error | .start | .quotedString => .returned false
  | .comment => .running state
  | .normal => onNormal state token.value
  | .statementEnd =>
      if isValidTokenPredecessor state.lastTokenType then
        .running { state with lastTokenType := .statementEnd }
      else .returned false
  | .startBlock => onStartBlock state
  | .endBlock => onEndBlock state
  | .eof => onEof state

/-- The tree the caller's `NginxConfig` holds: every open block is the child of
the last statement of the block around it. -/
def enclose (inner : NginxConfig) : List NginxConfig → NginxConfig
  | [] => inner
  | below :: outer =>
      enclose ((modifyBack (NginxConfigStatement.resetChild inner) below).getD below)
        outer

def builtConfig : List NginxConfig → NginxConfig
  | [] => []
  | top :: outer => enclose top outer

def parseLoop : Nat → Text → ParserState → Option (Bool × NginxConfig)
  | 0, _, _ => none
  | turns + 1, input, state =>
      match turn state (parseToken input).1 with
      | .running next => parseLoop turns (parseToken input).2 next
      | .returned accepted => some (accepted, builtConfig state.configStack)
      | .undefined => none

/-- The boolean `Parse` returns and the tree it leaves in `config`. -/
def parse (input : Text) (config : NginxConfig) : Option (Bool × NginxConfig) :=
  parseLoop (input.length + 1) input ⟨[config], .start⟩

def isLast (token : Token) : Bool := token.type == .eof || token.type == .error

def tokensLoop : Nat → Text → List Token
  | 0, _ => []
  | calls + 1, input =>
      if isLast (parseToken input).1 then [(parseToken input).1]
      else (parseToken input).1 :: tokensLoop calls (parseToken input).2

/-- The results of the successive `ParseToken` calls up to and including the
first `EOF` or `ERROR`. -/
def tokens (input : Text) : List Token := tokensLoop (input.length + 1) input

theorem isLast_eq_false {token : Token} (goesOn : isLast token = false) :
    token.type ≠ .error ∧ token.type ≠ .eof := by
  simp only [isLast, Bool.or_eq_false_iff, beq_eq_false_iff_ne] at goesOn
  exact ⟨goesOn.2, goesOn.1⟩

theorem parseToken_shorter (input : Text)
    (goesOn : isLast (parseToken input).1 = false) :
    (parseToken input).2.length < input.length :=
  parseToken_progress input (isLast_eq_false goesOn).1 (isLast_eq_false goesOn).2

theorem tokensLoop_enough (calls : Nat) (input : Text)
    (enough : input.length < calls) : tokensLoop calls input = tokens input := by
  induction calls using Nat.strong_induction_on generalizing input with
  | _ calls ih =>
      cases calls with
      | zero => omega
      | succ calls =>
          simp only [tokens, tokensLoop]
          cases last : isLast (parseToken input).1 with
          | true => rfl
          | false =>
              have shorter := parseToken_shorter input last
              have left := ih calls (by omega) (parseToken input).2 (by omega)
              by_cases same : input.length = calls
              · rw [same]
              · have right := ih input.length (by omega) (parseToken input).2 shorter
                rw [left, right]

theorem tokens_eq (input : Text) :
    tokens input =
      if isLast (parseToken input).1 then [(parseToken input).1]
      else (parseToken input).1 :: tokens (parseToken input).2 := by
  cases last : isLast (parseToken input).1 with
  | true => simp [tokens, tokensLoop, last]
  | false =>
      have shorter := parseToken_shorter input last
      rw [← tokensLoop_enough input.length _ shorter]
      simp [tokens, tokensLoop, last]

/-! ## The parser as a machine over tokens -/

def runTokens : List Token → ParserState → Option (Bool × NginxConfig)
  | [], _ => none
  | token :: rest, state =>
      match turn state token with
      | .running next => runTokens rest next
      | .returned accepted => some (accepted, builtConfig state.configStack)
      | .undefined => none

theorem turn_last {state next : ParserState} {token : Token}
    (last : isLast token = true) : turn state token ≠ .running next := by
  simp only [isLast, Bool.or_eq_true, beq_iff_eq] at last
  rcases last with eof | error
  · simp only [turn, eof, onEof]
    split <;> simp
  · simp [turn, error]

theorem parseLoop_eq_runTokens (turns : Nat) (input : Text) (state : ParserState)
    (enough : input.length < turns) :
    parseLoop turns input state = runTokens (tokens input) state := by
  induction turns generalizing input state with
  | zero => omega
  | succ turns ih =>
      rw [parseLoop, tokens_eq]
      cases last : isLast (parseToken input).1 with
      | true =>
          simp only [if_true, runTokens]
          cases result : turn state (parseToken input).1 with
          | running next => exact absurd result (turn_last last)
          | returned accepted => rfl
          | undefined => rfl
      | false =>
          have shorter := parseToken_shorter input last
          simp only [Bool.false_eq_true, if_false, runTokens]
          cases result : turn state (parseToken input).1 with
          | running next => exact ih _ next (by omega)
          | returned accepted => rfl
          | undefined => rfl

theorem parse_eq_runTokens (input : Text) (config : NginxConfig) :
    parse input config = runTokens (tokens input) ⟨[config], .start⟩ :=
  parseLoop_eq_runTokens _ input _ (Nat.lt_succ_self _)

def isComment (token : Token) : Bool := token.type == .comment

theorem runTokens_drop_comments (tokens : List Token) (state : ParserState) :
    runTokens (tokens.filter fun token => !isComment token) state =
      runTokens tokens state := by
  induction tokens generalizing state with
  | nil => rfl
  | cons token rest ih =>
      cases comment : isComment token with
      | true =>
          have type : token.type = .comment := by simpa [isComment] using comment
          simp [comment, runTokens, turn, type, ih]
      | false =>
          simp only [comment, Bool.not_false, List.filter_cons_of_pos, runTokens]
          cases turn state token with
          | running next => exact ih next
          | returned accepted => rfl
          | undefined => rfl

end BathroomRatings.Config
