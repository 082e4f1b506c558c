import BathroomRatings.Config.Printer

/-!
# The words of a tree

Every token of a tree that `Parse` leaves behind, accepted or not, was read by the
lexer, and so is not empty.
-/

set_option autoImplicit false

namespace BathroomRatings.Config

open Lexer

mutual

/-- The tokens of all statements, at every depth. -/
def NginxConfig.words : NginxConfig → List Text
  | [] => []
  | statement :: rest => NginxConfigStatement.words statement ++ NginxConfig.words rest

def NginxConfigStatement.words : NginxConfigStatement → List Text
  | .mk tokens none => tokens
  | .mk tokens (some childBlock) => tokens ++ NginxConfig.words childBlock

end

theorem words_append (first second : NginxConfig) :
    NginxConfig.words (first ++ second) =
      NginxConfig.words first ++ NginxConfig.words second := by
  induction first with
  | nil => rfl
  | cons statement first ih => simp [NginxConfig.words, ih]

theorem words_concat (block : NginxConfig) (last : NginxConfigStatement) :
    NginxConfig.words (block ++ [last]) = NginxConfig.words block ++ last.words := by
  simp [words_append, NginxConfig.words]

theorem mem_words {block : NginxConfig} {statement : NginxConfigStatement}
    (member : statement ∈ block) {w : Text} (inside : w ∈ statement.words) :
    w ∈ NginxConfig.words block := by
  obtain ⟨before, after, rfl⟩ := List.append_of_mem member
  simp [words_append, NginxConfig.words, inside]

theorem words_pushToken (token : Text) (statement : NginxConfigStatement) :
    ∀ w ∈ (statement.pushToken token).words, w ∈ statement.words ∨ w = token := by
  obtain ⟨tokens, childBlock⟩ := statement
  intro w member
  cases childBlock with
  | none => simpa [NginxConfigStatement.pushToken, NginxConfigStatement.words] using member
  | some child =>
      simp only [NginxConfigStatement.pushToken, NginxConfigStatement.words, List.mem_append,
        List.mem_singleton] at member ⊢
      tauto

theorem words_resetChild (block : NginxConfig) (statement : NginxConfigStatement) :
    ∀ w ∈ (statement.resetChild block).words,
      w ∈ statement.words ∨ w ∈ NginxConfig.words block := by
  obtain ⟨tokens, childBlock⟩ := statement
  intro w member
  simp only [NginxConfigStatement.resetChild, NginxConfigStatement.words,
    List.mem_append] at member
  rcases member with own | inside
  · cases childBlock with
    | none => exact Or.inl own
    | some child => exact Or.inl (List.mem_append_left _ own)
  · exact Or.inr inside

theorem modifyBack_eq_some {α : Type*} {change : α → α} {items result : List α}
    (changed : modifyBack change items = some result) :
    ∃ front last, items = front ++ [last] ∧ result = front ++ [change last] := by
  unfold modifyBack at changed
  cases found : items.getLast? with
  | none => simp [found] at changed
  | some last =>
      rw [found, Option.some.injEq] at changed
      obtain ⟨front, split⟩ := List.getLast?_eq_some_iff.mp found
      exact ⟨front, last, split, by rw [← changed, split, List.dropLast_concat]⟩

def Filled (block : NginxConfig) : Prop := ∀ w ∈ NginxConfig.words block, w ≠ []

theorem filled_nil : Filled [] := by simp [Filled, NginxConfig.words]

theorem filled_concat_iff (front : NginxConfig) (last : NginxConfigStatement) :
    Filled (front ++ [last]) ↔ Filled front ∧ ∀ w ∈ NginxConfigStatement.words last, w ≠ [] := by
  unfold Filled
  rw [words_concat, List.forall_mem_append]

theorem Filled.push {block result : NginxConfig} {token : Text} (filled : Filled block)
    (nonempty : token ≠ [])
    (pushed : modifyBack (NginxConfigStatement.pushToken token) block = some result) :
    Filled result := by
  obtain ⟨front, last, rfl, rfl⟩ := modifyBack_eq_some pushed
  obtain ⟨before, inLast⟩ := (filled_concat_iff front last).mp filled
  refine (filled_concat_iff _ _).mpr ⟨before, ?_⟩
  intro w member
  rcases words_pushToken token last w member with old | rfl
  · exact inLast w old
  · exact nonempty

theorem Filled.reset {block child result : NginxConfig} (filled : Filled block)
    (inside : Filled child)
    (closed : modifyBack (NginxConfigStatement.resetChild child) block = some result) :
    Filled result := by
  obtain ⟨front, last, rfl, rfl⟩ := modifyBack_eq_some closed
  obtain ⟨before, inLast⟩ := (filled_concat_iff front last).mp filled
  refine (filled_concat_iff _ _).mpr ⟨before, ?_⟩
  intro w member
  rcases words_resetChild child last w member with old | new
  · exact inLast w old
  · exact inside w new

theorem filled_onNormal {state next : ParserState} {token : Text} (nonempty : token ≠ [])
    (filled : ∀ block ∈ state.configStack, Filled block)
    (goesOn : onNormal state token = .running next) :
    ∀ block ∈ next.configStack, Filled block := by
  obtain ⟨stack, last⟩ := state
  simp only [onNormal] at goesOn
  split at goesOn
  · cases stack with
    | nil => exact absurd goesOn (by simp)
    | cons top outer =>
        have started : Filled (if last ≠ .normal then top ++ [.mk [] none] else top) := by
          have here := filled top List.mem_cons_self
          split
          · intro w member
            rw [words_concat] at member
            exact here w (by simpa [NginxConfigStatement.words] using member)
          · exact here
        simp only at goesOn
        split at goesOn
        · exact absurd goesOn (by simp)
        · rename_i statements pushed
          obtain rfl := Turn.running.inj goesOn
          exact List.forall_mem_cons.mpr ⟨started.push nonempty pushed,
            fun block member => filled block (List.mem_cons_of_mem _ member)⟩
  · exact absurd goesOn (by simp)

theorem filled_onStartBlock {state next : ParserState}
    (filled : ∀ block ∈ state.configStack, Filled block)
    (goesOn : onStartBlock state = .running next) :
    ∀ block ∈ next.configStack, Filled block := by
  obtain ⟨stack, last⟩ := state
  simp only [onStartBlock] at goesOn
  split at goesOn
  · cases stack with
    | nil => exact absurd goesOn (by simp)
    | cons top outer =>
        simp only at goesOn
        split at goesOn
        · exact absurd goesOn (by simp)
        · rename_i statements opened
          obtain rfl := Turn.running.inj goesOn
          have below := (filled top List.mem_cons_self).reset filled_nil opened
          exact List.forall_mem_cons.mpr ⟨filled_nil, List.forall_mem_cons.mpr ⟨below,
            fun block member => filled block (List.mem_cons_of_mem _ member)⟩⟩
  · exact absurd goesOn (by simp)

theorem filled_onEndBlock {state next : ParserState}
    (filled : ∀ block ∈ state.configStack, Filled block)
    (goesOn : onEndBlock state = .running next) :
    ∀ block ∈ next.configStack, Filled block := by
  obtain ⟨stack, last⟩ := state
  simp only [onEndBlock] at goesOn
  split at goesOn
  · rcases stack with _ | ⟨inner, _ | ⟨below, outer⟩⟩
    · exact absurd goesOn (by simp)
    · exact absurd goesOn (by simp)
    · simp only at goesOn
      split at goesOn
      · exact absurd goesOn (by simp)
      · rename_i statements closed
        obtain rfl := Turn.running.inj goesOn
        have around := (filled below (by simp)).reset (filled inner (by simp)) closed
        exact List.forall_mem_cons.mpr ⟨around,
          fun block member => filled block (by simp [member])⟩
  · exact absurd goesOn (by simp)

theorem filled_turn {state next : ParserState} {token : Token} (lexical : Lexical token)
    (filled : ∀ block ∈ state.configStack, Filled block)
    (goesOn : turn state token = .running next) :
    ∀ block ∈ next.configStack, Filled block := by
  obtain ⟨type, value⟩ := token
  cases type with
  | normal =>
      have nonempty : value ≠ [] := List.length_pos_iff.mp (Lexeme.length_pos lexical)
      exact filled_onNormal nonempty filled goesOn
  | startBlock => exact filled_onStartBlock filled goesOn
  | endBlock => exact filled_onEndBlock filled goesOn
  | comment =>
      obtain rfl := Turn.running.inj goesOn
      exact filled
  | statementEnd =>
      simp only [turn] at goesOn
      split at goesOn
      · obtain rfl := Turn.running.inj goesOn
        exact filled
      · exact absurd goesOn (by simp)
  | error | start | quotedString => exact absurd goesOn (by simp [turn])
  | eof => exact absurd goesOn (turn_last rfl)

theorem filled_enclose {inner : NginxConfig} {outer : List NginxConfig}
    (filled : ∀ block ∈ inner :: outer, Filled block) : Filled (enclose inner outer) := by
  induction outer generalizing inner with
  | nil => exact filled inner List.mem_cons_self
  | cons below outer ih =>
      apply ih
      have own := filled below (by simp)
      refine List.forall_mem_cons.mpr ⟨?_, fun block member => filled block (by simp [member])⟩
      cases closed : modifyBack (NginxConfigStatement.resetChild inner) below with
      | none => exact own
      | some result => exact own.reset (filled inner List.mem_cons_self) closed

theorem filled_runTokens (tokens : List Token) (lexical : ∀ token ∈ tokens, Lexical token)
    (state : ParserState) (filled : ∀ block ∈ state.configStack, Filled block)
    (accepted : Bool) (tree : NginxConfig)
    (returns : runTokens tokens state = some (accepted, tree)) : Filled tree := by
  induction tokens generalizing state with
  | nil => exact absurd returns (by simp [runTokens])
  | cons token tokens ih =>
      have first := lexical token List.mem_cons_self
      have others : ∀ other ∈ tokens, Lexical other := fun other member =>
        lexical other (List.mem_cons_of_mem _ member)
      simp only [runTokens] at returns
      cases next : turn state token with
      | running reached =>
          rw [next] at returns
          exact ih others reached (filled_turn first filled next) returns
      | returned result =>
          simp only [next, Option.some.injEq, Prod.mk.injEq] at returns
          rw [← returns.2]
          cases stack : state.configStack with
          | nil => exact filled_nil
          | cons top outer => exact filled_enclose (stack ▸ filled)
      | undefined => simp [next] at returns

/-- No tree of `Parse` has an empty token. -/
theorem parse_filled (input : Text) (accepted : Bool) (tree : NginxConfig)
    (returns : parse input [] = some (accepted, tree)) : Filled tree := by
  rw [parse_eq_runTokens] at returns
  refine filled_runTokens _ (tokens_lexical input) _ ?_ accepted tree returns
  intro block member
  obtain rfl := List.mem_singleton.mp member
  exact filled_nil

end BathroomRatings.Config
