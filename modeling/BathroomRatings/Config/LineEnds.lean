import BathroomRatings.Config.Filler
import BathroomRatings.Config.Control

/-!
# Line ends

CR is white space between tokens and ends a comment, but it is no delimiter: in front
of an LF it becomes the last character of a bare word that the LF would have ended.
Apart from these words, a text without quotes reads the same with LF and with CRLF.
-/

set_option autoImplicit false

namespace BathroomRatings.Config

open BathroomRatings.Lib Lexer LexState

/-- A line end is written CRLF. -/
def crlf (c : Char) : Text := if c = '\n' then ['\r', '\n'] else [c]

def withCrlf (text : Text) : Text := text.flatMap crlf

def Unquoted (c : Char) : Prop := c ≠ '\x22' ∧ c ≠ '\x27' ∧ c ≠ '\r'

/-- A text that can be continued to a configuration of the grammar. -/
def Continues (text : Text) : Prop :=
  ∃ rest body last tree, significantTokens (text ++ rest) = body ++ [last] ∧
    last.type = .eof ∧ DerivesConfig body tree

def ReadsAlike (text : Text) : Prop :=
  ∃ accepted tree, parse text [] = some (accepted, tree) ∧
    parse (withCrlf text) [] = some (accepted, tree)

/-- An LF directly behind a bare word, where a configuration may still be read. -/
def LineEndsWord (text : Text) : Prop :=
  ∃ front back, text = front ++ '\n' :: back ∧ scan .between front = .word ∧ Continues front

/-! ## The lexer on both texts -/

inductive LexState.Plain : LexState → Prop where
  | initial : Plain .initial
  | comment (value : Text) : Plain (.reading .comment value)
  | normal (value : Text) : Plain (.reading .normal value)

theorem start_plain {c : Char} (unquoted : Unquoted c) : (start c).1.Plain := by
  obtain ⟨double, single, -⟩ := unquoted
  unfold start
  split_ifs
  all_goals first | exact .initial | exact .comment _ | exact .normal _

theorem feed_plain {state : LexState} {c : Char} (plain : state.Plain) (unquoted : Unquoted c) :
    (state.feed c).1.Plain := by
  cases plain with
  | initial => exact start_plain unquoted
  | comment value =>
      simp only [LexState.feed]
      split_ifs
      · exact .initial
      · exact .comment _
  | normal value =>
      simp only [LexState.feed]
      split_ifs
      · exact start_plain unquoted
      · exact .normal _

/-- CRLF for LF leads to the same state, and to the same tokens unless it ends a word. -/
theorem crlf_feed {state : LexState} (plain : state.Plain) (c : Char) :
    characters.after state (crlf c) = (state.feed c).1 ∧
      (characters.during state (crlf c) = (state.feed c).2 ∨
        ∃ value, c = '\n' ∧ state = .reading .normal value) := by
  by_cases line : c = '\n'
  · subst line
    cases plain with
    | initial => exact ⟨rfl, Or.inl rfl⟩
    | comment value => exact ⟨rfl, Or.inl rfl⟩
    | normal value => exact ⟨rfl, Or.inr ⟨value, rfl, rfl⟩⟩
  · simp only [crlf, if_neg line]
    exact ⟨rfl, Or.inl (List.append_nil _)⟩

theorem crlf_word (value : Text) :
    (LexState.feed (.reading .normal value) '\n').2 = [⟨.normal, value⟩] ∧
      characters.during (.reading .normal value) (crlf '\n') = [⟨.normal, value ++ ['\r']⟩] :=
  ⟨rfl, rfl⟩

theorem crlf_simulates : Transducer.Simulates characters characters crlf Unquoted
    (fun state state' => state = state' ∧ state.Plain)
    (fun token token' => token.type = token'.type) where
  feed := by
    intro state state' c unquoted related
    obtain ⟨rfl, plain⟩ := related
    obtain ⟨same, outputs⟩ := crlf_feed plain c
    refine ⟨⟨same.symm, feed_plain plain unquoted⟩, ?_⟩
    rcases outputs with equal | ⟨value, rfl, rfl⟩
    · rw [equal]
      exact List.forall₂_same.mpr fun _ _ => rfl
    · exact .cons rfl .nil

theorem feed_noEof (state : LexState) (c : Char) :
    ∀ token ∈ (state.feed c).2, token.type ≠ .eof := by
  have begin' : ∀ token ∈ (start c).2, token.type ≠ .eof := by
    unfold start
    split_ifs <;> simp
  have ended : ∀ value, ∀ token ∈ (endToken value c).2, token.type ≠ .eof := fun value =>
    List.forall_mem_cons.mpr ⟨by simp, begin'⟩
  cases state with
  | reading state value =>
      cases state with
      | initialWhitespace => exact begin'
      | quote kind =>
          simp only [LexState.feed]
          split_ifs <;> simp
      | comment =>
          simp only [LexState.feed]
          split_ifs <;> simp
      | normal =>
          simp only [LexState.feed]
          split_ifs
          · exact ended value
          · simp
  | escaped kind value => simp [LexState.feed]
  | closed value =>
      simp only [LexState.feed]
      split_ifs
      · exact ended value
      · simp
  | failed => simp [LexState.feed]

theorem during_noEof (state : LexState) (text : Text) :
    ∀ token ∈ characters.during state text, token.type ≠ .eof := by
  induction text generalizing state with
  | nil => simp [Transducer.during]
  | cons c text ih =>
      intro token member
      rcases List.mem_append.mp member with first | later
      · exact feed_noEof state c token first
      · exact ih _ token later

theorem emits_braces {α : Type*} (items : List α) :
    characters.emits initial (items.map fun _ => '\x7d') =
      items.map (fun _ => ⟨.endBlock, ['\x7d']⟩) ++ [⟨.eof, []⟩] := by
  induction items with
  | nil => rfl
  | cons item items ih =>
      rw [List.map_cons, emits_character]
      exact congrArg (⟨.endBlock, ['\x7d']⟩ :: ·) ih

theorem turn_word {read : List Token} {state : ParserState}
    (consumed : Consumed (significant read) state) (value : Text) :
    ∃ next, turn state ⟨.normal, value⟩ = .running next ∧ next.lastTokenType = .normal := by
  obtain ⟨next, running, -⟩ := consumed.onNormal value
  refine ⟨next, running, ?_⟩
  rcases turn_control consumed (normalToken value) with ⟨next', ran, decided⟩ | ⟨answer, ran, _⟩
  · obtain rfl := Turn.running.inj (running.symm.trans ran)
    simp only [normalToken, ParserState.control, control] at decided
    split at decided
    · exact (Prod.mk.inj (Except.ok.inj decided)).1.symm
    · exact absurd decided (by simp)
  · exact absurd (running.symm.trans ran) (by simp)

/-- What was read up to a word can be completed: a semicolon ends the statement, and braces
close the open blocks. -/
theorem continues_of_word {front : Text} {value : Text} {state : ParserState}
    (word : characters.after initial front = .reading .normal value)
    (ran : advance (characters.during initial front) ⟨[[]], .start⟩ = some state) :
    Continues front := by
  have begun : Consumed (significant []) ⟨[[]], .start⟩ := consumed_start
  have consumed := begun.advance ran
  obtain ⟨next, running, last⟩ := turn_word consumed value
  have further := consumed.running running
  generalize significant _ = tokens at further
  obtain @⟨before, inside, top, outer, type, around, innermost⟩ := further
  obtain rfl : type = .normal := last
  have complete : Complete .statementEnd := Or.inl rfl
  obtain ⟨tree, closes⟩ := runTokens_close around top complete
  refine ⟨';' :: outer.map fun _ => '\x7d', ?_⟩
  have emitted : characters.emits (.reading .normal value) (';' :: outer.map fun _ => '\x7d') =
      ⟨.normal, value⟩ :: ⟨.statementEnd, [';']⟩ ::
        (outer.map (fun _ => ⟨.endBlock, ['\x7d']⟩) ++ [⟨.eof, []⟩]) := by
    rw [emits_character, ← emits_braces]
    rfl
  have accepted : parse (front ++ ';' :: outer.map fun _ => '\x7d') [] = some (true, tree) := by
    rw [parse_eq_runTokens, tokens_eq_emits, characters.emits_append, word,
      runTokens_of_advance ran, emitted, runTokens, running]
    exact closes
  obtain ⟨body, last, split, eof, derives⟩ := parse_derives _ _ accepted
  exact ⟨body, last, tree, split, eof, derives⟩

theorem advance_of_continues {front : Text} (continues : Continues front) :
    ∃ state, advance (characters.during initial front) ⟨[[]], .start⟩ = some state := by
  obtain ⟨rest, body, last, tree, split, eof, derives⟩ := continues
  have accepted := derives_parse _ tree body last split eof derives
  rw [parse_eq_runTokens, tokens_eq_emits, characters.emits_append] at accepted
  have begun : Consumed (significant []) ⟨[[]], .start⟩ := consumed_start
  exact advance_of_accepted begun (during_noEof _ _) accepted

theorem word_of_scan {front : Text} (word : scan .between front = .word)
    (plain : (characters.after initial front).Plain) :
    ∃ value, characters.after initial front = .reading .normal value := by
  have begun : initial.position = some .between := rfl
  generalize scanned : scan .between front = position at word
  rcases after_position front begun with failed | there
  · rw [failed] at plain
    cases plain
  · rw [scanned, word] at there
    generalize characters.after initial front = state at plain there
    cases plain with
    | initial | comment value => simp [LexState.position] at there
    | normal value => exact ⟨value, rfl⟩

/-! ## The parser on both texts -/

theorem parse_emits (text : Text) (config : NginxConfig) :
    parse text config = runTokens (characters.emits initial text) ⟨[config], .start⟩ := by
  rw [parse_eq_runTokens, tokens_eq_emits]

/-- The rest of both texts, from a character before which both have led to the same
state. -/
theorem runTokens_crlf {text : Text} (apart : ¬ LineEndsWord text) (back : Text)
    (unquoted : ∀ c ∈ back, Unquoted c) (front : Text) (state : ParserState)
    (split : text = front ++ back) (plain : (characters.after initial front).Plain)
    (ran : advance (characters.during initial front) ⟨[[]], .start⟩ = some state) :
    runTokens (characters.emits (characters.after initial front) back) state =
      runTokens (characters.emits (characters.after initial front) (withCrlf back)) state := by
  induction back generalizing front state with
  | nil => rfl
  | cons c back ih =>
      obtain ⟨same, outputs⟩ := crlf_feed plain c
      have spelled : withCrlf (c :: back) = crlf c ++ withCrlf back := List.flatMap_cons
      rw [spelled, characters.emits_append, emits_character, same]
      rcases outputs with equal | ⟨value, rfl, word⟩
      · rw [equal]
        cases goesOn : advance ((characters.after initial front).feed c).2 state with
        | none => rw [runTokens_of_stop goesOn, runTokens_of_stop goesOn]
        | some behind =>
            rw [runTokens_of_advance goesOn, runTokens_of_advance goesOn]
            have next : characters.after initial (front ++ [c]) =
                ((characters.after initial front).feed c).1 := characters.after_append _ _ _
            have outputs : characters.during initial (front ++ [c]) =
                characters.during initial front ++ ((characters.after initial front).feed c).2 :=
              (characters.during_append _ _ _).trans (congrArg _ (List.append_nil _))
            have here := unquoted c List.mem_cons_self
            have further := ih (fun d member => unquoted d (List.mem_cons_of_mem _ member))
              (front ++ [c]) behind (by rw [split, List.append_assoc]; rfl)
              (next ▸ feed_plain plain here)
              (by rw [outputs, advance_append, ran]; exact goesOn)
            rw [next] at further
            exact further
      · -- the LF would end a word
        exfalso
        apply apart
        refine ⟨front, back, split, ?_, continues_of_word word ran⟩
        have begun : initial.position = some .between := rfl
        rcases after_position front begun with failed | there
        · rw [failed] at word
          cases word
        · rw [word] at there
          exact (Option.some.inj there).symm

theorem runTokens_word {read tokens : List Token} {state : ParserState} {value : Text}
    (consumed : Consumed (significant read) state) {accepted : Bool} {tree : NginxConfig}
    (returns : runTokens (⟨.normal, value⟩ :: tokens) state = some (accepted, tree)) :
    ∃ more, NginxConfig.words tree = normals read ++ value :: more := by
  obtain ⟨next, running, -⟩ := turn_word consumed value
  rw [runTokens, running] at returns
  obtain ⟨more, words⟩ := runTokens_words (consumed.running running) returns
  refine ⟨more, ?_⟩
  rw [words, normals_append, List.append_assoc]
  rfl

theorem not_readsAlike {text : Text} (unquoted : ∀ c ∈ text, Unquoted c)
    (ends : LineEndsWord text) : ¬ ReadsAlike text := by
  intro alike
  obtain ⟨front, back, rfl, scanned, continues⟩ := ends
  obtain ⟨accepted, tree, returns, returns'⟩ := alike
  have unquotedFront : ∀ c ∈ front, Unquoted c := fun c member =>
    unquoted c (List.mem_append_left _ member)
  obtain ⟨⟨same, plain⟩, types⟩ := crlf_simulates.run ⟨rfl, .initial⟩ front unquotedFront
  obtain ⟨value, word⟩ := word_of_scan scanned plain
  obtain ⟨state, ran⟩ := advance_of_continues continues
  have begun : Consumed (significant []) ⟨[[]], .start⟩ := consumed_start
  obtain ⟨state', ran', -⟩ := Alike.advance types ⟨rfl, rfl⟩ begun begun ran
  rw [word] at same
  have spelled : withCrlf (front ++ '\n' :: back) =
      front.flatMap crlf ++ (crlf '\n' ++ withCrlf back) := by
    simp [withCrlf]
  obtain ⟨plainWord, crWord⟩ := crlf_word value
  rw [parse_emits, characters.emits_append, word, runTokens_of_advance ran, emits_character,
    plainWord] at returns
  rw [parse_emits, spelled, characters.emits_append, ← same, runTokens_of_advance ran',
    characters.emits_append, crWord] at returns'
  obtain ⟨more, words⟩ := runTokens_word (begun.advance ran) returns
  obtain ⟨more', words'⟩ := runTokens_word (begun.advance ran') returns'
  have lengths : (normals (characters.during initial front)).length =
      (normals (characters.during initial (front.flatMap crlf))).length :=
    SameTypes.normals_length types
  have cut := List.append_inj_right (words.symm.trans words') lengths
  have length := congrArg List.length (List.cons.inj cut).1
  simp at length

/-- With CRLF for LF a text without quotes reads the same exactly if no LF that it still
reads directly follows a bare word. -/
theorem readsAlike_iff (text : Text) (unquoted : ∀ c ∈ text, Unquoted c) :
    ReadsAlike text ↔ ¬ LineEndsWord text := by
  refine ⟨fun alike ends => not_readsAlike unquoted ends alike, fun apart => ?_⟩
  obtain ⟨accepted, tree, returns⟩ := parse_returns text
  have same := runTokens_crlf apart text unquoted [] ⟨[[]], .start⟩ rfl .initial rfl
  refine ⟨accepted, tree, returns, ?_⟩
  rw [parse_emits] at returns ⊢
  exact same.symm.trans returns

theorem readsAlike_iff_listen :
    ReadsAlike "listen 80;\n".toList ↔ ¬ LineEndsWord "listen 80;\n".toList :=
  readsAlike_iff _ (by simp [Unquoted])

theorem keyword_keeps_cr :
    (∀ c ∈ "listen\n80;".toList, Unquoted c) ∧ ¬ ReadsAlike "listen\n80;".toList := by
  have plain : parse "listen\n80;".toList [] =
      some (true, [.mk ["listen".toList, "80".toList] none]) := by decide +kernel
  have written : parse (withCrlf "listen\n80;".toList) [] =
      some (true, [.mk ["listen\r".toList, "80".toList] none]) := by decide +kernel
  refine ⟨by simp [Unquoted], ?_⟩
  intro alike
  obtain ⟨accepted, tree, returns, returns'⟩ := alike
  rw [plain] at returns
  rw [written, ← returns] at returns'
  exact absurd returns' (by decide +kernel)

end BathroomRatings.Config
