import BathroomRatings.Config.Grammar
import BathroomRatings.Lib.Word

/-!
# The configuration printer

`ToString` of an accepted tree is accepted again and gives the same tree, at
every depth of indentation: printed tokens are read back one by one, and the
printed token sequence is the one the tree was derived from.
-/

set_option autoImplicit false

namespace BathroomRatings.Config

open Lexer BathroomRatings.Lib.Word

def indent (depth : Int) : Text := (List.replicate depth.toNat [' ', ' ']).flatten

mutual

def NginxConfig.toString (depth : Int) : NginxConfig → Text
  | [] => []
  | statement :: rest =>
      NginxConfigStatement.toString depth statement ++
        NginxConfig.toString depth rest

def NginxConfigStatement.toString (depth : Int) : NginxConfigStatement → Text
  | .mk tokens none =>
      indent depth ++ [' '].intercalate tokens ++ [';'] ++ ['\n']
  | .mk tokens (some childBlock) =>
      indent depth ++ [' '].intercalate tokens ++ [' ', '\x7b', '\n'] ++
        NginxConfig.toString (wrap 32 (depth + 1)) childBlock ++
        indent depth ++ ['\x7d'] ++ ['\n']

end

mutual

/-- The tokens of a tree in order, with `;` behind each plain statement and
braces around each child block. -/
def NginxConfig.flatten : NginxConfig → List Token
  | [] => []
  | statement :: rest =>
      NginxConfigStatement.flatten statement ++ NginxConfig.flatten rest

def NginxConfigStatement.flatten : NginxConfigStatement → List Token
  | .mk tokens none => tokens.map normalToken ++ [⟨.statementEnd, [';']⟩]
  | .mk tokens (some childBlock) =>
      tokens.map normalToken ++ [⟨.startBlock, ['\x7b']⟩] ++
        NginxConfig.flatten childBlock ++ [⟨.endBlock, ['\x7d']⟩]

end

def Lexical (token : Token) : Prop :=
  match token.type with
  | .normal => Lexeme token.value
  | .statementEnd => token.value = [';']
  | .startBlock => token.value = ['\x7b']
  | .endBlock => token.value = ['\x7d']
  | _ => True

theorem lexical_of_reads {input rest : Text} {token : Token}
    (reads : Reads input token rest) : Lexical token := by
  induction reads with
  | blank white reads ih => exact ih
  | normal rest lexeme delimiter => exact lexeme
  | startBlock | endBlock | statementEnd => rfl
  | empty | comment | openComment | openWord | error => trivial

theorem tokens_lexical (input : Text) : ∀ token ∈ tokens input, Lexical token := by
  induction length : input.length using Nat.strong_induction_on generalizing input with
  | _ _ ih =>
      intro token member
      rw [tokens_eq] at member
      cases last : isLast (parseToken input).1 with
      | true =>
          simp only [last, if_true, List.mem_singleton] at member
          exact member ▸ lexical_of_reads (parseToken_reads input)
      | false =>
          simp only [last, Bool.false_eq_true, if_false, List.mem_cons] at member
          rcases member with rfl | member
          · exact lexical_of_reads (parseToken_reads input)
          · exact ih _ (length ▸ parseToken_shorter input last) _ rfl token member

theorem tokens_of_reads {input rest : Text} {token : Token}
    (reads : Reads input token rest) (goesOn : isLast token = false) :
    tokens input = token :: tokens rest := by
  have called := reads.parseToken_eq (isLast_eq_false goesOn).1
  rw [tokens_eq, called]
  simp [goesOn]

theorem tokens_end : tokens [] = [⟨.eof, []⟩] := rfl

theorem tokens_blank (c : Char) (rest : Text) (white : isWhitespace c) :
    tokens (c :: rest) = tokens rest := by
  have skip : parseToken (c :: rest) = parseToken rest := by
    simp [parseToken, white]
  rw [tokens_eq, skip, ← tokens_eq]

theorem tokens_blanks (blanks rest : Text) (white : ∀ c ∈ blanks, isWhitespace c) :
    tokens (blanks ++ rest) = tokens rest := by
  induction blanks with
  | nil => rfl
  | cons c blanks ih =>
      rw [List.cons_append, tokens_blank c _ (white c (by simp))]
      exact ih fun d member => white d (List.mem_cons_of_mem _ member)

theorem tokens_word (word : Text) (c : Char) (rest : Text) (lexeme : Lexeme word)
    (delimiter : isTokenDelimiter c) :
    tokens (word ++ c :: rest) = normalToken word :: tokens (c :: rest) :=
  tokens_of_reads (.normal rest lexeme delimiter) rfl

theorem tokens_words (c : Char) (rest : Text) (delimiter : isTokenDelimiter c) :
    ∀ words : List Text, (∀ word ∈ words, Lexeme word) →
      tokens ([' '].intercalate words ++ c :: rest) =
        words.map normalToken ++ tokens (c :: rest) := by
  intro words
  induction words with
  | nil => intro _; simp
  | cons word words ih =>
      intro lexemes
      have first := lexemes word (by simp)
      cases words with
      | nil => simpa using tokens_word word c rest first delimiter
      | cons next words =>
          have others := ih fun other member =>
            lexemes other (List.mem_cons_of_mem _ member)
          rw [List.intercalate_cons_cons]
          simp only [List.append_assoc, List.cons_append, List.nil_append]
          rw [tokens_word word ' ' _ first rfl, tokens_blank ' ' _ rfl, others]
          simp

theorem indent_white (depth : Int) : ∀ c ∈ indent depth, isWhitespace c := by
  intro c member
  simp only [indent, List.mem_flatten, List.mem_replicate] at member
  obtain ⟨blanks, ⟨_, rfl⟩, inside⟩ := member
  simp only [List.mem_cons, List.not_mem_nil, or_false, or_self] at inside
  subst inside
  rfl

/-! ## A printed tree is read back -/

def Printable (tokens : List Token) : Prop := ∀ token ∈ tokens, Lexical token

theorem Printable.lexemes {words : List Text} {rest : List Token}
    (printable : Printable (words.map normalToken ++ rest)) :
    ∀ word ∈ words, Lexeme word := fun word member =>
  printable (normalToken word) (List.mem_append_left _ (List.mem_map_of_mem member))

mutual

theorem tokens_toString (depth : Int) (rest : Text) : ∀ config : NginxConfig,
    Printable (NginxConfig.flatten config) →
      tokens (NginxConfig.toString depth config ++ rest) =
        NginxConfig.flatten config ++ tokens rest
  | [], _ => rfl
  | statement :: config, printable => by
      simp only [NginxConfig.flatten, NginxConfig.toString, List.append_assoc] at printable ⊢
      rw [tokens_statement depth _ statement
          fun token member => printable token (List.mem_append_left _ member),
        tokens_toString depth rest config
          fun token member => printable token (List.mem_append_right _ member)]

theorem tokens_statement (depth : Int) (rest : Text) :
    ∀ statement : NginxConfigStatement,
      Printable (NginxConfigStatement.flatten statement) →
        tokens (NginxConfigStatement.toString depth statement ++ rest) =
          NginxConfigStatement.flatten statement ++ tokens rest
  | .mk words none, printable => by
      simp only [NginxConfigStatement.flatten, NginxConfigStatement.toString,
        List.append_assoc, List.cons_append, List.nil_append] at printable ⊢
      rw [tokens_blanks _ _ (indent_white depth),
        tokens_words ';' _ rfl words printable.lexemes,
        tokens_of_reads (.statementEnd _) rfl, tokens_blank '\n' _ rfl]
  | .mk words (some childBlock), printable => by
      simp only [NginxConfigStatement.flatten, NginxConfigStatement.toString,
        List.append_assoc, List.cons_append, List.nil_append] at printable ⊢
      have inside : Printable (NginxConfig.flatten childBlock) := by
        intro token member
        exact printable token (by simp [member])
      rw [tokens_blanks _ _ (indent_white depth),
        tokens_words ' ' _ rfl words printable.lexemes, tokens_blank ' ' _ rfl,
        tokens_of_reads (.startBlock _) rfl, tokens_blank '\n' _ rfl,
        tokens_toString _ _ childBlock inside, tokens_blanks _ _ (indent_white depth),
        tokens_of_reads (.endBlock _) rfl, tokens_blank '\n' _ rfl]

end

mutual

theorem DerivesConfig.flatten_eq {tokens : List Token} {config : NginxConfig}
    (derives : DerivesConfig tokens config) (lexical : ∀ token ∈ tokens, Lexical token) :
    NginxConfig.flatten config = tokens := by
  cases derives with
  | one first => simpa [NginxConfig.flatten] using first.flatten_eq lexical
  | more first others =>
      have left := first.flatten_eq fun token member =>
        lexical token (List.mem_append_left _ member)
      have right := others.flatten_eq fun token member =>
        lexical token (List.mem_append_right _ member)
      simp [NginxConfig.flatten, left, right]

theorem DerivesStatement.flatten_eq {tokens : List Token}
    {statement : NginxConfigStatement} (derives : DerivesStatement tokens statement)
    (lexical : ∀ token ∈ tokens, Lexical token) :
    NginxConfigStatement.flatten statement = tokens := by
  cases derives with
  | plain words semicolon nonempty =>
      have value : semicolon = [';'] := lexical ⟨.statementEnd, semicolon⟩ (by simp)
      simp [NginxConfigStatement.flatten, value]
  | block words openBrace closeBrace nonempty inside =>
      have opened : openBrace = ['\x7b'] := lexical ⟨.startBlock, openBrace⟩ (by simp)
      have closed : closeBrace = ['\x7d'] := lexical ⟨.endBlock, closeBrace⟩ (by simp)
      have body := inside.flatten_eq fun token member => lexical token (by simp [member])
      simp [NginxConfigStatement.flatten, opened, closed, body]

end

theorem accepted_flatten (input : Text) (tree : NginxConfig)
    (accepted : parse input [] = some (true, tree)) :
    (∃ last, significantTokens input = NginxConfig.flatten tree ++ [last] ∧
      last.type = .eof) ∧ DerivesConfig (NginxConfig.flatten tree) tree ∧
      Printable (NginxConfig.flatten tree) := by
  obtain ⟨body, last, split, eof, derives⟩ := parse_derives input tree accepted
  have lexical : ∀ token ∈ body, Lexical token := by
    intro token member
    have inTokens : token ∈ significantTokens input := by simp [split, member]
    exact tokens_lexical input token (List.mem_of_mem_filter inTokens)
  have same := derives.flatten_eq lexical
  rw [same]
  exact ⟨⟨last, split, eof⟩, derives, lexical⟩

theorem flatten_significant (input : Text) (tree : NginxConfig)
    (accepted : parse input [] = some (true, tree)) :
    (NginxConfig.flatten tree).filter (fun token => !isComment token) =
      NginxConfig.flatten tree := by
  obtain ⟨⟨last, split, _⟩, _⟩ := accepted_flatten input tree accepted
  rw [List.filter_eq_self]
  intro token member
  have inTokens : token ∈ significantTokens input := by simp [split, member]
  exact (List.mem_filter.mp inTokens).2

/-- Printing an accepted tree and parsing the text again gives the tree back, at
every depth. -/
theorem parse_toString (input : Text) (tree : NginxConfig)
    (accepted : parse input [] = some (true, tree)) (depth : Int) :
    parse (NginxConfig.toString depth tree) [] = some (true, tree) := by
  obtain ⟨_, derives, printable⟩ := accepted_flatten input tree accepted
  apply derives_parse _ tree _ ⟨.eof, []⟩ _ rfl derives
  have printed := tokens_toString depth [] tree printable
  rw [List.append_nil] at printed
  rw [significantTokens, printed, tokens_end, List.filter_append,
    flatten_significant input tree accepted]
  rfl

theorem parse_toString_server :
    parse (NginxConfig.toString 3 [.mk ["server".toList]
        (some [.mk ["listen".toList, "'8 0'".toList] none])]) [] =
      some (true, [.mk ["server".toList]
        (some [.mk ["listen".toList, "'8 0'".toList] none])]) :=
  parse_toString "server\x7blisten '8 0';# port\n\x7d".toList _
    (by decide +kernel) 3

end BathroomRatings.Config
