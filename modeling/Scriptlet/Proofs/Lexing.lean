import Scriptlet.Parser

/-!
# Lexing

What the tokens of a text are. `IsLexeme` lists the forms that a token may have, with the kind that
goes with each; every token of a text has one of them, and none of them is the end token.
-/

namespace Scriptlet

variable {α : Type}

/-- The kinds of lexemes and their texts. -/
inductive IsLexeme : Kind → String → Prop where
  | word {text : String} (nonempty : text ≠ "")
      (letters : ∀ c ∈ text.toList, isLetter c = true) : IsLexeme (.ofWord text) text
  | number {text : String} (nonempty : text ≠ "")
      (digits : ∀ c ∈ text.toList, c.isDigit = true) : IsLexeme .integer text
  | equal : IsLexeme .equal "=="
  | notEqual : IsLexeme .notEqual "!="
  | symbol {c : Char} (notLetter : ¬ isLetter c = true) (notDigit : ¬ c.isDigit = true) :
      IsLexeme (.ofSymbol c) (String.singleton c)

private theorem forall_mem_cons_takeWhile {p : Char → Bool} {c : Char} (first : p c = true)
    (rest : List Char) : ∀ d ∈ (String.ofList (c :: rest.takeWhile p)).toList, p d = true := by
  rw [String.toList_ofList]
  intro d member
  rcases List.mem_cons.mp member with rfl | member
  · exact first
  · exact List.all_eq_true.mp List.all_takeWhile d member

/-- Whatever is read at a character has the text that its kind asks for. -/
theorem Lexeme.isLexeme_read (c : Char) (rest : List Char) :
    IsLexeme (read c rest).kind (String.ofList (read c rest).chars) := by
  unfold read
  split
  · next letter => exact .word (by simp) (forall_mem_cons_takeWhile letter rest)
  · next notLetter =>
    split
    · next digit => exact .number (by simp) (forall_mem_cons_takeWhile digit rest)
    · next notDigit =>
      split
      · exact .equal
      · split
        · exact .notEqual
        · exact .symbol notLetter notDigit

/-- The token is a lexeme with its kind. -/
def Token.Genuine (token : Token α) : Prop := IsLexeme token.kind token.literal

namespace Cursor

theorem genuine_next {cursor : Cursor} (more : cursor.skipBlanks.rest ≠ []) :
    cursor.next.1.Genuine := by
  unfold next read
  split
  · next ended => exact absurd ended more
  · next c rest _ => exact Lexeme.isLexeme_read c rest

theorem tokens_of_ended {cursor : Cursor} (ended : cursor.skipBlanks.rest = []) :
    cursor.tokens = ([], cursor.skipBlanks.location) := by
  rw [tokens, dif_pos ended]

theorem tokens_of_more {cursor : Cursor} (more : cursor.skipBlanks.rest ≠ []) :
    cursor.tokens = (cursor.next.1 :: cursor.next.2.tokens.1, cursor.next.2.tokens.2) := by
  rw [tokens, dif_neg more]

/-- The tokens before the end are lexemes. -/
theorem genuine_of_mem_tokens (cursor : Cursor) :
    ∀ token ∈ cursor.tokens.1, token.Genuine := by
  induction cursor using tokens.induct with
  | case1 cursor ended =>
    rw [tokens_of_ended ended]
    simp
  | case2 cursor more ih =>
    rw [tokens_of_more more]
    intro token member
    rcases List.mem_cons.mp member with rfl | member
    · exact genuine_next more
    · exact ih token member

end Cursor

namespace Kind

/-- The kinds that a run of letters may have. -/
theorem ofWord_mem (word : String) : ofWord word ∈
    [identifier, fnWord, letWord, ifWord, elseWord, returnWord, trueWord, falseWord] := by
  unfold ofWord keywords
  simp only [List.lookup_cons, List.lookup_nil]
  repeat' split
  all_goals decide

/-- The kinds that a character by itself may have. -/
theorem ofSymbol_mem (c : Char) : ofSymbol c ∈
    [assign, not, plus, minus, times, divide, comma, semicolon, leftParen, rightParen, leftBrace,
      rightBrace, less, greater, illegal] := by
  unfold ofSymbol
  split <;> decide

/-- A character that is a token by itself is the name of its kind. -/
theorem text_ofSymbol {c : Char} (known : ofSymbol c ≠ illegal) :
    (ofSymbol c).text = String.singleton c := by
  revert known
  unfold ofSymbol
  split
  case h_15 => exact fun known => absurd rfl known
  all_goals exact fun _ => rfl

/-- The keywords are no names, and all other words are. -/
theorem ofWord_eq_identifier_iff (word : String) :
    ofWord word = identifier ↔ word ∉ keywords.map Prod.fst := by
  unfold ofWord keywords
  simp only [List.lookup_cons, List.lookup_nil]
  repeat' split
  all_goals simp_all

end Kind

/-- A name of the language: letters, but no keyword. -/
structure IsName (text : String) : Prop where
  nonempty : text ≠ ""
  letters : ∀ c ∈ text.toList, isLetter c = true
  notKeyword : text ∉ Kind.keywords.map Prod.fst

instance (text : String) : Decidable (IsName text) :=
  decidable_of_iff
    (text ≠ "" ∧ text.toList.all isLetter = true ∧ text ∉ Kind.keywords.map Prod.fst)
    ⟨fun ⟨nonempty, letters, notKeyword⟩ =>
        ⟨nonempty, List.all_eq_true.mp letters, notKeyword⟩,
      fun isName => ⟨isName.nonempty, List.all_eq_true.mpr isName.letters, isName.notKeyword⟩⟩

namespace IsLexeme

variable {kind : Kind} {text : String}

theorem ne_eof (lexeme : IsLexeme kind text) : kind ≠ .eof := by
  cases lexeme with
  | word _ _ =>
    have known := Kind.ofWord_mem text
    intro same
    simp [same] at known
  | number _ _ => decide
  | equal => decide
  | notEqual => decide
  | @symbol c _ _ =>
    have known := Kind.ofSymbol_mem c
    intro same
    simp [same] at known

/-- The text of an identifier is a name. -/
theorem isName (lexeme : IsLexeme kind text) (found : kind = .identifier) : IsName text := by
  cases lexeme with
  | word nonempty letters =>
    exact ⟨nonempty, letters, (Kind.ofWord_eq_identifier_iff text).mp found⟩
  | number _ _ => cases found
  | equal => cases found
  | notEqual => cases found
  | @symbol c _ _ =>
    have known := Kind.ofSymbol_mem c
    simp [found] at known

/-- The text of an integer is digits. -/
theorem digits (lexeme : IsLexeme kind text) (found : kind = .integer) :
    ∀ c ∈ text.toList, c.isDigit = true := by
  cases lexeme with
  | word _ _ =>
    have known := Kind.ofWord_mem text
    simp [found] at known
  | number _ digits => exact digits
  | equal => cases found
  | notEqual => cases found
  | @symbol c _ _ =>
    have known := Kind.ofSymbol_mem c
    simp [found] at known

/-- The text of an operator is the name of its kind. -/
theorem eq_text (lexeme : IsLexeme kind text)
    (found : kind ∈ [.equal, .notEqual, .plus, .minus, .times, .divide, .not, .less, .greater]) :
    text = kind.text := by
  cases lexeme with
  | word _ _ =>
    have known := Kind.ofWord_mem text
    simp only [List.mem_cons, List.not_mem_nil, or_false] at known found
    rcases known with same | same | same | same | same | same | same | same <;> simp [same] at found
  | number _ _ => simp at found
  | equal => rfl
  | notEqual => rfl
  | @symbol c _ _ =>
    refine (Kind.text_ofSymbol ?_).symm
    intro unknown
    simp [unknown] at found

end IsLexeme

end Scriptlet
