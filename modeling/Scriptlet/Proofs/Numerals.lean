import Scriptlet.Proofs.Success
import Scriptlet.Proofs.Partition
import Scriptlet.Proofs.Synchrony

/-!
# Numerals

What a text comes to that is nothing but a numeral or the written form of a value. A run of digits,
however long and with whatever zeros before it, is the number that it denotes as long as a word can
hold it. There are no negative literals: a written negative number is a minus before a numeral, and
evaluation knows no minus. The least number is no exception to that, but its digits already denote
one number too many.
-/

namespace Scriptlet

open Grammar

variable {α : Type}

/-! ## The tokens -/

/-- A literal at the end of a text could not be longer. -/
theorem Maximal.atEnd (literal : List Char) : Maximal literal [] :=
  ⟨by simp, by simp, by simp⟩

/-- A literal with no blanks before it is a piece, if it could not be longer. -/
theorem Piece.Fits.of_spells {path literal : String} {before after : List Char} {kind : Kind}
    (spells : kind.Spells literal) (nonempty : literal ≠ "")
    (solid : ∀ c ∈ literal.toList, isBlank c = false) (maximal : Maximal literal.toList after) :
    Piece.Fits path before ⟨[], ⟨kind, literal, .behind path before⟩⟩ after where
  gap := by simp
  nonempty := nonempty
  solid := solid
  spells := spells
  maximal := maximal
  location := by rw [List.append_nil]

theorem notBlank_of_digit {c : Char} (digit : c.isDigit = true) : isBlank c = false := by
  cases blank : isBlank c with
  | false => rfl
  | true => simp [(runs_of_blank blank).2] at digit

/-- A literal that is the rest of a text is its only piece. -/
theorem Partition.single {path literal : String} {before : List Char} {kind : Kind}
    (spells : kind.Spells literal) (nonempty : literal ≠ "")
    (solid : ∀ c ∈ literal.toList, isBlank c = false) :
    Partition path before literal.toList [⟨[], ⟨kind, literal, .behind path before⟩⟩] [] := by
  have fits : Piece.Fits path before ⟨[], ⟨kind, literal, .behind path before⟩⟩ [] :=
    .of_spells spells nonempty solid (.atEnd _)
  simpa [Piece.chars] using Partition.cons fits (.nil path _ (by simp))

theorem Partition.digits {digits : String} (path : String) (before : List Char)
    (nonempty : digits ≠ "") (all : ∀ c ∈ digits.toList, c.isDigit = true) :
    Partition path before digits.toList [⟨[], ⟨.integer, digits, .behind path before⟩⟩] [] :=
  .single (.number nonempty all) nonempty fun c member => notBlank_of_digit (all c member)

namespace Cursor

theorem tokens_digits {digits : String} (path : String) (nonempty : digits ≠ "")
    (all : ∀ c ∈ digits.toList, c.isDigit = true) :
    (ofText digits path).tokens.1 = [⟨.integer, digits, .first path⟩] := by
  rw [tokens_ofText (.digits path [] nonempty all)]
  rfl

/-- A minus before a run of digits is a token of its own. -/
theorem tokens_minus_digits {digits : String} (path : String) (nonempty : digits ≠ "")
    (all : ∀ c ∈ digits.toList, c.isDigit = true) :
    (ofText ("-" ++ digits) path).tokens.1 =
      [⟨.minus, "-", .first path⟩, ⟨.integer, digits, ⟨path, 1, 2⟩⟩] := by
  let sign : Piece := ⟨[], ⟨.minus, "-", .behind path []⟩⟩
  have fits : sign.Fits path [] digits.toList :=
    .of_spells (@Kind.Spells.punctuation .minus (by decide)) (by decide) (by simp [isBlank])
      ⟨by simp [isLetter], by simp, by simp⟩
  have chars : sign.chars = ['-'] := by simp [Piece.chars, sign]
  have partition := Partition.cons fits (.digits path _ nonempty all)
  have text_eq : ("-" ++ digits).toList = sign.chars ++ digits.toList := by simp [chars]
  rw [← text_eq, chars] at partition
  rw [tokens_ofText partition]
  rfl

/-- A keyword that is a whole text is its only token. -/
theorem tokens_keyword {word : String} {kind : Kind} (path : String)
    (listed : (word, kind) ∈ Kind.keywords) :
    (ofText word path).tokens.1 = [⟨kind, word, .first path⟩] := by
  have known : ∀ entry ∈ Kind.keywords, entry.1 ≠ "" ∧
      entry.1.toList.all (fun c => !isBlank c) = true := by decide
  obtain ⟨nonempty, solid⟩ := known _ listed
  have solid : ∀ c ∈ word.toList, isBlank c = false := by simpa using solid
  rw [tokens_ofText (.single (.keyword listed) nonempty solid)]
  rfl

end Cursor

/-! ## The numbers -/

theorem Decimal.natural_ne_empty (n : Nat) : natural n ≠ "" := Nat.repr_ne_empty

theorem Decimal.integer_of_nonneg {n : Int} (nonneg : 0 ≤ n) :
    integer n = natural n.toNat := by
  cases n with
  | ofNat n => rfl
  | negSucc n => exact absurd nonneg (by simp)

theorem Decimal.integer_of_neg {n : Int} (negative : n < 0) :
    integer n = "-" ++ natural n.natAbs := by
  cases n with
  | ofNat n => exact absurd negative (by simp)
  | negSucc n => rfl

/-! ## Numerals that are too large -/

namespace Parse

variable {stream : TokenStream α}

/-- What came of reading an expression whose last token is the numeral at the end of `stream`, which
is too large. -/
structure StopsAt {begun : TokenStream α} {β : Type} (attempt : Attempt begun β)
    (stream : TokenStream α) : Prop where
  failed : attempt.value = none
  rest : attempt.rest = stream
  problems : attempt.problems = [.tooLarge stream.current]

theorem stopsAt_expression (precedence : Precedence) (isNumber : stream.current.kind = .integer)
    (large : Decimal.word? stream.current.literal.toList = none) :
    StopsAt (expression precedence stream) stream := by
  rw [expression_eq, operand_tooLarge isNumber large]
  exact ⟨rfl, rfl, rfl⟩

/-- Behind a minus sign an expression stops where its operand does. -/
theorem stopsAt_negation (precedence : Precedence) (isMinus : stream.current.kind = .minus)
    (stops : StopsAt (expression .unary stream.advance) stream.advance) :
    StopsAt (expression precedence stream) stream.advance := by
  rw [expression_eq, operand_negation (.inr isMinus)]
  have failed : (Attempt.moving ((expression .unary stream.advance).map
      (Expression.prefixed stream.current stream.current.literal))).value = none := by
    simp [Attempt.moving, Attempt.map, stops.failed]
  refine ⟨Attempt.value_andThen_none failed, ?_, ?_⟩
  · exact (Attempt.rest_andThen_none failed).trans stops.rest
  · rw [Attempt.problems_noting, Attempt.problems_andThen_none failed]
    exact stops.problems

/-- If nothing comes after the numeral, then nothing is kept, and nothing else is wrong. -/
theorem statements_of_stopsAt {numeral : TokenStream α} (going : stream.current.kind ≠ .eof)
    (notLet : stream.current.kind ≠ .letWord) (notReturn : stream.current.kind ≠ .returnWord)
    (stops : StopsAt (expression .lowest stream) numeral) (last : numeral.advance.pending = []) :
    trees stream = [] ∧ (statements stream).problems = [.tooLarge numeral.current] := by
  have same := statement_expression notLet notReturn
  have failed : (statement stream).value = none := same ▸ Attempt.value_andThen_none stops.failed
  have rest : (statement stream).rest = numeral := by
    rw [same, Attempt.rest_andThen_none stops.failed, stops.rest]
  have found : (statement stream).problems = [.tooLarge numeral.current] := by
    rw [same, Attempt.problems_andThen_none stops.failed, stops.problems]
  have done : statements numeral.advance = .give [] := statements_done (by
    rw [TokenStream.current_of_pending_nil last]
    rfl)
  rw [trees_more going, problems_statements_more going, trees, failed, rest, found, done]
  exact ⟨rfl, rfl⟩

end Parse

/-- What is wrong with a numeral at `location` that is too large. -/
def Diagnostic.tooLarge (digits : String) (location : Location) : Diagnostic :=
  ⟨"could not parse " ++ digits ++ " as integer literal", location⟩

/-- A text that ends with a numeral that is too large, where nothing was kept before it. -/
theorem parseText_of_stopsAt {text path digits : String} {first : Kind} {location : Location}
    {numeral : TokenStream Location}
    (stops : Parse.StopsAt (Parse.expression .lowest (.ofCursor (.ofText text path))) numeral)
    (begins : (TokenStream.ofCursor (.ofText text path)).current.kind = first)
    (isOperand : first = .integer ∨ first = .minus)
    (current : numeral.current = ⟨.integer, digits, location⟩)
    (last : numeral.advance.pending = []) :
    parseText text path = (⟨[]⟩, [.tooLarge digits location]) := by
  have differs : ∀ kind ∈ [Kind.eof, .letWord, .returnWord], first ≠ kind := by
    rcases isOperand with rfl | rfl <;> decide
  obtain ⟨none_kept, found⟩ := Parse.statements_of_stopsAt (begins ▸ differs .eof (by simp))
    (begins ▸ differs .letWord (by simp)) (begins ▸ differs .returnWord (by simp)) stops last
  rw [parseText_eq, found, current]
  exact congrArg (fun trees => (Program.mk trees, _)) none_kept

/-- The one problem of a numeral that is too large is its size. -/
theorem parseText_tooLarge {digits : String} (path : String) (nonempty : digits ≠ "")
    (all : ∀ c ∈ digits.toList, c.isDigit = true)
    (large : Decimal.wordLimit ≤ Decimal.value digits.toList) :
    parseText digits path = (⟨[]⟩, [.tooLarge digits (.first path)]) := by
  have tokens := Cursor.tokens_digits path nonempty all
  let stream := TokenStream.ofCursor (.ofText digits path)
  have current : stream.current = ⟨.integer, digits, .first path⟩ :=
    TokenStream.current_of_pending tokens
  have last : stream.advance.pending = [] := congrArg List.tail tokens
  have stops : Parse.StopsAt (Parse.expression .lowest stream) stream :=
    Parse.stopsAt_expression .lowest (by rw [current])
      (by rw [current]; exact Decimal.word?_eq_none_iff.mpr large)
  exact parseText_of_stopsAt stops (congrArg Token.kind current) (.inl rfl) current last

theorem parseText_minus_tooLarge {digits : String} (path : String) (nonempty : digits ≠ "")
    (all : ∀ c ∈ digits.toList, c.isDigit = true)
    (large : Decimal.wordLimit ≤ Decimal.value digits.toList) :
    parseText ("-" ++ digits) path = (⟨[]⟩, [.tooLarge digits ⟨path, 1, 2⟩]) := by
  have tokens := Cursor.tokens_minus_digits path nonempty all
  let stream := TokenStream.ofCursor (.ofText ("-" ++ digits) path)
  have current : stream.current = ⟨.minus, "-", .first path⟩ :=
    TokenStream.current_of_pending tokens
  have rest : stream.advance.pending = [⟨.integer, digits, ⟨path, 1, 2⟩⟩] :=
    congrArg List.tail tokens
  have numeral : stream.advance.current = ⟨.integer, digits, ⟨path, 1, 2⟩⟩ :=
    TokenStream.current_of_pending rest
  have last : stream.advance.advance.pending = [] := congrArg List.tail rest
  have stops : Parse.StopsAt (Parse.expression .lowest stream) stream.advance :=
    Parse.stopsAt_negation .lowest (by rw [current])
      (Parse.stopsAt_expression .unary (by rw [numeral])
        (by rw [numeral]; exact Decimal.word?_eq_none_iff.mpr large))
  exact parseText_of_stopsAt stops (congrArg Token.kind current) (.inr rfl) numeral last

/-! ## What the texts come to -/

theorem runText_of_parsed {text path : String} {program : Program (Token Location)}
    {diagnostics : List Diagnostic} (parsed : parseText text path = (program, diagnostics))
    (wrong : diagnostics ≠ []) : runText text path = .error (.malformed diagnostics) := by
  have found : (parseText text path).2 = diagnostics := congrArg Prod.snd parsed
  rw [runText_of_problems (found ▸ wrong), found]

/-- Digits whose number fits into a word come to that number. -/
theorem runText_of_fitting {digits : String} {value : Int64} (path : String)
    (nonempty : digits ≠ "") (all : ∀ c ∈ digits.toList, c.isDigit = true)
    (same : value.toInt = Decimal.value digits.toList) :
    runText digits path = .ok (.integer value) := by
  apply runText_of_amounts
  rw [Cursor.tokens_digits path nonempty all]
  exact .more (.integer [] rfl same) (.bare (by simp)) (.nothing _)

theorem runText_of_boolean (truth : Bool) (path : String) :
    runText (Value.boolean truth).text path = .ok (.boolean truth) := by
  apply runText_of_amounts
  cases truth with
  | true =>
    have tokens := Cursor.tokens_keyword path (show ("true", .trueWord) ∈ Kind.keywords by decide)
    rw [Value.text, tokens]
    exact .more (.truth [] rfl) (.bare (by simp)) (.nothing _)
  | false =>
    have tokens := Cursor.tokens_keyword path (show ("false", .falseWord) ∈ Kind.keywords by decide)
    rw [Value.text, tokens]
    exact .more (.falsehood [] rfl) (.bare (by simp)) (.nothing _)

/-- A minus before a numeral that fits is read, and stops the evaluation. -/
theorem runText_minus_of_fitting {digits : String} (path : String) (nonempty : digits ≠ "")
    (all : ∀ c ∈ digits.toList, c.isDigit = true)
    (fits : Decimal.value digits.toList < Decimal.wordLimit) :
    runText ("-" ++ digits) path =
      .error (.stopped (.unsupportedOperator "-" (.first path))) := by
  let sign : Token Location := ⟨.minus, "-", .first path⟩
  let numeral : Token Location := ⟨.integer, digits, ⟨path, 1, 2⟩⟩
  let value : Expression (Token Location) :=
    .integerLiteral numeral (Int64.ofNat (Decimal.value digits.toList))
  have operand : Derives (.expression .unary value) [numeral] [] :=
    (Derives.integer [] rfl fits).lower (by decide)
  have stated : Derives (.expression .equality (.prefixed sign "-" value)) [sign, numeral] [] :=
    (Derives.negation (.inr rfl) operand).loosest
  have derived := Derives.moreStatements (.expression stated (.bare (by simp))) (.noStatements [])
  rw [← Cursor.tokens_minus_digits path nonempty all] at derived
  have yields : (Parse.statements (.ofCursor (.ofText ("-" ++ digits) path))).Yields _ [] :=
    (Parse.read_of_derives derived).2 rfl _ rfl
  have parsed := parseText_eq ("-" ++ digits) path
  rw [yields.given, yields.quiet] at parsed
  rw [runText_of_quiet (congrArg Prod.snd parsed), parsed]
  rfl

/-- Numerals are exact over the whole range of words. A run of digits comes to its number if that is
below the limit, and else its only fault is that it is too large. So the written form of a truth
value or a number that is not negative comes to that value; before any other number evaluation stops
at the minus, but for the least one, whose digits are too large by themselves. -/
theorem runText_numeral (path : String) :
    (∀ digits : String, digits ≠ "" → (∀ c ∈ digits.toList, c.isDigit = true) →
      (Decimal.value digits.toList ≤ 2 ^ 63 - 1 →
        ∃ number : Int64, number.toInt = Decimal.value digits.toList ∧
          runText digits path = .ok (.integer number)) ∧
      (2 ^ 63 - 1 < Decimal.value digits.toList →
        parseText digits path = (⟨[]⟩, [.tooLarge digits ⟨path, 1, 1⟩]) ∧
          runText digits path = .error (.malformed [.tooLarge digits ⟨path, 1, 1⟩]))) ∧
    (∀ truth : Bool, runText (Value.boolean truth).text path = .ok (.boolean truth)) ∧
    ∀ number : Int64,
      (0 ≤ number.toInt → runText (Value.integer number).text path = .ok (.integer number)) ∧
      (-(2 ^ 63 : Nat) < number.toInt → number.toInt < 0 →
        runText (Value.integer number).text path =
          .error (.stopped (.unsupportedOperator "-" ⟨path, 1, 1⟩))) ∧
      (number.toInt = -(2 ^ 63 : Nat) → runText (Value.integer number).text path =
        .error (.malformed [.tooLarge "9223372036854775808" ⟨path, 1, 2⟩])) := by
  refine ⟨fun digits nonempty all => ⟨fun fits => ?_, fun large => ?_⟩,
    fun truth => runText_of_boolean truth path, fun number => ⟨?_, ?_, ?_⟩⟩
  · have same : (Int64.ofNat (Decimal.value digits.toList)).toInt = Decimal.value digits.toList :=
      Int64.toInt_ofNat_of_lt (by omega)
    exact ⟨_, same, runText_of_fitting path nonempty all same⟩
  · have parsed := parseText_tooLarge path nonempty all (Nat.lt_iff_add_one_le.mp large)
    exact ⟨parsed, runText_of_parsed parsed (List.cons_ne_nil _ _)⟩
  · intro nonneg
    rw [Value.text, Decimal.integer_of_nonneg nonneg]
    refine runText_of_fitting path (Decimal.natural_ne_empty _)
      (fun c => Decimal.isDigit_of_mem_natural) ?_
    rw [Decimal.value_natural, Int.toNat_of_nonneg nonneg]
  · intro above negative
    rw [Value.text, Decimal.integer_of_neg negative]
    refine runText_minus_of_fitting path (Decimal.natural_ne_empty _)
      (fun c => Decimal.isDigit_of_mem_natural) ?_
    rw [Decimal.value_natural]
    show number.toInt.natAbs < 2 ^ 63
    omega
  · intro least
    rw [Value.text, least]
    have parsed := parseText_minus_tooLarge path (Decimal.natural_ne_empty (2 ^ 63))
      (fun c => Decimal.isDigit_of_mem_natural) (by rw [Decimal.value_natural]; exact Nat.le_refl _)
    have text : Decimal.integer (-(2 ^ 63 : Nat)) = "-" ++ Decimal.natural (2 ^ 63) := rfl
    rw [text, runText_of_parsed parsed (List.cons_ne_nil _ _)]
    rfl

/-- Zeros before it do not help a number that is one too large. The least word is refused as well,
and the one above it is read but stops at its minus. -/
theorem runText_numeral_limits :
    let digits := "009223372036854775808"
    2 ^ 63 - 1 < Decimal.value digits.toList ∧
      runText digits "p" = .error (.malformed [.tooLarge digits ⟨"p", 1, 1⟩]) ∧
      runText (Value.integer Int64.minValue).text "p" =
        .error (.malformed [.tooLarge "9223372036854775808" ⟨"p", 1, 2⟩]) ∧
      runText (Value.integer (Int64.minValue + 1)).text "p" =
        .error (.stopped (.unsupportedOperator "-" ⟨"p", 1, 1⟩)) ∧
      runText (Value.integer Int64.maxValue).text "p" = .ok (.integer Int64.maxValue) := by
  intro digits
  obtain ⟨numerals, -, numbers⟩ := runText_numeral "p"
  have large : 2 ^ 63 - 1 < Decimal.value digits.toList := by decide +kernel
  have all : digits.toList.all Char.isDigit = true := by decide +kernel
  refine ⟨large, ?_, ?_, ?_, ?_⟩
  · exact ((numerals digits (by decide) (List.all_eq_true.mp all)).2 large).2
  · exact (numbers Int64.minValue).2.2 (by decide)
  · exact (numbers (Int64.minValue + 1)).2.1 (by decide) (by decide)
  · exact (numbers Int64.maxValue).1 (by decide)

end Scriptlet
