import Scriptlet.Proofs.Lexing
import Scriptlet.Proofs.Marks

/-!
# Words

The tokens of a text without their places. They depend on the characters of the text alone, and
come one after another: what stands before a character that cannot go on a lexeme has its tokens,
and what stands from that character on has its own.
-/

namespace Scriptlet

/-- What is left after a run of a class of characters. -/
theorem drop_length_takeWhile (p : Char → Bool) (chars : List Char) :
    chars.drop (chars.takeWhile p).length = chars.dropWhile p :=
  calc chars.drop (chars.takeWhile p).length
      = (chars.takeWhile p ++ chars.dropWhile p).drop (chars.takeWhile p).length := by
        rw [List.takeWhile_append_dropWhile]
    _ = chars.dropWhile p := List.drop_left

namespace Cursor

/-- The tokens before the end, without their places. -/
def words (cursor : Cursor) : List (Token Unit) := cursor.tokens.1.map (Token.mapMark fun _ => ())

theorem rest_skipBlanks (cursor : Cursor) :
    cursor.skipBlanks.rest = cursor.rest.dropWhile isBlank := by
  rw [skipBlanks, rest_advanceBy, drop_length_takeWhile]

/-- The next token and the place after it, where the characters `c :: rest` come after the blanks. -/
theorem next_of_skipped {cursor : Cursor} {c : Char} {rest : List Char}
    (begun : cursor.rest.dropWhile isBlank = c :: rest) : cursor.next =
      (⟨(Lexeme.read c rest).kind, String.ofList (Lexeme.read c rest).chars,
        cursor.skipBlanks.location⟩,
        cursor.skipBlanks.advanceBy (Lexeme.read c rest).chars.length) := by
  have skipped := cursor.rest_skipBlanks.trans begun
  simp only [next, read, skipped]

theorem words_of_skipped_nil {cursor : Cursor} (ended : cursor.rest.dropWhile isBlank = []) :
    cursor.words = [] := by
  rw [words, tokens_of_ended (cursor.rest_skipBlanks.trans ended)]
  rfl

theorem words_of_skipped_cons {cursor : Cursor} {c : Char} {rest : List Char}
    (begun : cursor.rest.dropWhile isBlank = c :: rest) : cursor.words =
      ⟨(Lexeme.read c rest).kind, String.ofList (Lexeme.read c rest).chars, ()⟩ ::
        cursor.next.2.words := by
  have skipped := cursor.rest_skipBlanks.trans begun
  have first : cursor.next.1.mapMark (fun _ => ()) =
      ⟨(Lexeme.read c rest).kind, String.ofList (Lexeme.read c rest).chars, ()⟩ := by
    rw [next_of_skipped begun]
    rfl
  rw [words, tokens_of_more (by simp [skipped]), List.map_cons, first, words]

theorem rest_next_of_skipped {cursor : Cursor} {c : Char} {rest : List Char}
    (begun : cursor.rest.dropWhile isBlank = c :: rest) :
    cursor.next.2.rest = (c :: rest).drop (Lexeme.read c rest).chars.length := by
  rw [next_of_skipped begun, rest_advanceBy, rest_skipBlanks, begun]

/-- Words are told by the characters alone, and the blanks before them do not count. -/
theorem words_congr {cursor other : Cursor}
    (same : cursor.rest.dropWhile isBlank = other.rest.dropWhile isBlank) :
    cursor.words = other.words := by
  induction cursor using tokens.induct generalizing other with
  | case1 cursor ended =>
    have skipped := cursor.rest_skipBlanks.symm.trans ended
    rw [words_of_skipped_nil skipped, words_of_skipped_nil (same.symm.trans skipped)]
  | case2 cursor more ih =>
    obtain ⟨c, rest, found⟩ := List.exists_cons_of_ne_nil more
    have begun := cursor.rest_skipBlanks.symm.trans found
    have begun' := same.symm.trans begun
    have same_next : cursor.next.2.rest = other.next.2.rest := by
      rw [rest_next_of_skipped begun, rest_next_of_skipped begun']
    rw [words_of_skipped_cons begun, words_of_skipped_cons begun',
      ih (congrArg (List.dropWhile isBlank) same_next)]

end Cursor

/-- The words of a text. -/
def words (chars : List Char) : List (Token Unit) := (Cursor.ofText (String.ofList chars) "").words

theorem Cursor.words_eq (cursor : Cursor) : cursor.words = Scriptlet.words cursor.rest :=
  words_congr (by simp [ofText])

theorem words_nil : words [] = [] := Cursor.words_of_skipped_nil rfl

theorem words_blank {c : Char} (rest : List Char) (blank : isBlank c = true) :
    words (c :: rest) = words rest :=
  Cursor.words_congr (by simp [Cursor.ofText, blank])

/-- A character that is no blank begins a word. -/
theorem words_lexeme {c : Char} (rest : List Char) (solid : isBlank c = false) :
    words (c :: rest) =
      ⟨(Lexeme.read c rest).kind, String.ofList (Lexeme.read c rest).chars, ()⟩ ::
        words ((c :: rest).drop (Lexeme.read c rest).chars.length) := by
  have begun : (Cursor.ofText (String.ofList (c :: rest)) "").rest.dropWhile isBlank =
      c :: rest := by
    simp [Cursor.ofText, solid]
  rw [words, Cursor.words_of_skipped_cons begun, Cursor.words_eq,
    Cursor.rest_next_of_skipped begun]

theorem runs_of_blank {c : Char} (blank : isBlank c = true) :
    isLetter c = false ∧ c.isDigit = false := by
  simp only [isBlank, Bool.or_eq_true, decide_eq_true_eq] at blank
  rcases blank with ((rfl | rfl) | rfl) | rfl <;> decide

theorem notLetter_of_digit {c : Char} (digit : c.isDigit = true) : isLetter c = false := by
  obtain ⟨low, high⟩ : 48 ≤ c.val ∧ c.val ≤ 57 := by simpa [Char.isDigit] using digit
  have notAlpha : c.isAlpha = false := by
    delta Char.isAlpha Char.isUpper Char.isLower
    grind
  have notUnderscore : c ≠ '_' := by
    rintro rfl
    exact absurd high (by decide)
  simp [isLetter, notAlpha, notUnderscore]

/-- The character is no blank, and begins no run. -/
def isPlain (c : Char) : Bool := !(isBlank c || isLetter c || c.isDigit)

/-- The characters that make another token together with `=`. -/
def signs : List Char := ['=', '!']

/-- The characters that are tokens by themselves, whatever follows them. -/
def symbols : List Char :=
  ['+', '-', '*', '/', ',', ';', '(', ')', '\x7b', '\x7d', '<', '>']

/-- The token of a character that is one by itself. -/
def symbolToken (c : Char) : Token Unit := ⟨.ofSymbol c, String.singleton c, ()⟩

/-- A character of no run is a lexeme by itself, unless it makes one together with `=`. -/
theorem Lexeme.read_alone {c : Char} {rest : List Char} (notLetter : isLetter c = false)
    (notDigit : c.isDigit = false) (alone : c ∈ signs → rest.head? ≠ some '=') :
    read c rest = ⟨.ofSymbol c, [c]⟩ := by
  have notEqual : ¬ (c = '=' ∧ rest.head? = some '=') := by
    rintro ⟨rfl, double⟩
    exact alone (by decide) double
  have notNotEqual : ¬ (c = '!' ∧ rest.head? = some '=') := by
    rintro ⟨rfl, double⟩
    exact alone (by decide) double
  simp [read, notLetter, notDigit, notEqual, notNotEqual]

/-- A mark that takes no `=` with it is a word of its own. -/
theorem words_plain {c : Char} {rest : List Char} (plain : isPlain c = true)
    (alone : c ∈ signs → rest.head? ≠ some '=') :
    words (c :: rest) = symbolToken c :: words rest := by
  simp only [isPlain, Bool.not_eq_true', Bool.or_eq_false_iff] at plain
  obtain ⟨⟨solid, notLetter⟩, notDigit⟩ := plain
  rw [words_lexeme rest solid, Lexeme.read_alone notLetter notDigit alone]
  rfl

theorem words_symbol {c : Char} (rest : List Char) (isSymbol : c ∈ symbols) :
    words (c :: rest) = symbolToken c :: words rest := by
  have all : symbols.all (fun d => isPlain d && decide (d ∉ signs)) = true := by decide
  have known := List.all_eq_true.mp all c isSymbol
  simp only [Bool.and_eq_true, decide_eq_true_eq] at known
  exact words_plain known.1 fun isSign => absurd isSign known.2

theorem words_sign {c : Char} {rest : List Char} (isSign : c ∈ signs)
    (alone : rest.head? ≠ some '=') :
    words (c :: rest) = symbolToken c :: words rest := by
  have all : signs.all isPlain = true := by decide
  exact words_plain (List.all_eq_true.mp all c isSign) fun _ => alone

theorem words_equal (rest : List Char) :
    words ('=' :: '=' :: rest) = ⟨.equal, "==", ()⟩ :: words rest :=
  words_lexeme ('=' :: rest) (by decide)

theorem words_notEqual (rest : List Char) :
    words ('!' :: '=' :: rest) = ⟨.notEqual, "!=", ()⟩ :: words rest :=
  words_lexeme ('=' :: rest) (by decide)

/-- No run of letters or digits goes on into the characters. -/
def Apart (chars : List Char) : Prop :=
  ∀ c ∈ chars.head?, isLetter c = false ∧ c.isDigit = false

theorem takeWhile_append_of_stop {p : Char → Bool} {run rest : List Char}
    (all : ∀ c ∈ run, p c = true) (stop : ∀ c ∈ rest.head?, p c = false) :
    (run ++ rest).takeWhile p = run := by
  rw [List.takeWhile_append_of_pos all]
  cases rest with
  | nil => simp
  | cons c rest => simp [stop c rfl]

/-- Runs of a class of characters before a character that is none end at the same place. -/
theorem run_unique {p : Char → Bool} {run run' rest rest' : List Char} {c : Char}
    (all : ∀ d ∈ run, p d = true) (all' : ∀ d ∈ run', p d = true) (stop : p c = false)
    (same : run ++ c :: rest = run' ++ c :: rest') : run = run' ∧ rest = rest' := by
  have stops (more : List Char) : ∀ d ∈ (c :: more).head?, p d = false := by
    simp [stop]
  have same_run : run = run' :=
    calc run = (run ++ c :: rest).takeWhile p := (takeWhile_append_of_stop all (stops rest)).symm
      _ = (run' ++ c :: rest').takeWhile p := by rw [same]
      _ = run' := takeWhile_append_of_stop all' (stops rest')
  subst same_run
  exact ⟨rfl, (List.cons.inj (List.append_cancel_left same)).2⟩

/-- A run of a class of characters is one token, if each of them begins such a run and the next
character does not go on with it. -/
theorem words_run {p : Char → Bool} (kind : String → Kind) {text : String} {rest : List Char}
    (reads : ∀ c more, p c = true → isBlank c = false ∧ Lexeme.read c more =
      ⟨kind (String.ofList (c :: more.takeWhile p)), c :: more.takeWhile p⟩)
    (nonempty : text ≠ "") (all : ∀ c ∈ text.toList, p c = true)
    (stop : ∀ c ∈ rest.head?, p c = false) :
    words (text.toList ++ rest) = ⟨kind text, text, ()⟩ :: words rest := by
  obtain ⟨run, rfl⟩ : ∃ run, text = String.ofList run := ⟨text.toList, by simp⟩
  rw [String.toList_ofList] at all ⊢
  cases run with
  | nil => exact absurd rfl nonempty
  | cons c run =>
    obtain ⟨solid, read⟩ := reads c (run ++ rest) (all c List.mem_cons_self)
    have taken : (run ++ rest).takeWhile p = run :=
      takeWhile_append_of_stop (fun d member => all d (List.mem_cons_of_mem c member)) stop
    rw [List.cons_append, words_lexeme _ solid, read, taken]
    simp

/-- Letters in a row are one word, up to what is apart from them. -/
theorem words_letters {text : String} {rest : List Char} (nonempty : text ≠ "")
    (letters : ∀ c ∈ text.toList, isLetter c = true) (apart : Apart rest) :
    words (text.toList ++ rest) = ⟨.ofWord text, text, ()⟩ :: words rest := by
  refine words_run Kind.ofWord ?_ nonempty letters fun d first => (apart d first).1
  intro c more letter
  refine ⟨?_, by rw [Lexeme.read, if_pos letter]⟩
  cases blank : isBlank c with
  | false => rfl
  | true => exact absurd letter (by simp [(runs_of_blank blank).1])

theorem words_digits {text : String} {rest : List Char} (nonempty : text ≠ "")
    (digits : ∀ c ∈ text.toList, c.isDigit = true) (apart : Apart rest) :
    words (text.toList ++ rest) = ⟨.integer, text, ()⟩ :: words rest := by
  refine words_run (fun _ => Kind.integer) ?_ nonempty digits fun d first => (apart d first).2
  intro c more digit
  have notLetter : ¬ isLetter c = true := by simp [notLetter_of_digit digit]
  refine ⟨?_, by rw [Lexeme.read, if_neg notLetter, if_pos digit]⟩
  cases blank : isBlank c with
  | false => rfl
  | true => exact absurd digit (by simp [(runs_of_blank blank).2])

/-- The token of a run of letters. -/
def wordToken (text : String) : Token Unit := ⟨.ofWord text, text, ()⟩

theorem words_keyword {text : String} {rest : List Char}
    (listed : text ∈ Kind.keywords.map Prod.fst) (apart : Apart rest) :
    words (text.toList ++ rest) = wordToken text :: words rest := by
  obtain ⟨nonempty, letters⟩ : text ≠ "" ∧ text.toList.all isLetter = true := by
    revert text
    decide
  exact words_letters nonempty (List.all_eq_true.mp letters) apart

end Scriptlet
