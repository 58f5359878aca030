import Scriptlet.Console.CommandLine

/-!
# Dialogues

A dialogue goes line by line, and no answer depends on another line. So what is written about an
input that ends with a line is what is written about any input that goes on from there, up to the
prompt at its end. The lines of an input are found in its bytes; `InputLine` says what they are in
the text that the bytes encode, and `lines_encode_append` that they are what is found. A dialogue is
held turn by turn, and `exists_turns` says that this comes to what `dialogue` says.
-/

namespace Scriptlet.Console

/-! ## Texts as bytes -/

/-- The bytes that encode a text in UTF-8. -/
def encode (text : String) : List UInt8 := text.toUTF8.data.toList

theorem encode_append (text other : String) :
    encode (text ++ other) = encode text ++ encode other := by
  simp [encode]

theorem encode_eq_flatMap (text : String) :
    encode text = text.toList.flatMap String.utf8EncodeChar := by
  rw [encode, String.toUTF8_eq_toByteArray, ← String.utf8Encode_toList, List.utf8Encode]
  simp

theorem decode_encode (text : String) : decode (encode text) = some text := by
  simp only [decode, encode, String.fromUTF8?, String.toUTF8_eq_toByteArray, Array.toArray_toList]
  rw [dif_pos text.isValidUTF8]
  rfl

/-- Bytes that encode a text are the encoding of that text. -/
theorem encode_of_decode {bytes : List UInt8} {text : String} (decoded : decode bytes = some text) :
    encode text = bytes := by
  unfold decode String.fromUTF8? at decoded
  split at decoded
  · cases decoded
    simp [encode, String.fromUTF8]
  · cases decoded

/-- A byte of a character is the number of the character, or it is 128 at least. -/
theorem eq_or_le_of_mem_utf8EncodeChar {c : Char} {byte : UInt8}
    (member : byte ∈ String.utf8EncodeChar c) : byte.toNat = c.toNat ∨ 128 ≤ byte.toNat := by
  have high {n : Nat} (low : 128 ≤ n ∧ n < 256) : 128 ≤ (UInt8.ofNat n).toNat := by
    rw [UInt8.toNat_ofNat']
    omega
  dsimp only [String.utf8EncodeChar] at member
  split at member
  · next small =>
    obtain rfl := List.mem_singleton.mp member
    left
    rw [UInt8.toNat_ofNat', Char.toNat]
    omega
  · right
    -- Two, three or four bytes, each with its leading bits.
    repeat' split at member
    all_goals simp only [List.mem_cons, List.not_mem_nil, or_false] at member
    · rcases member with rfl | rfl <;> exact high (by omega)
    · rcases member with rfl | rfl | rfl <;> exact high (by omega)
    · rcases member with rfl | rfl | rfl | rfl <;> exact high (by omega)

theorem utf8EncodeChar_of_lt {c : Char} (small : c.toNat < 128) :
    String.utf8EncodeChar c = [c.toUInt8] := by
  dsimp only [String.utf8EncodeChar]
  exact if_pos (Nat.le_of_lt_succ small)

section

variable {d : Char} (small : d.toNat < 128)

include small

/-- The byte of a small character stands for no part of another one. -/
theorem mem_utf8EncodeChar_iff {c : Char} : d.toUInt8 ∈ String.utf8EncodeChar c ↔ c = d := by
  have number : d.toUInt8.toNat = d.toNat := by
    show (UInt8.ofNat d.toNat).toNat = d.toNat
    rw [UInt8.toNat_ofNat']
    omega
  constructor
  · intro member
    rcases eq_or_le_of_mem_utf8EncodeChar member with same | high
    · exact Char.toNat_inj.mp (same.symm.trans number)
    · omega
  · rintro rfl
    rw [utf8EncodeChar_of_lt small]
    exact List.mem_singleton_self _

theorem mem_encode_iff {text : String} : d.toUInt8 ∈ encode text ↔ d ∈ text.toList := by
  rw [encode_eq_flatMap, List.mem_flatMap]
  simp [mem_utf8EncodeChar_iff small]

theorem getLast?_encode_iff {text : String} :
    (encode text).getLast? = some d.toUInt8 ↔ text.toList.getLast? = some d := by
  rw [encode_eq_flatMap]
  rcases List.eq_nil_or_concat text.toList with none | ⟨before, c, whole⟩
  · simp [none]
  · obtain ⟨byte, last⟩ := Option.ne_none_iff_exists'.mp
      (mt List.getLast?_eq_none_iff.mp (String.utf8EncodeChar_ne_nil (c := c)))
    rw [whole, List.concat_eq_append, List.flatMap_append, List.flatMap_singleton,
      List.getLast?_append, last, Option.some_or, List.getLast?_concat, Option.some_inj,
      Option.some_inj]
    constructor
    · rintro rfl
      exact (mem_utf8EncodeChar_iff small).mp (List.mem_of_getLast? last)
    · rintro rfl
      rw [utf8EncodeChar_of_lt small, List.getLast?_singleton] at last
      exact (Option.some.inj last).symm

end

/-! ## Lines -/

/-- A line as it stands in an input. -/
structure InputLine where
  text : String
  /-- Whether a carriage return stands before the line feed. -/
  returned : Bool

namespace InputLine

/-- The line with what ends it. -/
def written (line : InputLine) : String :=
  line.text ++ if line.returned then "\r\n" else "\n"

/-- The line ends where it is said to end: it has no line feed of its own, and a carriage return at
its end belongs to what ends it. -/
structure Proper (line : InputLine) : Prop where
  single : '\n' ∉ line.text.toList
  whole : line.returned = false → line.text.toList.getLast? ≠ some '\r'

/-- The line of some characters before a line feed. -/
def ofChars (chars : List Char) : InputLine :=
  if chars.getLast? = some '\r' then ⟨String.ofList chars.dropLast, true⟩
  else ⟨String.ofList chars, false⟩

theorem proper_ofChars {chars : List Char} (single : '\n' ∉ chars) : (ofChars chars).Proper := by
  unfold ofChars
  split
  · refine ⟨?_, nofun⟩
    rw [String.toList_ofList]
    exact fun member => single (List.dropLast_subset chars member)
  · next plain =>
    rw [← String.toList_ofList (l := chars)] at single plain
    exact ⟨single, fun _ => plain⟩

theorem written_ofChars (chars : List Char) :
    (ofChars chars).written = String.ofList (chars ++ ['\n']) := by
  unfold ofChars
  split
  · next returned =>
    obtain ⟨before, rfl⟩ := List.getLast?_eq_some_iff.mp returned
    simp [written]
  · simp [written]

end InputLine

/-- A text that ends with a line consists of lines. -/
theorem exists_lines (text : List Char) (ended : ∀ c ∈ text.getLast?, c = '\n') :
    ∃ lines : List InputLine, String.ofList text = String.join (lines.map InputLine.written) ∧
      ∀ line ∈ lines, line.Proper := by
  cases last : text.getLast? with
  | none => exact ⟨[], by simp [List.getLast?_eq_none_iff.mp last], by simp⟩
  | some c =>
    have member : '\n' ∈ text := ended c last ▸ List.mem_of_getLast? last
    -- The first line feed ends the first line, and what is behind it ends with a line again.
    obtain ⟨first, rest, parts, single⟩ := List.eq_append_cons_of_mem member
    have ended_rest : ∀ d ∈ rest.getLast?, d = '\n' := by
      intro d last_rest
      refine ended d ?_
      rw [parts]
      simp [List.getLast?_append, List.getLast?_cons, Option.mem_def.mp last_rest]
    obtain ⟨lines, rest_eq, proper⟩ := exists_lines rest ended_rest
    refine ⟨.ofChars first :: lines, ?_,
      List.forall_mem_cons.mpr ⟨InputLine.proper_ofChars single, proper⟩⟩
    rw [List.map_cons, String.join_cons, ← rest_eq, InputLine.written_ofChars, parts,
      ← String.ofList_append, List.append_assoc, List.singleton_append]
termination_by text.length
decreasing_by
  simp only [parts, List.length_append, List.length_cons]
  omega

theorem splitFirst_of_notMem {β : Type} [DecidableEq β] {separator : β} {items : List β}
    (absent : separator ∉ items) : splitFirst separator items = (items, []) := by
  induction items with
  | nil => rfl
  | cons item items ih =>
    rw [List.mem_cons, not_or] at absent
    have different : item ≠ separator := fun same => absent.1 same.symm
    simp only [splitFirst, ih absent.2, if_neg different]

/-- The first line of an input, and the lines after it. -/
theorem lines_append {line rest : List UInt8} (single : lineFeed ∉ line) :
    lines (line ++ lineFeed :: rest) = withoutReturn line :: lines rest := by
  simp only [lines, splitFirst_append, splitFirst_of_notMem single, List.nil_append, linesOf]

/-- The first line of an input is found in its bytes. -/
theorem lines_encode_append {line : InputLine} (proper : line.Proper) (rest : List UInt8) :
    lines (encode line.written ++ rest) = encode line.text :: lines rest := by
  have single : lineFeed ∉ encode line.text := fun member =>
    proper.single ((mem_encode_iff (show '\n'.toNat < 128 by decide)).mp member)
  rw [InputLine.written, encode_append]
  cases ends : line.returned with
  | true =>
    have ending : encode "\r\n" = [carriageReturn, lineFeed] := by decide
    have single_returned : lineFeed ∉ encode line.text ++ [carriageReturn] := by
      rw [List.mem_append, not_or]
      exact ⟨single, by decide⟩
    rw [if_pos rfl, ending, List.append_cons, List.append_assoc, List.singleton_append,
      lines_append single_returned, withoutReturn, List.getLast?_concat, if_pos rfl,
      List.dropLast_concat]
  | false =>
    have ending : encode "\n" = [lineFeed] := by decide
    have plain : (encode line.text).getLast? ≠ some carriageReturn := fun last =>
      proper.whole ends ((getLast?_encode_iff (show '\r'.toNat < 128 by decide)).mp last)
    rw [if_neg Bool.false_ne_true, ending, List.append_assoc, List.singleton_append,
      lines_append single, withoutReturn, if_neg plain]

/-! ## Turns -/

/-- A terminal at which certain lines are to come, and which keeps what is written. -/
def scripted : Terminal (StateM (List (List UInt8) × String)) where
  nextLine := modifyGet fun (lines, written) => (lines.head?, (lines.tail, written))
  write text := modify fun (lines, written) => (lines, written ++ text)

/-- So many turns of a dialogue, or fewer if one ends it. -/
def turns {m : Type → Type} [Monad m] (terminal : Terminal m) : Nat → m (Option Report)
  | 0 => return none
  | count + 1 => do
    match ← turn terminal with
    | none => turns terminal count
    | some report => return some report

theorem Report.after_after (first second : String) (report : Report) :
    (report.after second).after first = report.after (first ++ second) := by
  simp [after, String.append_assoc]

/-- A turn with a line before it answers that, or fails if the line is no text. -/
theorem turn_cons (line : List UInt8) (lines : List (List UInt8)) (written : String) :
    (turn scripted).run (line :: lines, written) =
      match answerBytes line with
      | .ok answer => (none, (lines, written ++ prompt ++ answer))
      | .error reason => (some (.failed reason), (lines, written ++ prompt)) := by
  show ((do
    match answerBytes line with
    | .ok answer =>
      scripted.write answer
      return none
    | .error reason => return some (.failed reason)) :
      StateM (List (List UInt8) × String) (Option Report)).run (lines, written ++ prompt) = _
  cases answerBytes line <;> rfl

/-- The first turn ends the dialogue, or the others follow it. -/
theorem turns_succ (count : Nat) (state : List (List UInt8) × String) :
    (turns scripted (count + 1)).run state =
      match (turn scripted).run state with
      | (none, next) => (turns scripted count).run next
      | (some report, next) => (some report, next) := by
  show (match (turn scripted).run state with
    | (ended, next) => (match ended with
      | none => turns scripted count
      | some report => return some report : StateM _ _).run next) = _
  rcases (turn scripted).run state with ⟨_ | _, _⟩ <;> rfl

/-- Turn by turn a dialogue comes to its end, after a turn for each line and one more at most, and
what is left behind then is what `dialogue` says. -/
theorem exists_turns (lines : List (List UInt8)) (written : String) :
    ∃ report rest text, (turns scripted (lines.length + 1)).run (lines, written) =
      (some report, (rest, text)) ∧ report.after text = (dialogue lines).after written := by
  induction lines generalizing written with
  | nil =>
    refine ⟨_, _, _, rfl, ?_⟩
    simp [dialogue, Report.after]
  | cons line lines ih =>
    rw [List.length_cons, turns_succ, turn_cons, dialogue]
    cases answerBytes line with
    | ok answer =>
      obtain ⟨report, rest, text, run, same⟩ := ih (written ++ prompt ++ answer)
      refine ⟨report, rest, text, run, ?_⟩
      rw [same, Report.after_after, String.append_assoc]
    | error reason =>
      refine ⟨_, _, _, rfl, ?_⟩
      rw [Report.after_after]

/-! ## Sessions -/

/-- What a session about an input leaves behind. -/
def session (fileSystem : FileSystem Id) (input : List UInt8) : Report :=
  Id.run (execute fileSystem input .dialogue)

theorem session_eq (fileSystem : FileSystem Id) (input : List UInt8) :
    session fileSystem input = dialogue (lines input) := rfl

/-- What is written about lines: for each of them the prompt and the answer to it. -/
def answers (lines : List InputLine) : String :=
  String.join (lines.map fun line => prompt ++ answer line.text)

/-- The first line of an input is answered before the rest, and has no part in what comes of
that. -/
theorem session_encode_append (fileSystem : FileSystem Id) {line : InputLine}
    (proper : line.Proper) (rest : List UInt8) :
    session fileSystem (encode line.written ++ rest) =
      (session fileSystem rest).after (prompt ++ answer line.text) := by
  rw [session_eq, lines_encode_append proper, dialogue, answerBytes, decode_encode]
  rfl

/-- The lines before the rest of an input are answered one after another, and the rest then as if
they had not been there. -/
theorem session_join_append (fileSystem : FileSystem Id) {lines : List InputLine}
    (proper : ∀ line ∈ lines, line.Proper) (rest : List UInt8) :
    session fileSystem (encode (String.join (lines.map InputLine.written)) ++ rest) =
      (session fileSystem rest).after (answers lines) := by
  induction lines with
  | nil => rfl
  | cons line lines ih =>
    obtain ⟨first, others⟩ := List.forall_mem_cons.mp proper
    rw [List.map_cons, String.join_cons, encode_append, List.append_assoc,
      session_encode_append fileSystem first, ih others, Report.after_after, answers, answers,
      List.map_cons, String.join_cons]

/-- Bytes that are no text are none either without a carriage return at their end. -/
theorem decode_withoutReturn {line : List UInt8} (noText : decode line = none) :
    decode (withoutReturn line) = none := by
  unfold withoutReturn
  split
  · next returned =>
    obtain ⟨before, rfl⟩ := List.getLast?_eq_some_iff.mp returned
    rw [List.dropLast_concat]
    cases decoded : decode before with
    | none => rfl
    | some text =>
      have whole : before ++ [carriageReturn] = encode (text ++ "\r") := by
        rw [encode_append, encode_of_decode decoded]
        rfl
      rw [whole, decode_encode] at noText
      cases noText
  · exact noText

/-- A line that is no text ends the session. -/
theorem session_broken (fileSystem : FileSystem Id) {broken rest : List UInt8}
    (single : lineFeed ∉ broken) (noText : decode broken = none)
    (ends : rest = [] ∨ rest.head? = some lineFeed) :
    session fileSystem (broken ++ rest) =
      (Report.failed ("could not read from stdin: " ++ notText)).after prompt := by
  have first : ∃ line others, lines (broken ++ rest) = line :: others ∧ decode line = none := by
    rcases ends with rfl | begins
    · have nonempty : broken ≠ [] := by
        rintro rfl
        cases noText
      refine ⟨broken, [], ?_, noText⟩
      simp only [lines, List.append_nil, splitFirst_of_notMem single, linesOf, if_neg nonempty]
    · obtain ⟨more, rfl⟩ := List.head?_eq_some_iff.mp begins
      exact ⟨_, _, lines_append single, decode_withoutReturn noText⟩
  obtain ⟨line, others, begun, undecoded⟩ := first
  rw [session_eq, begun, dialogue, answerBytes, undecoded]

/-- Sessions compose. What is written about an input that ends with a line is the prompt and the
answer for each of its lines, as it is for the line alone, and a last prompt; whatever comes after
the input is answered as if it came first. Where that begins with a line that is no text, the
session fails after all answers. -/
theorem exists_answers_session (fileSystem : FileSystem Id) (input : List UInt8) (text : String)
    (decoded : decode input = some text)
    (ended : input = [] ∨ input.getLast? = some lineFeed) :
    ∃ lines : List InputLine, text = String.join (lines.map InputLine.written) ∧
      (∀ line ∈ lines, line.Proper ∧ session fileSystem (encode line.written) =
        ⟨0, prompt ++ answer line.text ++ prompt, ""⟩) ∧
      session fileSystem input = ⟨0, answers lines ++ prompt, ""⟩ ∧
      (∀ more, session fileSystem (input ++ more) =
        (session fileSystem more).after (answers lines)) ∧
      ∀ broken rest, lineFeed ∉ broken → decode broken = none →
        (rest = [] ∨ rest.head? = some lineFeed) →
        session fileSystem (input ++ (broken ++ rest)) =
          ⟨1, answers lines ++ prompt,
            "monkey: could not read from stdin: stream did not contain valid UTF-8\n"⟩ := by
  obtain rfl := encode_of_decode decoded
  have ended_text : ∀ c ∈ text.toList.getLast?, c = '\n' := by
    rcases ended with none | last
    · rw [none] at decoded
      obtain rfl := Option.some.inj (decoded.symm.trans (decode_encode ""))
      simp
    · rw [(getLast?_encode_iff (show '\n'.toNat < 128 by decide)).mp last]
      rintro _ ⟨⟩
      rfl
  obtain ⟨lines, text_eq, proper⟩ := exists_lines text.toList ended_text
  rw [String.ofList_toList] at text_eq
  have compose (more : List UInt8) : session fileSystem (encode text ++ more) =
      (session fileSystem more).after (answers lines) := by
    rw [text_eq]
    exact session_join_append fileSystem proper more
  refine ⟨lines, text_eq, ?_, ?_, compose, ?_⟩
  · intro line member
    have alone := session_encode_append fileSystem (proper line member) []
    rw [List.append_nil] at alone
    exact ⟨proper line member, alone⟩
  · have whole := compose []
    rwa [List.append_nil] at whole
  · intro broken rest single undecoded ends
    rw [compose, session_broken fileSystem single undecoded ends, Report.after_after]
    simp [Report.after, Report.failed, programName, notText]

/-- A value, a listing and an error are the answers, and a byte that begins no character comes after
them. -/
theorem exists_answers_session_mixed :
    let fileSystem := (Directory.mk "/" []).fileSystem
    let text := "!5\r\n1 +\n-2\n"
    let broken : List UInt8 := [255, carriageReturn]
    decode (encode text) = some text ∧ (encode text).getLast? = some lineFeed ∧
      lineFeed ∉ broken ∧ decode broken = none ∧
      ∃ lines : List InputLine, text = String.join (lines.map InputLine.written) ∧
        (∀ line ∈ lines, line.Proper ∧ session fileSystem (encode line.written) =
          ⟨0, prompt ++ answer line.text ++ prompt, ""⟩) ∧
        session fileSystem (encode text) = ⟨0, answers lines ++ prompt, ""⟩ ∧
        session fileSystem (encode text ++ encode "true\n") =
          (session fileSystem (encode "true\n")).after (answers lines) ∧
        session fileSystem (encode text ++ (broken ++ encode "\ntrue")) =
          ⟨1, answers lines ++ prompt,
            "monkey: could not read from stdin: stream did not contain valid UTF-8\n"⟩ := by
  intro fileSystem text broken
  have decoded := decode_encode text
  have last : (encode text).getLast? = some lineFeed := by decide
  have single : lineFeed ∉ broken := by decide
  have noText : decode broken = none := by decide +kernel
  have begins : (encode "\ntrue").head? = some lineFeed := by decide
  obtain ⟨lines, text_eq, each, whole, compose, fails⟩ :=
    exists_answers_session fileSystem (encode text) text decoded (.inr last)
  exact ⟨decoded, last, single, noText, lines, text_eq, each, whole, compose _,
    fails broken _ single noText (.inr begins)⟩

end Scriptlet.Console
