import Scriptlet.Proofs.Descent
import Scriptlet.Proofs.Reports
import Scriptlet.Trace

/-!
# Visits

The record of a parser shows the tokens that it comes to. It comes to all of them, one after the
other and to none of them twice, and at the end of the text it may move on, but only to the end
token again. An expression is shown with the token to which the parser came last, and a problem
while the parser stands at its token or has it still before it.
-/

namespace Scriptlet

variable {α : Type}

/-- The token that the event moves to. -/
def ParseEvent.visited? : ParseEvent α → Option (Token α)
  | .moved current => some current
  | _ => none

@[simp] theorem filterMap_visited?_moved (token : Token α) (log : List (ParseEvent α)) :
    (.moved token :: log).filterMap ParseEvent.visited? =
      token :: log.filterMap ParseEvent.visited? :=
  rfl

namespace Record

/-- What happened, as the first field of the record says. -/
def tells (record : Record) (what : String) : Bool := record.fields.head? = some ("message", what)

/-- The record of coming to a token. -/
def ofVisit (token : Token Location) : Record :=
  ⟨.trace, [("message", "current token"), ("kind", token.kind.text), ("literal", token.literal),
    ("location", token.location.text)]⟩

/-- The record of an expression that begins at a token. -/
def ofEntry (precedence : Precedence) (token : Token Location) : Record :=
  ⟨.trace, [("message", "parse expression"), ("precedence", precedence.text),
    ("kind", token.kind.text)]⟩

/-- The record of a problem that is shown as a diagnostic. -/
def ofDiagnostic (diagnostic : Diagnostic) : Record :=
  ⟨.debug, [("message", "parse error"), ("location", diagnostic.location.text),
    ("message", diagnostic.message)]⟩

end Record

/-- The record of what a parser has done so far. -/
def Parser.records (parser : Parser Location) : List Record :=
  parser.log.filterMap ParseEvent.record?

/-- The record of a run begins with that of its parser. -/
theorem records_prefix_traceText (text path : String) :
    (Parser.ofCursor (.ofText text path)).program.2.records <+: (traceText text path).1 := by
  unfold traceText
  dsimp only
  split
  · exact List.prefix_append _ _
  · exact List.prefix_rfl

/-! ## Records of a log -/

section records

variable (log : List (ParseEvent Location))

/-- The records that tell of a token are those of the steps, one for each and in their order. -/
theorem filter_visits : (log.filterMap ParseEvent.record?).filter (·.tells "current token") =
    (log.filterMap ParseEvent.visited?).map Record.ofVisit := by
  rw [List.filter_filterMap, List.map_filterMap]
  congr 1
  funext event
  cases event <;> simp [ParseEvent.record?, ParseEvent.visited?, Record.tells, Record.ofVisit]

theorem filter_problems : (log.filterMap ParseEvent.record?).filter (·.tells "parse error") =
    (log.filterMap ParseEvent.problem?).map (Record.ofDiagnostic ∘ Diagnostic.ofProblem) := by
  rw [List.filter_filterMap, List.map_filterMap]
  congr 1
  funext event
  cases event <;>
    simp [ParseEvent.record?, ParseEvent.problem?, Record.tells, Record.ofDiagnostic,
      Diagnostic.ofProblem]

/-- Every step is recorded. -/
theorem countP_visits :
    (log.filterMap ParseEvent.record?).countP (·.tells "current token") = steps log := by
  rw [List.countP_filterMap, steps]
  congr 1
  funext event
  cases event <;> simp [ParseEvent.record?, ParseEvent.isStep, Record.tells]

variable {log}

/-- A record that tells of an expression is that of its beginning. -/
theorem exists_entered {event : ParseEvent Location} {record : Record}
    (shown : event.record? = some record) (isEntry : record.tells "parse expression") :
    ∃ precedence token, event = .entered precedence token ∧ record = .ofEntry precedence token := by
  cases event with
  | entered precedence token =>
    cases shown
    exact ⟨precedence, token, rfl, rfl⟩
  | moved _ | reported _ =>
    cases shown
    simp [Record.tells] at isEntry
  | settled _ _ | opened _ | closed _ => cases shown

theorem exists_reported {event : ParseEvent Location} {record : Record}
    (shown : event.record? = some record) (isProblem : record.tells "parse error") :
    ∃ problem, event = .reported problem ∧ record = .ofDiagnostic (.ofProblem problem) := by
  cases event with
  | reported problem =>
    cases shown
    exact ⟨problem, rfl, rfl⟩
  | moved _ | entered _ _ =>
    cases shown
    simp [Record.tells] at isProblem
  | settled _ _ | opened _ | closed _ => cases shown

/-- A record is that of an event, and the records before it are those of the events before that. -/
theorem exists_event_of_records {earlier later : List Record} {record : Record}
    (parts : log.filterMap ParseEvent.record? = earlier ++ record :: later) :
    ∃ before event after, log = before ++ event :: after ∧
      before.filterMap ParseEvent.record? = earlier ∧ event.record? = some record := by
  obtain ⟨first, rest, rfl, rfl, shown⟩ := List.filterMap_eq_append_iff.mp parts
  obtain ⟨silent, event, after, rfl, unshown, shown, -⟩ := List.filterMap_eq_cons_iff.mp shown
  refine ⟨first ++ silent, event, after, (List.append_assoc ..).symm, ?_, shown⟩
  rw [List.filterMap_append, List.filterMap_eq_nil_iff.mpr unshown, List.append_nil]

end records

/-! ## Walks -/

namespace Walk

/-- A walk comes to the tokens one after the other. -/
theorem visits_eq {stream : TokenStream α} {index : Nat} {fresh : Bool}
    {log : List (ParseEvent α)} {place last : Standing α} (walk : Walk place log last)
    (stands : place = ⟨stream.drop index, fresh⟩) :
    log.filterMap ParseEvent.visited? =
      (List.range' (index + 1) (steps log)).map stream.nth := by
  induction walk generalizing index fresh with
  | stay _ => rfl
  | step occurs _ ih =>
    subst stands
    -- Only a step changes the index, and it comes to the token behind that.
    cases occurs with
    | moved =>
      rw [filterMap_visited?_moved, steps_moved, List.range'_succ, List.map_cons,
        ih (congrArg (Standing.mk · true) (stream.advance_drop index)), stream.peek_drop]
    | _ => rw [List.filterMap_cons_none rfl, steps_of_isStep_false rfl, ih rfl]

/-- Between two problems there is a step, and after the last problem of a program too. -/
theorem steps_pos {place last : Standing α} {log : List (ParseEvent α)} (walk : Walk place log last)
    (stale : place.fresh = false) (fresh : last.fresh = true) : 0 < steps log := by
  induction walk with
  | stay _ => exact absurd fresh (by simp [stale])
  | step occurs _ ih =>
    cases occurs with
    | moved =>
      rw [steps_moved]
      exact Nat.succ_pos _
    | unexpected _ => cases stale
    | noExpression _ => cases stale
    | tooLarge _ => cases stale
    | _ =>
      rw [steps_of_isStep_false rfl]
      exact ih stale fresh

end Walk

/-- A problem is about the token at which the parser stands, or about the next one, and then nothing
else is said before the next step. -/
theorem ParseEvent.Occurs.about {stream : TokenStream Location} {fresh : Bool}
    {problem : Problem Location} {next : Standing Location}
    (occurs : (reported problem).Occurs ⟨stream, fresh⟩ next) : next.fresh = false ∧
      (Diagnostic.About stream.current .here (.ofProblem problem) ∨
        Diagnostic.About stream.peek .ahead (.ofProblem problem)) := by
  cases occurs with
  | unexpected differs => exact ⟨rfl, .inr (.unexpected differs)⟩
  | noExpression unfit => exact ⟨rfl, .inl (.noExpression unfit)⟩
  | tooLarge isInteger => exact ⟨rfl, .inl (.tooLarge isInteger)⟩

/-! ## Texts -/

namespace TokenStream

variable (stream : TokenStream α)

/-- From the number of tokens on there is only the end token. -/
theorem nth_of_size_le {i : Nat} (beyond : stream.size ≤ i) : stream.nth i = stream.ending := by
  rw [nth, List.getElem?_eq_none_iff.mpr beyond, Option.getD_none]

/-- The first tokens that are read are those of the text, its end, and that again. -/
theorem map_nth_range (extra : Nat) : (List.range (stream.size + extra + 1)).map stream.nth =
    (List.range (stream.size + 1)).map stream.nth ++
      .replicate extra (stream.nth stream.size) := by
  rw [Nat.add_right_comm, List.range_add, List.map_append, List.map_map]
  refine congrArg _ (List.eq_replicate_iff.mpr ⟨by simp, fun token member => ?_⟩)
  obtain ⟨i, -, rfl⟩ := List.mem_map.mp member
  rw [stream.nth_of_size_le (Nat.le_refl _)]
  exact stream.nth_of_size_le (by simp only; omega)

theorem tail_map_nth_range (count : Nat) :
    ((List.range (count + 1)).map stream.nth).tail = (List.range' 1 count).map stream.nth := by
  rw [List.range_eq_range', List.range'_succ, List.map_cons, List.tail_cons]

theorem getElem?_map_nth_range {count i : Nat} (within : i ≤ count) :
    ((List.range (count + 1)).map stream.nth)[i]? = some (stream.nth i) := by
  rw [List.getElem?_map, List.getElem?_range (Nat.lt_succ_of_le within)]
  rfl

end TokenStream

namespace Parse

variable (stream : TokenStream Location)

/-- The end of the text is visited, if nothing else is. -/
theorem size_le_steps (cursor : Cursor) :
    (TokenStream.ofCursor cursor).size ≤ steps (statements (.ofCursor cursor)).log := by
  have walk := Attempt.compositional_walked.statements (TokenStream.ofCursor cursor)
  have rest_eq : (statements (.ofCursor cursor)).rest = _ := walk.stream_eq
  have ended := current_kind_rest_statements (.ofCursor cursor)
  rw [rest_eq, TokenStream.current_drop, ← cursor.nth_eq] at ended
  exact (cursor.nth_eq_eof_iff _).mp ended

/-- Where the parser stands when something is recorded: an expression begins there, and a problem is
about the token there or about the next one, to which the parser comes later. -/
theorem records_at {earlier later : List Record} {record : Record}
    (parts : (statements stream).log.filterMap ParseEvent.record? = earlier ++ record :: later) :
    let index := earlier.countP (·.tells "current token")
    index ≤ steps (statements stream).log ∧
    (record.tells "parse expression" → ∃ precedence,
      record = .ofEntry precedence (stream.nth index)) ∧
    (record.tells "parse error" → index + 1 ≤ steps (statements stream).log ∧
      ∃ diagnostic, record = .ofDiagnostic diagnostic ∧
        (Diagnostic.About (stream.nth index) .here diagnostic ∨
          Diagnostic.About (stream.nth (index + 1)) .ahead diagnostic)) := by
  obtain ⟨before, event, after, log_eq, rfl, shown⟩ := exists_event_of_records parts
  have walk : Walk ⟨stream, true⟩ (statements stream).log
      ⟨(statements stream).rest, (statements stream).value.isSome⟩ :=
    Attempt.compositional_walked.statements stream
  rw [log_eq] at walk
  obtain ⟨⟨place, fresh⟩, first, second⟩ := walk.split
  obtain rfl : place = stream.drop (steps before) := first.stream_eq
  have counted : steps (statements stream).log = steps before + steps (event :: after) := by
    rw [log_eq, steps_append]
  intro index
  have index_eq : index = steps before := countP_visits before
  rw [index_eq, counted, ← stream.current_drop, ← stream.peek_drop]
  refine ⟨Nat.le_add_right _ _, fun isEntry => ?_, fun isProblem => ?_⟩
  · obtain ⟨precedence, token, rfl, rfl⟩ := exists_entered shown isEntry
    cases second with
    | step occurs _ =>
      cases occurs
      exact ⟨precedence, rfl⟩
  · obtain ⟨problem, rfl, rfl⟩ := exists_reported shown isProblem
    cases second with
    | step occurs onward =>
      obtain ⟨stale, about⟩ := occurs.about
      obtain ⟨trees, given⟩ := exists_value_statements stream
      -- A run of statements never ends refused, so there is a step behind its last problem.
      have further := onward.steps_pos stale (by simp [given])
      rw [steps_of_isStep_false rfl]
      exact ⟨by omega, _, rfl, about⟩

end Parse

/-- A parser visits every token once and in order. It comes to the tokens behind the first one, one
after the other, up to the end of the text, and perhaps it comes to that some more times; with no
token to begin with it does nothing. An expression is recorded with the token that was visited last,
and a problem with that token or the one that is visited next; the problems that are recorded are
those that are shown. -/
theorem exists_visits (cursor : Cursor) : ∃ (last extra : Nat) (visits : List (Token Location)),
    (∀ i, (cursor.nth i).kind = .eof ↔ last ≤ i) ∧
    visits = (List.range (last + 1)).map cursor.nth ++ .replicate extra (cursor.nth last) ∧
    let parser := (Parser.ofCursor cursor).program.2
    parser.records.filter (·.tells "current token") = visits.tail.map .ofVisit ∧
    (last = 0 → parser.records = []) ∧
    parser.records.filter (·.tells "parse error") = parser.diagnostics.map .ofDiagnostic ∧
    ∀ earlier record later, parser.records = earlier ++ record :: later →
      let index := earlier.countP (·.tells "current token")
      (record.tells "parse expression" → ∃ precedence token,
        record = .ofEntry precedence token ∧ visits[index]? = some token) ∧
      (record.tells "parse error" → ∃ diagnostic token, record = .ofDiagnostic diagnostic ∧
        (visits[index]? = some token ∧ Diagnostic.About token .here diagnostic ∨
          visits[index + 1]? = some token ∧ Diagnostic.About token .ahead diagnostic)) := by
  let stream := TokenStream.ofCursor cursor
  let log := (Parse.statements stream).log
  have same : cursor.nth = stream.nth := funext cursor.nth_eq
  obtain ⟨extra, length⟩ : ∃ extra, steps log = stream.size + extra :=
    Nat.exists_eq_add_of_le (Parse.size_le_steps cursor)
  refine ⟨stream.size, extra, (List.range (steps log + 1)).map stream.nth, cursor.nth_eq_eof_iff,
    ?_, ?_, ?_, ?_, ?_⟩
  · rw [same, length, stream.map_nth_range]
  · have walk := Attempt.compositional_walked.statements stream
    have visited := walk.visits_eq (congrArg (Standing.mk · true) stream.drop_zero.symm)
    rw [stream.tail_map_nth_range]
    exact (filter_visits log).trans (congrArg _ visited)
  · intro empty
    have ended : stream.current.kind = .eof := by
      rw [TokenStream.current_of_pending_nil (List.length_eq_zero_iff.mp empty)]
      rfl
    show (Parse.statements stream).log.filterMap _ = []
    rw [Parse.statements_done ended]
    rfl
  · exact (filter_problems log).trans (List.map_map ..).symm
  · intro earlier record later parts index
    obtain ⟨within, entry, problem⟩ := Parse.records_at stream parts
    refine ⟨fun isEntry => ?_, fun isProblem => ?_⟩
    · obtain ⟨precedence, rfl⟩ := entry isEntry
      exact ⟨precedence, _, rfl, stream.getElem?_map_nth_range within⟩
    · obtain ⟨inside, diagnostic, rfl, here | ahead⟩ := problem isProblem
      · exact ⟨diagnostic, _, rfl, .inl ⟨stream.getElem?_map_nth_range within, here⟩⟩
      · exact ⟨diagnostic, _, rfl, .inr ⟨stream.getElem?_map_nth_range inside, ahead⟩⟩

/-- Where an operand is missing the end of the text is visited twice. -/
example : (Parser.ofCursor (.ofText "!" "p")).program.2.records.map
    (fun record => record.fields.map Prod.snd) =
      [["parse expression", "Lowest", "!"], ["current token", "EOF", "", "p:1:2"],
        ["parse expression", "Prefix", "EOF"],
        ["parse error", "p:1:2", "no prefix parse function for EOF ''"],
        ["current token", "EOF", "", "p:1:2"]] := by
  decide +kernel

end Scriptlet
