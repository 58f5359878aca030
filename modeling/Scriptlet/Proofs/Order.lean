import Scriptlet.Proofs.Branches
import Scriptlet.Proofs.Landmarks

/-!
# Order

The landmarks of what is read come in the order of the tokens that it is read from, also where
statements are left out. `Along` says so of landmarks and tokens, and `Attempt.Covers` of an attempt
and the tokens that the parser moves over in it; there is one rule for each operation that attempts
are put together by.

An expression begins with its first token, or with a parenthesis that leaves no trace in the tree;
`Leads` says that nothing but such parentheses stands before the first token.
-/

namespace Scriptlet

variable {α β γ : Type}

/-- The landmarks come in the order of the tokens. From the token with which an expression statement
begins only opening parentheses lead to the first token of its value. -/
inductive Along : List (Landmark (Token α)) → List (Token α) → Prop where
  | done (tokens : List (Token α)) : Along [] tokens
  | pass {landmarks : List (Landmark (Token α))} {tokens : List (Token α)} (token : Token α)
      (others : Along landmarks tokens) : Along landmarks (token :: tokens)
  | item {landmarks : List (Landmark (Token α))} {tokens : List (Token α)} (token : Token α)
      (others : Along landmarks tokens) : Along (.item token :: landmarks) (token :: tokens)
  | start {landmarks : List (Landmark (Token α))} {opening tokens : List (Token α)}
      {own first : Token α} (begins : (opening ++ [first]).head? = some own)
      (parens : ∀ token ∈ opening, token.kind = .leftParen) (others : Along landmarks tokens) :
      Along (.start own :: .item first :: landmarks) (opening ++ first :: tokens)

/-- The landmarks come in the order of the tokens, and nothing but opening parentheses stands before
the first of them. -/
inductive Leads : List (Landmark (Token α)) → List (Token α) → Prop where
  | intro {landmarks : List (Landmark (Token α))} {opening tokens : List (Token α)}
      {first : Token α} (parens : ∀ token ∈ opening, token.kind = .leftParen)
      (others : Along landmarks tokens) :
      Leads (.item first :: landmarks) (opening ++ first :: tokens)

namespace Along

variable {landmarks others : List (Landmark (Token α))} {tokens more : List (Token α)}

/-- Tokens may stand before those of the landmarks. -/
theorem behind (before : List (Token α)) (along : Along landmarks tokens) :
    Along landmarks (before ++ tokens) := by
  induction before with
  | nil => exact along
  | cons token before ih => exact .pass token ih

theorem append (along : Along landmarks tokens) (following : Along others more) :
    Along (landmarks ++ others) (tokens ++ more) := by
  induction along with
  | done tokens => exact following.behind tokens
  | pass token _ ih => exact .pass token ih
  | item token _ ih => exact .item token ih
  | start begins parens _ ih =>
    rw [List.append_assoc]
    exact .start begins parens ih

/-- Tokens may stand after those of the landmarks. -/
theorem before (more : List (Token α)) (along : Along landmarks tokens) :
    Along landmarks (tokens ++ more) :=
  List.append_nil landmarks ▸ along.append (.done more)

/-- The tokens of the landmarks are among the tokens. -/
theorem mark_mem (along : Along landmarks tokens) :
    ∀ landmark ∈ landmarks, landmark.mark ∈ tokens := by
  induction along with
  | done _ => simp
  | pass token _ ih => exact fun landmark member => List.mem_cons_of_mem token (ih landmark member)
  | item token _ ih =>
    refine List.forall_mem_cons.mpr ⟨List.mem_cons_self, fun landmark member => ?_⟩
    exact List.mem_cons_of_mem token (ih landmark member)
  | @start _ opening tokens own first begins _ _ ih =>
    have whole : opening ++ first :: tokens = (opening ++ [first]) ++ tokens := by simp
    rw [whole]
    refine List.forall_mem_cons.mpr ⟨?_, List.forall_mem_cons.mpr ⟨?_, fun landmark member => ?_⟩⟩
    · exact List.mem_append_left _ (List.mem_of_mem_head? begins)
    · exact List.mem_append_left _ (by simp [Landmark.mark])
    · exact List.mem_append_right _ (ih landmark member)

/-- The tokens that are landmarks are a subsequence of the tokens. -/
theorem sublist (along : Along landmarks tokens) :
    (landmarks.filterMap Landmark.token?).Sublist tokens := by
  induction along with
  | done tokens => exact List.nil_sublist tokens
  | pass token _ ih => exact ih.cons token
  | item token _ ih => exact ih.cons_cons token
  | @start _ opening _ _ first _ _ _ ih =>
    exact (ih.cons_cons first).trans (List.sublist_append_right opening _)

/-- Where an expression statement begins, the landmarks before it come in the order of some tokens,
and those after it in the order of the tokens that follow. -/
theorem exists_of_start {first last : List (Landmark (Token α))} {own : Token α}
    (along : Along (first ++ .start own :: last) tokens) :
    ∃ earlier opening token later rest, tokens = earlier ++ (opening ++ token :: later) ∧
      last = .item token :: rest ∧ (opening ++ [token]).head? = some own ∧
      (∀ paren ∈ opening, paren.kind = .leftParen) ∧ Along first earlier := by
  generalize whole : first ++ .start own :: last = landmarks at along
  induction along generalizing first with
  | done _ => simp at whole
  | pass token _ ih =>
    obtain ⟨earlier, opening, next, later, rest, rfl, follows, begins, parens, along⟩ := ih whole
    exact ⟨token :: earlier, opening, next, later, rest, rfl, follows, begins, parens,
      .pass token along⟩
  | item token _ ih =>
    cases first with
    | nil => simp at whole
    | cons head first =>
      obtain ⟨rfl, tail⟩ := List.cons.inj whole
      obtain ⟨earlier, opening, next, later, rest, rfl, follows, begins, parens, along⟩ := ih tail
      exact ⟨token :: earlier, opening, next, later, rest, rfl, follows, begins, parens,
        .item token along⟩
  | @start others opening tokens other token begins parens _ ih =>
    match first, whole with
    | [], whole =>
      obtain ⟨same, rfl⟩ := List.cons.inj whole
      obtain rfl : own = other := by simpa using same
      exact ⟨[], opening, token, tokens, others, rfl, rfl, begins, parens, .done []⟩
    | [_], whole => simp at whole
    | _ :: _ :: first, whole =>
      obtain ⟨rfl, behind⟩ := List.cons.inj whole
      obtain ⟨rfl, tail⟩ := List.cons.inj behind
      obtain ⟨earlier, inner, next, later, rest, rfl, follows, begins', parens', along⟩ := ih tail
      exact ⟨opening ++ token :: earlier, inner, next, later, rest, by simp, follows, begins',
        parens', .start begins parens along⟩

end Along

namespace Leads

variable {landmarks others : List (Landmark (Token α))} {tokens more : List (Token α)}

theorem item (token : Token α) (along : Along landmarks tokens) :
    Leads (.item token :: landmarks) (token :: tokens) :=
  .intro (List.forall_mem_nil _) along

theorem paren {token : Token α} (isParen : token.kind = .leftParen)
    (leads : Leads landmarks tokens) : Leads landmarks (token :: tokens) := by
  cases leads with
  | intro parens along => exact .intro (List.forall_mem_cons.mpr ⟨isParen, parens⟩) along

theorem append (leads : Leads landmarks tokens) (following : Along others more) :
    Leads (landmarks ++ others) (tokens ++ more) := by
  cases leads with
  | intro parens along =>
    rw [List.append_assoc]
    exact .intro parens (along.append following)

theorem before (more : List (Token α)) (leads : Leads landmarks tokens) :
    Leads landmarks (tokens ++ more) :=
  List.append_nil landmarks ▸ leads.append (.done more)

theorem along (leads : Leads landmarks tokens) : Along landmarks tokens := by
  cases leads with
  | @intro _ opening _ first _ along => exact (Along.item first along).behind opening

/-- A statement may begin with the first of the tokens that lead to its value. -/
theorem start {own : Token α} (leads : Leads landmarks tokens) (begins : tokens.head? = some own) :
    Along (.start own :: landmarks) tokens := by
  cases leads with
  | @intro _ opening _ first parens along =>
    refine .start ?_ parens along
    cases opening with
    | nil => exact begins
    | cons _ _ => exact begins

theorem ne_nil (leads : Leads landmarks tokens) : tokens ≠ [] := by
  cases leads with
  | intro _ _ => simp

end Leads

namespace TokenStream

/-- The current token, unless it is the end. -/
def here (stream : TokenStream α) : List (Token α) := stream.pending.take 1

variable {stream : TokenStream α}

theorem here_append_ahead (stream : TokenStream α) : stream.here ++ stream.ahead = stream.pending := by
  rw [here, ahead, ← List.drop_one, List.take_append_drop]

theorem here_of_going (going : stream.current.kind ≠ .eof) : stream.here = [stream.current] := by
  rw [here, stream.pending_eq_cons going]
  rfl

theorem here_advance (going : stream.peek.kind ≠ .eof) : stream.advance.here = [stream.peek] :=
  here_of_going going

/-- What the parser stands on and moves over begins with the current token, if there is anything. -/
theorem head?_here_append {taken left : List (Token α)} (moved : stream.ahead = taken ++ left)
    (nonempty : stream.here ++ taken ≠ []) :
    (stream.here ++ taken).head? = some stream.current := by
  cases remaining : stream.pending with
  | nil =>
    have nothing : stream.ahead = [] := by simp [ahead, remaining]
    obtain ⟨rfl, -⟩ := List.append_eq_nil_iff.mp (moved.symm.trans nothing)
    simp [here, remaining] at nonempty
  | cons first more => simp [here, remaining, current_of_pending remaining]

end TokenStream

namespace Attempt

variable {stream : TokenStream α}

/-- The parser moves over some tokens, and what is read has the property with regard to them. -/
def Covers (attempt : Attempt stream β) (property : List (Token α) → β → Prop) : Prop :=
  ∃ taken, stream.ahead = taken ++ attempt.rest.ahead ∧
    ∀ value, attempt.value = some value → property taken value

variable {property : List (Token α) → β → Prop}

theorem covers_give {value : β} (holds : property [] value) :
    (give value : Attempt stream β).Covers property :=
  ⟨[], rfl, by rintro _ ⟨⟩; exact holds⟩

theorem covers_refuse (problem : Problem α) :
    (refuse problem : Attempt stream β).Covers property :=
  ⟨[], rfl, by rintro _ ⟨⟩⟩

theorem covers_noting {event : ParseEvent α} {attempt : Attempt stream β}
    (covers : attempt.Covers property) : (attempt.noting event).Covers property := covers

/-- A step is over the token at which the parser then stands. -/
theorem covers_moving {attempt : Attempt stream.advance β}
    (covers : attempt.Covers fun taken => property (stream.advance.here ++ taken)) :
    attempt.moving.Covers property := by
  obtain ⟨taken, moved, holds⟩ := covers
  refine ⟨stream.advance.here ++ taken, ?_, holds⟩
  calc stream.ahead
      = stream.advance.here ++ stream.advance.ahead := (stream.advance.here_append_ahead).symm
    _ = stream.advance.here ++ taken ++ attempt.rest.ahead := by rw [moved, List.append_assoc]

theorem covers_expecting {kind : Kind} {next : stream.peek.kind = kind → Attempt stream.advance β}
    (covers : ∀ found, (next found).Covers fun taken => property (stream.advance.here ++ taken)) :
    (expecting kind next).Covers property := by
  unfold expecting
  split
  · next found => exact covers_moving (covers found)
  · exact covers_refuse _

theorem covers_map {f : β → γ} {attempt : Attempt stream β}
    {result : List (Token α) → γ → Prop} (covers : attempt.Covers property)
    (implied : ∀ taken value, property taken value → result taken (f value)) :
    (attempt.map f).Covers result := by
  obtain ⟨taken, moved, holds⟩ := covers
  refine ⟨taken, moved, ?_⟩
  intro value given
  obtain ⟨before, read, rfl⟩ := Option.map_eq_some_iff.mp given
  exact implied taken before (holds before read)

theorem covers_andThen {attempt : Attempt stream β}
    {next : β → (rest : TokenStream α) → rest.size ≤ stream.size → Attempt rest γ}
    {result : List (Token α) → γ → Prop} (covers : attempt.Covers property)
    (covers_next : ∀ value rest shorter taken, stream.ahead = taken ++ rest.ahead →
      property taken value → (next value rest shorter).Covers fun more => result (taken ++ more)) :
    (attempt.andThen next).Covers result := by
  obtain ⟨taken, moved, holds⟩ := covers
  cases given : attempt.value with
  | none =>
    refine ⟨taken, by rw [rest_andThen_none given]; exact moved, ?_⟩
    intro value read
    rw [value_andThen_none given] at read
    cases read
  | some value =>
    obtain ⟨more, moved_next, holds_next⟩ :=
      covers_next value attempt.rest attempt.size_le taken moved (holds value given)
    refine ⟨taken ++ more, ?_, ?_⟩
    · rw [rest_andThen_some given, moved, moved_next, List.append_assoc]
    · rw [value_andThen_some given]
      exact holds_next

/-- A statement that is left out has had its tokens, and asks nothing of them. -/
theorem covers_settle {attempt : Attempt stream β} (covers : attempt.Covers property) :
    attempt.settle.Covers fun taken settled => ∀ value, settled = some value →
      property taken value := by
  obtain ⟨taken, moved, holds⟩ := covers
  exact ⟨taken, moved, by rintro _ ⟨⟩; exact holds⟩

end Attempt

namespace Parse

open Attempt

/-- The semicolon is a token without a landmark. -/
theorem covers_ending (stream : TokenStream α) (tree : Statement (Token α))
    {tokens : List (Token α)} (along : Along tree.landmarks tokens) :
    (ending tree : Attempt stream _).Covers
      fun taken result => Along result.landmarks (tokens ++ taken) := by
  unfold ending
  split
  · exact covers_moving (covers_give (along.before _))
  · exact covers_give (along.before [])

theorem along_name {stream : TokenStream α} (found : stream.current.kind = .identifier) :
    Along [(name stream).landmark] stream.here := by
  rw [TokenStream.here_of_going (by simp [found])]
  exact .item stream.current (.done [])

theorem covers_parameterList (stream : TokenStream α) : (parameterList stream).Covers
    fun taken names => Along (names.map Name.landmark) taken := by
  induction stream using parameterList.induct with
  | case1 stream ih =>
    rw [parameterList_eq]
    refine covers_expecting fun found => ?_
    have first := along_name found
    split
    · refine covers_moving (covers_map (ih found) ?_)
      intro taken names others
      exact first.append (others.behind _)
    · exact covers_expecting fun _ => covers_give (first.before _)

theorem covers_parameters (stream : TokenStream α) : (parameters stream).Covers
    fun taken names => Along (names.map Name.landmark) taken := by
  unfold parameters
  split
  · exact covers_moving (covers_give (.done _))
  · exact covers_parameterList stream

theorem leads_current (stream : TokenStream α) {landmarks : List (Landmark (Token α))}
    {tokens : List (Token α)} (going : stream.current.kind ≠ .eof) (along : Along landmarks tokens) :
    Leads (.item stream.current :: landmarks) (stream.here ++ tokens) := by
  rw [TokenStream.here_of_going going]
  exact .item stream.current along

/-- The landmarks of a statement come before those of the statements after it; one that was left out
has none. -/
theorem along_kept {tree : Option (Statement (Token α))} {trees : List (Statement (Token α))}
    {tokens more : List (Token α)} (kept : ∀ value, tree = some value → Along value.landmarks tokens)
    (others : Along (statementLandmarks trees) more) :
    Along (statementLandmarks (tree.toList ++ trees)) (tokens ++ more) := by
  cases tree with
  | none => exact others.behind tokens
  | some value => exact (kept value rfl).append others

/-- Every call reads landmarks in the order of the tokens. Those of an expression and of a statement
begin with the current token, those of an operation are added to the landmarks of its left side. -/
def ordered : Calls α where
  expression precedence stream := (expression precedence stream).Covers
    fun taken tree => Leads tree.landmarks (stream.here ++ taken)
  operand stream := (operand stream).Covers
    fun taken tree => Leads tree.landmarks (stream.here ++ taken)
  operators precedence left stream := ∀ tokens, Leads left.landmarks tokens →
    (operators precedence left stream).Covers
      fun taken tree => Leads tree.landmarks (tokens ++ taken)
  arguments stream := (arguments stream).Covers
    fun taken trees => Along (argumentLandmarks trees) taken
  argumentList stream := (argumentList stream).Covers
    fun taken trees => Along (argumentLandmarks trees) taken
  conditional stream := stream.current.kind = .ifWord → (conditional stream).Covers
    fun taken tree => Leads tree.landmarks (stream.here ++ taken)
  alternative stream := (alternative stream).Covers
    fun taken tree => Along (tree.elim [] Block.landmarks) taken
  function stream := stream.current.kind = .fnWord → (function stream).Covers
    fun taken tree => Leads tree.landmarks (stream.here ++ taken)
  block stream := stream.current.kind = .leftBrace → (block stream).Covers
    fun taken tree => Along tree.landmarks (stream.here ++ taken)
  blockStatements stream := (blockStatements stream).Covers
    fun taken trees => Along (statementLandmarks trees) (stream.here ++ taken)
  statement stream := (statement stream).Covers
    fun taken tree => Along tree.landmarks (stream.here ++ taken)

/-- Each function reads landmarks in order if those that it calls do. -/
theorem ordered_inductive : (ordered : Calls α).Inductive where
  expression precedence stream operand_covers operators_covers := by
    show (expression precedence stream).Covers _
    rw [expression_eq]
    refine covers_noting (covers_andThen operand_covers ?_)
    intro left rest shorter taken _ leads
    simpa only [List.append_assoc] using operators_covers left rest shorter _ leads
  operand_identifier stream found := by
    show (operand stream).Covers _
    rw [operand_identifier found]
    exact covers_give (leads_current stream (by simp [found]) (.done []))
  operand_integer stream value found fits := by
    show (operand stream).Covers _
    rw [operand_integer found fits]
    exact covers_give (leads_current stream (by simp [found]) (.done []))
  operand_tooLarge stream found large := by
    show (operand stream).Covers _
    rw [operand_tooLarge found large]
    exact covers_refuse _
  operand_truth stream found := by
    show (operand stream).Covers _
    rw [operand_truth found]
    exact covers_give (leads_current stream (by simp [found]) (.done []))
  operand_falsehood stream found := by
    show (operand stream).Covers _
    rw [operand_falsehood found]
    exact covers_give (leads_current stream (by simp [found]) (.done []))
  operand_negation stream found operand_covers := by
    have going : stream.current.kind ≠ .eof := by rcases found with is | is <;> simp [is]
    show (operand stream).Covers _
    rw [operand_negation found]
    refine covers_moving (covers_map operand_covers ?_)
    intro taken tree leads
    exact leads_current stream going leads.along
  operand_group stream found inner_covers := by
    show (operand stream).Covers _
    rw [operand_group found]
    refine covers_moving (covers_andThen inner_covers ?_)
    intro inner rest _ taken _ leads
    refine covers_expecting fun _ => covers_give ?_
    rw [TokenStream.here_of_going (by simp [found])]
    have outside := (leads.before (rest.advance.here ++ [])).paren found
    simpa only [List.append_assoc, List.cons_append, List.nil_append] using outside
  operand_conditional stream found conditional_covers := by
    show (operand stream).Covers _
    rw [operand_conditional found]
    exact conditional_covers found
  operand_function stream found function_covers := by
    show (operand stream).Covers _
    rw [operand_function found]
    exact function_covers found
  operand_refused stream found := by
    show (operand stream).Covers _
    rw [operand_refused found]
    exact covers_refuse _
  operators_call precedence left stream tighter found arguments_covers operators_covers := by
    intro tokens leads
    have going : stream.peek.kind ≠ .eof := Precedence.ne_eof_of_lt tighter
    rw [operators_call tighter found]
    refine covers_moving (covers_andThen arguments_covers ?_)
    intro trees rest shorter taken _ along
    have following := operators_covers trees rest shorter _
      (leads.append (Along.item stream.peek along))
    rw [TokenStream.here_advance going]
    simpa only [List.append_assoc, List.cons_append, List.nil_append] using following
  operators_operation precedence left stream tighter found right_covers operators_covers := by
    intro tokens leads
    have going : stream.peek.kind ≠ .eof := Precedence.ne_eof_of_lt tighter
    rw [operators_operation tighter found]
    refine covers_moving (covers_moving (covers_andThen right_covers ?_))
    intro right rest shorter taken _ leads_right
    have following := operators_covers right rest shorter _
      (leads.append (Along.item stream.peek leads_right.along))
    rw [TokenStream.here_advance going]
    simpa only [List.append_assoc, List.cons_append, List.nil_append] using following
  operators_done precedence left stream looser := by
    intro tokens leads
    rw [operators_done looser]
    exact covers_give (leads.before [])
  arguments_none stream found := by
    show (arguments stream).Covers _
    rw [arguments_none found]
    exact covers_moving (covers_give (.done _))
  arguments_some stream found list_covers := by
    show (arguments stream).Covers _
    rw [arguments_some found]
    exact list_covers
  argumentList stream argument_covers list_covers := by
    show (argumentList stream).Covers _
    rw [argumentList_eq]
    refine covers_moving (covers_andThen argument_covers ?_)
    intro argument rest shorter taken _ leads
    split
    · next comma =>
      refine covers_moving (covers_map (list_covers rest shorter comma) ?_)
      intro more trees along
      rw [← List.append_assoc]
      exact leads.along.append (along.behind _)
    · refine covers_expecting fun _ => covers_give ?_
      rw [← List.append_assoc]
      exact leads.along.append (.done _)
  conditional stream condition_covers block_covers alternative_covers := by
    intro found
    rw [conditional_eq]
    refine covers_expecting fun opens =>
      covers_moving (covers_andThen (condition_covers opens) ?_)
    intro condition rest shorter taken _ leads
    refine covers_expecting fun _ => covers_expecting fun isBrace =>
      covers_andThen (block_covers opens rest shorter isBrace) ?_
    intro consequence last shorter_last inside _ along
    refine covers_map (alternative_covers opens rest shorter last shorter_last) ?_
    intro more replacement along_other
    rw [Expression.landmarks_conditional]
    refine leads_current stream (by simp [found]) (.behind _ ?_)
    have blocks := along.append along_other
    simpa only [List.append_assoc] using leads.along.append (blocks.behind rest.advance.here)
  alternative_some stream found block_covers := by
    show (alternative stream).Covers _
    rw [alternative_some found]
    refine covers_moving (covers_expecting fun isBrace => covers_map (block_covers isBrace) ?_)
    intro taken tree along
    exact along.behind _
  alternative_none stream found := by
    show (alternative stream).Covers _
    rw [alternative_none found]
    exact covers_give (.done [])
  function stream block_covers := by
    intro found
    rw [function_eq]
    refine covers_expecting fun opens => covers_andThen (covers_parameters _) ?_
    intro names rest shorter taken _ along
    refine covers_expecting fun isBrace => covers_map (block_covers opens rest shorter isBrace) ?_
    intro inside tree along_body
    refine leads_current stream (by simp [found]) (.behind _ ?_)
    exact along.append along_body
  block stream statements_covers := by
    intro found
    rw [block_eq]
    refine covers_noting (covers_moving (covers_map statements_covers ?_))
    intro taken trees along
    exact (leads_current stream (by simp [found]) along).along
  blockStatements_done stream found := by
    show (blockStatements stream).Covers _
    rw [blockStatements_done found]
    exact covers_noting (covers_give (.done _))
  blockStatements_more stream found statement_covers statements_covers := by
    show (blockStatements stream).Covers _
    rw [blockStatements_more found]
    refine covers_andThen (covers_settle statement_covers) ?_
    intro tree rest shorter taken _ kept
    refine covers_moving (covers_map (statements_covers rest shorter) ?_)
    intro more trees others
    rw [← List.append_assoc]
    exact along_kept kept others
  statement_binding stream found value_covers := by
    show (statement stream).Covers _
    rw [statement_binding found]
    refine covers_expecting fun isName => covers_expecting fun _ =>
      covers_moving (covers_andThen value_covers ?_)
    intro value rest _ taken _ leads
    have named := (along_name isName).append (leads.along.behind stream.advance.advance.here)
    have whole := (leads_current stream (by simp [found]) named).along
    have ended := covers_ending rest (.binding _ _ value) whole
    simpa only [List.append_assoc] using ended
  statement_bareReturn stream found bare := by
    show (statement stream).Covers _
    rw [statement_bareReturn found bare]
    have whole := (leads_current stream (by simp [found]) (.done [])).along
    simpa only [List.append_nil] using covers_ending stream (.returning _ none) whole
  statement_returning stream found valued value_covers := by
    show (statement stream).Covers _
    rw [statement_returning found valued]
    refine covers_moving (covers_andThen value_covers ?_)
    intro value rest _ taken _ leads
    have whole := (leads_current stream (by simp [found]) leads.along).along
    have ended := covers_ending rest (.returning _ (some value)) whole
    simpa only [List.append_assoc] using ended
  statement_expression stream notLet notReturn value_covers := by
    show (statement stream).Covers _
    rw [statement_expression notLet notReturn]
    refine covers_andThen value_covers ?_
    intro value rest _ taken moved leads
    have whole := leads.start (TokenStream.head?_here_append moved leads.ne_nil)
    have ended := covers_ending rest (.expression _ value) whole
    simpa only [List.append_assoc] using ended

theorem covers_statements (stream : TokenStream α) : (statements stream).Covers
    fun taken trees => Along (statementLandmarks trees) (stream.here ++ taken) := by
  induction stream using statements.induct with
  | case1 stream found =>
    rw [statements_done found]
    exact covers_give (.done _)
  | case2 stream found ih =>
    rw [statements_more found]
    refine covers_andThen (covers_settle (ordered_inductive.hold.statement stream)) ?_
    intro tree rest shorter taken _ kept
    refine covers_moving (covers_map (ih rest shorter) ?_)
    intro more trees others
    rw [← List.append_assoc]
    exact along_kept kept others

/-- The statements of a text have their landmarks in the order of its tokens, whatever is wrong with
those that are left out. -/
theorem along_statements (stream : TokenStream α) :
    Along (statementLandmarks ((statements stream).value.getD [])) stream.pending := by
  obtain ⟨taken, moved, holds⟩ := covers_statements stream
  obtain ⟨trees, given⟩ := exists_value_statements stream
  rw [given, ← stream.here_append_ahead, moved, ← List.append_assoc]
  exact (holds trees given).before _

end Parse

end Scriptlet
