import Scriptlet.Proofs.Branches

/-!
# Effort

How long the log of an attempt is. Every token that is read pays for five events, and an attempt may
have a few more, as many as its function is allowed. Most of them are there for the end of the text,
where the parser moves on without reading anything: there it may still begin an expression, report
that there is none, and be done with what it was in the middle of.

So the log of a program is linear in the number of its tokens.
-/

namespace Scriptlet

variable {α β γ : Type}

namespace TokenStream

theorem current_kind_of_size_eq_zero {stream : TokenStream α} (ended : stream.size = 0) :
    stream.current.kind = .eof := by
  rw [current_of_pending_nil (List.length_eq_zero_iff.mp ended)]
  rfl

end TokenStream

namespace Attempt

variable {stream : TokenStream α}

/-- The tokens that the attempt has read pay for its log, but for so many events. -/
def Within (attempt : Attempt stream β) (extra : Nat) : Prop :=
  attempt.log.length + 5 * attempt.rest.size ≤ 5 * stream.size + extra

theorem Within.mono {attempt : Attempt stream β} {extra more : Nat} (within : attempt.Within extra)
    (enough : extra ≤ more) : attempt.Within more :=
  Nat.le_trans within (Nat.add_le_add_left enough _)

theorem within_give (value : β) : (give value : Attempt stream β).Within 0 := by
  simp [Within, give]

theorem within_refuse (problem : Problem α) : (refuse problem : Attempt stream β).Within 1 := by
  simp only [Within, refuse, List.length_singleton]
  omega

theorem within_noting (event : ParseEvent α) {attempt : Attempt stream β} {extra : Nat}
    (within : attempt.Within extra) : (attempt.noting event).Within (extra + 1) := by
  simp only [Within, noting, List.length_cons] at within ⊢
  omega

theorem within_map (f : β → γ) {attempt : Attempt stream β} {extra : Nat}
    (within : attempt.Within extra) : (attempt.map f).Within extra :=
  within

/-- A step at the end of the text is an event more. -/
theorem within_moving {attempt : Attempt stream.advance β} {extra : Nat}
    (within : attempt.Within extra) : attempt.moving.Within (extra + 1) := by
  simp only [Within, moving, List.length_cons, TokenStream.size_advance] at within ⊢
  omega

/-- A step from a token pays for itself and for four other events. -/
theorem within_moving_of_pos (left : 0 < stream.size) {attempt : Attempt stream.advance β}
    {extra : Nat} (within : attempt.Within (extra + 4)) : attempt.moving.Within extra := by
  simp only [Within, moving, List.length_cons, TokenStream.size_advance] at within ⊢
  omega

/-- A token of a kind that is wanted pays for five entries when it is used up; a problem costs
one. -/
theorem within_expecting {kind : Kind} (real : kind ≠ .eof)
    {next : stream.peek.kind = kind → Attempt stream.advance β} {extra : Nat}
    (within : ∀ found, (next found).Within (extra + 5)) :
    (expecting kind next).Within (extra + 1) := by
  unfold expecting
  split
  · next found =>
    have more := stream.one_lt_size fun isEnd => real (found.symm.trans isEnd)
    exact within_moving_of_pos (by omega) (within found)
  · exact (within_refuse _).mono (by omega)

/-- What is left of the first price is there for what follows, so the prices add up. -/
theorem within_andThen {attempt : Attempt stream β}
    {next : β → (rest : TokenStream α) → rest.size ≤ stream.size → Attempt rest γ}
    {extra more total : Nat} (within : attempt.Within extra)
    (within_next : ∀ value rest shorter, (next value rest shorter).Within more)
    (enough : extra + more ≤ total) : (attempt.andThen next).Within total := by
  unfold Within at within ⊢
  cases given : attempt.value with
  | none =>
    rw [log_andThen_none given, rest_andThen_none given]
    omega
  | some value =>
    have following := within_next value attempt.rest attempt.size_le
    unfold Within at following
    rw [log_andThen_some given, rest_andThen_some given, List.length_append]
    omega

theorem within_settle {attempt : Attempt stream β} {extra : Nat} (within : attempt.Within extra) :
    attempt.settle.Within (extra + 1) := by
  simp only [Within, settle, List.length_append, List.length_singleton] at within ⊢
  omega

end Attempt

namespace Parse

open Attempt

theorem within_ending {stream : TokenStream α} (tree : Statement (Token α)) :
    (ending tree : Attempt stream _).Within 0 := by
  unfold ending
  split
  · next found =>
    have more := stream.one_lt_size (by simp [found])
    exact within_moving_of_pos (by omega) ((within_give tree).mono (by decide))
  · exact within_give tree

theorem within_parameterList (stream : TokenStream α) : (parameterList stream).Within 1 := by
  induction stream using parameterList.induct with
  | case1 stream ih =>
    rw [parameterList_eq]
    refine within_expecting (by decide) fun isName => ?_
    split
    · exact within_moving ((within_map _ (ih isName)).mono (by decide))
    · exact within_expecting (by decide) fun _ => (within_give _).mono (by decide)

theorem within_parameters (stream : TokenStream α) : (parameters stream).Within 1 := by
  unfold parameters
  split
  · exact within_moving (within_give [])
  · exact within_parameterList stream

/-- How many events each function is allowed that the tokens it reads do not pay for. An expression
has its beginning and a report. After a statement there is the event that it is done with and a
step, and then perhaps the end of its block; a block is opened and stepped into before. -/
def effort (α : Type) : Calls α where
  expression precedence stream := (expression precedence stream).Within 2
  operand stream := (operand stream).Within 1
  operators precedence left stream := (operators precedence left stream).Within 0
  arguments stream := (arguments stream).Within 4
  argumentList stream := (argumentList stream).Within 4
  conditional stream := (conditional stream).Within 1
  alternative stream := (alternative stream).Within 0
  function stream := (function stream).Within 1
  block stream := (block stream).Within 7
  blockStatements stream := (blockStatements stream).Within 5
  statement stream := (statement stream).Within 2

/-- If every function called keeps to its price, so does the function that calls it. -/
theorem effort_inductive : (effort α).Inductive where
  expression precedence stream operand_within operators_within := by
    show (expression precedence stream).Within 2
    rw [expression_eq]
    exact within_noting _ (within_andThen operand_within operators_within (by decide))
  operand_identifier stream found := by
    show (operand stream).Within 1
    rw [operand_identifier found]
    exact (within_give _).mono (by decide)
  operand_integer stream value found fits := by
    show (operand stream).Within 1
    rw [operand_integer found fits]
    exact (within_give _).mono (by decide)
  operand_tooLarge stream found large := by
    show (operand stream).Within 1
    rw [operand_tooLarge found large]
    exact within_refuse _
  operand_truth stream found := by
    show (operand stream).Within 1
    rw [operand_truth found]
    exact (within_give _).mono (by decide)
  operand_falsehood stream found := by
    show (operand stream).Within 1
    rw [operand_falsehood found]
    exact (within_give _).mono (by decide)
  operand_negation stream found operand_within := by
    show (operand stream).Within 1
    have left := stream.size_pos (by rcases found with found | found <;> simp [found])
    rw [operand_negation found]
    exact within_moving_of_pos left ((within_map _ operand_within).mono (by decide))
  operand_group stream found inner_within := by
    show (operand stream).Within 1
    have left := stream.size_pos (by simp [found])
    rw [operand_group found]
    refine within_moving_of_pos left
      (within_andThen inner_within (fun inner rest _ => ?_) (by decide : 2 + 1 ≤ 5))
    exact within_expecting (by decide) fun _ => (within_give inner).mono (by decide)
  operand_conditional stream found conditional_within := by
    show (operand stream).Within 1
    rw [operand_conditional found]
    exact conditional_within
  operand_function stream found function_within := by
    show (operand stream).Within 1
    rw [operand_function found]
    exact function_within
  operand_refused stream found := by
    show (operand stream).Within 1
    rw [operand_refused found]
    exact within_refuse _
  operators_call precedence left stream tighter found arguments_within operators_within := by
    show (operators precedence left stream).Within 0
    have more := stream.one_lt_size (Precedence.ne_eof_of_lt tighter)
    rw [operators_call tighter found]
    exact within_moving_of_pos (by omega)
      (within_andThen arguments_within operators_within (by decide))
  operators_operation precedence left stream tighter found right_within operators_within := by
    show (operators precedence left stream).Within 0
    have more := stream.one_lt_size (Precedence.ne_eof_of_lt tighter)
    rw [operators_operation tighter found]
    exact within_moving_of_pos (by omega)
      (within_moving (within_andThen right_within operators_within (by decide)))
  operators_done precedence left stream looser := by
    show (operators precedence left stream).Within 0
    rw [operators_done looser]
    exact within_give left
  arguments_none stream found := by
    show (arguments stream).Within 4
    rw [arguments_none found]
    exact within_moving ((within_give []).mono (by decide))
  arguments_some stream found list_within := by
    show (arguments stream).Within 4
    rw [arguments_some found]
    exact list_within
  argumentList stream argument_within list_within := by
    show (argumentList stream).Within 4
    rw [argumentList_eq]
    refine within_moving (within_andThen argument_within (fun argument rest shorter => ?_)
      (by decide : 2 + 1 ≤ 3))
    split
    · next comma =>
      have more := rest.one_lt_size (by simp [comma])
      exact within_moving_of_pos (by omega)
        ((within_map _ (list_within rest shorter comma)).mono (by decide))
    · exact within_expecting (by decide) fun _ => (within_give _).mono (by decide)
  conditional stream condition_within block_within alternative_within := by
    show (conditional stream).Within 1
    rw [conditional_eq]
    refine within_expecting (by decide) fun opens => within_moving
      (within_andThen (condition_within opens) (fun condition rest shorter => ?_)
        (by decide : 2 + 2 ≤ 4))
    refine within_expecting (by decide) fun _ => within_expecting (by decide) fun _ => ?_
    exact within_andThen (block_within opens rest shorter)
      (fun consequence last shorter_last =>
        within_map _ (alternative_within opens rest shorter last shorter_last)) (by decide)
  alternative_some stream found block_within := by
    show (alternative stream).Within 0
    have more := stream.one_lt_size (by simp [found])
    rw [alternative_some found]
    refine within_moving_of_pos (by omega) (within_expecting (by decide) fun _ => ?_)
    exact (within_map some block_within).mono (by decide)
  alternative_none stream found := by
    show (alternative stream).Within 0
    rw [alternative_none found]
    exact within_give none
  function stream block_within := by
    show (function stream).Within 1
    rw [function_eq]
    refine within_expecting (by decide) fun opens =>
      within_andThen (within_parameters _) (fun names rest shorter => ?_) (by decide : 1 + 4 ≤ 5)
    refine within_expecting (by decide) fun _ => ?_
    exact (within_map _ (block_within opens rest shorter)).mono (by decide)
  block stream statements_within := by
    show (block stream).Within 7
    rw [block_eq]
    exact within_noting _ (within_moving (within_map _ statements_within))
  blockStatements_done stream found := by
    show (blockStatements stream).Within 5
    rw [blockStatements_done found]
    exact within_noting _ ((within_give []).mono (by decide))
  blockStatements_more stream found statement_within statements_within := by
    show (blockStatements stream).Within 5
    rw [blockStatements_more found]
    refine within_andThen (within_settle statement_within) (fun tree rest shorter => ?_)
      (by decide : 3 + 2 ≤ 5)
    by_cases ended : rest.size = 0
    · -- The step is free, but nothing is left to do.
      rw [blockStatements_done (.inr (TokenStream.current_kind_of_size_eq_zero (by simp [ended])))]
      exact within_moving (within_map _ (within_noting _ (within_give [])))
    · exact within_moving_of_pos (Nat.pos_of_ne_zero ended)
        ((within_map _ (statements_within rest shorter)).mono (by decide))
  statement_binding stream found value_within := by
    show (statement stream).Within 2
    rw [statement_binding found]
    refine within_expecting (by decide) fun _ => within_expecting (by decide) fun _ => ?_
    exact within_moving (within_andThen value_within (fun value rest _ => within_ending _)
      (by decide))
  statement_bareReturn stream found bare := by
    show (statement stream).Within 2
    rw [statement_bareReturn found bare]
    exact (within_ending _).mono (by decide)
  statement_returning stream found valued value_within := by
    show (statement stream).Within 2
    have left := stream.size_pos (by simp [found])
    rw [statement_returning found valued]
    exact within_moving_of_pos left
      (within_andThen value_within (fun value rest _ => within_ending _) (by decide))
  statement_expression stream notLet notReturn value_within := by
    show (statement stream).Within 2
    rw [statement_expression notLet notReturn]
    exact within_andThen value_within (fun value rest _ => within_ending _) (by decide)

/-- All statements of a text are read for four entries more than their tokens pay for. -/
theorem within_statements (stream : TokenStream α) : (statements stream).Within 4 := by
  induction stream using statements.induct with
  | case1 stream found =>
    rw [statements_done found]
    exact (within_give []).mono (by decide)
  | case2 stream found ih =>
    rw [statements_more found]
    refine within_andThen (within_settle (effort_inductive.hold.statement stream))
      (fun tree rest shorter => ?_) (by decide : 3 + 1 ≤ 4)
    by_cases ended : rest.size = 0
    · rw [statements_done (TokenStream.current_kind_of_size_eq_zero (by simp [ended]))]
      exact within_moving (within_map _ (within_give []))
    · exact within_moving_of_pos (Nat.pos_of_ne_zero ended)
        ((within_map _ (ih rest shorter)).mono (by decide))

end Parse

end Scriptlet
