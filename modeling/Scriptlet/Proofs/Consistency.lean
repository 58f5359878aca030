import Scriptlet.Proofs.Faithful
import Scriptlet.Proofs.Order
import Scriptlet.Proofs.Partition

/-!
# Consistency

A node of a program and the token that it is known by say the same. `Node.Consistent` adds to
`Node.Faithful` where the token comes from: it is one of those that were read, and its literal is
one that its kind has. Since the landmarks of a program are among the tokens that were read and
every node has its token among the landmarks, no node has a token that was made up.
-/

namespace Scriptlet

variable {α τ : Type}

/-- A node of a program that consists of some tokens. -/
structure Node.Consistent (tokens : List (Token α)) (node : Node (Token α)) : Prop where
  faithful : node.Faithful
  token_mem : node.token ∈ tokens
  spells : node.token.kind.Spells node.token.literal
  /-- An integer is the value of the digits, which fits in a word. -/
  integer : ∀ value, node.datum? = some (.integer value) →
    value.toInt = Decimal.value node.token.literal.toList ∧
      Decimal.value node.token.literal.toList < Decimal.wordLimit

/-! ## Landmarks of nodes -/

theorem every_name_of_landmarks {property : τ → Prop} {names : List (Name τ)}
    (known : ∀ landmark ∈ names.map Name.landmark, property landmark.mark) :
    ∀ name ∈ names, property name.token := fun _ member =>
  known _ (List.mem_map_of_mem member)

mutual

/-- What holds of all landmarks holds of the token of every node. -/
theorem Expression.every_of_landmarks {property : τ → Prop} : (tree : Expression τ) →
    (∀ landmark ∈ tree.landmarks, property landmark.mark) →
      tree.Every fun node => property node.token
  | .identifier name, known => known name.landmark List.mem_cons_self
  | .integerLiteral token _, known => known (.item token) List.mem_cons_self
  | .booleanLiteral token _, known => known (.item token) List.mem_cons_self
  | .prefixed _ _ operand, known => by
    rw [Expression.landmarks, List.forall_mem_cons] at known
    obtain ⟨own, below⟩ := known
    exact ⟨own, operand.every_of_landmarks below⟩
  | .infixed _ _ left right, known => by
    rw [Expression.landmarks, List.forall_mem_append, List.forall_mem_cons] at known
    obtain ⟨below_left, own, below_right⟩ := known
    exact ⟨own, left.every_of_landmarks below_left, right.every_of_landmarks below_right⟩
  | .conditional _ condition consequence none, known => by
    rw [Expression.landmarks, List.forall_mem_cons, List.forall_mem_append] at known
    obtain ⟨own, below, below_body⟩ := known
    exact ⟨own, condition.every_of_landmarks below, consequence.every_of_landmarks below_body⟩
  | .conditional _ condition consequence (some alternative), known => by
    rw [Expression.landmarks, List.forall_mem_cons, List.forall_mem_append,
      List.forall_mem_append] at known
    obtain ⟨own, below, below_body, below_other⟩ := known
    exact ⟨own, condition.every_of_landmarks below, consequence.every_of_landmarks below_body,
      alternative.every_of_landmarks below_other⟩
  | .function _ _ body, known => by
    rw [Expression.landmarks, List.forall_mem_cons, List.forall_mem_append] at known
    obtain ⟨own, names, below⟩ := known
    exact ⟨own, every_name_of_landmarks names, body.every_of_landmarks below⟩
  | .call _ callee arguments, known => by
    rw [Expression.landmarks, List.forall_mem_append, List.forall_mem_cons] at known
    obtain ⟨below, own, below_arguments⟩ := known
    exact ⟨own, callee.every_of_landmarks below,
      everyArgument_of_landmarks arguments below_arguments⟩

theorem everyArgument_of_landmarks {property : τ → Prop} : (trees : List (Expression τ)) →
    (∀ landmark ∈ argumentLandmarks trees, property landmark.mark) →
      EveryArgument (fun node => property node.token) trees
  | [], _ => trivial
  | tree :: trees, known => by
    rw [argumentLandmarks, List.forall_mem_append] at known
    obtain ⟨below, below_trees⟩ := known
    exact ⟨tree.every_of_landmarks below, everyArgument_of_landmarks trees below_trees⟩

/-- The tokens of a statement, and of all nodes in it, are marks of its landmarks. -/
theorem Statement.every_of_landmarks {property : τ → Prop} : (tree : Statement τ) →
    (∀ landmark ∈ tree.landmarks, property landmark.mark) →
      tree.Every fun node => property node.token
  | .binding _ _ value, known => by
    rw [Statement.landmarks, List.forall_mem_cons, List.forall_mem_cons] at known
    obtain ⟨own, name, below⟩ := known
    exact ⟨own, name, value.every_of_landmarks below⟩
  | .returning token none, known => known (.item token) List.mem_cons_self
  | .returning _ (some value), known => by
    rw [Statement.landmarks, List.forall_mem_cons] at known
    obtain ⟨own, below⟩ := known
    exact ⟨own, value.every_of_landmarks below⟩
  | .expression _ value, known => by
    rw [Statement.landmarks, List.forall_mem_cons] at known
    obtain ⟨own, below⟩ := known
    exact ⟨own, value.every_of_landmarks below⟩
  | .block (.mk token statements), known => by
    -- The statement is known by the brace of its block.
    have own : property token := known (.item token) List.mem_cons_self
    exact ⟨own, Block.every_of_landmarks (.mk token statements) known⟩

theorem everyStatement_of_landmarks {property : τ → Prop} : (trees : List (Statement τ)) →
    (∀ landmark ∈ statementLandmarks trees, property landmark.mark) →
      EveryStatement (fun node => property node.token) trees
  | [], _ => trivial
  | tree :: trees, known => by
    rw [statementLandmarks, List.forall_mem_append] at known
    obtain ⟨below, below_trees⟩ := known
    exact ⟨tree.every_of_landmarks below, everyStatement_of_landmarks trees below_trees⟩

theorem Block.every_of_landmarks {property : τ → Prop} : (tree : Block τ) →
    (∀ landmark ∈ tree.landmarks, property landmark.mark) →
      tree.Every fun node => property node.token
  | .mk _ statements, known => by
    rw [Block.landmarks, List.forall_mem_cons] at known
    obtain ⟨own, below⟩ := known
    exact ⟨own, everyStatement_of_landmarks statements below⟩

end

/-- Every node of a program that is read is known by a token that was read. -/
theorem Parser.every_token_mem (stream : TokenStream α) :
    (ofStream stream).program.1.Every fun node => node.token ∈ stream.pending :=
  everyStatement_of_landmarks _ (Parse.along_statements stream).mark_mem

/-! ## Tokens of a text -/

/-- A token that is read has a literal of its kind. -/
theorem Cursor.spells_of_mem_tokens (cursor : Cursor) :
    ∀ token ∈ cursor.tokens.1, token.kind.Spells token.literal := by
  induction cursor using tokens.induct with
  | case1 cursor ended =>
    rw [tokens_of_ended ended]
    simp
  | case2 cursor more ih =>
    rw [tokens_of_more more]
    refine List.forall_mem_cons.mpr ⟨?_, ih⟩
    obtain ⟨c, rest, found⟩ := List.exists_cons_of_ne_nil more
    have begun := cursor.rest_skipBlanks.symm.trans found
    have solid : isBlank c = false :=
      not_of_mem_head?_dropWhile isBlank cursor.rest c (by simp [begun])
    rw [next_of_skipped begun]
    refine (Lexeme.isLexeme_read c rest).spells ?_
    rw [String.toList_ofList]
    exact Lexeme.solid_read rest solid

theorem Decimal.lt_wordLimit_of_word? {digits : List Char} {word : Int64}
    (read : word? digits = some word) : value digits < wordLimit := by
  by_contra large
  rw [word?_eq_none_iff.mpr (Nat.le_of_not_lt large)] at read
  cases read

/-- Only an integer literal holds an integer. -/
theorem Node.Faithful.isInteger {node : Node (Token α)} {value : Int64}
    (faithful : node.Faithful) (holds : node.datum? = some (.integer value)) :
    IsInteger node.token value := by
  cases node with
  | name part => cases holds
  | statement part => cases holds
  | block part => cases holds
  | expression part =>
    cases part with
    | integerLiteral token number =>
      cases holds
      exact faithful
    | _ => cases holds

/-- Every node of a program is consistent with the tokens that the cursor reads, wherever it stands
in whatever text, and also if something is wrong with that text: it says what its token says, this
is one of the tokens that are read, and its literal is one of its kind. -/
theorem Parser.every_consistent (cursor : Cursor) :
    (Parser.ofCursor cursor).program.1.Every (Node.Consistent cursor.tokens.1) := by
  have faithful := Parser.every_faithful cursor
  have members := Parser.every_token_mem (TokenStream.ofCursor cursor)
  rw [Program.every_iff_outline] at faithful members ⊢
  intro entry listed
  have token_mem : entry.node.token ∈ cursor.tokens.1 := members entry listed
  refine ⟨faithful entry listed, token_mem, cursor.spells_of_mem_tokens _ token_mem, ?_⟩
  intro value holds
  have read := ((faithful entry listed).isInteger holds).value
  exact ⟨Decimal.toInt_of_word? read, Decimal.lt_wordLimit_of_word? read⟩

end Scriptlet
