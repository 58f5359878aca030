import Scriptlet.Proofs.Trees

/-!
# Landmarks

What one comes past on the way through a tree, in the order of the text: its tokens, an operator
between its operands and a parenthesis between the callee and the arguments, and the beginnings of
its expression statements. An expression statement has a token of its own, which stands before its
value and need not be one of the value's tokens: the parentheses around a value leave no trace in
it. So `Program.tokens` are the landmarks without the beginnings.
-/

namespace Scriptlet

variable {τ υ : Type}

/-- What one comes past on the way through a tree. -/
inductive Landmark (τ : Type) where
  /-- A token. -/
  | item (token : τ)
  /-- The beginning of an expression statement, with the token of the statement. -/
  | start (token : τ)
deriving DecidableEq

namespace Landmark

/-- The token of a landmark. -/
def mark : Landmark τ → τ
  | .item token => token
  | .start token => token

/-- The token that a landmark is, if it is one. -/
def token? : Landmark τ → Option τ
  | .item token => some token
  | .start _ => none

/-- The landmark with another token. -/
def map (f : τ → υ) : Landmark τ → Landmark υ
  | .item token => .item (f token)
  | .start token => .start (f token)

/-- The token that a landmark is, if it is one, is mapped with it. -/
theorem token?_map (f : τ → υ) (landmark : Landmark τ) :
    (landmark.map f).token? = landmark.token?.map f := by
  cases landmark <;> rfl

theorem filterMap_token?_map (f : τ → υ) (landmarks : List (Landmark τ)) :
    (landmarks.map (map f)).filterMap token? = (landmarks.filterMap token?).map f := by
  rw [List.filterMap_map, List.map_filterMap]
  congr 1
  funext landmark
  exact landmark.token?_map f

end Landmark

/-- The landmark of a name. -/
def Name.landmark (name : Name τ) : Landmark τ := .item name.token

mutual

/-- The landmarks of an expression. -/
def Expression.landmarks : Expression τ → List (Landmark τ)
  | .identifier name => [name.landmark]
  | .integerLiteral token _ => [.item token]
  | .booleanLiteral token _ => [.item token]
  | .prefixed token _ operand => .item token :: operand.landmarks
  | .infixed token _ left right => left.landmarks ++ .item token :: right.landmarks
  | .conditional token condition consequence none =>
    .item token :: (condition.landmarks ++ consequence.landmarks)
  | .conditional token condition consequence (some alternative) =>
    .item token :: (condition.landmarks ++ (consequence.landmarks ++ alternative.landmarks))
  | .function token parameters body =>
    .item token :: (parameters.map Name.landmark ++ body.landmarks)
  | .call token callee arguments => callee.landmarks ++ .item token :: argumentLandmarks arguments

/-- The landmarks of arguments. -/
def argumentLandmarks : List (Expression τ) → List (Landmark τ)
  | [] => []
  | argument :: arguments => argument.landmarks ++ argumentLandmarks arguments

/-- The landmarks of a statement. -/
def Statement.landmarks : Statement τ → List (Landmark τ)
  | .binding token name value => .item token :: name.landmark :: value.landmarks
  | .returning token none => [.item token]
  | .returning token (some value) => .item token :: value.landmarks
  | .expression token value => .start token :: value.landmarks
  | .block body => body.landmarks

/-- The landmarks of statements. -/
def statementLandmarks : List (Statement τ) → List (Landmark τ)
  | [] => []
  | statement :: statements => statement.landmarks ++ statementLandmarks statements

/-- The landmarks of a block. -/
def Block.landmarks : Block τ → List (Landmark τ)
  | .mk token statements => .item token :: statementLandmarks statements

end

/-- The landmarks of a program. -/
def Program.landmarks (program : Program τ) : List (Landmark τ) :=
  statementLandmarks program.statements

/-- The tokens of a program in order, without those that only begin an expression statement. -/
def Program.tokens (program : Program τ) : List τ := program.landmarks.filterMap Landmark.token?

/-- The landmarks of a conditional, with or without its second block. -/
theorem Expression.landmarks_conditional (token : τ) (condition : Expression τ)
    (consequence : Block τ) (alternative : Option (Block τ)) :
    (conditional token condition consequence alternative).landmarks =
      .item token :: (condition.landmarks ++
        (consequence.landmarks ++ alternative.elim [] Block.landmarks)) := by
  cases alternative with
  | none => simp [Expression.landmarks]
  | some _ => simp [Expression.landmarks]

/-! ## Other tokens -/

mutual

/-- Other tokens in a tree are other tokens at its landmarks, in the same order. -/
theorem Expression.landmarks_mapTokens (f : τ → υ) : (tree : Expression τ) →
    (tree.mapTokens f).landmarks = tree.landmarks.map (Landmark.map f)
  | .identifier _ => rfl
  | .integerLiteral _ _ => rfl
  | .booleanLiteral _ _ => rfl
  | .prefixed _ _ operand => by
    simp only [Expression.mapTokens, Expression.landmarks, operand.landmarks_mapTokens f,
      List.map_cons, Landmark.map]
  | .infixed _ _ left right => by
    simp only [Expression.mapTokens, Expression.landmarks, left.landmarks_mapTokens f,
      right.landmarks_mapTokens f, List.map_append, List.map_cons, Landmark.map]
  | .conditional _ condition consequence none => by
    simp only [Expression.mapTokens, Expression.landmarks, condition.landmarks_mapTokens f,
      consequence.landmarks_mapTokens f, List.map_append, List.map_cons, Landmark.map]
  | .conditional _ condition consequence (some alternative) => by
    simp only [Expression.mapTokens, Expression.landmarks, condition.landmarks_mapTokens f,
      consequence.landmarks_mapTokens f, alternative.landmarks_mapTokens f, List.map_append,
      List.map_cons, Landmark.map]
  | .function _ parameters body => by
    simp only [Expression.mapTokens, Expression.landmarks, body.landmarks_mapTokens f,
      List.map_append, List.map_cons, List.map_map, Landmark.map]
    rfl
  | .call _ callee arguments => by
    simp only [Expression.mapTokens, Expression.landmarks, callee.landmarks_mapTokens f,
      argumentLandmarks_mapArguments f arguments, List.map_append, List.map_cons, Landmark.map]

theorem argumentLandmarks_mapArguments (f : τ → υ) : (trees : List (Expression τ)) →
    argumentLandmarks (mapArguments f trees) = (argumentLandmarks trees).map (Landmark.map f)
  | [] => rfl
  | tree :: trees => by
    simp only [mapArguments, argumentLandmarks, tree.landmarks_mapTokens f,
      argumentLandmarks_mapArguments f trees, List.map_append]

theorem Statement.landmarks_mapTokens (f : τ → υ) : (tree : Statement τ) →
    (tree.mapTokens f).landmarks = tree.landmarks.map (Landmark.map f)
  | .binding _ _ value => by
    simp only [Statement.mapTokens, Statement.landmarks, value.landmarks_mapTokens f,
      List.map_cons, Landmark.map]
    rfl
  | .returning _ none => rfl
  | .returning _ (some value) => by
    simp only [Statement.mapTokens, Statement.landmarks, value.landmarks_mapTokens f,
      List.map_cons, Landmark.map]
  | .expression _ value => by
    simp only [Statement.mapTokens, Statement.landmarks, value.landmarks_mapTokens f,
      List.map_cons, Landmark.map]
  | .block body => by
    simp only [Statement.mapTokens, Statement.landmarks, body.landmarks_mapTokens f]

theorem statementLandmarks_mapStatements (f : τ → υ) : (trees : List (Statement τ)) →
    statementLandmarks (mapStatements f trees) = (statementLandmarks trees).map (Landmark.map f)
  | [] => rfl
  | tree :: trees => by
    simp only [mapStatements, statementLandmarks, tree.landmarks_mapTokens f,
      statementLandmarks_mapStatements f trees, List.map_append]

theorem Block.landmarks_mapTokens (f : τ → υ) : (tree : Block τ) →
    (tree.mapTokens f).landmarks = tree.landmarks.map (Landmark.map f)
  | .mk _ statements => by
    simp only [Block.mapTokens, Block.landmarks, statementLandmarks_mapStatements f statements,
      List.map_cons, Landmark.map]

end

/-- Other tokens in a program are other tokens in the list of them. -/
theorem Program.tokens_mapTokens (f : τ → υ) (program : Program τ) :
    (program.mapTokens f).tokens = program.tokens.map f := by
  rw [tokens, landmarks, mapTokens, statementLandmarks_mapStatements,
    Landmark.filterMap_token?_map, tokens, landmarks]

section congruence

variable {f g : τ → υ}

/-- Two ways to change tokens agree on the landmarks. -/
def Agree (f g : τ → υ) (landmarks : List (Landmark τ)) : Prop :=
  ∀ landmark ∈ landmarks, f landmark.mark = g landmark.mark

theorem agree_item {token : τ} {landmarks : List (Landmark τ)} :
    Agree f g (.item token :: landmarks) ↔ f token = g token ∧ Agree f g landmarks :=
  List.forall_mem_cons

theorem agree_start {token : τ} {landmarks : List (Landmark τ)} :
    Agree f g (.start token :: landmarks) ↔ f token = g token ∧ Agree f g landmarks :=
  List.forall_mem_cons

/-- Two maps agree on landmarks in a row when they agree on each part of the row. -/
theorem agree_append {first second : List (Landmark τ)} :
    Agree f g (first ++ second) ↔ Agree f g first ∧ Agree f g second :=
  List.forall_mem_append

/-- A name has one token, and only there can two maps differ on it. -/
theorem Name.mapTokens_congr {name : Name τ} (same : f name.token = g name.token) :
    name.mapTokens f = name.mapTokens g := by
  rw [Name.mapTokens, Name.mapTokens, same]

/-- Names in a row are the same where the maps agree on each of them. -/
theorem map_names_congr {names : List (Name τ)} (agree : Agree f g (names.map Name.landmark)) :
    names.map (Name.mapTokens f) = names.map (Name.mapTokens g) :=
  List.map_congr_left fun name member =>
    Name.mapTokens_congr (agree name.landmark (List.mem_map_of_mem member))

mutual

/-- Maps that agree on the landmarks of a tree do the same to it: it has no other tokens. -/
theorem Expression.mapTokens_congr : (tree : Expression τ) → Agree f g tree.landmarks →
    tree.mapTokens f = tree.mapTokens g
  | .identifier name, agree => by
    have same := (agree_item.mp agree).1
    rw [Expression.mapTokens, Expression.mapTokens, Name.mapTokens_congr same]
  | .integerLiteral _ _, agree => by
    have same := (agree_item.mp agree).1
    rw [Expression.mapTokens, Expression.mapTokens, same]
  | .booleanLiteral _ _, agree => by
    have same := (agree_item.mp agree).1
    rw [Expression.mapTokens, Expression.mapTokens, same]
  | .prefixed _ _ operand, agree => by
    obtain ⟨same, below⟩ := agree_item.mp agree
    rw [Expression.mapTokens, Expression.mapTokens, same, operand.mapTokens_congr below]
  | .infixed _ _ left right, agree => by
    obtain ⟨before, behind⟩ := agree_append.mp agree
    obtain ⟨same, after⟩ := agree_item.mp behind
    rw [Expression.mapTokens, Expression.mapTokens, same, left.mapTokens_congr before,
      right.mapTokens_congr after]
  | .conditional _ condition consequence none, agree => by
    obtain ⟨same, below⟩ := agree_item.mp agree
    obtain ⟨asked, taken⟩ := agree_append.mp below
    rw [Expression.mapTokens, Expression.mapTokens, same, condition.mapTokens_congr asked,
      consequence.mapTokens_congr taken]
  | .conditional _ condition consequence (some alternative), agree => by
    obtain ⟨same, below⟩ := agree_item.mp agree
    obtain ⟨asked, blocks⟩ := agree_append.mp below
    obtain ⟨taken, other⟩ := agree_append.mp blocks
    rw [Expression.mapTokens, Expression.mapTokens, same, condition.mapTokens_congr asked,
      consequence.mapTokens_congr taken, alternative.mapTokens_congr other]
  | .function _ parameters body, agree => by
    obtain ⟨same, below⟩ := agree_item.mp agree
    obtain ⟨names, inside⟩ := agree_append.mp below
    rw [Expression.mapTokens, Expression.mapTokens, same, map_names_congr names,
      body.mapTokens_congr inside]
  | .call _ callee arguments, agree => by
    obtain ⟨before, behind⟩ := agree_append.mp agree
    obtain ⟨same, after⟩ := agree_item.mp behind
    rw [Expression.mapTokens, Expression.mapTokens, same, callee.mapTokens_congr before,
      mapArguments_congr arguments after]

theorem mapArguments_congr : (trees : List (Expression τ)) → Agree f g (argumentLandmarks trees) →
    mapArguments f trees = mapArguments g trees
  | [], _ => rfl
  | tree :: trees, agree => by
    obtain ⟨first, others⟩ := agree_append.mp agree
    rw [mapArguments, mapArguments, tree.mapTokens_congr first, mapArguments_congr trees others]

/-- The token at which an expression statement begins has a landmark of its own. -/
theorem Statement.mapTokens_congr : (tree : Statement τ) → Agree f g tree.landmarks →
    tree.mapTokens f = tree.mapTokens g
  | .binding _ name value, agree => by
    obtain ⟨same, behind⟩ := agree_item.mp agree
    obtain ⟨named, below⟩ := agree_item.mp behind
    rw [Statement.mapTokens, Statement.mapTokens, same, Name.mapTokens_congr named,
      value.mapTokens_congr below]
  | .returning _ none, agree => by
    have same := (agree_item.mp agree).1
    rw [Statement.mapTokens, Statement.mapTokens, same]
  | .returning _ (some value), agree => by
    obtain ⟨same, below⟩ := agree_item.mp agree
    rw [Statement.mapTokens, Statement.mapTokens, same, value.mapTokens_congr below]
  | .expression _ value, agree => by
    obtain ⟨same, below⟩ := agree_start.mp agree
    rw [Statement.mapTokens, Statement.mapTokens, same, value.mapTokens_congr below]
  | .block body, agree => by
    rw [Statement.mapTokens, Statement.mapTokens, body.mapTokens_congr agree]

theorem mapStatements_congr : (trees : List (Statement τ)) →
    Agree f g (statementLandmarks trees) → mapStatements f trees = mapStatements g trees
  | [], _ => rfl
  | tree :: trees, agree => by
    obtain ⟨first, others⟩ := agree_append.mp agree
    rw [mapStatements, mapStatements, tree.mapTokens_congr first, mapStatements_congr trees others]

/-- A block adds its opening brace to the landmarks of its statements. -/
theorem Block.mapTokens_congr : (tree : Block τ) → Agree f g tree.landmarks →
    tree.mapTokens f = tree.mapTokens g
  | .mk _ statements, agree => by
    obtain ⟨same, below⟩ := agree_item.mp agree
    rw [Block.mapTokens, Block.mapTokens, same, mapStatements_congr statements below]

end

end congruence

end Scriptlet
