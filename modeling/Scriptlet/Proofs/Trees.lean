import Scriptlet.Tree.Render

/-!
# Trees with other tokens

`mapTokens` goes through a tree and changes its tokens only. Changing them twice is changing them
once, changing none is no change, and the canonical text of a tree does not depend on them.
-/

namespace Scriptlet

variable {τ υ ω : Type}

theorem Expression.mapTokens_conditional (f : τ → υ) (token : τ) (condition : Expression τ)
    (consequence : Block τ) (alternative : Option (Block τ)) :
    (conditional token condition consequence alternative).mapTokens f =
      conditional (f token) (condition.mapTokens f) (consequence.mapTokens f)
        (alternative.map (Block.mapTokens f)) := by
  cases alternative <;> rfl

theorem Name.mapTokens_mapTokens (f : τ → υ) (g : υ → ω) (name : Name τ) :
    (name.mapTokens f).mapTokens g = name.mapTokens (g ∘ f) := rfl

mutual

/-- Two maps of tokens after one another are one map. -/
theorem Expression.mapTokens_mapTokens (f : τ → υ) (g : υ → ω) :
    (tree : Expression τ) → (tree.mapTokens f).mapTokens g = tree.mapTokens (g ∘ f)
  | .identifier _ => rfl
  | .integerLiteral _ _ => rfl
  | .booleanLiteral _ _ => rfl
  | .prefixed _ _ operand => by
    simp only [Expression.mapTokens, operand.mapTokens_mapTokens f g, Function.comp_apply]
  | .infixed _ _ left right => by
    simp only [Expression.mapTokens, left.mapTokens_mapTokens f g, right.mapTokens_mapTokens f g,
      Function.comp_apply]
  | .conditional _ condition consequence none => by
    simp only [Expression.mapTokens, condition.mapTokens_mapTokens f g,
      consequence.mapTokens_mapTokens f g, Function.comp_apply]
  | .conditional _ condition consequence (some alternative) => by
    simp only [Expression.mapTokens, condition.mapTokens_mapTokens f g,
      consequence.mapTokens_mapTokens f g, alternative.mapTokens_mapTokens f g,
      Function.comp_apply]
  | .function _ parameters body => by
    simp only [Expression.mapTokens, body.mapTokens_mapTokens f g, List.map_map,
      Function.comp_apply]
    rfl
  | .call _ callee arguments => by
    simp only [Expression.mapTokens, callee.mapTokens_mapTokens f g,
      mapArguments_mapArguments f g arguments, Function.comp_apply]

theorem mapArguments_mapArguments (f : τ → υ) (g : υ → ω) :
    (trees : List (Expression τ)) →
      mapArguments g (mapArguments f trees) = mapArguments (g ∘ f) trees
  | [] => rfl
  | tree :: trees => by
    simp only [mapArguments, tree.mapTokens_mapTokens f g, mapArguments_mapArguments f g trees]

theorem Statement.mapTokens_mapTokens (f : τ → υ) (g : υ → ω) :
    (tree : Statement τ) → (tree.mapTokens f).mapTokens g = tree.mapTokens (g ∘ f)
  | .binding _ _ value => by
    simp only [Statement.mapTokens, value.mapTokens_mapTokens f g, Name.mapTokens_mapTokens,
      Function.comp_apply]
  | .returning _ none => rfl
  | .returning _ (some value) => by
    simp only [Statement.mapTokens, value.mapTokens_mapTokens f g, Function.comp_apply]
  | .expression _ value => by
    simp only [Statement.mapTokens, value.mapTokens_mapTokens f g, Function.comp_apply]
  | .block body => by
    simp only [Statement.mapTokens, body.mapTokens_mapTokens f g]

theorem mapStatements_mapStatements (f : τ → υ) (g : υ → ω) :
    (trees : List (Statement τ)) →
      mapStatements g (mapStatements f trees) = mapStatements (g ∘ f) trees
  | [] => rfl
  | tree :: trees => by
    simp only [mapStatements, tree.mapTokens_mapTokens f g, mapStatements_mapStatements f g trees]

theorem Block.mapTokens_mapTokens (f : τ → υ) (g : υ → ω) :
    (tree : Block τ) → (tree.mapTokens f).mapTokens g = tree.mapTokens (g ∘ f)
  | .mk _ statements => by
    simp only [Block.mapTokens, mapStatements_mapStatements f g statements, Function.comp_apply]

end

mutual

/-- The map that changes no token changes no tree. -/
theorem Expression.mapTokens_id : (tree : Expression τ) → tree.mapTokens id = tree
  | .identifier _ => rfl
  | .integerLiteral _ _ => rfl
  | .booleanLiteral _ _ => rfl
  | .prefixed _ _ operand => by simp only [Expression.mapTokens, operand.mapTokens_id, id]
  | .infixed _ _ left right => by
    simp only [Expression.mapTokens, left.mapTokens_id, right.mapTokens_id, id]
  | .conditional _ condition consequence none => by
    simp only [Expression.mapTokens, condition.mapTokens_id, consequence.mapTokens_id, id]
  | .conditional _ condition consequence (some alternative) => by
    simp only [Expression.mapTokens, condition.mapTokens_id, consequence.mapTokens_id,
      alternative.mapTokens_id, id]
  | .function _ parameters body => by
    have same_names : parameters.map (Name.mapTokens id) = parameters := List.map_id parameters
    simp only [Expression.mapTokens, body.mapTokens_id, same_names, id]
  | .call _ callee arguments => by
    simp only [Expression.mapTokens, callee.mapTokens_id, mapArguments_id arguments, id]

theorem mapArguments_id : (trees : List (Expression τ)) → mapArguments id trees = trees
  | [] => rfl
  | tree :: trees => by simp only [mapArguments, tree.mapTokens_id, mapArguments_id trees]

theorem Statement.mapTokens_id : (tree : Statement τ) → tree.mapTokens id = tree
  | .binding _ name value => by
    have same_name : name.mapTokens id = name := rfl
    simp only [Statement.mapTokens, value.mapTokens_id, same_name, id]
  | .returning _ none => rfl
  | .returning _ (some value) => by simp only [Statement.mapTokens, value.mapTokens_id, id]
  | .expression _ value => by simp only [Statement.mapTokens, value.mapTokens_id, id]
  | .block body => by simp only [Statement.mapTokens, body.mapTokens_id]

theorem mapStatements_id : (trees : List (Statement τ)) → mapStatements id trees = trees
  | [] => rfl
  | tree :: trees => by simp only [mapStatements, tree.mapTokens_id, mapStatements_id trees]

theorem Block.mapTokens_id : (tree : Block τ) → tree.mapTokens id = tree
  | .mk _ statements => by simp only [Block.mapTokens, mapStatements_id statements, id]

end

/-- The tokens of a program leave no trace once they are dropped. -/
theorem Program.bare_mapTokens (f : τ → υ) (program : Program τ) :
    (program.mapTokens f).bare = program.bare := by
  simp only [Program.bare, Program.mapTokens, mapStatements_mapStatements, Function.comp_def]

theorem Statement.separator_mapTokens (f : τ → υ) (tree : Statement τ) (last : Bool) :
    (tree.mapTokens f).separator last = tree.separator last := by
  cases tree with
  | binding _ _ _ => rfl
  | returning _ value => cases value <;> rfl
  | expression _ _ => rfl
  | block _ => rfl

theorem isEmpty_mapStatements (f : τ → υ) (trees : List (Statement τ)) :
    (mapStatements f trees).isEmpty = trees.isEmpty := by
  cases trees <;> rfl

mutual

/-- The canonical text of a tree has nothing to do with its tokens. -/
theorem Expression.render_mapTokens (f : τ → υ) :
    (tree : Expression τ) → (tree.mapTokens f).render = tree.render
  | .identifier _ => rfl
  | .integerLiteral _ _ => rfl
  | .booleanLiteral _ _ => rfl
  | .prefixed _ _ operand => by
    simp only [Expression.mapTokens, Expression.render, operand.render_mapTokens f]
  | .infixed _ _ left right => by
    simp only [Expression.mapTokens, Expression.render, left.render_mapTokens f,
      right.render_mapTokens f]
  | .conditional _ condition consequence none => by
    simp only [Expression.mapTokens, Expression.render, condition.render_mapTokens f,
      consequence.render_mapTokens f]
  | .conditional _ condition consequence (some alternative) => by
    simp only [Expression.mapTokens, Expression.render, condition.render_mapTokens f,
      consequence.render_mapTokens f, alternative.render_mapTokens f]
  | .function _ parameters body => by
    simp only [Expression.mapTokens, Expression.render, body.render_mapTokens f, List.map_map]
    rfl
  | .call _ callee arguments => by
    simp only [Expression.mapTokens, Expression.render, callee.render_mapTokens f,
      renderEach_mapArguments f arguments]

theorem renderEach_mapArguments (f : τ → υ) :
    (trees : List (Expression τ)) → renderEach (mapArguments f trees) = renderEach trees
  | [] => rfl
  | tree :: trees => by
    simp only [mapArguments, renderEach, tree.render_mapTokens f, renderEach_mapArguments f trees]

theorem Statement.render_mapTokens (f : τ → υ) :
    (tree : Statement τ) → (tree.mapTokens f).render = tree.render
  | .binding _ _ value => by
    simp only [Statement.mapTokens, Statement.render, value.render_mapTokens f, Name.mapTokens]
  | .returning _ none => rfl
  | .returning _ (some value) => by
    simp only [Statement.mapTokens, Statement.render, value.render_mapTokens f]
  | .expression _ value => by
    simp only [Statement.mapTokens, Statement.render, value.render_mapTokens f]
  | .block body => by simp only [Statement.mapTokens, Statement.render, body.render_mapTokens f]

theorem renderStatements_mapStatements (f : τ → υ) :
    (trees : List (Statement τ)) → renderStatements (mapStatements f trees) = renderStatements trees
  | [] => rfl
  | tree :: trees => by
    simp only [mapStatements, renderStatements, tree.render_mapTokens f, tree.separator_mapTokens f,
      isEmpty_mapStatements f trees, renderStatements_mapStatements f trees]

theorem Block.render_mapTokens (f : τ → υ) :
    (tree : Block τ) → (tree.mapTokens f).render = tree.render
  | .mk _ statements => by
    simp only [Block.mapTokens, Block.render, renderStatements_mapStatements f statements]

end

/-- The canonical text of a program says nothing of its tokens. -/
theorem Program.render_mapTokens (f : τ → υ) (program : Program τ) :
    (program.mapTokens f).render = program.render :=
  renderStatements_mapStatements f program.statements

end Scriptlet
