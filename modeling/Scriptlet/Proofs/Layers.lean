import Scriptlet.Proofs.Branches
import Scriptlet.Proofs.Grammar

/-!
# Layers and precedences

How the precedences that the parser asks for go with the layers of the grammar. Reading at a
precedence takes in the operators that hold more tightly, so it gives an expression of the next
tighter layer; a sign and a call have no layer of operators of their own.
-/

namespace Scriptlet.Parse

open Grammar

variable {α : Type}

/-- The layer of the expressions that are read at a precedence. -/
def layer : Precedence → Layer
  | .lowest => .equality
  | .equals => .comparison
  | .lessGreater => .sum
  | .sum => .product
  | .product => .unary
  | .unary => .unary
  | .call => .unary

/-- How tightly the first of some tokens holds what stands before them. -/
def hold : List (Token α) → Precedence
  | [] => .lowest
  | next :: _ => .ofKind next.kind

theorem hold_ahead (stream : TokenStream α) : hold stream.ahead = .ofKind stream.peek.kind := by
  rcases stream with ⟨_ | ⟨_, _ | _⟩, _⟩ <;> rfl

theorem lt_iff_rank {a b : Precedence} : a < b ↔ a.rank < b.rank := Iff.rfl

/-- The layer that is read at a precedence is the next tighter one, and never tighter than that of
unary operations. -/
theorem rank_layer (precedence : Precedence) :
    (layer precedence).rank = min (precedence.rank + 1) 5 := by
  cases precedence <;> rfl

theorem rank_le_six (precedence : Precedence) : precedence.rank ≤ 6 := by
  cases precedence <;> decide

/-- An operator that is taken in joins the expressions of a layer, and its right operand is read at
the next one. -/
theorem exists_layer_of_operator {precedence : Precedence} {kind : Kind}
    (tighter : precedence < .ofKind kind) (notCall : kind ≠ .leftParen) :
    ∃ outer : Layer, outer.tighter = some (layer (.ofKind kind)) ∧ kind ∈ outer.operators ∧
      outer.rank = (Precedence.ofKind kind).rank := by
  cases kind
  case equal => exact ⟨.equality, rfl, by decide, rfl⟩
  case notEqual => exact ⟨.equality, rfl, by decide, rfl⟩
  case less => exact ⟨.comparison, rfl, by decide, rfl⟩
  case greater => exact ⟨.comparison, rfl, by decide, rfl⟩
  case plus => exact ⟨.sum, rfl, by decide, rfl⟩
  case minus => exact ⟨.sum, rfl, by decide, rfl⟩
  case times => exact ⟨.product, rfl, by decide, rfl⟩
  case divide => exact ⟨.product, rfl, by decide, rfl⟩
  case leftParen => exact absurd rfl notCall
  all_goals exact absurd tighter (Nat.not_lt_zero _)

/-- An operator of a layer holds as that layer says, and it is neither a call nor an `else`. -/
theorem operator_of_layer {outer : Layer} {kind : Kind} (joins : kind ∈ outer.operators) :
    outer.tighter = some (layer (.ofKind kind)) ∧ outer.rank = (Precedence.ofKind kind).rank ∧
      kind ≠ .leftParen ∧ kind ≠ .elseWord ∧ Precedence.ofKind kind ≠ .call := by
  cases outer
  case equality =>
    obtain rfl | rfl : kind = .equal ∨ kind = .notEqual := by simpa [Layer.operators] using joins
    all_goals decide
  case comparison =>
    obtain rfl | rfl : kind = .less ∨ kind = .greater := by simpa [Layer.operators] using joins
    all_goals decide
  case sum =>
    obtain rfl | rfl : kind = .plus ∨ kind = .minus := by simpa [Layer.operators] using joins
    all_goals decide
  case product =>
    obtain rfl | rfl : kind = .times ∨ kind = .divide := by simpa [Layer.operators] using joins
    all_goals decide
  all_goals cases joins

end Scriptlet.Parse
