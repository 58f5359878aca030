import Scriptlet.Token

/-!
# Precedences

How tightly an operator holds its operands. Reading an expression at a precedence takes in the
operators that hold more tightly; operators of the same precedence group to the left.
-/

namespace Scriptlet

/-- From the loosest hold to the tightest (`Precedence`). -/
inductive Precedence where
  | lowest
  | equals
  | lessGreater
  | sum
  | product
  | unary
  | call
deriving DecidableEq

namespace Precedence

/-- The place of a precedence in the order. -/
def rank : Precedence → Nat
  | lowest => 0
  | equals => 1
  | lessGreater => 2
  | sum => 3
  | product => 4
  | unary => 5
  | call => 6

instance : LT Precedence := ⟨fun a b => a.rank < b.rank⟩

instance (a b : Precedence) : Decidable (a < b) := inferInstanceAs (Decidable (a.rank < b.rank))

/-- The name of a precedence in the record of a run. -/
def text : Precedence → String
  | lowest => "Lowest"
  | equals => "Equals"
  | lessGreater => "LessGreater"
  | sum => "Sum"
  | product => "Product"
  | unary => "Prefix"
  | call => "Call"

/-- How tightly a token holds what stands before it, as `register_infix` is told. A token that
continues no expression has the lowest precedence, and so it is never taken in. -/
def ofKind : Kind → Precedence
  | .equal | .notEqual => equals
  | .less | .greater => lessGreater
  | .plus | .minus => sum
  | .times | .divide => product
  | .leftParen => call
  | _ => lowest

/-- The end of the text continues nothing. -/
theorem ne_eof_of_lt {precedence : Precedence} {kind : Kind} (tighter : precedence < ofKind kind) :
    kind ≠ .eof := by
  rintro rfl
  exact Nat.not_lt_zero _ tighter

end Precedence

end Scriptlet
