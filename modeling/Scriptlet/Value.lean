import Scriptlet.Decimal

/-!
# Values

What programs come to: integers, truth values, and null for the absence of a value. Only `false`
and null count as false.
-/

namespace Scriptlet

/-- The result of evaluating something (`Value`). -/
inductive Value where
  | integer (value : Int64)
  | boolean (value : Bool)
  | null
deriving DecidableEq

namespace Value

/-- The name of the kind of a value, as the `ValueKind` that `kind` gives is displayed. -/
def kindText : Value → String
  | integer _ => "INTEGER"
  | boolean _ => "BOOLEAN"
  | null => "NULL"

/-- The text that shows a value (`inspect`). -/
def text : Value → String
  | integer value => Decimal.integer value.toInt
  | boolean true => "true"
  | boolean false => "false"
  | null => "null"

/-- Whether a value counts as true (`is_truthy`). -/
def truthy : Value → Bool
  | integer _ => true
  | boolean value => value
  | null => false

end Value

end Scriptlet
