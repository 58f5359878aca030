/-!
# Pieces

What stands between separators: the parts of a path, the lines of an input. There is always one
piece more than there are separators, so the first one always exists. `splitFirst_append` says
that a separator divides a list into parts that can be split on their own.
-/

namespace Scriptlet.Console

variable {β : Type} [DecidableEq β]

/-- The first of the pieces between separators, and the others. -/
def splitFirst (separator : β) : List β → List β × List (List β)
  | [] => ([], [])
  | item :: items =>
    let (first, others) := splitFirst separator items
    if item = separator then ([], first :: others) else (item :: first, others)

/-- A separator ends the pieces before it. -/
theorem splitFirst_append (separator : β) (before after : List β) :
    splitFirst separator (before ++ separator :: after) =
      ((splitFirst separator before).1,
        (splitFirst separator before).2 ++
          (splitFirst separator after).1 :: (splitFirst separator after).2) := by
  induction before with
  | nil => simp [splitFirst]
  | cons item before ih =>
    simp only [List.cons_append, splitFirst, ih]
    split <;> rfl

end Scriptlet.Console
