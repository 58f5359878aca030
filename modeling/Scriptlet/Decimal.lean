/-!
# Decimal numerals

How whole numbers are written and read. Writing gives the shortest numeral: no leading zeros, a
minus sign only before a negative number. Reading takes any run of digits, leading zeros
included, and refuses what a signed 64-bit word cannot hold. `value_natural` says that a written
number reads back.
-/

namespace Scriptlet.Decimal

/-- The numeral of a natural number. -/
def natural (n : Nat) : String := n.repr

/-- The numeral of an integer. -/
def integer : Int → String
  | .ofNat n => natural n
  | .negSucc n => "-" ++ natural (n + 1)

/-- The number that a run of digits denotes. -/
def value (digits : List Char) : Nat := Nat.ofDigitChars 10 digits 0

/-- The first number that is too large for a signed 64-bit word. -/
def wordLimit : Nat := Nat.pow 2 63

/-- The word that a run of digits denotes, if it fits. -/
def word? (digits : List Char) : Option Int64 :=
  if value digits < wordLimit then some (Int64.ofNat (value digits)) else none

theorem value_natural (n : Nat) : value (natural n).toList = n := by
  simp [value, natural, Nat.toList_repr]

/-- Every character of a numeral is a digit. -/
theorem isDigit_of_mem_natural {n : Nat} {c : Char} (member : c ∈ (natural n).toList) :
    c.isDigit = true := by
  rw [natural, Nat.toList_repr] at member
  exact Nat.isDigit_of_mem_toDigits (by decide) (by decide) member

/-- A run of digits is refused exactly when its number does not fit. -/
theorem word?_eq_none_iff {digits : List Char} :
    word? digits = none ↔ wordLimit ≤ value digits := by
  unfold word?
  split <;> simp_all

/-- A word that is read is the number of its digits, with no wrapping. -/
theorem toInt_of_word? {digits : List Char} {word : Int64} (read : word? digits = some word) :
    word.toInt = value digits := by
  unfold word? at read
  split at read
  · next fits =>
    cases read
    exact Int64.toInt_ofNat_of_lt fits
  · cases read

end Scriptlet.Decimal
