/-!
# Counts

Columns, line numbers and limits are natural numbers that a caller gives in 64 bits. Two things
depend on the width: the last count has no successor (`next?_eq_some_iff`), and a written count
beyond it is refused.
-/
namespace LineLexer.Count

/-- The greatest count. -/
def last : Nat := UInt64.size - 1

/-- The count after `n`, if there is one. -/
def next? (n : Nat) : Option Nat := if n < last then some (n + 1) else none

theorem next?_eq_some_iff {n m : Nat} : next? n = some m ↔ n < last ∧ m = n + 1 := by
  unfold next?; split <;> grind

/-! ## Written counts -/

/-- The number that decimal digits spell after those already worth `n`. -/
def ofDigits? (n : Nat) : List Char → Option Nat
  | [] => some n
  | c :: cs => if c.isDigit then ofDigits? (10 * n + (c.toNat - '0'.toNat)) cs else none

/-- The digits after an optional plus sign. -/
def unsigned : List Char → List Char
  | '+' :: cs => cs
  | cs => cs

/-- Reads a count: decimal digits, at least one, after at most one plus sign. -/
def ofString? (s : String) : Option Nat :=
  if unsigned s.toList = [] then none
  else (ofDigits? 0 (unsigned s.toList)).filter (· ≤ last)

end LineLexer.Count
