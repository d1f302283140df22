import LineLexer.Count
/-!
# Places

Where a line stands: in which file, as which line. A place only labels what is found on the line.
-/
namespace LineLexer

structure Place where
  file : String
  line : Nat
deriving DecidableEq, Repr

namespace Place

/-- The first line of a file. -/
def top (file : String) : Place := ⟨file, 1⟩

/-- The line below, while line numbers last. -/
def next? (p : Place) : Option Place := (Count.next? p.line).map fun n => { p with line := n }

theorem next?_eq_some_iff {p q : Place} :
    p.next? = some q ↔ p.line < Count.last ∧ q = ⟨p.file, p.line + 1⟩ := by
  simp only [next?, Option.map_eq_some_iff, Count.next?_eq_some_iff]
  constructor
  · rintro ⟨n, ⟨h, rfl⟩, rfl⟩; exact ⟨h, rfl⟩
  · rintro ⟨h, rfl⟩; exact ⟨_, ⟨h, rfl⟩, rfl⟩

/-- A message about a column of the line. The column is printed from 1. -/
def label (p : Place) (column : Nat) (message : String) : String :=
  p.file ++ ":" ++ toString p.line ++ ":" ++ toString (column + 1) ++ " - " ++ message

/-- The message, if the column after `column` is still a count. -/
def label? (p : Place) (column : Nat) (message : String) : Option String :=
  if column < Count.last then some (p.label column message) else none

theorem label?_of_lt {p : Place} {column : Nat} (h : column < Count.last) (message : String) :
    p.label? column message = some (p.label column message) :=
  if_pos h

end Place
end LineLexer
