/-!
# What each character is for

Outside strings a character has one of seven roles. All the roles but `other` are ASCII.
-/
namespace LineLexer.Text

/-- The part a character plays outside strings. -/
inductive Role
  | blank | letter | terminator | opener | closer | quote | other
deriving DecidableEq, Repr

/-- Space, tab, line feed, vertical tab, form feed, carriage return. -/
def isBlank (c : Char) : Bool :=
  c = ' ' || c = '\t' || c = '\n' || c = '\x0b' || c = '\x0c' || c = '\r'

/-- Letters are the ASCII ones. -/
def isLetter (c : Char) : Bool := c.isAlpha

def Role.of (c : Char) : Role :=
  if isBlank c then .blank
  else if isLetter c then .letter
  else if c = ';' then .terminator
  else if c = '(' then .opener
  else if c = ')' then .closer
  else if c = '"' then .quote
  else .other

/-! ## The character of a role -/

theorem Role.of_eq_blank_iff {c : Char} : Role.of c = .blank ↔ isBlank c = true := by
  unfold Role.of; grind

theorem not_isLetter_of_isBlank {c : Char} (h : isBlank c = true) : isLetter c = false := by
  simp only [isBlank, Bool.or_eq_true, decide_eq_true_eq] at h
  rcases h with ((((rfl | rfl) | rfl) | rfl) | rfl) | rfl <;> decide

theorem Role.of_eq_letter_iff {c : Char} : Role.of c = .letter ↔ isLetter c = true := by
  have := @not_isLetter_of_isBlank c
  unfold Role.of; grind

theorem Role.of_eq_terminator_iff {c : Char} : Role.of c = .terminator ↔ c = ';' := by
  constructor
  · unfold Role.of; grind
  · rintro rfl; decide

theorem Role.of_eq_opener_iff {c : Char} : Role.of c = .opener ↔ c = '(' := by
  constructor
  · unfold Role.of; grind
  · rintro rfl; decide

theorem Role.of_eq_closer_iff {c : Char} : Role.of c = .closer ↔ c = ')' := by
  constructor
  · unfold Role.of; grind
  · rintro rfl; decide

theorem Role.of_eq_quote_iff {c : Char} : Role.of c = .quote ↔ c = '"' := by
  constructor
  · unfold Role.of; grind
  · rintro rfl; decide

end LineLexer.Text
