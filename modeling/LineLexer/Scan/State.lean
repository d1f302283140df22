import LineLexer.Lexeme
import LineLexer.Fault
import LineLexer.Text.Role
/-!
# The state of a scan

A scan reads a line character by character from the left. Its state holds what has been found, which
parentheses are open and what it is in the middle of. The functions here are what a character can do
to it, and what the faults are that only the end of the line brings out.
-/
namespace LineLexer

/-- What the lexemes and faults of a line are, wherever the line stands. -/
structure Findings where
  lexemes : List Lexeme
  faults : List Fault
deriving DecidableEq, Repr

/-- What a scan is in the middle of. -/
inductive Pending
  | nothing
  /-- Letters that do not spell the keyword yet, the first of them at `start`. -/
  | word (start : Nat) (letters : String)
  /-- A string opened at `quote`, with the text read since. -/
  | string (quote : Nat) (body : String)
deriving DecidableEq, Repr

structure Scan where
  /-- Column of the next character. -/
  column : Nat
  lexemes : Array Lexeme
  faults : Array Fault
  /-- Columns of the open parentheses, innermost first. -/
  opened : List Nat
  pending : Pending
deriving DecidableEq, Repr

namespace Scan

/-- Nothing read. -/
def start : Scan := ⟨0, #[], #[], [], .nothing⟩

/-- Column of the quote that opened the string the scan is in. -/
def openQuote? (s : Scan) : Option Nat :=
  match s.pending with
  | .string quote _ => some quote
  | _ => none

/-! ## What can be recorded -/

def emit (s : Scan) (kind : Lexeme.Kind) (text : String) (column : Nat) : Scan :=
  { s with lexemes := s.lexemes.push ⟨kind, text, column⟩ }

def fault (s : Scan) (cause : Fault.Cause) (column : Nat) : Scan :=
  { s with faults := s.faults.push ⟨cause, column⟩ }

@[simp] theorem lexemes_emit (s : Scan) (k : Lexeme.Kind) (t : String) (n : Nat) :
    (s.emit k t n).lexemes.toList = s.lexemes.toList ++ [⟨k, t, n⟩] := by
  simp [emit]

@[simp] theorem faults_emit (s : Scan) (k : Lexeme.Kind) (t : String) (n : Nat) :
    (s.emit k t n).faults = s.faults := rfl

@[simp] theorem opened_emit (s : Scan) (k : Lexeme.Kind) (t : String) (n : Nat) :
    (s.emit k t n).opened = s.opened := rfl

@[simp] theorem pending_emit (s : Scan) (k : Lexeme.Kind) (t : String) (n : Nat) :
    (s.emit k t n).pending = s.pending := rfl

@[simp] theorem lexemes_fault (s : Scan) (c : Fault.Cause) (n : Nat) :
    (s.fault c n).lexemes = s.lexemes := rfl

@[simp] theorem faults_fault (s : Scan) (c : Fault.Cause) (n : Nat) :
    (s.fault c n).faults.toList = s.faults.toList ++ [⟨c, n⟩] := by
  simp [fault]

@[simp] theorem opened_fault (s : Scan) (c : Fault.Cause) (n : Nat) :
    (s.fault c n).opened = s.opened := rfl

@[simp] theorem pending_fault (s : Scan) (c : Fault.Cause) (n : Nat) :
    (s.fault c n).pending = s.pending := rfl

/-- Records a text without use. The fault points at the innermost open parenthesis, outside all
parentheses at the text. -/
def unknown (s : Scan) (text : String) (column : Nat) : Scan :=
  (s.emit .unknown text column).fault (.unknown text) (s.opened.head?.getD column)

/-- Gives up a word that did not become the keyword. -/
def settle (s : Scan) : Scan :=
  match s.pending with
  | .word start letters => { s with pending := .nothing }.unknown letters start
  | _ => s

theorem pending_settle {s : Scan} (h : s.openQuote? = none) : s.settle.pending = .nothing := by
  unfold openQuote? at h
  unfold settle unknown
  cases hp : s.pending <;> simp_all

/-! ## What a character can do -/

/-- A letter joins the word. The keyword is recognised at its last letter, whatever follows. -/
def letter (s : Scan) (c : Char) : Scan :=
  let (start, letters) := match s.pending with
    | .word start letters => (start, letters.push c)
    | _ => (s.column, String.singleton c)
  if letters = keyword then { s with pending := .nothing }.emit .print letters start
  else { s with pending := .word start letters }

/-- A character within a string: a quote ends it, any other belongs to it. -/
def inString (s : Scan) (quote : Nat) (body : String) (c : Char) : Scan :=
  if c = '"' then { s with pending := .nothing }.emit .literal body quote
  else { s with pending := .string quote (body.push c) }

def openString (s : Scan) : Scan := { s with pending := .string s.column "" }

def openParen (s : Scan) : Scan :=
  { s with opened := s.column :: s.opened }.emit .opener "(" s.column

/-- Closes the innermost open parenthesis, if there is one. -/
def closeParen (s : Scan) : Scan :=
  match s.opened with
  | _ :: outer => { s with opened := outer }.emit .closer ")" s.column
  | [] => (s.emit .unknown ")" s.column).fault .strayCloser s.column

/-! ## What the end brings out -/

/-- A string without its closing quote, told of at the quote that opened it. -/
def unclosedString (s : Scan) : List Fault :=
  s.openQuote?.toList.map fun quote => ⟨.unclosedString, quote⟩

/-- However many parentheses are open, one fault points at the innermost. -/
def unclosedParen (s : Scan) : List Fault :=
  s.opened.head?.toList.map fun column => ⟨.unclosedParen, column⟩

/-- The missing semicolon, told of at the last lexeme, failing that at the open quote. A line with
neither is blank and misses nothing. -/
def unterminated (s : Scan) : List Fault :=
  ((s.lexemes.back?.map (·.column)) <|> s.openQuote?).toList.map fun column =>
    ⟨.unterminated, column⟩

/-- The findings when a semicolon ends the line, whatever follows it. -/
def terminated (s : Scan) : Findings where
  lexemes := (s.emit .terminator ";" s.column).lexemes.toList
  faults := s.faults.toList ++ s.unclosedParen

/-- The findings when the line is over and no semicolon came. -/
def exhausted (s : Scan) : Findings where
  lexemes := s.lexemes.toList
  faults := s.faults.toList ++ s.unclosedString ++ s.unclosedParen ++ s.unterminated

end Scan
end LineLexer
