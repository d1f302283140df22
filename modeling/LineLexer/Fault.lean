import LineLexer.Place
/-!
# Faults and diagnostics

A fault is a mistake in one line, pinned to a column of it; a diagnostic is a fault at a place.
Faults never stop the reading of a line.
-/
namespace LineLexer

inductive Fault.Cause
  /-- The line ended inside a string. -/
  | unclosedString
  /-- A closing parenthesis with none open. -/
  | strayCloser
  /-- A parenthesis was still open at the end. -/
  | unclosedParen
  /-- The line holds something and no semicolon ends it. -/
  | unterminated
  /-- A text that the language has no use for. -/
  | unknown (text : String)
deriving DecidableEq, Repr

def Fault.Cause.message : Fault.Cause → String
  | .unclosedString => "String literal not closed"
  | .strayCloser => "Expected to match delimiters"
  | .unclosedParen => "Delimiter not closed"
  | .unterminated => "Missing end of expression delimiter"
  | .unknown text => "Unknown token \"" ++ text ++ "\""

/-- A mistake and the column, from 0, that it points at. -/
structure Fault where
  cause : Fault.Cause
  column : Nat
deriving DecidableEq, Repr

structure Diagnostic extends Fault where
  place : Place
deriving DecidableEq, Repr

def Fault.atPlace (f : Fault) (p : Place) : Diagnostic := { toFault := f, place := p }

@[simp] theorem Fault.toFault_atPlace (f : Fault) (p : Place) : (f.atPlace p).toFault = f := rfl

@[simp] theorem Fault.place_atPlace (f : Fault) (p : Place) : (f.atPlace p).place = p := rfl

namespace Diagnostic

/-- File, line, column and message, on one line. -/
def display (d : Diagnostic) : String := d.place.label d.column d.cause.message

/-- What `display` shows, if the printed column is a count. -/
def display? (d : Diagnostic) : Option String := d.place.label? d.column d.cause.message

theorem display?_of_lt {d : Diagnostic} (h : d.column < Count.last) :
    d.display? = some d.display :=
  Place.label?_of_lt h _

end Diagnostic
end LineLexer
