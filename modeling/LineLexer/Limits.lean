import LineLexer.Place
/-!
# Limits

How much of a line is read. A line that passes a limit is given up as a whole, so an excess comes
alone, without lexemes or faults; an overrun is an excess at a place.
-/
namespace LineLexer

structure Limits where
  /-- The most parentheses open at once. -/
  depth : Nat := 10
  /-- The most bytes in a line, its ending not counted. -/
  length : Nat := 1024
deriving DecidableEq, Repr

inductive Excess.Cause
  | tooLong (length limit : Nat)
  | tooDeep (limit : Nat)
deriving DecidableEq, Repr

def Excess.Cause.message : Excess.Cause → String
  | .tooLong length limit =>
    "line is " ++ toString length ++ " characters long, at most " ++ toString limit
      ++ " are supported"
  | .tooDeep limit => "delimiters nested deeper than " ++ toString limit ++ " levels"

/-- A limit passed and the column, from 0, where that happened. -/
structure Excess where
  cause : Excess.Cause
  column : Nat
deriving DecidableEq, Repr

structure Overrun extends Excess where
  place : Place
deriving DecidableEq, Repr

def Excess.atPlace (e : Excess) (p : Place) : Overrun := { toExcess := e, place := p }

@[simp] theorem Excess.toExcess_atPlace (e : Excess) (p : Place) : (e.atPlace p).toExcess = e := rfl

@[simp] theorem Excess.place_atPlace (e : Excess) (p : Place) : (e.atPlace p).place = p := rfl

namespace Overrun

/-- File, line, column and message, on one line. -/
def display (o : Overrun) : String := o.place.label o.column o.cause.message

/-- What `display` shows, if the printed column is a count. -/
def display? (o : Overrun) : Option String := o.place.label? o.column o.cause.message

theorem display?_of_lt {o : Overrun} (h : o.column < Count.last) :
    o.display? = some o.display :=
  Place.label?_of_lt h _

end Overrun
end LineLexer
