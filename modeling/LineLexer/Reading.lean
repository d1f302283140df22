import LineLexer.Scan.Run
import LineLexer.Report
/-!
# Reading a line

What a line at a place holds: its tokens and its diagnostics. The place has no part in the scan; it
labels what the scan found.
-/
namespace LineLexer

structure Reading where
  tokens : List Token
  diagnostics : List Diagnostic
deriving DecidableEq, Repr

/-- The findings of the line at `p`. -/
def Findings.atPlace (f : Findings) (p : Place) : Reading where
  tokens := f.lexemes.map (·.onLine p.line)
  diagnostics := f.faults.map (·.atPlace p)

namespace Reading

/-- Nothing is wrong with the line. -/
def isClean (r : Reading) : Bool := r.diagnostics.isEmpty

/-- The line ends an expression. -/
def isTerminated (r : Reading) : Bool := r.tokens.getLast?.any (·.kind = .terminator)

theorem isClean_atPlace (f : Findings) (p : Place) :
    (f.atPlace p).isClean = f.faults.isEmpty := by
  simp [isClean, Findings.atPlace]

end Reading

/-- Reads the line at `place`. One line ending is no part of the line. -/
def Limits.lex (limits : Limits) (place : Place) (text : String) : Except Overrun Reading :=
  match limits.scan (Text.dropEnding text) with
  | .ok f => .ok (f.atPlace place)
  | .error e => .error (e.atPlace place)

theorem Limits.lex_eq_ok_iff {limits : Limits} {place : Place} {text : String} {r : Reading} :
    limits.lex place text = .ok r ↔
      ∃ f, limits.scan (Text.dropEnding text) = .ok f ∧ r = f.atPlace place := by
  unfold Limits.lex
  cases limits.scan (Text.dropEnding text) <;> simp [eq_comm]

theorem Limits.lex_eq_error_iff {limits : Limits} {place : Place} {text : String} {o : Overrun} :
    limits.lex place text = .error o ↔
      ∃ e, limits.scan (Text.dropEnding text) = .error e ∧ o = e.atPlace place := by
  unfold Limits.lex
  cases limits.scan (Text.dropEnding text) <;> simp [eq_comm]

end LineLexer
