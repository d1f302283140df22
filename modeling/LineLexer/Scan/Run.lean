import LineLexer.Scan.State
import LineLexer.Limits
/-!
# Running a scan

`step` reads one character and `run` a stretch of a line; both stop early at a semicolon outside
strings and at a parenthesis too deep. `run_append` cuts a run in two anywhere.
-/
namespace LineLexer
namespace Scan

/-- Why a scan stops before the end of the line. -/
inductive Halt
  /-- A semicolon ended the line. -/
  | terminated (f : Findings)
  /-- A limit was passed. -/
  | exceeded (e : Excess)
deriving DecidableEq, Repr

def advance (s : Scan) (c : Char) : Scan := { s with column := s.column + c.utf8Size }

/-- A character outside strings that is no part of a word. -/
def mark (depth : Nat) (s : Scan) (c : Char) : Except Halt Scan :=
  match Text.Role.of c with
  | .terminator => .error (.terminated s.terminated)
  | .opener =>
    if s.opened.length < depth then .ok s.openParen
    else .error (.exceeded ⟨.tooDeep depth, s.column⟩)
  | .closer => .ok s.closeParen
  | .quote => .ok s.openString
  | _ => .ok (s.unknown (String.singleton c) s.column)

/-- A character outside strings. Blanks are passed over and do not end a word. -/
def outside (depth : Nat) (s : Scan) (c : Char) : Except Halt Scan :=
  match Text.Role.of c with
  | .blank => .ok s
  | .letter => .ok (s.letter c)
  | _ => mark depth s.settle c

/-- Reads one character. -/
def step (depth : Nat) (s : Scan) (c : Char) : Except Halt Scan :=
  match s.pending with
  | .string quote body => .ok ((s.inString quote body c).advance c)
  | _ => (outside depth s c).map (·.advance c)

/-- Reads characters until they are used up or the scan stops. -/
def run (depth : Nat) (s : Scan) : List Char → Except Halt Scan
  | [] => .ok s
  | c :: cs =>
    match step depth s c with
    | .ok s' => run depth s' cs
    | .error h => .error h

@[simp] theorem run_nil (depth : Nat) (s : Scan) : run depth s [] = .ok s := rfl

theorem run_cons (depth : Nat) (s : Scan) (c : Char) (cs : List Char) :
    run depth s (c :: cs) = step depth s c >>= (run depth · cs) := by
  rw [run]; cases step depth s c <;> rfl

theorem run_append (depth : Nat) (s : Scan) (a b : List Char) :
    run depth s (a ++ b) = run depth s a >>= (run depth · b) := by
  induction a generalizing s with
  | nil => rfl
  | cons c a ih =>
    rw [List.cons_append, run, run]
    cases step depth s c with
    | ok s' => exact ih s'
    | error h => rfl

end Scan

/-- Reads a line, its ending already taken off. The length is looked at first. -/
def Limits.scan (limits : Limits) (line : String) : Except Excess Findings :=
  if limits.length < line.utf8ByteSize then
    .error ⟨.tooLong line.utf8ByteSize limits.length, limits.length⟩
  else match Scan.run limits.depth .start line.toList with
    | .ok s => .ok s.settle.exhausted
    | .error (.terminated f) => .ok f
    | .error (.exceeded e) => .error e

end LineLexer
