import LineLexer.Reading
/-!
# Scripts

A script is read line by line. Its lines are numbered from 1, and the first overrun is the outcome
of the whole. A reader that keeps a place of its own goes on after an overrun and moves down one
line each time, as long as line numbers last.
-/
namespace LineLexer

/-- A line of a script, with its number and what it holds. -/
structure ScriptLine where
  number : Nat
  text : String
  reading : Reading
deriving DecidableEq, Repr

/-- Reads a numbered line of `file`. -/
def Limits.lexNumbered (limits : Limits) (file : String) (line : String × Nat) :
    Except Overrun ScriptLine :=
  (limits.lex ⟨file, line.2⟩ line.1).map (⟨line.2, line.1, ·⟩)

/-- Reads lines one below the other, the first of them as line `n`, or finds the first that passes a
limit. -/
def Limits.lexLines (limits : Limits) (file : String) (n : Nat) (lines : List String) :
    Except Overrun (List ScriptLine) :=
  (lines.zipIdx n).mapM (limits.lexNumbered file)

/-- Reads every line of a script. -/
def Limits.lexScript (limits : Limits) (file script : String) : Except Overrun (List ScriptLine) :=
  limits.lexLines file 1 (Text.lines script)

/-! ## A reader with a place of its own -/

/-- A text that was read as one line, and how that went. -/
structure Attempt where
  text : String
  result : Except Overrun Reading

def Limits.attempt (limits : Limits) (place : Place) (text : String) : Attempt :=
  ⟨text, limits.lex place text⟩

/-- Reads lines one below the other, the first at `place`, and gives the place below the last. If
the line numbers run out the attempts are lost and the place is the last there is. -/
def Limits.feed (limits : Limits) (place : Place) : List String → Option (List Attempt) × Place
  | [] => (some [], place)
  | line :: rest =>
    match place.next? with
    | none => (none, place)
    | some below =>
      let (attempts, reached) := limits.feed below rest
      (attempts.map (limits.attempt place line :: ·), reached)

end LineLexer
