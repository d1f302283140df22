import LineLexer.Script
/-!
# Sessions

A session holds a place and limits, and takes requests one after another. A request that runs out of
line numbers has no answer; what it had changed stays changed.
-/
namespace LineLexer

structure Session where
  place : Place
  limits : Limits
deriving DecidableEq, Repr

namespace Session

inductive Request
  /-- Go to the first line of a file. -/
  | enter (file : String)
  | goTo (line : Nat)
  /-- Go one line down. -/
  | advance
  | setDepth (depth : Nat)
  | setLength (length : Nat)
  | resetLimits
  | lex (text : String)
  /-- Read a line under the limits that hold where none are set. -/
  | lexDefault (text : String)
  /-- Read lines from here on, and go below the last. -/
  | feed (text : String)
  /-- Read a whole script under the name of the current file, and stay here. -/
  | lexScript (text : String)

inductive Answer
  | done
  | line (a : Attempt)
  | lines (as : List Attempt)
  | script (r : Except Overrun (List ScriptLine))
  /-- The line numbers ran out. -/
  | exhausted

/-- Takes one request. -/
def step (s : Session) : Request → Answer × Session
  | .enter file => (.done, { s with place := .top file })
  | .goTo line => (.done, { s with place := { s.place with line } })
  | .advance =>
    match s.place.next? with
    | some below => (.done, { s with place := below })
    | none => (.exhausted, s)
  | .setDepth depth => (.done, { s with limits := { s.limits with depth } })
  | .setLength length => (.done, { s with limits := { s.limits with length } })
  | .resetLimits => (.done, { s with limits := {} })
  | .lex text => (.line (s.limits.attempt s.place text), s)
  | .lexDefault text => (.line (({} : Limits).attempt s.place text), s)
  | .feed text =>
    let (attempts, reached) := s.limits.feed s.place (Text.lines text)
    (attempts.elim .exhausted .lines, { s with place := reached })
  | .lexScript text => (.script (s.limits.lexScript s.place.file text), s)

/-- Takes requests in turn; each answer comes with the session after it. -/
def run (s : Session) : List Request → List (Answer × Session)
  | [] => []
  | r :: rs => s.step r :: (s.step r).2.run rs

end Session
end LineLexer
