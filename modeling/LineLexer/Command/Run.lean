import LineLexer.ScriptFile
import LineLexer.Command.Arguments
/-!
# Running the command

What a task prints for one file, and how the files are gone through: one at a time, and what is
printed for a file is printed before the next is read. A file that fails prints its error and
nothing else, and does not stop the files after it.

How a file is read and how a transcript is printed is left open (`Request.perform`). Where reading
is a function and printing is writing down, the outcome is one transcript (`Request.transcript`).
-/
namespace LineLexer.Command

/-- What was printed, and whether anything was wrong. -/
structure Transcript where
  stdout : String := ""
  stderr : String := ""
  failed : Bool := false
deriving DecidableEq, Repr

namespace Transcript

/-- One transcript after another. -/
def append (a b : Transcript) : Transcript where
  stdout := a.stdout ++ b.stdout
  stderr := a.stderr ++ b.stderr
  failed := a.failed || b.failed

instance : Append Transcript := ⟨append⟩

@[simp] theorem stdout_append (a b : Transcript) : (a ++ b).stdout = a.stdout ++ b.stdout := rfl

@[simp] theorem stderr_append (a b : Transcript) : (a ++ b).stderr = a.stderr ++ b.stderr := rfl

@[simp] theorem failed_append (a b : Transcript) : (a ++ b).failed = (a.failed || b.failed) := rfl

/-- The exit code: 1 if anything was wrong. -/
def exitCode (t : Transcript) : Nat := if t.failed then 1 else 0

end Transcript

/-! ## One file -/

def tokenCount (ls : List ScriptLine) : Nat := (ls.flatMap (·.reading.tokens)).length

def diagnosticCount (ls : List ScriptLine) : Nat := (ls.flatMap (·.reading.diagnostics)).length

/-- Every token, one a row. -/
def listing (ls : List ScriptLine) : String :=
  String.join (ls.flatMap fun l => l.reading.tokens.map (·.display ++ "\n"))

/-- The reports on the lines that need one. -/
def reports (ls : List ScriptLine) : String :=
  String.join (ls.map fun l => Report.render l.reading.diagnostics l.text)

/-- The row that sums up a file. -/
def summary (path : String) (ls : List ScriptLine) : String :=
  path ++ ": " ++ (if diagnosticCount ls = 0 then "ok" else "failed")
    ++ " (" ++ toString ls.length ++ " line(s), " ++ toString (tokenCount ls) ++ " token(s), "
    ++ toString (diagnosticCount ls) ++ " diagnostic(s))\n"

/-- What a task prints for the lines of a file. -/
def Task.transcript (task : Task) (path : String) (ls : List ScriptLine) : Transcript where
  stdout := match task with
    | .tokens => listing ls
    | .check => summary path ls
  stderr := reports ls
  failed := diagnosticCount ls ≠ 0

/-- An error is printed with what lies behind it. -/
def failure (e : ScriptError) : Transcript where
  stderr := e.message ++ ": " ++ e.cause ++ "\n"
  failed := true

/-- What a task prints for one file. -/
def runFile (task : Task) (limits : Limits) (read : Reader) (path : String) : Transcript :=
  match limits.lexFile read path with
  | .ok ls => task.transcript path ls
  | .error e => failure e

/-! ## All files -/

def versionText : String := "billion 0.1.0\n"

section
variable {m : Type → Type} [Monad m]

/-- Handles one file; tells whether anything was wrong, there or before. -/
def Invocation.performFile (i : Invocation) (read : String → m (Except ReadFault String))
    (print : Transcript → m Unit) (failed : Bool) (path : String) : m Bool := do
  let contents ← read path
  let t := runFile i.task i.limits (fun _ => contents) path
  print t
  return failed || t.failed

/-- Handles the files in their order; tells whether anything was wrong. -/
def Invocation.perform (i : Invocation) (read : String → m (Except ReadFault String))
    (print : Transcript → m Unit) : m Bool :=
  i.files.foldlM (i.performFile read print) false

/-- Does what is asked for; tells whether anything was wrong. -/
def Request.perform (r : Request) (read : String → m (Except ReadFault String))
    (print : Transcript → m Unit) : m Bool :=
  match r with
  | .version => do
    print { stdout := versionText }
    return false
  | .run i => i.perform read print

end

/-- Writes down what is printed, after what has been printed before. -/
def Transcript.add (t : Transcript) : StateM Transcript Unit := modify (· ++ t)

/-- What has been written down, and whether anything was wrong. -/
def Transcript.ofRun (x : StateM Transcript Bool) : Transcript :=
  let (failed, printed) := x.run {}
  { printed with failed }

/-- What the whole command prints. -/
def Request.transcript (r : Request) (read : Reader) : Transcript :=
  .ofRun (r.perform (pure ∘ read) Transcript.add)

/-- What is printed for all files. -/
def Invocation.run (i : Invocation) (read : Reader) : Transcript :=
  Request.transcript (.run i) read

end LineLexer.Command
