import LineLexer.Command.Run
/-!
# The command line

The files of the system, and its two streams. What is done with them is `Request.perform`.
-/
namespace LineLexer.Command

/-- The fault behind a failed system call. The system's error number may come negated. -/
def faultOfError (e : IO.Error) : ReadFault :=
  match e with
  | .noFileOrDirectory .. => .missing
  | .inappropriateType _ code _ =>
    if code = 20 ∨ code = -20 then .notDirectory
    else if code = 21 ∨ code = -21 then .isDirectory
    else .other (toString e)
  | .invalidArgument _ code _ =>
    if code = 36 ∨ code = -36 then .nameTooLong else .other (toString e)
  | e => .other (toString e)

/-- Reads a file of the system. -/
def readSystemFile (path : String) : IO (Except ReadFault String) := do
  if '\x00' ∈ path.toList then return .error .nulInPath
  try return ReadFault.decode (← IO.FS.readBinFile path)
  catch e => return .error (faultOfError e)

def printTranscript (t : Transcript) : IO Unit := do
  IO.print t.stdout
  IO.eprint t.stderr

/-- Does what the arguments ask for and gives the exit code. -/
def runArguments (arguments : List String) : IO UInt32 := do
  match Request.ofArguments arguments with
  | .error e =>
    IO.eprintln ("error: " ++ e.message)
    return 2
  | .ok r =>
    let failed ← r.perform readSystemFile printTranscript
    return UInt32.ofNat (Transcript.exitCode { failed })

end LineLexer.Command

def main (arguments : List String) : IO UInt32 := LineLexer.Command.runArguments arguments
