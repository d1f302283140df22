import LineLexer.Script
/-!
# Scripts in files

A file is read as a whole before its first line is looked at, so an unreadable file has no lines.
How files are read is left to a `Reader`.
-/
namespace LineLexer

/-- Why a path gives no text. -/
inductive ReadFault
  | missing
  /-- The path leads through a file. -/
  | notDirectory
  | isDirectory
  /-- The path, or a name in it, is longer than any file's. -/
  | nameTooLong
  | nulInPath
  /-- The bytes are no UTF-8. -/
  | notText
  | other (message : String)
deriving DecidableEq, Repr

def ReadFault.message : ReadFault → String
  | .missing => "No such file or directory (os error 2)"
  | .notDirectory => "Not a directory (os error 20)"
  | .isDirectory => "Is a directory (os error 21)"
  | .nameTooLong => "File name too long (os error 36)"
  | .nulInPath => "file name contained an unexpected NUL byte"
  | .notText => "stream did not contain valid UTF-8"
  | .other message => message

/-- The text of a file, if it has one. Nothing is taken off its start. -/
def ReadFault.decode (bytes : ByteArray) : Except ReadFault String :=
  match String.fromUTF8? bytes with
  | some text => .ok text
  | none => .error .notText

/-- A way to read the file at a path. -/
abbrev Reader := String → Except ReadFault String

/-- Why a file has no lines. -/
inductive ScriptError
  | unreadable (path : String) (fault : ReadFault)
  | overrun (o : Overrun)
deriving DecidableEq, Repr

namespace ScriptError

def message : ScriptError → String
  | .unreadable path _ => "cannot read " ++ path
  | .overrun o => o.display

/-- The message of what lies behind the error: the read fault, or the overrun once more. -/
def cause : ScriptError → String
  | .unreadable _ fault => fault.message
  | .overrun o => o.display

end ScriptError

/-- Reads the script at `path`. The path as it was given names the file. -/
def Limits.lexFile (limits : Limits) (read : Reader) (path : String) :
    Except ScriptError (List ScriptLine) :=
  match read path with
  | .error fault => .error (.unreadable path fault)
  | .ok script => (limits.lexScript path script).mapError .overrun

theorem Limits.lexFile_of_read {limits : Limits} {read : Reader} {path script : String}
    (h : read path = .ok script) :
    limits.lexFile read path = (limits.lexScript path script).mapError .overrun := by
  simp [Limits.lexFile, h]

end LineLexer
