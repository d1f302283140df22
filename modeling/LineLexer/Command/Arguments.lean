import LineLexer.Limits
/-!
# Arguments

The command line names a task, the files it is for, and options before and after the task. Reading
it takes two passes: `items` says what each argument is, joining an option to its value, and
`Request.ofItems` checks the order. An option counts once on each side of the task, and the side
after the task wins.
-/
namespace LineLexer.Command

inductive Task
  | tokens | check
deriving DecidableEq, Repr

def Task.ofName? (name : String) : Option Task :=
  if name = "tokens" then some .tokens
  else if name = "check" then some .check
  else none

/-- An option that takes a count. -/
inductive Setting
  | depth | length
deriving DecidableEq, Repr

def Setting.ofName? (name : String) : Option Setting :=
  if name = "max-depth" then some .depth
  else if name = "max-line-length" then some .length
  else none

/-! ## What each argument is -/

inductive Item
  | verbose
  | version
  /-- An option and what was given for it, if anything was. -/
  | setting (s : Setting) (value : Option String)
  | operand (text : String)
  /-- Two hyphens: no options from here on. -/
  | separator
  | unknown (argument : String)
deriving DecidableEq, Repr

/-- One letter behind a single hyphen. -/
def Item.ofFlag (c : Char) : Item :=
  if c = 'v' then .verbose
  else if c = 'V' then .version
  else .unknown (String.ofList ['-', c])

/-- An option by its long name, with the text after the equals sign if there is one. -/
def Item.ofLong (name : String) (value : Option String) : Item :=
  match Setting.ofName? name, value with
  | some s, _ => .setting s value
  | none, none =>
    if name = "verbose" then .verbose
    else if name = "version" then .version
    else .unknown ("--" ++ name)
  | none, some _ => .unknown ("--" ++ name)

/-- The name and the value of `name=value`. -/
def splitValue (cs : List Char) : String × Option String :=
  (String.ofList (cs.takeWhile (· ≠ '=')),
    match cs.dropWhile (· ≠ '=') with
    | [] => none
    | _ :: value => some (String.ofList value))

/-- What one argument is, taken alone. -/
def Item.ofArgument (argument : String) : List Item :=
  match argument.toList with
  | ['-', '-'] => [.separator]
  | '-' :: '-' :: cs => [Item.ofLong (splitValue cs).1 (splitValue cs).2]
  | '-' :: c :: cs => (c :: cs).map Item.ofFlag
  | _ => [.operand argument]

/-- What the arguments are. An option without its value takes the next argument, whatever it is. -/
def items : List String → List Item
  | [] => []
  | argument :: rest =>
    match Item.ofArgument argument with
    | [.separator] => .separator :: rest.map .operand
    | [.setting s none] =>
      match rest with
      | value :: rest' => .setting s (some value) :: items rest'
      | [] => [.setting s none]
    | found => found ++ items rest

/-! ## What they ask for -/

/-- What keeps the arguments from being understood. -/
inductive UsageError
  | noTask
  | unknownTask (name : String)
  | noFiles
  | emptyName
  | unknownOption (argument : String)
  | repeated
  | noCount (value : Option String)
deriving DecidableEq, Repr

def UsageError.message : UsageError → String
  | .noTask => "a task is needed: tokens or check"
  | .unknownTask name => "unknown task: " ++ name
  | .noFiles => "at least one file is needed"
  | .emptyName => "a file name is empty"
  | .unknownOption argument => "unknown option: " ++ argument
  | .repeated => "an option is given twice"
  | .noCount none => "an option lacks its value"
  | .noCount (some value) => "not a count: " ++ value

/-- The options on one side of the task. -/
structure Options where
  verbose : Bool := false
  depth : Option Nat := none
  length : Option Nat := none
deriving DecidableEq, Repr

namespace Options

def setVerbose (o : Options) : Except UsageError Options :=
  if o.verbose then .error .repeated else .ok { o with verbose := true }

def set (o : Options) (s : Setting) (value : Option String) : Except UsageError Options :=
  match value.bind Count.ofString?, s with
  | none, _ => .error (.noCount value)
  | some n, .depth => if o.depth.isSome then .error .repeated else .ok { o with depth := some n }
  | some n, .length => if o.length.isSome then .error .repeated else .ok { o with length := some n }

/-- The limits in force: the later side first, then the earlier, then the usual ones. -/
def limits (before after : Options) : Limits where
  depth := (after.depth <|> before.depth).getD ({} : Limits).depth
  length := (after.length <|> before.length).getD ({} : Limits).length

end Options

/-- A task and what it is for. -/
structure Invocation where
  task : Task
  limits : Limits
  files : List String
deriving DecidableEq, Repr

inductive Request
  /-- Print the version. -/
  | version
  | run (i : Invocation)
deriving DecidableEq, Repr

/-- Reads what follows the task. Options may stand between the files. -/
def Invocation.ofItems (task : Task) (before after : Options) (files : List String) :
    List Item → Except UsageError Invocation
  | [] =>
    if files = [] then .error .noFiles
    else .ok ⟨task, before.limits after, files.reverse⟩
  | .verbose :: rest => do ofItems task before (← after.setVerbose) files rest
  | .setting s value :: rest => do ofItems task before (← after.set s value) files rest
  | .operand name :: rest =>
    if name = "" then .error .emptyName else ofItems task before after (name :: files) rest
  | .separator :: rest => ofItems task before after files rest
  | .version :: _ => .error (.unknownOption "--version")
  | .unknown argument :: _ => .error (.unknownOption argument)

/-- Reads all that was given. The version is printed as soon as it is asked for, if what comes
before is in order. -/
def Request.ofItems (before : Options) : List Item → Except UsageError Request
  | [] => .error .noTask
  | .verbose :: rest => do ofItems (← before.setVerbose) rest
  | .setting s value :: rest => do ofItems (← before.set s value) rest
  | .operand name :: rest =>
    match Task.ofName? name with
    | some task => (Invocation.ofItems task before {} [] rest).map .run
    | none => .error (.unknownTask name)
  | .separator :: _ => .error .noTask
  | .version :: _ => .ok .version
  | .unknown argument :: _ => .error (.unknownOption argument)

def Request.ofArguments (arguments : List String) : Except UsageError Request :=
  Request.ofItems {} (items arguments)

end LineLexer.Command
