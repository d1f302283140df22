import LineLexer.ScriptFile
/-!
# Directories

A directory of files, as data, and what reading a path in it gives. A path is walked name by name;
every name before the last has to lead to a folder. What lies above the directory holds nothing.
-/
namespace LineLexer

/-- What a path can lead to. -/
inductive Node
  | folder
  | file (bytes : ByteArray)

/-- Where a path has come to. -/
inductive Spot
  /-- In the directory, at the end of a way of names. -/
  | inside (way : List String)
  | above
deriving DecidableEq, Repr

/-- Where a name of a path leads: an empty name or a dot stays, two dots go up. -/
def Spot.move : Spot → String → Spot
  | .above, _ => .above
  | .inside way, name =>
    if name = "" ∨ name = "." then .inside way
    else if name = ".." then if way = [] then .above else .inside way.dropLast
    else .inside (way ++ [name])

/-- Files and folders by the way to them, the newest first. -/
structure Directory where
  entries : List (List String × Node)

namespace Directory

def empty : Directory := ⟨[]⟩

/-! ## Paths -/

/-- The names in a path. The empty name stands before, after and between slashes. -/
def names (path : String) : List String := path.splitOn "/"

/-- Where a path starts: one from the root starts above the directory. -/
def origin (path : String) : Spot := if path.startsWith "/" then .above else .inside []

/-- Adds what `path` leads to, if that is in the directory. -/
def put (d : Directory) (path : String) (n : Node) : Directory :=
  match (names path).foldl Spot.move (origin path) with
  | .inside way => ⟨(way, n) :: d.entries⟩
  | .above => d

/-- What lies at the end of a way; a way that another goes on from ends in a folder. -/
def node? (d : Directory) (way : List String) : Option Node :=
  match d.entries.lookup way with
  | some n => some n
  | none =>
    if way.isEmpty || d.entries.any fun e => way.isPrefixOf e.1 then some .folder else none

/-! ## Reading -/

/-- The most bytes in a name. -/
def nameLimit : Nat := 255

/-- The most bytes in a path. -/
def pathLimit : Nat := 4095

/-- Takes one name of a path, from a folder that has to be there. -/
def enter (d : Directory) (s : Spot) (name : String) : Except ReadFault Spot :=
  match s with
  | .above =>
    if nameLimit < name.utf8ByteSize then .error .nameTooLong
    else if name ∈ ["", ".", ".."] then .ok .above
    else .error .missing
  | .inside way =>
    match d.node? way with
    | none => .error .missing
    | some (.file _) => .error .notDirectory
    | some .folder =>
      if nameLimit < name.utf8ByteSize then .error .nameTooLong else .ok (s.move name)

/-- Where a path leads. -/
def walk (d : Directory) (path : String) : Except ReadFault Spot :=
  (names path).foldlM d.enter (origin path)

/-- Reads the file at a path. -/
def read (d : Directory) : Reader := fun path =>
  if '\x00' ∈ path.toList then .error .nulInPath
  else if path = "" then .error .missing
  else if pathLimit < path.utf8ByteSize then .error .nameTooLong
  else do
    match ← d.walk path with
    | .above => .error .isDirectory
    | .inside way =>
      match d.node? way with
      | none => .error .missing
      | some .folder => .error .isDirectory
      | some (.file bytes) => ReadFault.decode bytes

end Directory
end LineLexer
