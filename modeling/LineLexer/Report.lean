import LineLexer.Fault
import LineLexer.Text.Line
/-!
# Reports

How the diagnostics of a line are shown: the line, a caret under the column, the message, each
behind the margin, and one header above them all. Nothing is shown when there is nothing to say.
A report can be printed if each of its messages can.
-/
namespace LineLexer
namespace Report

def header : String := "[ERROR] Stack trace:\n"

/-- What every line below the header starts with. -/
def margin : String := "[ERROR] "

def row (s : String) : String := margin ++ s ++ "\n"

/-- A caret after as many spaces as the column has bytes before it. -/
def caret (column : Nat) : String := String.ofList (List.replicate column ' ') ++ "^"

/-- The three rows about a column of the line `source`. -/
def block (source : String) (column : Nat) (message : String) : String :=
  row (Text.dropEnding source) ++ row (caret column) ++ row message

/-- One header above all blocks. -/
def ofBlocks (blocks : List String) : String :=
  if blocks = [] then "" else header ++ String.join blocks

theorem ofBlocks_eq_empty_iff {blocks : List String} : ofBlocks blocks = "" ↔ blocks = [] := by
  unfold ofBlocks
  split
  · simp_all
  · simp [*, header]

end Report

/-- The block about one diagnostic of the line `source`. -/
def Diagnostic.render (d : Diagnostic) (source : String) : String :=
  Report.block source d.column d.display

/-- The report on a line. -/
def Report.render (ds : List Diagnostic) (source : String) : String :=
  ofBlocks (ds.map (·.render source))

/-! ## Columns that cannot be printed -/

/-- What `render` shows, if the message can be printed. -/
def Diagnostic.render? (d : Diagnostic) (source : String) : Option String :=
  d.display?.map (Report.block source d.column)

/-- What `Report.render` shows, if every message can be printed. -/
def Report.render? (ds : List Diagnostic) (source : String) : Option String :=
  (ds.mapM (Diagnostic.render? · source)).map ofBlocks

theorem Diagnostic.render?_of_lt {d : Diagnostic} (h : d.column < Count.last) (source : String) :
    d.render? source = some (d.render source) := by
  rw [render?, display?_of_lt h, Option.map_some, render]

theorem Report.render?_of_lt {ds : List Diagnostic} (h : ∀ d ∈ ds, d.column < Count.last)
    (source : String) : Report.render? ds source = some (Report.render ds source) := by
  have hblocks : ds.mapM (Diagnostic.render? · source) = some (ds.map (·.render source)) := by
    induction ds with
    | nil => rfl
    | cons d ds ih =>
      rw [List.mapM_cons, Diagnostic.render?_of_lt (h d (by simp)),
        ih fun x hx => h x (by simp [hx])]
      rfl
  rw [Report.render?, hblocks, Option.map_some, Report.render]

/-- Only the report on nothing is empty, also where some message cannot be printed. -/
theorem Report.render?_eq_some_empty_iff {ds : List Diagnostic} {source : String} :
    Report.render? ds source = some "" ↔ ds = [] := by
  simp only [Report.render?, Option.map_eq_some_iff, ofBlocks_eq_empty_iff]
  constructor
  · rintro ⟨blocks, hblocks, rfl⟩
    cases ds with
    | nil => rfl
    | cons d ds => simp [Option.bind_eq_some_iff] at hblocks
  · rintro rfl
    exact ⟨[], rfl, rfl⟩

end LineLexer
