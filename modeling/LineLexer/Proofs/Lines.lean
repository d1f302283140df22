import Mathlib.Data.List.Basic
import LineLexer.Text.Line
/-!
# Sources and their lines

A source is physical lines written one after the other, each with its ending, in exactly one way,
and `lines` gives back these lines (`lines_source_unique`). The corners are a lone carriage return,
one more in front of `\r\n`, blank lines, and a last line without an ending.
-/
namespace LineLexer.Text

variable {x rest cs : List Char}

/-! ## Pieces -/

theorem pieces_of_not_mem (hne : cs ≠ []) (h : '\n' ∉ cs) : pieces cs = [cs] := by
  induction cs with
  | nil => exact absurd rfl hne
  | cons c cs ih =>
    rw [List.mem_cons, not_or] at h
    rw [pieces_cons]
    by_cases hnil : cs = []
    · simp [hnil, consPiece]
    · simp [ih hnil h.2, consPiece, Ne.symm h.1]

theorem pieces_append_newline (h : '\n' ∉ x) (rest : List Char) :
    pieces (x ++ '\n' :: rest) = (x ++ ['\n']) :: pieces rest := by
  induction x with
  | nil =>
    rw [List.nil_append, pieces_cons]
    cases pieces rest <;> simp [consPiece]
  | cons c x ih =>
    rw [List.mem_cons, not_or] at h
    rw [List.cons_append, pieces_cons, ih h.2]
    simp [consPiece, Ne.symm h.1]

/-- There is a piece to every newline, and one more if something follows the last. -/
theorem length_pieces (cs : List Char) :
    (pieces cs).length =
      cs.count '\n' + if cs ≠ [] ∧ cs.getLast? ≠ some '\n' then 1 else 0 := by
  induction cs with
  | nil => rfl
  | cons c cs ih =>
    have hflatten := flatten_pieces cs
    rw [pieces_cons, List.count_cons]
    cases hps : pieces cs with
    | nil =>
      obtain rfl : cs = [] := by rw [← hflatten, hps, List.flatten_nil]
      by_cases hc : c = '\n' <;> simp [consPiece, hc]
    | cons p ps =>
      have hne : cs ≠ [] := by
        rintro rfl
        simp at hps
      have hlast : (c :: cs).getLast? = cs.getLast? := by
        rw [List.getLast?_cons, List.getLast?_eq_some_getLast hne, Option.getD_some]
      rw [hps, List.length_cons] at ih
      simp only [hne, ne_eq, not_false_eq_true, true_and] at ih
      rw [hlast]
      by_cases hc : c = '\n'
      · simp only [consPiece, hc, if_true, List.length_cons, ih, beq_self_eq_true, ne_eq,
          reduceCtorEq, not_false_eq_true, true_and]
        omega
      · simp only [consPiece, hc, if_false, List.length_cons, ih, beq_iff_eq, ne_eq,
          reduceCtorEq, not_false_eq_true, true_and]
        omega

/-! ## Lines with their endings -/

/-- What ends a line. -/
inductive Ending
  | newline
  | crlf
  /-- The line ends with the source. -/
  | none
deriving DecidableEq, Repr

def Ending.text : Ending → String
  | .newline => "\n"
  | .crlf => "\r\n"
  | .none => ""

theorem Ending.text_inj {e e' : Ending} : e.text = e'.text ↔ e = e' := by
  cases e <;> cases e' <;> decide

/-- A line and its ending. -/
structure PhysicalLine where
  text : String
  ending : Ending
deriving DecidableEq, Repr

namespace PhysicalLine

variable {l m : PhysicalLine}

def written (l : PhysicalLine) : String := l.text ++ l.ending.text

/-- The line can be told from its ending. -/
structure Proper (l : PhysicalLine) : Prop where
  newline_not_mem : '\n' ∉ l.text.toList
  /-- A carriage return in front of a newline would be part of the ending. -/
  newline : l.ending = .newline → l.text.toList.getLast? ≠ some '\r'
  /-- The end of the source alone makes no line. -/
  none : l.ending = .none → l.text ≠ ""

instance (l : PhysicalLine) : Decidable l.Proper :=
  decidable_of_iff ('\n' ∉ l.text.toList ∧
      (l.ending = .newline → l.text.toList.getLast? ≠ some '\r') ∧
      (l.ending = .none → l.text ≠ ""))
    ⟨fun ⟨h₁, h₂, h₃⟩ => ⟨h₁, h₂, h₃⟩, fun ⟨h₁, h₂, h₃⟩ => ⟨h₁, h₂, h₃⟩⟩

theorem Proper.chomp_written (h : l.Proper) : chomp l.written.toList = l.text.toList := by
  obtain ⟨text, ending⟩ := l
  cases ending with
  | newline =>
    have hlast : text.toList.getLast? ≠ some '\r' := h.newline rfl
    simpa [written, Ending.text] using chomp_append_lf hlast
  | crlf => simpa [written, Ending.text] using chomp_append_crlf text.toList
  | none =>
    have hlast : text.toList.getLast? ≠ some '\n' :=
      fun hlast => h.newline_not_mem (List.mem_of_getLast? hlast)
    simpa [written, Ending.text] using chomp_of_getLast? hlast

/-- A line and its ending can be read off what is written. -/
theorem Proper.eq_of_written (hl : l.Proper) (hm : m.Proper) (h : l.written = m.written) :
    l = m := by
  have htext : l.text = m.text := by
    rw [← String.toList_inj, ← hl.chomp_written, ← hm.chomp_written, h]
  have hending : l.ending = m.ending := by
    rw [← Ending.text_inj]
    simpa [written, htext] using h
  obtain ⟨text, ending⟩ := l
  obtain ⟨text', ending'⟩ := m
  simp_all

/-- Any text up to and with a newline is a line and its ending. -/
theorem exists_proper_newline (h : '\n' ∉ x) :
    ∃ l : PhysicalLine, l.Proper ∧ l.ending ≠ .none ∧ l.written.toList = x ++ ['\n'] := by
  by_cases hlast : x.getLast? = some '\r'
  · obtain ⟨y, rfl⟩ := List.getLast?_eq_some_iff.1 hlast
    have hy : '\n' ∉ y := fun hmem => h (List.mem_append_left _ hmem)
    exact ⟨⟨String.ofList y, .crlf⟩, ⟨by simpa using hy, nofun, nofun⟩, nofun, by
      simp [written, Ending.text]⟩
  · exact ⟨⟨String.ofList x, .newline⟩, ⟨by simpa using h, fun _ => by simpa using hlast, nofun⟩,
      nofun, by simp [written, Ending.text]⟩

/-- What is written ends with its only newline, unless the line has no ending. -/
theorem Proper.exists_written (h : l.Proper) (he : l.ending ≠ .none) :
    ∃ x, '\n' ∉ x ∧ l.written.toList = x ++ ['\n'] := by
  obtain ⟨text, ending⟩ := l
  have htext : '\n' ∉ text.toList := h.newline_not_mem
  cases ending with
  | newline => exact ⟨text.toList, htext, by simp [written, Ending.text]⟩
  | crlf => exact ⟨text.toList ++ ['\r'], by simp [htext], by simp [written, Ending.text]⟩
  | none => exact absurd rfl he

end PhysicalLine

/-! ## Sources -/

variable {l : PhysicalLine} {ls ms : List PhysicalLine}

/-- Lines that can stand one below the other: only the last may have no ending. -/
structure ProperSource (ls : List PhysicalLine) : Prop where
  proper : ∀ l ∈ ls, l.Proper
  ended : ∀ l ∈ ls.dropLast, l.ending ≠ .none

instance (ls : List PhysicalLine) : Decidable (ProperSource ls) :=
  decidable_of_iff ((∀ l ∈ ls, l.Proper) ∧ ∀ l ∈ ls.dropLast, l.ending ≠ .none)
    ⟨fun ⟨h₁, h₂⟩ => ⟨h₁, h₂⟩, fun ⟨h₁, h₂⟩ => ⟨h₁, h₂⟩⟩

/-- The lines written one after the other. -/
def source (ls : List PhysicalLine) : String := String.join (ls.map (·.written))

theorem toList_source_cons (l : PhysicalLine) (ls : List PhysicalLine) :
    (source (l :: ls)).toList = l.written.toList ++ (source ls).toList := by
  simp [source, String.toList_join]

theorem properSource_nil : ProperSource [] := ⟨nofun, nofun⟩

theorem properSource_cons_iff :
    ProperSource (l :: ls) ↔ l.Proper ∧ (ls ≠ [] → l.ending ≠ .none) ∧ ProperSource ls := by
  constructor
  · rintro ⟨hproper, hended⟩
    refine ⟨hproper l (by simp), fun hne => hended l ?_, fun m hm => hproper m (by simp [hm]),
      fun m hm => hended m ?_⟩
    · simp [List.dropLast_cons_of_ne_nil hne]
    · have hne : ls ≠ [] := by
        rintro rfl
        simp at hm
      simp [List.dropLast_cons_of_ne_nil hne, hm]
  · rintro ⟨hl, hended, hls⟩
    refine ⟨fun m hm => ?_, fun m hm => ?_⟩
    · rcases List.mem_cons.1 hm with rfl | hm
      · exact hl
      · exact hls.proper m hm
    · have hne : ls ≠ [] := by
        rintro rfl
        simp at hm
      rw [List.dropLast_cons_of_ne_nil hne] at hm
      rcases List.mem_cons.1 hm with rfl | hm
      · exact hended hne
      · exact hls.ended m hm

/-- The pieces of a source are its lines with their endings. -/
theorem pieces_source (h : ProperSource ls) :
    pieces (source ls).toList = ls.map (·.written.toList) := by
  induction ls with
  | nil => rfl
  | cons l ls ih =>
    obtain ⟨hl, hended, hls⟩ := properSource_cons_iff.1 h
    rw [toList_source_cons, List.map_cons]
    by_cases he : l.ending = .none
    · obtain rfl : ls = [] := by
        by_contra hne
        exact hended hne he
      have hwritten : l.written = l.text := by simp [PhysicalLine.written, he, Ending.text]
      have hne : l.text.toList ≠ [] := by simpa using hl.none he
      rw [hwritten]
      simpa [source] using pieces_of_not_mem hne hl.newline_not_mem
    · obtain ⟨x, hx, hwritten⟩ := hl.exists_written he
      rw [hwritten, List.append_assoc, List.singleton_append, pieces_append_newline hx, ih hls]

theorem lines_source (h : ProperSource ls) : lines (source ls) = ls.map (·.text) := by
  rw [lines, pieces_source h, List.map_map]
  refine List.map_congr_left fun l hl => ?_
  simp [(h.proper l hl).chomp_written]

theorem eq_of_map_written (hl : ∀ l ∈ ls, l.Proper) (hm : ∀ m ∈ ms, m.Proper)
    (h : ls.map (·.written) = ms.map (·.written)) : ls = ms := by
  induction ls generalizing ms with
  | nil => simpa [eq_comm] using h
  | cons l ls ih =>
    cases ms with
    | nil => simp at h
    | cons m ms =>
      obtain ⟨hhead, htail⟩ := List.cons.inj h
      rw [(hl l (by simp)).eq_of_written (hm m (by simp)) hhead,
        ih (fun x hx => hl x (by simp [hx])) (fun x hx => hm x (by simp [hx])) htail]

/-- A source is written in one way only: its pieces are known, and so are the lines in them. -/
theorem source_injective (hl : ProperSource ls) (hm : ProperSource ms)
    (h : source ls = source ms) : ls = ms := by
  refine eq_of_map_written hl.proper hm.proper ?_
  have hpieces := pieces_source hl
  rw [h, pieces_source hm] at hpieces
  have hwritten := congrArg (List.map String.ofList) hpieces
  simpa [Function.comp_def] using hwritten.symm

/-- Every text is a source: what stands up to the first newline is a line, and the rest a source. -/
theorem exists_source (cs : List Char) : ∃ ls, ProperSource ls ∧ (source ls).toList = cs := by
  by_cases hmem : '\n' ∈ cs
  · obtain ⟨x, rest, hcs, hx⟩ := List.eq_append_cons_of_mem hmem
    obtain ⟨l, hl, he, hwritten⟩ := PhysicalLine.exists_proper_newline hx
    have : rest.length < cs.length := by simp [hcs]; omega
    obtain ⟨ls, hls, hsource⟩ := exists_source rest
    refine ⟨l :: ls, properSource_cons_iff.2 ⟨hl, fun _ => he, hls⟩, ?_⟩
    rw [toList_source_cons, hwritten, hsource, hcs, List.append_assoc, List.singleton_append]
  · by_cases hnil : cs = []
    · exact ⟨[], properSource_nil, by rw [hnil]; rfl⟩
    · have hl : PhysicalLine.Proper ⟨String.ofList cs, .none⟩ :=
        ⟨by simpa using hmem, nofun, fun _ => by simpa using hnil⟩
      refine ⟨[⟨String.ofList cs, .none⟩],
        properSource_cons_iff.2 ⟨hl, fun hne => absurd rfl hne, properSource_nil⟩, ?_⟩
      simp [source, PhysicalLine.written, Ending.text]
termination_by cs.length

/-! ## What the lines are like -/

theorem newline_not_mem_of_mem_lines {script line : String} (h : line ∈ lines script) :
    '\n' ∉ line.toList := by
  obtain ⟨ls, hls, hsource⟩ := exists_source script.toList
  rw [← String.toList_inj.1 hsource, lines_source hls] at h
  obtain ⟨l, hl, rfl⟩ := List.mem_map.1 h
  exact (hls.proper l hl).newline_not_mem

/-- A line has no ending left to drop. -/
theorem dropEnding_of_mem_lines {script line : String} (h : line ∈ lines script) :
    dropEnding line = line := by
  have hlast : line.toList.getLast? ≠ some '\n' :=
    fun hlast => newline_not_mem_of_mem_lines h (List.mem_of_getLast? hlast)
  rw [dropEnding, chomp_of_getLast? hlast, String.ofList_toList]

/-- Lines written with their endings are read back, and there is exactly one way to write any text
so. Hence no line holds a newline or an ending, and there is a line to every newline, and one more
if something follows the last. -/
theorem lines_source_unique :
    (∀ ls, ProperSource ls → lines (source ls) = ls.map (·.text)) ∧
    (∀ script, ∃! ls, ProperSource ls ∧ source ls = script) ∧
    ∀ script, (∀ line ∈ lines script, '\n' ∉ line.toList ∧ dropEnding line = line) ∧
      (lines script).length = script.toList.count '\n' +
        if script ≠ "" ∧ script.toList.getLast? ≠ some '\n' then 1 else 0 := by
  refine ⟨fun ls hls => lines_source hls, fun script => ?_,
    fun script => ⟨fun line hline => ?_, ?_⟩⟩
  · obtain ⟨ls, hls, hsource⟩ := exists_source script.toList
    have hsource := String.toList_inj.1 hsource
    refine ⟨ls, ⟨hls, hsource⟩, ?_⟩
    rintro ms ⟨hms, hms'⟩
    exact source_injective hms hls (hms'.trans hsource.symm)
  · exact ⟨newline_not_mem_of_mem_lines hline, dropEnding_of_mem_lines hline⟩
  · have hlength := length_pieces script.toList
    simpa [lines] using hlength

/-- Lines that end in carriage returns, one of them without an ending, and a blank one. -/
theorem lines_source_returns :
    ProperSource [⟨"a\r", .crlf⟩, ⟨"", .newline⟩, ⟨"\rb", .newline⟩, ⟨"c\r", .none⟩] ∧
      lines "a\r\r\n\n\rb\nc\r" = ["a\r", "", "\rb", "c\r"] := by
  have hls : ProperSource [⟨"a\r", .crlf⟩, ⟨"", .newline⟩, ⟨"\rb", .newline⟩, ⟨"c\r", .none⟩] := by
    decide
  have hsource : source [⟨"a\r", .crlf⟩, ⟨"", .newline⟩, ⟨"\rb", .newline⟩, ⟨"c\r", .none⟩] =
      "a\r\r\n\n\rb\nc\r" := by decide
  exact ⟨hls, hsource ▸ lines_source_unique.1 _ hls⟩

end LineLexer.Text
